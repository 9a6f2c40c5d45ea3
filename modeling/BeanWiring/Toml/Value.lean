import BeanWiring.Entries

/-!
Configuration values, and the rules by which tables grow.

A table may be opened once by its header, extended by headers below it, and extended by dotted keys
only if dotted keys made it. A key is set once.
-/

namespace BeanWiring

/-- How a table came into being, which decides who may add to it. -/
inductive TableKind where
  /-- Opened by a header of its own, or an item of a list of tables. -/
  | headed
  /-- Implied by the header of a table below it. -/
  | implied
  /-- Made by a dotted key. -/
  | dotted
  /-- Written as one value, and closed with it. -/
  | inline
deriving DecidableEq, Repr, Inhabited

/--
A configuration value. Numbers with a fraction and moments in time are told apart, but not kept.
-/
inductive Toml where
  | string (value : String)
  | integer (value : Int)
  | float
  | bool (value : Bool)
  | moment
  | list (items : List Toml)
  | table (kind : TableKind) (entries : List (String × Toml))
  /-- A list of tables, each item with a header of its own. -/
  | tables (items : List (List (String × Toml)))
deriving Inhabited, Repr

/-- A table with what it is told apart by. -/
structure TomlTable where
  kind : TableKind := .headed
  entries : List (String × Toml) := []
deriving Inhabited, Repr

namespace TomlTable

/-- The table as a value. -/
def toValue (table : TomlTable) : Toml :=
  .table table.kind table.entries

/-- The table with a value under a key. -/
def put (table : TomlTable) (key : String) (value : Toml) : TomlTable :=
  { table with entries := Entries.set key value table.entries }

/--
Changes the table at the end of a path, and makes the tables on the way that are missing.

A list of tables is entered at its last item. Dotted keys do not enter a table that has a header.
-/
def descend (dotted : Bool) (change : TomlTable → Option TomlTable) :
    List String → TomlTable → Option TomlTable
  | [], table => change table
  | key :: path, table =>
    match Entries.get? key table.entries with
    | none =>
      (descend dotted change path ⟨if dotted then .dotted else .implied, []⟩).map fun child =>
        table.put key child.toValue
    | some (.table kind entries) =>
      if kind = .inline ∨ (dotted ∧ kind = .headed) then none
      else
        (descend dotted change path ⟨kind, entries⟩).map fun child => table.put key child.toValue
    -- In a list of tables the last one is meant.
    | some (.tables items) =>
      match items.getLast? with
      | none => none
      | some last =>
        (descend dotted change path ⟨.headed, last⟩).map fun child =>
          table.put key (.tables (items.dropLast ++ [child.entries]))
    | some _ => none

/-- Opens the table of a header: it must be new, or implied so far. -/
def openTable (table : TomlTable) (path : List String) (name : String) : Option TomlTable :=
  descend false
    (fun parent =>
      match Entries.get? name parent.entries with
      | none => some (parent.put name (.table .headed []))
      | some (.table .implied entries) => some (parent.put name (.table .headed entries))
      | some _ => none)
    path table

/-- Opens the next item of a list of tables. -/
def openItem (table : TomlTable) (path : List String) (name : String) : Option TomlTable :=
  descend false
    (fun parent =>
      match Entries.get? name parent.entries with
      | none => some (parent.put name (.tables [[]]))
      | some (.tables items) => some (parent.put name (.tables (items ++ [[]])))
      | some _ => none)
    path table

/-- Sets a key that is not set yet; a dotted key ends in a table that dotted keys made. -/
def assign (table : TomlTable) (path : List String) (name : String) (value : Toml) :
    Option TomlTable :=
  descend true
    (fun parent =>
      if path ≠ [] ∧ parent.kind ≠ .dotted then none
      else if (Entries.get? name parent.entries).isSome then none
      else some (parent.put name value))
    path table

/-- Sets a key in the table that a header opened. -/
def assignUnder (table : TomlTable) (header path : List String) (name : String) (value : Toml) :
    Option TomlTable :=
  descend false (fun opened => opened.assign path name value) header table

end TomlTable

end BeanWiring
