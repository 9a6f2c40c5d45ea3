import BeanWiring.Entries

/-!
Plain data as objects, lists and texts: its written form,
and the records and choices read from it.
-/

namespace BeanWiring

/-- Plain data; the fields of an object are kept in order, and a number as it is written. -/
inductive Json where
  | null
  | bool (value : Bool)
  | number (literal : String)
  | text (value : String)
  | list (items : List Json)
  | object (fields : List (String × Json))
deriving Inhabited, Repr

namespace Json

/-- The text of a text value. -/
def text? : Json → Option String
  | .text value => some value
  | _ => none

/-- The items of a list. -/
def list? : Json → Option (List Json)
  | .list items => some items
  | _ => none

/--
The fields of a record, in the order of the given keys.

A record is an object, whose other fields are ignored, or the list of exactly its fields.
-/
def record? (keys : List String) : Json → Option (List (Option Json))
  | .object fields => some (keys.map fun key => Entries.get? key fields)
  | .list items => if items.length = keys.length then some (items.map some) else none
  | _ => none

/--
A choice is the name of one of several cases,
or an object that holds that name with nothing under it.
-/
def choice? : Json → Option String
  | .text name => some name
  | .object [(name, .null)] => some name
  | _ => none

/-- The fields of an object are smaller than the object. -/
theorem sizeOf_get?_lt {key : String} {fields : List (String × Json)} {value : Json}
    (found : Entries.get? key fields = some value) : sizeOf value < sizeOf fields := by
  induction fields with
  | nil => simp [Entries.get?] at found
  | cons entry rest ih =>
    obtain ⟨known, first⟩ := entry
    simp only [Entries.get?] at found
    split at found
    · -- The value is the one of the first entry.
      simp only [Option.some.injEq] at found
      subst found
      simp only [List.cons.sizeOf_spec, Prod.mk.sizeOf_spec]
      omega
    · have smaller := ih found
      simp only [List.cons.sizeOf_spec]
      omega

/-- The fields of a record are smaller than the record. -/
theorem sizeOf_record?_lt {keys : List String} {json value : Json} {fields : List (Option Json)}
    (read : json.record? keys = some fields) (member : some value ∈ fields) :
    sizeOf value < sizeOf json := by
  cases json with
  | object entries =>
    simp only [record?, Option.some.injEq] at read
    subst read
    obtain ⟨key, -, found⟩ := List.mem_map.1 member
    have smaller := sizeOf_get?_lt found
    simp only [object.sizeOf_spec]
    omega
  | list items =>
    simp only [record?] at read
    split at read
    · -- The fields are the items of the list themselves.
      simp only [Option.some.injEq] at read
      subst read
      simp only [List.mem_map, Option.some.injEq, exists_eq_right] at member
      have smaller := List.sizeOf_lt_of_mem member
      simp only [list.sizeOf_spec]
      omega
    · simp at read
  | null => simp [record?] at read
  | bool => simp [record?] at read
  | number => simp [record?] at read
  | text => simp [record?] at read

/-- A digit of a number in base sixteen, in small letters. -/
def hexDigit (value : Nat) : Char :=
  if value < 10 then Char.ofNat ('0'.toNat + value) else Char.ofNat ('a'.toNat + (value - 10))

/-- A character inside quotes: quotes, backslashes and control characters are escaped. -/
def escapeChar (c : Char) : List Char :=
  if c = '"' then ['\\', '"']
  else if c = '\\' then ['\\', '\\']
  -- Five control characters have a letter of their own, the others are told by their number.
  else if c = '\n' then ['\\', 'n']
  else if c = '\r' then ['\\', 'r']
  else if c = '\t' then ['\\', 't']
  else if c = '\x08' then ['\\', 'b']
  else if c = '\x0c' then ['\\', 'f']
  else if c.toNat < 0x20 then
    ['\\', 'u', '0', '0', hexDigit (c.toNat / 16), hexDigit (c.toNat % 16)]
  else [c]

/-- A text in quotes. -/
def quote (text : String) : String :=
  String.ofList ('"' :: text.toList.flatMap escapeChar ++ ['"'])

/-- A new line at a depth of nesting, two blanks for each level. -/
def newLine (depth : Nat) : String :=
  String.ofList ('\n' :: List.replicate (2 * depth) ' ')

mutual

/--
The written form at a depth of nesting: one item or field a line,
and nothing inside empty brackets.
-/
def render (depth : Nat) : Json → String
  | .null => "null"
  | .bool value => if value then "true" else "false"
  | .number literal => literal
  | .text value => quote value
  | .list [] => "[]"
  -- Brackets around something stand on lines of their own.
  | .list (item :: items) =>
    "[" ++ newLine (depth + 1) ++ render (depth + 1) item ++ renderItems (depth + 1) items ++
      newLine depth ++ "]"
  | .object [] => "\x7b\x7d"
  | .object ((key, value) :: fields) =>
    "\x7b" ++ newLine (depth + 1) ++ quote key ++ ": " ++ render (depth + 1) value ++
      renderFields (depth + 1) fields ++ newLine depth ++ "\x7d"

/-- The items after the first, each behind a comma. -/
def renderItems (depth : Nat) : List Json → String
  | [] => ""
  | item :: items => "," ++ newLine depth ++ render depth item ++ renderItems depth items

/-- The fields after the first, each behind a comma. -/
def renderFields (depth : Nat) : List (String × Json) → String
  | [] => ""
  | (key, value) :: fields =>
    "," ++ newLine depth ++ quote key ++ ": " ++ render depth value ++ renderFields depth fields

end

end Json

end BeanWiring
