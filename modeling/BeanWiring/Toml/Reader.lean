import BeanWiring.Toml.Number

/-! Reading configuration files: values, and lines that open tables or set keys. -/

namespace BeanWiring.Toml

mutual

/-- Reads a value at a depth of nesting; the number of steps bounds the recursion. -/
def readValue (depth : Nat) : Nat → List Char → Option (Toml × List Char)
  | 0, _ => none
  | steps + 1, text =>
    match text with
    | '"' :: _ | '\'' :: _ => (readText text).map fun (value, rest) => (.string value, rest)
    | '[' :: rest =>
      if depth + 1 ≥ nestingBound then none
      else (readItems (depth + 1) steps rest).map fun (items, rest) => (.list items, rest)
    -- Lists and tables may be nested up to a bound.
    | '\x7b' :: rest =>
      if depth + 1 ≥ nestingBound then none
      else
        match skipSpace rest with
        | '\x7d' :: rest => some (.table .inline [], rest)
        | rest =>
          (readPairs (depth + 1) steps {} rest).map fun (closed, rest) =>
            (.table .inline closed.entries, rest)
    | 't' :: 'r' :: 'u' :: 'e' :: rest => some (.bool true, rest)
    | 'f' :: 'a' :: 'l' :: 's' :: 'e' :: rest => some (.bool false, rest)
    | _ => readNumber text

/-- Reads the items of a list up to its closing bracket; a comma may follow the last one. -/
def readItems (depth : Nat) : Nat → List Char → Option (List Toml × List Char)
  | 0, _ => none
  | steps + 1, text => do
    let front ← skipGaps false text
    match front with
    | ']' :: rest => return ([], rest)
    | _ =>
      -- Behind an item comes a comma or the end.
      let (item, behind) ← readValue depth steps front
      let next ← skipGaps false behind
      match next with
      | ',' :: rest =>
        let (items, rest) ← readItems depth steps rest
        return (item :: items, rest)
      | ']' :: rest => return ([item], rest)
      | _ => none

/-- Reads the keys and values of a table written as one value, up to its closing bracket. -/
def readPairs (depth : Nat) : Nat → TomlTable → List Char → Option (TomlTable × List Char)
  | 0, _, _ => none
  | steps + 1, known, text => do
    let ((path, name), behind) ← readKey text
    let front ← pass? '=' behind
    let (value, behind) ← readValue depth steps (skipSpace front)
    -- A comma has to be followed by another pair.
    let grown ← known.assign path name value
    match skipSpace behind with
    | ',' :: rest => readPairs depth steps grown rest
    | '\x7d' :: rest => return (grown, rest)
    | _ => none

end

/-- Reads a key and its value, which end with their line. -/
def readAssignment (steps : Nat) : Scan ((List String × String) × Toml) := fun text => do
  let (key, behind) ← readKey text
  let front ← pass? '=' behind
  let (value, behind) ← readValue 0 steps (skipSpace front)
  return ((key, value), ← passLine? behind)

/-- Reads lines into a table, under the header that was opened last. -/
def readLines : Nat → List String → TomlTable → List Char → Option TomlTable
  | 0, _, _, _ => none
  | steps + 1, header, root, text =>
    match skipSpace text with
    | [] => some root
    | '[' :: '[' :: rest => do
      let ((path, name), behind) ← readKey rest
      let rest ← passLine? (← pass? ']' (← pass? ']' behind))
      readLines steps (path ++ [name]) (← root.openItem path name) rest
    | '[' :: rest => do
      let ((path, name), behind) ← readKey rest
      let rest ← passLine? (← pass? ']' behind)
      readLines steps (path ++ [name]) (← root.openTable path name) rest
    | c :: rest =>
      if c = '#' ∨ c = '\n' ∨ c = '\r' then
        -- A comment or an empty line sets nothing.
        (passLine? (c :: rest)).bind (readLines steps header root)
      else do
        let (((path, name), value), rest) ← readAssignment steps (c :: rest)
        readLines steps header (← root.assignUnder header path name value) rest

/--
Reads a whole file; every step passes a character, so there are no more steps than characters.
-/
def parse? (content : String) : Option TomlTable :=
  let text :=
    match content.toList with
    | '\ufeff' :: rest => rest
    | whole => whole
  readLines (text.length + 1) [] {} text

end BeanWiring.Toml
