import BeanWiring.Markup.Reference

/-!
The texts of configuration files: white space, comments,
keys and the four kinds of quoted texts.
-/

namespace BeanWiring

/-- What is read from the front of a text, with the rest, if the front has the form. -/
abbrev Scan (α : Type) := List Char → Option (α × List Char)

namespace Toml

/-- Blank and tab are the white space inside a line. -/
def isSpace (c : Char) : Bool :=
  c == ' ' || c == '\t'

/-- Skips white space inside a line. -/
def skipSpace (text : List Char) : List Char :=
  text.dropWhile isSpace

/-- Characters that may stand in a comment or a text: no control characters but the tab. -/
def isPlain (c : Char) : Bool :=
  c == '\t' || (c.toNat ≥ 0x20 && c.toNat ≠ 0x7F)

/-- Passes a line end, which is a line feed with or without a carriage return before it. -/
def passLineEnd? : List Char → Option (List Char)
  | '\n' :: rest => some rest
  | '\r' :: '\n' :: rest => some rest
  | _ => none

/--
Passes what may follow on a line: white space, a comment,
and the end of the line or of the text.
-/
def passLine? (text : List Char) : Option (List Char) :=
  let behind :=
    match skipSpace text with
    | '#' :: comment => comment.dropWhile isPlain
    | others => others
  match behind with
  | [] => some []
  | _ => passLineEnd? behind

/--
Skips white space, line ends and comments, as they may stand in a list;
a comment has to end with its line.
-/
def skipGaps (inComment : Bool) : List Char → Option (List Char)
  | [] => if inComment then none else some []
  -- Two characters may end one line.
  | '\r' :: '\n' :: rest => skipGaps false rest
  | c :: rest =>
    if c = '\n' then skipGaps false rest
    else if inComment then if isPlain c then skipGaps true rest else none
    else if isSpace c then skipGaps false rest
    else if c = '#' then skipGaps true rest
    else some (c :: rest)

/-- The character of hexadecimal digits, if they are digits and there is such a character. -/
def hexCharacter? (digits : List Char) : Option Char := do
  let values ← digits.mapM (digitValue? 16)
  let number := values.foldl (fun number digit => number * 16 + digit) 0
  if number.isValidChar then some (Char.ofNat number) else none

/-- The characters with an escape of one letter. -/
def escaped? : Char → Option Char
  | 'b' => some '\x08'
  | 't' => some '\t'
  | 'n' => some '\n'
  | 'f' => some '\x0c'
  | 'r' => some '\r'
  | '"' => some '"'
  | '\\' => some '\\'
  | _ => none

/-- Reads the character behind a backslash. -/
def readEscape : Scan Char
  | 'u' :: a :: b :: c :: d :: rest => (hexCharacter? [a, b, c, d]).map fun found => (found, rest)
  | 'U' :: a :: b :: c :: d :: e :: f :: g :: h :: rest =>
    (hexCharacter? [a, b, c, d, e, f, g, h]).map fun found => (found, rest)
  | c :: rest => (escaped? c).map fun found => (found, rest)
  | [] => none

/-- An escape has at least one character. -/
theorem readEscape_shorter {text rest : List Char} {c : Char}
    (read : readEscape text = some (c, rest)) : rest.length < text.length := by
  -- In each form the rest is a tail of the text.
  unfold readEscape at read
  split at read
  · obtain ⟨found, -, same⟩ := Option.map_eq_some_iff.1 read
    simp only [Prod.mk.injEq] at same
    simp only [← same.2, List.length_cons]
    omega
  · obtain ⟨found, -, same⟩ := Option.map_eq_some_iff.1 read
    simp only [Prod.mk.injEq] at same
    simp only [← same.2, List.length_cons]
    omega
  · obtain ⟨found, -, same⟩ := Option.map_eq_some_iff.1 read
    simp only [Prod.mk.injEq] at same
    simp only [← same.2, List.length_cons]
    omega
  · simp at read

/-- Reads a text up to its closing double quote, with escapes. -/
def readQuoted (text : List Char) : Option (List Char × List Char) :=
  match text with
  | [] => none
  | '"' :: rest => some ([], rest)
  -- A backslash escapes what stands behind it.
  | '\\' :: tail =>
    match _escape : readEscape tail with
    | none => none
    | some (c, rest) => (readQuoted rest).map fun (others, rest) => (c :: others, rest)
  | c :: rest =>
    if isPlain c then (readQuoted rest).map fun (others, rest) => (c :: others, rest) else none
termination_by text.length
decreasing_by
  · exact Nat.lt_succ_of_lt (readEscape_shorter _escape)
  · simp

/-- Reads a text up to its closing single quote; nothing is escaped. -/
def readLiteral : Scan (List Char)
  | [] => none
  | '\'' :: rest => some ([], rest)
  | c :: rest =>
    if isPlain c then (readLiteral rest).map fun (others, rest) => (c :: others, rest) else none

/-- Up to two quotes may stand before the three that close a text of several lines. -/
def closeLong (quote : Char) (rest : List Char) : List Char × List Char :=
  match rest with
  | a :: b :: others =>
    if a = quote ∧ b = quote then ([quote, quote], others)
    else if a = quote then ([quote], b :: others)
    else ([], rest)
  | [a] => if a = quote then ([quote], []) else ([], rest)
  | [] => ([], [])

/--
Reads a text of several lines up to three single quotes; a line end is a line feed in any case.
-/
def readLongLiteral : Scan (List Char)
  | [] => none
  | '\'' :: '\'' :: '\'' :: rest => some (closeLong '\'' rest)
  | '\r' :: '\n' :: rest => (readLongLiteral rest).map fun (others, rest) => ('\n' :: others, rest)
  | c :: rest =>
    if isPlain c || c == '\n' then
      (readLongLiteral rest).map fun (others, rest) => (c :: others, rest)
    else none

/-- Where reading a text of several lines stands with a backslash that ends a line. -/
inductive Joining where
  | none
  /-- Behind the backslash only white space came so far. -/
  | pending
  /-- The line has ended, and white space is passed over until something else comes. -/
  | passing
deriving DecidableEq, Repr

/-- Whether a text goes on with white space or a line end. -/
def startsBlank (text : List Char) : Bool :=
  text.head?.any fun c => isSpace c || c == '\n' || c == '\r'

/-- Reads a text of several lines up to three double quotes, with escapes and joined lines. -/
def readLong (joining : Joining) (text : List Char) : Option (List Char × List Char) :=
  match text with
  | [] => none
  | '\r' :: '\n' :: rest =>
    match joining with
    | .none => (readLong .none rest).map fun (others, rest) => ('\n' :: others, rest)
    | _ => readLong .passing rest
  | '"' :: '"' :: '"' :: rest => if joining = .pending then none else some (closeLong '"' rest)
  -- A backslash at the end of a line joins it with the next text, past all blanks.
  | '\\' :: tail =>
    if joining = .pending then none
    else if startsBlank tail then readLong .pending tail
    else
      match _escape : readEscape tail with
      | none => none
      | some (c, rest) => (readLong .none rest).map fun (others, rest) => (c :: others, rest)
  | c :: rest =>
    if c = '\n' then
      match joining with
      | .none => (readLong .none rest).map fun (others, rest) => (c :: others, rest)
      | _ => readLong .passing rest
    else if joining ≠ .none ∧ isSpace c then readLong joining rest
    else if joining = .pending then none
    else if isPlain c then (readLong .none rest).map fun (others, rest) => (c :: others, rest)
    else none
termination_by text.length
decreasing_by
  all_goals simp only [List.length_cons]
  · omega
  · omega
  · omega
  · -- An escape takes at least the character behind the backslash.
    exact Nat.lt_succ_of_lt (readEscape_shorter _escape)
  · omega
  · omega
  · omega
  · omega

/-- A line end directly behind the opening quotes is not part of the text. -/
def skipFirstLineEnd (text : List Char) : List Char :=
  (passLineEnd? text).getD text

/-- Reads a quoted text of any kind from its opening quotes on. -/
def readText : Scan String
  | '"' :: '"' :: '"' :: rest =>
    (readLong .none (skipFirstLineEnd rest)).map fun (text, rest) => (String.ofList text, rest)
  | '"' :: rest => (readQuoted rest).map fun (text, rest) => (String.ofList text, rest)
  | '\'' :: '\'' :: '\'' :: rest =>
    (readLongLiteral (skipFirstLineEnd rest)).map fun (text, rest) => (String.ofList text, rest)
  | '\'' :: rest => (readLiteral rest).map fun (text, rest) => (String.ofList text, rest)
  | _ => none

/-- The characters of a key without quotes. -/
def isBareKey (c : Char) : Bool :=
  c.isAlphanum || c == '_' || c == '-'

/-- Reads one part of a key: bare, or quoted on one line. -/
def readKeyPart : Scan String
  | '"' :: rest => (readQuoted rest).map fun (text, rest) => (String.ofList text, rest)
  | '\'' :: rest => (readLiteral rest).map fun (text, rest) => (String.ofList text, rest)
  | text =>
    let bare := text.takeWhile isBareKey
    if bare.isEmpty then none else some (String.ofList bare, text.dropWhile isBareKey)

/-- Nesting this deep, of dotted keys as of values, is refused. -/
def nestingBound : Nat := 80

/-- Reads the parts of a key, with white space around each. -/
def readKeyParts : Nat → Scan (List String)
  | 0, _ => none
  | limit + 1, text => do
    let (part, rest) ← readKeyPart (skipSpace text)
    match skipSpace rest with
    | '.' :: rest =>
      let (parts, rest) ← readKeyParts limit rest
      return (part :: parts, rest)
    | rest => return ([part], rest)

/-- Reads a key: the parts before the last, and the last. -/
def readKey : Scan (List String × String) := fun text => do
  let (parts, rest) ← readKeyParts (nestingBound - 1) text
  let name ← parts.getLast?
  return ((parts.dropLast, name), rest)

end Toml

end BeanWiring
