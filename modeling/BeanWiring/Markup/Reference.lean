import BeanWiring.Text.Offset

/-!
References in character data: named characters and character numbers between an ampersand and a
semicolon.
-/

namespace BeanWiring

/-- The reasons for which a character number is refused. -/
inductive NumberFault where
  | sign
  | empty
  | digit
  | tooLarge
  | zero
  | notCharacter (number : Nat)
deriving DecidableEq, Repr

/-- The reasons for which a text with references cannot be read. -/
inductive ReferenceFault where
  /-- No semicolon closes the ampersand at an offset, in a text of some length. -/
  | unterminated (start length : Nat)
  | number (fault : NumberFault)
  /-- The name between two offsets is not a known one. -/
  | unknown (start stop : Nat) (name : String)
deriving DecidableEq, Repr

/-- The wording of a refused character number. -/
def NumberFault.message : NumberFault → String
  | .sign => "unexpected number sign"
  | .empty => "cannot parse integer from empty string"
  | .digit => "invalid digit found in string"
  | .tooLarge => "number too large to fit in target type"
  | .zero => "0x0 character is not permitted in XML"
  | .notCharacter number => s!"`{number}` is not a valid codepoint"

/-- The wording of a text that cannot be read. -/
def ReferenceFault.message : ReferenceFault → String
  | .unterminated start length =>
    s!"Error while escaping character at range {start}..{length}: Cannot find ';' after '&'"
  | .number fault => "invalid character reference: " ++ fault.message
  | .unknown start stop name => s!"at {start}..{stop}: unrecognized entity `{name}`"

/-- The value of a digit in a base up to sixteen, in either case. -/
def digitValue? (base : Nat) (c : Char) : Option Nat :=
  let value :=
    if '0' ≤ c && c ≤ '9' then some (c.toNat - '0'.toNat)
    else if 'a' ≤ c && c ≤ 'f' then some (c.toNat - 'a'.toNat + 10)
    else if 'A' ≤ c && c ≤ 'F' then some (c.toNat - 'A'.toNat + 10)
    else none
  value.filter fun digit => digit < base

/-- Numbers of characters are read into 32 bits. -/
def numberBound : Nat := Nat.pow 2 32

/-- Reads digits from the left; the first one that is none, or that passes the bound, decides. -/
def readDigits (base : Nat) (value : Nat) : List Char → Except NumberFault Nat
  | [] => .ok value
  | c :: rest =>
    match digitValue? base c with
    | none => .error .digit
    | some digit =>
      -- The bound is judged before the next digit is looked at.
      let next := value * base + digit
      if next < numberBound then readDigits base next rest else .error .tooLarge

/--
The number a reference gives after its number sign: hexadecimal after a small x, else decimal.
-/
def readNumber (digits : List Char) : Except NumberFault Nat :=
  let (base, digits) :=
    match digits with
    | 'x' :: rest => (16, rest)
    | _ => (10, digits)
  -- No sign may stand before the digits, and there has to be one.
  match digits with
  | [] => .error .empty
  | '+' :: _ => .error .sign
  | '-' :: _ => .error .sign
  | _ => readDigits base 0 digits

/-- The character of a number; surrogates, numbers past the last plane and zero have none. -/
def characterOf (number : Nat) : Except NumberFault Char :=
  if number = 0 then .error .zero
  else if number.isValidChar then .ok (Char.ofNat number)
  else .error (.notCharacter number)

/-- The predefined names of characters. -/
def namedCharacter? : List Char → Option Char
  | ['l', 't'] => some '<'
  | ['g', 't'] => some '>'
  | ['a', 'm', 'p'] => some '&'
  | ['a', 'p', 'o', 's'] => some '\''
  | ['q', 'u', 'o', 't'] => some '"'
  | _ => none

/--
The character a reference stands for, given the text between ampersand and semicolon and its
offset.
-/
def referenced (start : Nat) (body : List Char) : Except ReferenceFault Char :=
  match body with
  | '#' :: digits => (readNumber digits >>= characterOf).mapError .number
  | _ =>
    match namedCharacter? body with
    | some c => .ok c
    | none => .error (.unknown start (start + byteLength body) (String.ofList body))

/--
Whether a character ends the body of a reference: its semicolon,
or the start of another reference.
-/
def endsBody (c : Char) : Bool :=
  c == '&' || c == ';'

/--
Replaces the references of a text from an offset on, where the whole text has the given length.
-/
def unescapeFrom (length offset : Nat) (text : List Char) : Except ReferenceFault (List Char) :=
  match text with
  | [] => .ok []
  | '&' :: tail =>
    -- A reference goes from the ampersand up to the next semicolon or the next ampersand.
    let body := tail.takeWhile fun c => !endsBody c
    match after : tail.dropWhile fun c => !endsBody c with
    | ';' :: rest => do
      let c ← referenced (offset + 1) body
      let others ← unescapeFrom length (offset + byteLength body + 2) rest
      return c :: others
    | _ => .error (.unterminated offset length)
  | c :: tail => do
    let others ← unescapeFrom length (offset + c.utf8Size) tail
    return c :: others
termination_by text.length
decreasing_by
  · -- Past the semicolon there is less than there was after the ampersand.
    have shorter := (List.dropWhile_sublist (l := tail) fun c => !endsBody c).length_le
    simp only [after, List.length_cons] at shorter ⊢
    omega
  · simp

/-- A text with its references replaced; the first fault is the only one told. -/
def unescape (text : List Char) : Except ReferenceFault (List Char) :=
  unescapeFrom (byteLength text) 0 text

end BeanWiring
