import BeanWiring.Toml.Text
import BeanWiring.Toml.Value

/-! Numbers and moments in time of configuration files. -/

namespace BeanWiring.Toml

/-- Reads a fixed number of decimal digits. -/
def readDigits : Nat → Scan Nat
  | 0, text => some (0, text)
  | count + 1, text =>
    match text with
    | c :: rest => do
      let digit ← digitValue? 10 c
      let (others, rest) ← readDigits count rest
      return (digit * 10 ^ count + others, rest)
    | [] => none

/-- Passes a character that has to stand at the front. -/
def pass? (wanted : Char) : List Char → Option (List Char)
  | c :: rest => if c = wanted then some rest else none
  | [] => none

/-- The number of days in a month; February has one more in leap years. -/
def daysIn (year month : Nat) : Nat :=
  if month = 2 then
    if year % 4 = 0 ∧ (year % 100 ≠ 0 ∨ year % 400 = 0) then 29 else 28
  else if month = 4 ∨ month = 6 ∨ month = 9 ∨ month = 11 then 30
  else 31

/-- Passes a date that the calendar has. -/
def passDate? (text : List Char) : Option (List Char) := do
  let (year, rest) ← readDigits 4 text
  let (month, rest) ← readDigits 2 (← pass? '-' rest)
  let (day, rest) ← readDigits 2 (← pass? '-' rest)
  if 1 ≤ month ∧ month ≤ 12 ∧ 1 ≤ day ∧ day ≤ daysIn year month then some rest else none

/-- Passes hours and minutes. -/
def passHourMinute? (text : List Char) : Option (List Char) := do
  let (hour, rest) ← readDigits 2 text
  let (minute, rest) ← readDigits 2 (← pass? ':' rest)
  if hour ≤ 23 ∧ minute ≤ 59 then some rest else none

/-- Passes a time of day, whose seconds may be a leap second and may have a fraction. -/
def passTime? (text : List Char) : Option (List Char) := do
  let rest ← passHourMinute? text
  let (second, rest) ← readDigits 2 (← pass? ':' rest)
  if second > 60 then none
  else
    match rest with
    | '.' :: fraction =>
      if fraction.head?.any Char.isDigit then some (fraction.dropWhile Char.isDigit) else some rest
    | _ => some rest

/-- Passes the offset from universal time, if there is one. -/
def passOffset (text : List Char) : List Char :=
  match text with
  | 'Z' :: rest | 'z' :: rest => rest
  | '+' :: rest | '-' :: rest => (passHourMinute? rest).getD text
  | _ => text

/-- Passes a date, a time, or both with or without an offset. -/
def passMoment? (text : List Char) : Option (List Char) :=
  match passDate? text with
  | none => passTime? text
  | some rest =>
    match rest with
    | c :: behind =>
      if c = 'T' ∨ c = 't' ∨ c = ' ' then some (((passTime? behind).map passOffset).getD rest)
      else some rest
    | [] => some rest

/-- The digits at the front of a text; an underscore may stand between two of them. -/
def digitRun (isDigit : Char → Bool) : List Char → List Char × List Char
  -- An underscore may stand between two digits only.
  | '_' :: d :: rest =>
    if isDigit d then
      let (others, rest) := digitRun isDigit rest
      (d :: others, rest)
    else ([], '_' :: d :: rest)
  | c :: rest =>
    if isDigit c then
      let (others, rest) := digitRun isDigit rest
      (c :: others, rest)
    else ([], c :: rest)
  | [] => ([], [])

/-- Reads digits, the first of which has no underscore before it. -/
def readRun (isDigit : Char → Bool) : Scan (List Char)
  | c :: rest =>
    if isDigit c then
      let (others, rest) := digitRun isDigit rest
      some (c :: others, rest)
    else none
  | [] => none

/-- Reads a sign, which is positive if there is none. -/
def readSign : List Char → Bool × List Char
  | '-' :: rest => (true, rest)
  | '+' :: rest => (false, rest)
  | text => (false, text)

/-- Reads a decimal number without superfluous zeros at its front. -/
def readDecimal : Scan (List Char)
  | '0' :: rest => some (['0'], rest)
  | text => readRun Char.isDigit text

/-- The number that digits of a base make. -/
def numberOf (base : Nat) (digits : List Char) : Nat :=
  digits.foldl (fun number c => number * base + (digitValue? base c).getD 0) 0

/-- The first decimal that is not nearer to a finite number of 64 bits than to infinity. -/
def overflowBound : Nat := Nat.pow 2 1024 - Nat.pow 2 970

/-- Whether digits and a power of ten reach a bound that has 309 digits. -/
def overflows (digits : List Char) (exponent : Int) : Bool :=
  -- Far from the bound the count of digits decides, and no huge power is computed.
  let number := numberOf 10 digits
  let magnitude := (Nat.repr number).length + exponent
  if number = 0 then false
  else if magnitude > 310 then true
  else if magnitude < 308 then false
  else if exponent ≥ 0 then number * Nat.pow 10 exponent.toNat ≥ overflowBound
  else number ≥ overflowBound * Nat.pow 10 (-exponent).toNat

/-- Reads the exponent of a number, if there is one. -/
def readExponent : Scan Int
  | 'e' :: rest | 'E' :: rest => do
    let (negative, rest) := readSign rest
    let (digits, rest) ← readRun Char.isDigit rest
    return (if negative then -(numberOf 10 digits : Int) else numberOf 10 digits, rest)
  | _ => none

/-- Reads the fraction of a number, if there is one. -/
def readFraction : Scan (List Char)
  | '.' :: rest => readRun Char.isDigit rest
  | _ => none

/--
Passes a number with a fraction or an exponent, unless it is too large; a negative one never is.
-/
def passFloat? (text : List Char) : Option (List Char) := do
  let (negative, unsigned) := readSign text
  let (whole, rest) ← readDecimal unsigned
  let (fraction, afterFraction) := (readFraction rest).getD ([], rest)
  let (exponent, afterExponent) := (readExponent afterFraction).getD (0, afterFraction)
  -- A number with neither a fraction nor an exponent is an integer.
  if fraction.isEmpty ∧ (readExponent afterFraction).isNone then none
  else if !negative && overflows (whole ++ fraction) (exponent - fraction.length) then none
  else some afterExponent

/-- Passes infinity or a number that is none, with or without a sign. -/
def passSpecial? (text : List Char) : Option (List Char) :=
  match (readSign text).2 with
  | 'i' :: 'n' :: 'f' :: rest => some rest
  | 'n' :: 'a' :: 'n' :: rest => some rest
  | _ => none

/-- Integers have 64 bits with a sign. -/
def integerOf? (value : Int) : Option Int :=
  if -Int.pow 2 63 ≤ value ∧ value < Int.pow 2 63 then some value else none

/-- Reads an integer in base sixteen, eight or two behind its mark, or else in base ten. -/
def readInteger : Scan Int
  | '0' :: 'x' :: rest => readBase 16 rest
  | '0' :: 'o' :: rest => readBase 8 rest
  | '0' :: 'b' :: rest => readBase 2 rest
  | text => do
    let (negative, unsigned) := readSign text
    let (digits, rest) ← readDecimal unsigned
    let number : Int := numberOf 10 digits
    return (← integerOf? (if negative then -number else number), rest)
where
  /-- Reads the digits behind the mark of a base. -/
  readBase (base : Nat) : Scan Int := fun text => do
    let (digits, rest) ← readRun (fun c => (digitValue? base c).isSome) text
    return (← integerOf? (numberOf base digits), rest)

/-- Reads a number or a moment in time. -/
def readNumber (text : List Char) : Option (Toml × List Char) :=
  -- Moments begin with digits as numbers do, and numbers with a fraction as those without.
  match passMoment? text, passFloat? text, passSpecial? text with
  | some rest, _, _ => some (.moment, rest)
  | none, some rest, _ => some (.float, rest)
  | none, none, some rest => some (.float, rest)
  | none, none, none => (readInteger text).map fun (value, rest) => (.integer value, rest)

end BeanWiring.Toml
