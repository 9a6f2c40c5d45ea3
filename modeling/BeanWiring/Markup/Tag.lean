import BeanWiring.Text.Blank
import BeanWiring.Text.Offset

/-! The inside of a tag: its name and its attributes, each read or refused on its own. -/

namespace BeanWiring

/-- What stands between the angle brackets of a tag, without the slash that ends an empty one. -/
structure Tag where
  content : List Char
deriving DecidableEq, Repr, Inhabited

/-- The reasons for which an attribute is refused, with byte offsets into the tag. -/
inductive AttributeFault where
  | keyWithoutValue (position : Nat)
  | duplicate (position previous : Nat)
  | missingValue (position : Nat)
  | unquotedValue (position : Nat)
  | missingQuote (position : Nat) (quote : Char)
deriving DecidableEq, Repr

/-- The wording of a refused attribute. -/
def AttributeFault.message : AttributeFault → String
  | .keyWithoutValue position =>
    s!"position {position}: attribute key must be directly followed by `=` or space"
  | .duplicate position previous =>
    s!"position {position}: duplicated attribute, previous declaration at position {previous}"
  | .missingValue position =>
    s!"position {position}: `=` must be followed by an attribute value"
  | .unquotedValue position =>
    s!"position {position}: attribute value must be enclosed in `\"` or `'`"
  | .missingQuote position quote =>
    s!"position {position}: missing closing quote `{quote}` in attribute value"

/-- An attribute as written: the value still holds its references. -/
structure RawAttribute where
  key : List Char
  value : List Char
deriving DecidableEq, Repr

/-- The white space at the front of a text takes as many bytes as it has characters. -/
def gapLength (text : List Char) : Nat :=
  byteLength (text.takeWhile isGap)

/-- The first character of a key, whatever it is, and all up to an equals sign or white space. -/
def keyEnd (c : Char) : Bool :=
  c == '=' || isGap c

/-- The place where a key occurred before. -/
def seenAt? (seen : List (List Char × Nat)) (key : List Char) : Option Nat :=
  (seen.find? fun entry => entry.1 == key).map (·.2)

/-- What dropping characters leaves is no longer than what was there. -/
theorem dropWhile_length_le (inClass : Char → Bool) (text : List Char) :
    (text.dropWhile inClass).length ≤ text.length :=
  (List.dropWhile_sublist _).length_le

/--
What reading one attribute gives: its outcome, the keys seen by then, and where reading goes on.
-/
structure AttributeStep where
  outcome : Except AttributeFault RawAttribute
  seen : List (List Char × Nat)
  position : Nat
  rest : List Char

/-- Passes over everything up to white space after a fault that stands at a position. -/
def AttributeStep.passOver (fault : AttributeFault) (seen : List (List Char × Nat))
    (position : Nat) (text : List Char) : AttributeStep where
  outcome := .error fault
  seen := seen
  position := position + byteLength (text.takeWhile fun c => !isGap c)
  rest := text.dropWhile fun c => !isGap c

/-- Reads a value, which begins at a position with the first character after the white space. -/
def readValue (seen : List (List Char × Nat)) (key : List Char) (position : Nat) :
    List Char → AttributeStep
  | [] => ⟨.error (.missingValue position), seen, position, []⟩
  | quote :: body =>
    -- The value ends at the next quote of the same kind.
    if quote = '"' ∨ quote = '\'' then
      let value := body.takeWhile fun c => c != quote
      let stop := position + 1 + byteLength value
      match body.dropWhile fun c => c != quote with
      | [] => ⟨.error (.missingQuote stop quote), seen, stop, []⟩
      | _ :: rest => ⟨.ok ⟨key, value⟩, seen, stop + 1, rest⟩
    else
      .passOver (.unquotedValue position) seen position (quote :: body)

/--
Reads the attribute whose key begins at a position with the given character.

A key counts as seen once it has an equals sign, even if its value is refused.
The value of a repeated key is passed over up to white space, quotes or not.
-/
def readAttribute (seen : List (List Char × Nat)) (start : Nat) (first : Char) (tail : List Char) :
    AttributeStep :=
  let key := first :: tail.takeWhile fun c => !keyEnd c
  let afterKey := tail.dropWhile fun c => !keyEnd c
  let signAt := start + byteLength key + gapLength afterKey
  match afterKey.dropWhile isGap with
  -- A key counts as seen from its sign on, whether or not a sound value follows.
  | '=' :: afterSign =>
    match seenAt? seen key with
    | some previous => .passOver (.duplicate start previous) seen signAt ('=' :: afterSign)
    | none =>
      readValue ((key, start) :: seen) key (signAt + 1 + gapLength afterSign)
        (afterSign.dropWhile isGap)
  | others => ⟨.error (.keyWithoutValue signAt), seen, signAt, others⟩

/-- A value takes no characters from outside the text it is read from. -/
theorem readValue_length_le (seen : List (List Char × Nat)) (key : List Char) (position : Nat)
    (text : List Char) : (readValue seen key position text).rest.length ≤ text.length := by
  cases text with
  | nil => simp [readValue]
  | cons quote body =>
    simp only [readValue]
    split
    · split
      · simp
      · -- Behind the closing quote stands less than the body of the value.
        rename_i rest closing
        have inBody := dropWhile_length_le (fun c => c != quote) body
        simp only [closing, List.length_cons] at inBody ⊢
        omega
    · exact dropWhile_length_le _ _

/-- Behind an attribute stands no more than stood behind the first character of its key. -/
theorem readAttribute_length_le (seen : List (List Char × Nat)) (start : Nat) (first : Char)
    (tail : List Char) : (readAttribute seen start first tail).rest.length ≤ tail.length := by
  have inKey := dropWhile_length_le (fun c => !keyEnd c) tail
  have inGap := dropWhile_length_le isGap (tail.dropWhile fun c => !keyEnd c)
  simp only [readAttribute]
  split
  · rename_i afterSign sign
    rw [sign, List.length_cons] at inGap
    split
    · -- A repeated key is passed over from its equals sign on.
      have inWord := dropWhile_length_le (fun c => !isGap c) ('=' :: afterSign)
      simp only [List.length_cons] at inWord
      simp only [AttributeStep.passOver]
      omega
    · have inValue := readValue_length_le
        ((first :: tail.takeWhile fun c => !keyEnd c, start) :: seen)
        (first :: tail.takeWhile fun c => !keyEnd c)
        (start + byteLength (first :: tail.takeWhile fun c => !keyEnd c) +
          gapLength (tail.dropWhile fun c => !keyEnd c) + 1 + gapLength afterSign)
        (afterSign.dropWhile isGap)
      have inSpace := dropWhile_length_le isGap afterSign
      omega
  · exact Nat.le_trans inGap inKey

/-- Reads the attributes from a position of the tag on; after a fault reading goes on behind it. -/
def attributesFrom (seen : List (List Char × Nat)) (position : Nat) (text : List Char) :
    List (Except AttributeFault RawAttribute) :=
  match _front : text.dropWhile isGap with
  | [] => []
  | first :: tail =>
    let step := readAttribute seen (position + gapLength text) first tail
    step.outcome :: attributesFrom step.seen step.position step.rest
termination_by text.length
decreasing_by
  -- The first character of the key is passed at least.
  have inFront := dropWhile_length_le isGap text
  have inRest := readAttribute_length_le seen (position + gapLength text) first tail
  rw [_front, List.length_cons] at inFront
  omega

namespace Tag

/-- The name runs to the first white space; it may be empty or hold any other characters. -/
def name (tag : Tag) : List Char :=
  tag.content.takeWhile fun c => !isGap c

/-- The attributes of a tag in order, each as written or with the reason why it is refused. -/
def attributes (tag : Tag) : List (Except AttributeFault RawAttribute) :=
  -- Positions are counted from the start of the name.
  let afterName := tag.content.dropWhile fun c => !isGap c
  attributesFrom [] (byteLength tag.name) afterName

end Tag

end BeanWiring
