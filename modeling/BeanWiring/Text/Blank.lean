/-!
White space: what separates the parts of markup,
and the wider set that trimming takes off a text.
-/

namespace BeanWiring

/-- Space, tab, carriage return and line feed: the white space between the parts of markup. -/
def isGap (c : Char) : Bool :=
  c == ' ' || c == '\t' || c == '\r' || c == '\n'

/-- The code points with the Unicode property White_Space, as closed ranges in increasing order. -/
def blankRanges : List (Nat × Nat) :=
  [(0x09, 0x0D), (0x20, 0x20), (0x85, 0x85), (0xA0, 0xA0), (0x1680, 0x1680), (0x2000, 0x200A),
    (0x2028, 0x2029), (0x202F, 0x202F), (0x205F, 0x205F), (0x3000, 0x3000)]

/-- A blank is a character with the Unicode property White_Space. -/
def isBlank (c : Char) : Bool :=
  blankRanges.any fun (low, high) => low ≤ c.toNat && c.toNat ≤ high

/-- A text without the characters of the class at its end. -/
def trimEnd (inClass : Char → Bool) (text : List Char) : List Char :=
  -- The end of a list is the front of its reverse.
  (text.reverse.dropWhile inClass).reverse

/-- A text without the characters of the class at its two ends. -/
def trimBoth (inClass : Char → Bool) (text : List Char) : List Char :=
  trimEnd inClass (text.dropWhile inClass)

/-- A text without the blanks at its two ends. -/
def trimBlanks (text : String) : String :=
  String.ofList (trimBoth isBlank text.toList)

/-- A text of blanks alone says nothing. -/
def isAllBlank (text : String) : Bool :=
  text.toList.all isBlank

/-- White space of markup is blank, so trimming a text takes it off too. -/
theorem isBlank_of_isGap {c : Char} (gap : isGap c = true) : isBlank c = true := by
  -- The four characters are named, and each lies in one of the ranges.
  simp only [isGap, Bool.or_eq_true, beq_iff_eq] at gap
  rcases gap with ((rfl | rfl) | rfl) | rfl <;> decide

end BeanWiring
