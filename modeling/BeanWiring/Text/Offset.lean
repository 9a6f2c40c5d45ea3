/-!
Offsets into a text, counted in the bytes of its UTF-8 form, and the line an offset stands on.
-/

namespace BeanWiring

/-- The number of bytes of a text in UTF-8. -/
def byteLength : List Char → Nat
  | [] => 0
  | c :: rest => c.utf8Size + byteLength rest

/-- The line feeds that begin before an offset. -/
def lineFeedsBefore : List Char → Nat → Nat
  | [], _ => 0
  | c :: rest, offset =>
    -- At the offset nothing more is counted; the subtraction below ends there or past the text.
    if offset = 0 then 0
    else (if c = '\n' then 1 else 0) + lineFeedsBefore rest (offset - c.utf8Size)

/-- Lines are numbered from one, and a line feed ends the line it stands on. -/
def lineAt (text : List Char) (offset : Nat) : Nat :=
  lineFeedsBefore text offset + 1

/-- Bytes of two texts in a row add up. -/
theorem byteLength_append (left right : List Char) :
    byteLength (left ++ right) = byteLength left + byteLength right := by
  induction left with
  | nil => simp [byteLength]
  | cons c rest ih => simp [byteLength, ih, Nat.add_assoc]

end BeanWiring
