/-! Cutting a text at every occurrence of a separator, and joining the pieces again. -/

namespace BeanWiring

/--
The pieces between the separators, empty ones included,
so that there is one more than separators.
-/
def pieces (separator : Char) : List Char → List (List Char)
  | [] => [[]]
  | c :: rest =>
    if c = separator then [] :: pieces separator rest
    else
      -- The character joins the first of the other pieces, of which there is one at least.
      match pieces separator rest with
      | [] => [[c]]
      | piece :: more => (c :: piece) :: more

/-- The pieces of a string. -/
def splitText (separator : Char) (text : String) : List String :=
  (pieces separator text.toList).map String.ofList

/-- A text always has a piece, if only the empty one. -/
theorem pieces_ne_nil (separator : Char) (text : List Char) : pieces separator text ≠ [] := by
  cases text with
  | nil => simp [pieces]
  | cons c rest =>
    -- Either the separator opens a new piece or the character joins one.
    simp only [pieces]
    split
    · simp
    · split <;> simp

/-- Joining the pieces with the separator gives the text back. -/
theorem intercalate_pieces (separator : Char) (text : List Char) :
    List.intercalate [separator] (pieces separator text) = text := by
  induction text with
  | nil => rfl
  | cons c rest ih =>
    simp only [pieces]
    -- The recursive list is never empty, so it can be taken apart once for both cases.
    obtain ⟨piece, more, cut⟩ := List.exists_cons_of_ne_nil (pieces_ne_nil separator rest)
    rw [cut] at ih ⊢
    split
    · rename_i same
      subst same
      rw [← ih]
      simp [List.intercalate]
    · rw [← ih]
      cases more <;> simp [List.intercalate]

/-- No piece holds the separator. -/
theorem not_mem_of_mem_pieces {separator : Char} {text piece : List Char}
    (member : piece ∈ pieces separator text) : separator ∉ piece := by
  induction text generalizing piece with
  | nil => simp_all [pieces]
  | cons c rest ih =>
    simp only [pieces] at member
    obtain ⟨first, more, cut⟩ := List.exists_cons_of_ne_nil (pieces_ne_nil separator rest)
    rw [cut] at ih member
    split at member
    · rcases List.mem_cons.1 member with same | later
      · simp [same]
      · exact ih later
    · rename_i differ
      rcases List.mem_cons.1 member with same | later
      · -- The character that joins the first piece is not the separator.
        simpa [same, Ne.symm differ] using ih (List.mem_cons_self ..)
      · exact ih (List.mem_cons_of_mem _ later)

/-- Pieces without the separator are found again in the text that they are joined to. -/
theorem pieces_intercalate {separator : Char} {parts : List (List Char)} (nonempty : parts ≠ [])
    (free : ∀ part ∈ parts, separator ∉ part) :
    pieces separator (List.intercalate [separator] parts) = parts := by
  -- Cutting is what the library's own function does, for which this is known.
  have same : ∀ text, pieces separator text = text.splitOn separator := by
    intro text
    induction text with
    | nil => rfl
    | cons c rest ih =>
      rw [List.splitOn_cons_eq_if_modifyHead, ← ih]
      obtain ⟨first, more, cut⟩ := List.exists_cons_of_ne_nil (pieces_ne_nil separator rest)
      simp [pieces, cut]
  rw [same, List.splitOn_intercalate separator free nonempty]

end BeanWiring
