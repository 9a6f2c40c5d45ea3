import BeanWiring.Markup.Reference
import BeanWiring.Proofs.Text.Trimming
import Mathlib.Data.List.Basic

/-!
What a text with references spells, told without offsets: each reference is one character, and all
else stands for itself. The reader gives exactly the value that is spelled, and any text can be
written so that it is spelled.
-/

namespace BeanWiring

/-- A text with references spells a value: one character for each reference and each other. -/
inductive Spells : List Char → List Char → Prop
  | nil : Spells [] []
  | plain {c : Char} {rest value : List Char} (other : c ≠ '&') (behind : Spells rest value) :
    Spells (c :: rest) (c :: value)
  | reference {body rest value : List Char} {c : Char} (inside : ∀ d ∈ body, endsBody d = false)
    (stands : referenced 0 body = .ok c) (behind : Spells rest value) :
    Spells ('&' :: (body ++ ';' :: rest)) (c :: value)

/-- The character of a reference does not depend on where the reference stands. -/
theorem referenced_ok {start : Nat} {body : List Char} {c : Char}
    (stands : referenced start body = .ok c) (other : Nat) : referenced other body = .ok c := by
  unfold referenced at stands ⊢
  split at stands
  · exact stands
  · -- Only the fault of an unknown name tells of a place.
    cases named : namedCharacter? body with
    | none => simp [named] at stands
    | some found => simpa [named] using stands

/-- A value that is read is spelled by the text. -/
theorem spells_of_unescapeFrom {length offset : Nat} {text value : List Char}
    (read : unescapeFrom length offset text = .ok value) : Spells text value := by
  -- The induction is on what is still to be read; offsets matter to faults alone.
  fun_induction unescapeFrom length offset text generalizing value with
  | case1 =>
    cases read
    exact .nil
  | case2 offset tail body rest after =>
    rename_i ih
    have whole : tail = body ++ ';' :: rest := by
      rw [← after]
      exact List.takeWhile_append_dropWhile.symm
    cases found : referenced (offset + 1) body with
    | error fault => simp [found, bind, Except.bind] at read
    | ok c =>
      cases others : unescapeFrom length (offset + byteLength body + 2) rest with
      | error fault => simp [found, others, bind, Except.bind] at read
      | ok behind =>
        obtain rfl : c :: behind = value := by
          simpa [found, others, bind, Except.bind, pure, Except.pure] using read
        rw [whole]
        refine .reference ?_ (referenced_ok found 0) (ih others)
        intro d member
        simpa using List.mem_takeWhile_imp member
  | case3 => cases read
  | case4 offset c tail other ih =>
    cases others : unescapeFrom length (offset + c.utf8Size) tail with
    | error fault => simp [others, bind, Except.bind] at read
    | ok behind =>
      obtain rfl : c :: behind = value := by
        simpa [others, bind, Except.bind, pure, Except.pure] using read
      exact .plain other (ih others)

/-- A value that is spelled is read, wherever the text stands. -/
theorem Spells.unescapeFrom {text value : List Char} (spells : Spells text value)
    (length offset : Nat) : unescapeFrom length offset text = .ok value := by
  -- The induction is on how the value is spelled, for every offset.
  induction spells generalizing offset with
  | nil => rw [BeanWiring.unescapeFrom]
  | plain other behind ih =>
    rw [BeanWiring.unescapeFrom, ih]
    · rfl
    · exact other
  | @reference body rest value c inside stands behind ih =>
    obtain ⟨taken, left⟩ := split_at_stop endsBody body (';' :: rest) inside fun d front => by
      rw [← Option.some.inj front]
      rfl
    rw [BeanWiring.unescapeFrom]
    split
    · rename_i found after
      rw [left] at after
      obtain rfl : rest = found := (List.cons.inj after).2
      rw [taken, referenced_ok stands (offset + 1), ih]
      rfl
    · rename_i none
      exact absurd left (none rest)

/-- A text with references is read as a value exactly if it spells it. -/
theorem unescape_eq_ok_iff {text value : List Char} :
    unescape text = .ok value ↔ Spells text value :=
  ⟨spells_of_unescapeFrom, fun spells => spells.unescapeFrom _ _⟩

/-- Two texts one behind the other spell their values one behind the other. -/
theorem Spells.append {text value rest others : List Char} (spells : Spells text value)
    (behind : Spells rest others) : Spells (text ++ rest) (value ++ others) := by
  -- Character by character the first text is spelled in front of the second.
  induction spells with
  | nil => exact behind
  | plain other _ ih => exact .plain other ih
  | reference inside stands _ ih =>
    simpa using Spells.reference inside stands ih

/-- A text without any ampersand spells itself. -/
theorem spells_self {text : List Char} (free : ∀ c ∈ text, c ≠ '&') : Spells text text := by
  induction text with
  | nil => exact .nil
  | cons c rest ih =>
    -- A character that is no ampersand stands for itself.
    obtain ⟨other, behind⟩ := List.forall_mem_cons.1 free
    exact .plain other (ih behind)

/-- What a character is written as: five of them by their predefined names. -/
def escapeChar : Char → List Char
  | '&' => ['&', 'a', 'm', 'p', ';']
  | '<' => ['&', 'l', 't', ';']
  | '>' => ['&', 'g', 't', ';']
  | '"' => ['&', 'q', 'u', 'o', 't', ';']
  | '\'' => ['&', 'a', 'p', 'o', 's', ';']
  | c => [c]

/-- A text as it is written between markup or between quotes. -/
def escape (text : List Char) : List Char :=
  text.flatMap escapeChar

/-- A character is written as a reference to it by its name, or as itself if it needs none. -/
theorem escapeChar_cases (c : Char) :
    (∃ name, (∀ d ∈ name, d.isAlpha = true) ∧ namedCharacter? name = some c ∧
        escapeChar c = '&' :: (name ++ [';'])) ∨
      c ∉ ['&', '<', '>', '"', '\''] ∧ escapeChar c = [c] := by
  -- There is a case for each of the five names and one for all other characters.
  unfold escapeChar
  split
  · exact .inl ⟨['a', 'm', 'p'], List.all_eq_true.1 rfl, rfl, rfl⟩
  · exact .inl ⟨['l', 't'], List.all_eq_true.1 rfl, rfl, rfl⟩
  · exact .inl ⟨['g', 't'], List.all_eq_true.1 rfl, rfl, rfl⟩
  · exact .inl ⟨['q', 'u', 'o', 't'], List.all_eq_true.1 rfl, rfl, rfl⟩
  · exact .inl ⟨['a', 'p', 'o', 's'], List.all_eq_true.1 rfl, rfl, rfl⟩
  · rename_i ampersand less greater quote apostrophe
    exact .inr ⟨by simpa using ⟨ampersand, less, greater, quote, apostrophe⟩, rfl⟩

/-- A name of letters alone ends at its semicolon. -/
theorem endsBody_of_isAlpha {c : Char} (letter : c.isAlpha = true) : endsBody c = false := by
  by_contra ends
  simp only [endsBody, Bool.not_eq_false, Bool.or_eq_true, beq_iff_eq] at ends
  rcases ends with rfl | rfl <;> cases letter

/-- A reference by name stands for the character of the name. -/
theorem referenced_of_namedCharacter? {name : List Char} {c : Char}
    (letters : ∀ d ∈ name, d.isAlpha = true) (named : namedCharacter? name = some c) :
    referenced 0 name = .ok c := by
  unfold referenced
  split
  · -- The number sign is no letter.
    rename_i digits
    exact absurd (letters '#' (List.mem_cons_self ..)) (by decide)
  · rw [named]

/-- What a character is written as spells the character. -/
theorem spells_escapeChar (c : Char) : Spells (escapeChar c) [c] := by
  rcases escapeChar_cases c with ⟨name, letters, named, written⟩ | ⟨plain, written⟩
  -- A character with a name is written as a reference to it.
  · rw [written]
    refine .reference (fun d member => endsBody_of_isAlpha (letters d member)) ?_ .nil
    exact referenced_of_namedCharacter? letters named
  · rw [written]
    exact .plain (fun ampersand => plain (by simp [ampersand])) .nil

/-- An escaped text is read as the text. -/
theorem unescape_escape (text : List Char) : unescape (escape text) = .ok text := by
  -- What is written for each character spells it, one behind the other.
  rw [unescape_eq_ok_iff]
  induction text with
  | nil => exact .nil
  | cons c rest ih => exact (spells_escapeChar c).append ih

/-- Nothing but the empty text is written as nothing. -/
theorem escape_ne_nil {text : List Char} (nonempty : text ≠ []) : escape text ≠ [] := by
  obtain ⟨first, rest, rfl⟩ := List.exists_cons_of_ne_nil nonempty
  rcases escapeChar_cases first with ⟨_, _, _, written⟩ | ⟨_, written⟩ <;> simp [escape, written]

/-- No bracket and no quote is left in an escaped text. -/
theorem not_special_of_mem_escape {text : List Char} {c : Char} (member : c ∈ escape text) :
    c ∉ ['<', '>', '"', '\''] := by
  obtain ⟨d, _, here⟩ := List.mem_flatMap.1 member
  rcases escapeChar_cases d with ⟨name, letters, _, written⟩ | ⟨plain, written⟩
  · rw [written] at here
    simp only [List.mem_cons, List.mem_append, List.not_mem_nil, or_false] at here
    rcases here with rfl | inside | rfl
    · decide
    · -- The letters of the name are none of the four.
      intro special
      have letter := letters c inside
      simp only [List.mem_cons, List.not_mem_nil, or_false] at special
      rcases special with rfl | rfl | rfl | rfl <;> cases letter
    · decide
  · rw [written] at here
    obtain rfl := List.mem_singleton.1 here
    exact fun special => plain (List.mem_cons_of_mem _ special)

/-- An escaped text begins with white space only if the text does. -/
theorem head_escape {text : List Char} (visible : ∀ c, text.head? = some c → isGap c = false) :
    ∀ c, (escape text).head? = some c → isGap c = false := by
  intro c front
  cases text with
  | nil => cases front
  | cons first rest =>
    -- A reference begins with an ampersand, which is no white space.
    rcases escapeChar_cases first with ⟨name, _, _, written⟩ | ⟨_, written⟩
    · obtain rfl : '&' = c := by simpa [escape, written] using front
      rfl
    · obtain rfl : first = c := by simpa [escape, written] using front
      exact visible first rfl

/-- An escaped text ends with white space only if the text does. -/
theorem last_escape {text : List Char} (visible : ∀ c, text.getLast? = some c → isGap c = false) :
    ∀ c, (escape text).getLast? = some c → isGap c = false := by
  intro c behind
  rcases text.eq_nil_or_concat' with rfl | ⟨front, last, rfl⟩
  · cases behind
  · rcases escapeChar_cases last with ⟨name, _, _, written⟩ | ⟨_, written⟩
    -- A reference ends with a semicolon, which is no white space.
    · have whole : escape (front ++ [last]) = (escape front ++ '&' :: name) ++ [';'] := by
        simp [escape, written]
      obtain rfl : ';' = c := by
        rw [whole, List.getLast?_concat] at behind
        exact Option.some.inj behind
      rfl
    · have whole : escape (front ++ [last]) = escape front ++ [last] := by
        simp [escape, written]
      obtain rfl : last = c := by
        rw [whole, List.getLast?_concat] at behind
        exact Option.some.inj behind
      exact visible last List.getLast?_concat

end BeanWiring
