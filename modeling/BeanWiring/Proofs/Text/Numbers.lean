/-!
Numbers inside texts: a number is known by its digits, and where no digit stands behind them it is
told apart from the rest of the text.
-/

namespace BeanWiring

/-- Numbers with the same digits are the same. -/
theorem toDigits_inj {left right : Nat} (same : Nat.toDigits 10 left = Nat.toDigits 10 right) :
    left = right :=
  -- A number is what its digits are read as.
  calc left = Nat.ofDigitChars 10 (Nat.toDigits 10 left) 0 := Nat.ofDigitChars_ten_toDigits.symm
    _ = Nat.ofDigitChars 10 (Nat.toDigits 10 right) 0 := by rw [same]
    _ = right := Nat.ofDigitChars_ten_toDigits

/-- Characters that end at the first one of another sort are told apart from those behind them. -/
theorem append_inj_of_ends {α : Type} {sort : α → Bool} {front more : List α} {c d : α}
    {behind rest : List α} (inside : ∀ e ∈ front, sort e = true)
    (also : ∀ e ∈ more, sort e = true) (ends : sort c = false) (stops : sort d = false)
    (same : front ++ c :: behind = more ++ d :: rest) :
    front = more ∧ c :: behind = d :: rest := by
  -- Both are what is taken from the front of the one text.
  have taken := congrArg (List.takeWhile sort) same
  rw [List.takeWhile_append_of_pos inside, List.takeWhile_append_of_pos also,
    List.takeWhile_cons_of_neg (by simp [ends]), List.takeWhile_cons_of_neg (by simp [stops]),
    List.append_nil, List.append_nil] at taken
  subst taken
  exact ⟨rfl, List.append_cancel_left same⟩

/-- A number behind which no digit stands is told apart from what stands there. -/
theorem number_append_inj {left right : Nat} {c d : Char} {behind rest : List Char}
    (ends : c.isDigit = false) (stops : d.isDigit = false)
    (same : Nat.toDigits 10 left ++ c :: behind = Nat.toDigits 10 right ++ d :: rest) :
    left = right ∧ c :: behind = d :: rest := by
  -- A number is written in digits, and they end where another character stands.
  have digits : ∀ number : Nat, ∀ e ∈ Nat.toDigits 10 number, e.isDigit = true :=
    fun number e member => Nat.isDigit_of_mem_toDigits (by decide) (by decide) member
  obtain ⟨equal, others⟩ := append_inj_of_ends (digits left) (digits right) ends stops same
  exact ⟨toDigits_inj equal, others⟩

end BeanWiring
