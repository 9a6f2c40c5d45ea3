/-! Names for beans that are declared inside another one without an id. -/

namespace BeanWiring

/-- What every given name starts with. -/
def anonymousMark : String := "anonymous-bean#"

/-- The given name of a number. -/
def anonymousName (number : Nat) : String :=
  anonymousMark ++ Nat.repr number

/-- Whether a name has the form of a given one. -/
def isAnonymous (name : String) : Bool :=
  anonymousMark.toList.isPrefixOf name.toList

/-- A supply of names, which are numbered from one in the order in which they are drawn. -/
structure Names where
  /-- The number of names drawn so far. -/
  issued : Nat := 0
deriving DecidableEq, Repr, Inhabited

/--
The first number after the given one whose name is not taken.

A name once passed is not met again, so it can be taken off the list that is still to be avoided.
-/
def freeAfter (taken : List String) (number : Nat) : Nat :=
  if held : anonymousName (number + 1) ∈ taken then
    freeAfter (taken.erase (anonymousName (number + 1))) (number + 1)
  else number + 1
termination_by taken.length
decreasing_by
  have positive := List.length_pos_of_mem held
  rw [List.length_erase_of_mem held]
  omega

namespace Names

/-- Draws the next name. -/
def next (names : Names) : String × Names :=
  (anonymousName (names.issued + 1), ⟨names.issued + 1⟩)

/-- Draws names until one is not taken. -/
def nextFree (taken : List String) (names : Names) : String × Names :=
  -- The names passed over count as drawn.
  let number := freeAfter taken names.issued
  (anonymousName number, ⟨number⟩)

/-- With nothing to avoid the next name is drawn. -/
theorem nextFree_nil (names : Names) : nextFree [] names = next names := by
  simp [nextFree, next, freeAfter]

end Names

end BeanWiring
