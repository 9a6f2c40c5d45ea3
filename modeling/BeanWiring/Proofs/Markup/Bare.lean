import BeanWiring.Proofs.Markup.Ids

/-!
Bare trees: what is left of a tree when every id is taken off.

Giving ids never changes the bare tree, so whatever is read off it alone is the same before and
after.
-/

namespace BeanWiring

namespace Entries

variable {α : Type}

/-- The entries but those under a key. -/
def without (key : String) (entries : List (String × α)) : List (String × α) :=
  entries.filter fun entry => entry.1 ≠ key

/-- Without the entries under one key those under another are still found. -/
theorem get?_without {key other : String} (distinct : other ≠ key) (entries : List (String × α)) :
    get? other (without key entries) = get? other entries := by
  -- The induction is on the entries, each of which is left out or not.
  induction entries with
  | nil => rfl
  | cons entry rest ih =>
    obtain ⟨known, value⟩ := entry
    by_cases dropped : known = key
    · -- The entry that is left out is not the one that is looked for.
      have passed : known ≠ other := fun same => distinct (same.symm.trans dropped)
      have gone : without key ((known, value) :: rest) = without key rest := by
        simp [without, dropped]
      rw [gone, ih, get?, if_neg passed]
    · have kept : without key ((known, value) :: rest) = (known, value) :: without key rest := by
        simp [without, dropped]
      rw [kept, get?, get?, ih]

/-- What was set under a key is gone when the key is left out. -/
theorem without_set (key : String) (value : α) (entries : List (String × α)) :
    without key (set key value entries) = without key entries := by
  induction entries with
  | nil => simp [set, without]
  | cons entry rest ih =>
    -- The entry in front either has the key, and goes on both sides, or stays on both.
    simp only [set]
    split
    · rename_i same
      simp [without, same]
    · rename_i differ
      simpa [without, differ] using ih

end Entries

namespace Element

mutual

/-- The tree without any id. -/
def bare : Element → Element
  | ⟨name, attributes, text, children⟩ =>
    ⟨name, Entries.without "id" attributes, text, bareAll children⟩

/-- Several trees without any id. -/
def bareAll : List Element → List Element
  | [] => []
  | first :: rest => bare first :: bareAll rest

end

/-- Several trees are made bare one by one. -/
theorem bareAll_eq_map (trees : List Element) : bareAll trees = trees.map bare := by
  induction trees with
  | nil => rfl
  | cons first rest ih => rw [bareAll, ih, List.map_cons]

/-- A bare element has its name. -/
@[simp] theorem bare_name (element : Element) : element.bare.name = element.name := by
  cases element
  rfl

/-- A bare element has its text. -/
@[simp] theorem bare_trimmedText (element : Element) :
    element.bare.trimmedText = element.trimmedText := by
  cases element
  rfl

/-- The children of a bare element are bare. -/
@[simp] theorem bare_children (element : Element) :
    element.bare.children = element.children.map bare := by
  cases element
  exact bareAll_eq_map _

/-- A bare element has all attributes but the id. -/
theorem bare_attribute? {key : String} (other : key ≠ "id") (element : Element) :
    element.bare.attribute? key = element.attribute? key := by
  cases element
  exact Entries.get?_without other _

/-- Among bare children a name is found where it was. -/
theorem bare_child? (element : Element) (name : String) :
    element.bare.child? name = (element.child? name).map bare := by
  -- The name that is looked for is one of the things that stay.
  have same : (fun child : Element => child.name == name) ∘ bare =
      fun child => child.name == name :=
    funext fun child => congrArg (· == name) child.bare_name
  rw [child?, bare_children, List.find?_map, same, child?]

/-- An id given in a tree does not change the bare tree. -/
theorem bare_modifyAt (id : String) (path : List Nat) (element : Element) :
    (element.modifyAt (withId id) path).bare = element.bare := by
  -- The induction is on the way: at its end only the id is set.
  induction path generalizing element with
  | nil =>
    cases element
    simp [modifyAt, withId, setAttribute, bare, Entries.without_set]
  | cons index rest ih =>
    obtain ⟨name, attributes, text, children⟩ := element
    have below : bareAll (children.modify index (modifyAt (withId id) rest)) =
        bareAll children := by
      rw [bareAll_eq_map, bareAll_eq_map]
      -- Only the child that the way leads through is another one, and its bare tree is not.
      apply List.ext_getElem?
      intro position
      by_cases on : index = position
      · subst on
        simp [Function.comp_def, ih]
      · simp [on]
    simp only [modifyAt, bare, below]

/-- Ids given in several trees do not change the bare trees. -/
theorem bare_giveIdsAmong (given : Given Place) (trees : List Element) :
    (giveIdsAmong given trees).map bare = trees.map bare := by
  -- The induction is on the ids, each of which is given in one tree.
  induction given generalizing trees with
  | nil => rfl
  | cons gift others ih =>
    have first : (modifyAmong (withId gift.2) gift.1 trees).map bare = trees.map bare := by
      apply List.ext_getElem?
      intro position
      by_cases on : gift.1.tree = position
      · subst on
        simp [modifyAmong, Function.comp_def, bare_modifyAt]
      · simp [modifyAmong, on]
    exact (ih _).trans first

/-- A bare element is reached by the way that led to it. -/
theorem bare_at? (element : Element) (path : List Nat) :
    element.bare.at? path = (element.at? path).map bare := by
  -- The induction is on the way, one child at a time.
  induction path generalizing element with
  | nil => simp
  | cons index rest ih =>
    simp only [at?, bare_children, List.getElem?_map]
    cases element.children[index]? with
    | none => rfl
    | some child => exact ih child

/-- Elements of several bare trees are reached at their places. -/
theorem bare_among? (trees : List Element) (place : Place) :
    among? (trees.map bare) place = (among? trees place).map bare := by
  -- A place names a tree first and then a way in it.
  simp only [among?, List.getElem?_map]
  cases trees[place.tree]? with
  | none => rfl
  | some tree => exact bare_at? tree place.path

end Element

end BeanWiring
