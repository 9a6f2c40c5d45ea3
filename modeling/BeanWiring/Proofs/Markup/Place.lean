import BeanWiring.Markup.Element

/-!
Places in trees: the elements of a tree in document order, each under the way that leads to it.

Both searches end at the first place whose element meets the condition,
and an id set at one place is set there and nowhere else.
-/

namespace BeanWiring

/-- A place in a row of trees: the index of a tree, and the way down from its root. -/
structure Place where
  tree : Nat
  path : List Nat
deriving DecidableEq, Repr

namespace Place

/-- A place in the first tree of a row. -/
def inFirst (path : List Nat) : Place :=
  ⟨0, path⟩

/-- A place in the row behind the first tree. -/
def behind (place : Place) : Place :=
  ⟨place.tree + 1, place.path⟩

/-- The way to a place among the children of an element, from that element on. -/
def fromParent (place : Place) : List Nat :=
  place.tree :: place.path

/-- A place further down. -/
def down (place : Place) (path : List Nat) : Place :=
  ⟨place.tree, place.path ++ path⟩

/-- Every place of a row is in its first tree or behind it. -/
theorem inFirst_or_behind (place : Place) :
    (∃ path, place = .inFirst path) ∨ ∃ before : Place, place = before.behind := by
  obtain ⟨tree, path⟩ := place
  -- The index of the tree tells which of the two it is.
  cases tree with
  | zero => exact .inl ⟨path, rfl⟩
  | succ tree => exact .inr ⟨⟨tree, path⟩, rfl⟩

/-- Places in the first tree differ by their ways. -/
@[simp] theorem inFirst_inj {left right : List Nat} :
    Place.inFirst left = .inFirst right ↔ left = right := by
  simp [inFirst]

/-- Places behind the first tree differ as they do in the others. -/
@[simp] theorem behind_inj {left right : Place} : left.behind = right.behind ↔ left = right := by
  cases left
  cases right
  simp [behind]

/-- No place of the first tree is behind it. -/
@[simp] theorem inFirst_ne_behind {path : List Nat} {place : Place} :
    Place.inFirst path ≠ place.behind := by
  simp [inFirst, behind]

/-- No place behind the first tree is in it. -/
@[simp] theorem behind_ne_inFirst {path : List Nat} {place : Place} :
    place.behind ≠ Place.inFirst path := by
  simp [inFirst, behind]

/-- Ways from a parent differ as the places among its children do. -/
@[simp] theorem fromParent_inj {left right : Place} :
    left.fromParent = right.fromParent ↔ left = right := by
  cases left
  cases right
  simp [fromParent]

/-- A way to a child is not empty. -/
@[simp] theorem fromParent_ne_nil {place : Place} : place.fromParent ≠ [] := by
  simp [fromParent]

/-- Every way that is not empty goes to a place among the children. -/
theorem fromParent_cons (index : Nat) (path : List Nat) :
    index :: path = Place.fromParent ⟨index, path⟩ :=
  rfl

end Place

namespace Element

mutual

/-- The elements of a tree in document order, each under its place. -/
def located : Element → List (List Nat × Element)
  | ⟨name, attributes, text, children⟩ =>
    ([], ⟨name, attributes, text, children⟩) ::
      (locatedAmong children).map fun found => (found.1.fromParent, found.2)

/-- The elements of several trees in document order, each under its place. -/
def locatedAmong : List Element → List (Place × Element)
  | [] => []
  | first :: rest =>
    (located first).map (fun found => (.inFirst found.1, found.2)) ++
      (locatedAmong rest).map fun found => (found.1.behind, found.2)

end

/-- The element at a place of several trees. -/
def among? (trees : List Element) (place : Place) : Option Element :=
  trees[place.tree]?.bind fun tree => tree.at? place.path

/-- The element by itself, without what stands below it. -/
def alone (element : Element) : Element :=
  { element with children := [] }

/-- Several trees with the element at one place changed. -/
def modifyAmong (change : Element → Element) (place : Place) (trees : List Element) :
    List Element :=
  trees.modify place.tree (modifyAt change place.path)

/-- Nothing but the element itself is at the empty way. -/
@[simp] theorem at?_nil (element : Element) : element.at? [] = some element := by
  cases element
  rfl

/-- The way to an element below goes through the children. -/
@[simp] theorem at?_fromParent (name : String) (attributes : List (String × String))
    (text : String) (children : List Element) (place : Place) :
    (⟨name, attributes, text, children⟩ : Element).at? place.fromParent =
      among? children place := by
  simp only [Place.fromParent, at?, among?]
  cases children[place.tree]? <;> rfl

/-- A place in the first tree of a row is a place of that tree. -/
@[simp] theorem among?_inFirst (first : Element) (rest : List Element) (path : List Nat) :
    among? (first :: rest) (.inFirst path) = first.at? path := by
  simp [among?, Place.inFirst]

/-- A place behind the first tree of a row is a place of the others. -/
@[simp] theorem among?_behind (first : Element) (rest : List Element) (place : Place) :
    among? (first :: rest) place.behind = among? rest place := by
  simp [among?, Place.behind]

/-- Going on from a place is going all the way. -/
theorem at?_append (element : Element) (path further : List Nat) :
    element.at? (path ++ further) = (element.at? path).bind fun found => found.at? further := by
  -- The induction is on the way that comes first, for every element it can start from.
  induction path generalizing element with
  | nil => simp
  | cons index rest ih =>
    simp only [List.cons_append, at?]
    cases element.children[index]? with
    | none => rfl
    | some child => exact ih child

/-- Going on from a place in several trees is going all the way. -/
theorem among?_down (trees : List Element) (place : Place) (path : List Nat) :
    among? trees (place.down path) = (among? trees place).bind fun found => found.at? path := by
  simp only [among?, Place.down]
  -- The way goes on in the same tree.
  cases trees[place.tree]? with
  | none => rfl
  | some tree => exact at?_append tree place.path path

/-- A change that leaves every element alone leaves a tree alone. -/
theorem modifyAt_self (path : List Nat) (element : Element) :
    element.modifyAt (fun found => found) path = element := by
  -- What the change does below each child is nothing as well.
  induction path generalizing element with
  | nil => rfl
  | cons index rest ih =>
    have same : modifyAt (fun found => found) rest = id := funext ih
    cases element
    simp [modifyAt, same]

/-- Changing an element twice is changing it once by both. -/
theorem modifyAt_modifyAt (later change : Element → Element) (path : List Nat)
    (element : Element) :
    (element.modifyAt change path).modifyAt later path =
      element.modifyAt (fun found => later (change found)) path := by
  -- Both changes go down the same way and meet at its end.
  induction path generalizing element with
  | nil => rfl
  | cons index rest ih =>
    have both : modifyAt later rest ∘ modifyAt change rest =
        modifyAt (fun found => later (change found)) rest := funext ih
    simp [modifyAt, List.modify_modify_eq, both]

/-- A change further down is a change of what stands on the way. -/
theorem modifyAt_append (change : Element → Element) (path further : List Nat)
    (element : Element) :
    element.modifyAt change (path ++ further) =
      element.modifyAt (modifyAt change further) path := by
  -- At each step the rest of the way is left to the children.
  induction path generalizing element with
  | nil => rfl
  | cons index rest ih =>
    have below : modifyAt change (rest ++ further) = modifyAt (modifyAt change further) rest :=
      funext ih
    simp [modifyAt, below]

/-- Only what a change makes of the element at its place counts. -/
theorem modifyAt_congr {change other : Element → Element} {path : List Nat}
    {element found : Element} (there : element.at? path = some found)
    (same : change found = other found) :
    element.modifyAt change path = element.modifyAt other path := by
  induction path generalizing element with
  | nil =>
    obtain rfl : element = found := by simpa using there
    exact same
  | cons index rest ih =>
    simp only [at?] at there
    split at there
    · rename_i child inside
      -- The lists of children agree at every index.
      simp only [modifyAt]
      congr 1
      apply List.ext_getElem?
      intro position
      simp only [List.getElem?_modify]
      by_cases on : index = position
      · subst on
        simp [inside, ih there]
      · simp [on]
    · cases there

/-- At the place of a change stands what it makes of the element there. -/
theorem at?_modifyAt_self (change : Element → Element) {path : List Nat} {element found : Element}
    (there : element.at? path = some found) :
    (element.modifyAt change path).at? path = some (change found) := by
  -- The change and the look-up go into the same child at every step.
  induction path generalizing element with
  | nil =>
    obtain rfl : element = found := by simpa using there
    simp [modifyAt]
  | cons index rest ih =>
    simp only [at?] at there
    split at there
    · rename_i child inside
      simpa [modifyAt, at?, inside] using ih there
    · cases there

/-- A change that leaves every element alone leaves several trees alone. -/
theorem modifyAmong_self (place : Place) (trees : List Element) :
    modifyAmong (fun found => found) place trees = trees := by
  have same : modifyAt (fun found => found) place.path = id := funext (modifyAt_self place.path)
  simp [modifyAmong, same]

/-- Changing an element of several trees twice is changing it once by both. -/
theorem modifyAmong_modifyAmong (later change : Element → Element) (place : Place)
    (trees : List Element) :
    modifyAmong later place (modifyAmong change place trees) =
      modifyAmong (fun found => later (change found)) place trees := by
  -- The same tree is changed twice, on the same way.
  have both : modifyAt later place.path ∘ modifyAt change place.path =
      modifyAt (fun found => later (change found)) place.path :=
    funext (modifyAt_modifyAt later change place.path)
  simp [modifyAmong, List.modify_modify_eq, both]

/-- A change further down in several trees is a change of what stands on the way. -/
theorem modifyAmong_down (change : Element → Element) (place : Place) (path : List Nat)
    (trees : List Element) :
    modifyAmong change (place.down path) trees =
      modifyAmong (modifyAt change path) place trees := by
  -- The way goes through the place, so the change is one below it.
  have below : modifyAt change (place.path ++ path) = modifyAt (modifyAt change path) place.path :=
    funext (modifyAt_append change place.path path)
  simp [modifyAmong, Place.down, below]

/-- Only what a change makes of the element at its place counts. -/
theorem modifyAmong_congr {change other : Element → Element} {place : Place}
    {trees : List Element} {found : Element} (there : among? trees place = some found)
    (same : change found = other found) :
    modifyAmong change place trees = modifyAmong other place trees := by
  -- Only the tree at the place is touched, and there the changes agree.
  obtain ⟨tree, inside, below⟩ := Option.bind_eq_some_iff.1 there
  apply List.ext_getElem?
  intro position
  simp only [modifyAmong, List.getElem?_modify]
  by_cases on : place.tree = position
  · subst on
    simp [inside, modifyAt_congr below same]
  · simp [on]

/-- At the place of a change in several trees stands what it makes of the element there. -/
theorem among?_modifyAmong_self (change : Element → Element) {place : Place}
    {trees : List Element} {found : Element} (there : among? trees place = some found) :
    among? (modifyAmong change place trees) place = some (change found) := by
  -- The change is made in the tree of the place, on the way to it.
  obtain ⟨tree, inside, below⟩ := Option.bind_eq_some_iff.1 there
  simpa [among?, modifyAmong, inside] using at?_modifyAt_self change below

mutual

/-- An element is listed under a place exactly if it stands there. -/
theorem mem_located (path : List Nat) (found : Element) :
    ∀ element : Element, (path, found) ∈ located element ↔ element.at? path = some found
  | ⟨name, attributes, text, children⟩ => by
    cases path with
    | nil =>
      simp only [located, at?_nil, List.mem_cons]
      simpa using eq_comm
    | cons index rest =>
      -- A way that is not empty goes through the children.
      have below := mem_locatedAmong ⟨index, rest⟩ found children
      rw [Place.fromParent_cons, at?_fromParent, ← below]
      simp [located]

/-- An element is listed under a place of several trees exactly if it stands there. -/
theorem mem_locatedAmong (place : Place) (found : Element) :
    ∀ trees : List Element, (place, found) ∈ locatedAmong trees ↔ among? trees place = some found
  | [] => by simp [locatedAmong, among?]
  | first :: rest => by
    -- A place is listed in the half that it belongs to.
    rcases place.inFirst_or_behind with ⟨path, rfl⟩ | ⟨before, rfl⟩
    · have here := mem_located path found first
      simp [locatedAmong, here]
    · have later := mem_locatedAmong before found rest
      simp [locatedAmong, later]

end

/-- The elements of a tree in document order. -/
theorem located_map_snd (element : Element) :
    (located element).map (·.2) =
      element :: (locatedAmong element.children).map (·.2) := by
  cases element
  simp [located, Function.comp_def]

/-- The elements of several trees are those of each in turn. -/
theorem locatedAmong_map_snd (trees : List Element) :
    (locatedAmong trees).map (·.2) = trees.flatMap fun tree => (located tree).map (·.2) := by
  induction trees with
  | nil => rfl
  | cons first rest ih => simp [locatedAmong, Function.comp_def, ← ih]

/-- The pending trees are gone through as they are listed. -/
theorem sweep_eq (pending : List Element) :
    sweep pending = (locatedAmong pending).map (·.2) := by
  induction pending using sweep.induct with
  | case1 => simp [sweep, locatedAmong]
  | case2 element pending ih =>
    -- An element's children are listed right behind it, before what was pending.
    rw [sweep, ih, locatedAmong_map_snd (element :: pending), List.flatMap_cons,
      located_map_snd element, List.cons_append]
    congr 1
    simp only [locatedAmong_map_snd (element.children ++ pending),
      locatedAmong_map_snd element.children, List.flatMap_append]

/-- The elements below an element, itself included, are those listed. -/
theorem descendants_eq (element : Element) :
    element.descendants = (located element).map (·.2) := by
  -- The sweep starts with the element alone.
  rw [descendants, sweep_eq, locatedAmong_map_snd]
  simp

mutual

/-- The search for an element to be changed ends at the first that is listed and meets. -/
theorem updateFirst?_eq (meets : Element → Bool) (change : Element → Element) :
    ∀ element : Element, updateFirst? meets change element =
      ((located element).find? fun found => meets found.2).map fun found =>
        element.modifyAt change found.1
  | ⟨name, attributes, text, children⟩ => by
    simp only [updateFirst?, located, List.find?_cons]
    cases first : meets ⟨name, attributes, text, children⟩ with
    | true => simp [modifyAt]
    | false =>
      -- The element itself does not meet, so the search goes on among its children.
      simp [updateFirstAmong?_eq, List.find?_map, Function.comp_def, modifyAt,
        Place.fromParent, modifyAmong]

/-- The search through several trees ends at the first element listed that meets. -/
theorem updateFirstAmong?_eq (meets : Element → Bool) (change : Element → Element) :
    ∀ trees : List Element, updateFirstAmong? meets change trees =
      ((locatedAmong trees).find? fun found => meets found.2).map fun found =>
        modifyAmong change found.1 trees
  | [] => by simp [updateFirstAmong?, locatedAmong]
  | first :: rest => by
    simp only [updateFirstAmong?, locatedAmong, updateFirst?_eq, List.find?_append,
      List.find?_map, Function.comp_def]
    -- The trees behind the first are searched only if nothing in it meets.
    cases found : (located first).find? fun found => meets found.2 with
    | some row => simp [modifyAmong, Place.inFirst]
    | none => simp [updateFirstAmong?_eq, modifyAmong, Place.behind, Function.comp_def]

end

end Element

end BeanWiring
