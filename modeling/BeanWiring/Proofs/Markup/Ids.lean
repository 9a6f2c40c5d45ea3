import BeanWiring.Proofs.Markup.Place

/-!
Ids given to elements at places of a tree.

Nothing but the ids at these places changes, and of all that a search for an id looks at
the order stays the same.
-/

namespace BeanWiring

/-- Ids in the order in which they were given, each with the place of its element. -/
abbrev Given (ρ : Type) := List (ρ × String)

namespace Element

/-- What a search for an id looks at: the name of an element and its id. -/
def label (element : Element) : String × Option String :=
  (element.name, element.attribute? "id")

/-- The element with an id. -/
def withId (id : String) (element : Element) : Element :=
  element.setAttribute "id" id

/-- The element with ids given at places below it. -/
def giveIds (given : Given (List Nat)) (element : Element) : Element :=
  given.foldl (fun element gift => element.modifyAt (withId gift.2) gift.1) element

/-- Several trees with ids given at places in them. -/
def giveIdsAmong (given : Given Place) (trees : List Element) : List Element :=
  given.foldl (fun trees gift => modifyAmong (withId gift.2) gift.1 trees) trees

/-- The id at a place below an element, empty if there is none. -/
def idAt (element : Element) (path : List Nat) : String :=
  ((element.at? path).bind fun found => found.attribute? "id").getD ""

/-- The id at a place of several trees, empty if there is none. -/
def idAmong (trees : List Element) (place : Place) : String :=
  ((among? trees place).bind fun found => found.attribute? "id").getD ""

/-- Ids given to the first tree of a row are given to that tree. -/
theorem giveIdsAmong_inFirst (given : Given (List Nat)) (first : Element) (rest : List Element) :
    giveIdsAmong (given.map fun gift => (.inFirst gift.1, gift.2)) (first :: rest) =
      first.giveIds given :: rest := by
  -- The induction is on the ids: each leaves a row with the same trees behind.
  induction given generalizing first with
  | nil => rfl
  | cons gift others ih => exact ih _

/-- Ids given behind the first tree of a row are given to the others. -/
theorem giveIdsAmong_behind (given : Given Place) (first : Element) (rest : List Element) :
    giveIdsAmong (given.map fun gift => (gift.1.behind, gift.2)) (first :: rest) =
      first :: giveIdsAmong given rest := by
  induction given generalizing rest with
  | nil => rfl
  | cons gift others ih => exact ih _

/-- Ids given among the children of an element leave all else of it alone. -/
theorem giveIds_fromParent (given : Given Place) (name : String)
    (attributes : List (String × String)) (text : String) (children : List Element) :
    (⟨name, attributes, text, children⟩ : Element).giveIds
        (given.map fun gift => (gift.1.fromParent, gift.2)) =
      ⟨name, attributes, text, giveIdsAmong given children⟩ := by
  -- Ids are given one by one, and each leaves the root as it is.
  induction given generalizing children with
  | nil => rfl
  | cons gift others ih => exact ih _

/-- Ids given in two goes are given one after the other. -/
theorem giveIdsAmong_append (given more : Given Place) (trees : List Element) :
    giveIdsAmong (given ++ more) trees = giveIdsAmong more (giveIdsAmong given trees) := by
  simp [giveIdsAmong]

/-- Ids given below an element that stands at a place change it at its place. -/
theorem giveIdsAmong_down (given : Given (List Nat)) (place : Place) (trees : List Element) :
    giveIdsAmong (given.map fun gift => (place.down gift.1, gift.2)) trees =
      modifyAmong (giveIds given) place trees := by
  induction given generalizing trees with
  | nil => exact (modifyAmong_self place trees).symm
  | cons gift others ih =>
    -- One id is given below the element, and the others to the element that results.
    calc giveIdsAmong (others.map fun gift => (place.down gift.1, gift.2))
          (modifyAmong (withId gift.2) (place.down gift.1) trees)
        = modifyAmong (giveIds others)
            place (modifyAmong (modifyAt (withId gift.2) gift.1) place trees) := by
          rw [ih, modifyAmong_down]
      _ = modifyAmong (giveIds (gift :: others)) place trees :=
          modifyAmong_modifyAmong _ _ place trees

/-- A row of what searches for ids look at: the name of an element and its id, under its place. -/
abbrev Row (ρ : Type) := ρ × String × Option String

/-- The row under another name of its place. -/
def Row.rename {ρ σ : Type} (anew : ρ → σ) (row : Row ρ) : Row σ :=
  (anew row.1, row.2)

/-- What searches for ids look at in a tree, in document order. -/
def labels (element : Element) : List (Row (List Nat)) :=
  (located element).map fun found => (found.1, found.2.label)

/-- What searches for ids look at in several trees, in document order. -/
def labelsAmong (trees : List Element) : List (Row Place) :=
  (locatedAmong trees).map fun found => (found.1, found.2.label)

/-- The rows of a tree are that of its root and, behind it, those of its children. -/
theorem labels_node (name : String) (attributes : List (String × String)) (text : String)
    (children : List Element) :
    labels ⟨name, attributes, text, children⟩ =
      ([], name, Entries.get? "id" attributes) ::
        (labelsAmong children).map (Row.rename Place.fromParent) := by
  simp [labels, labelsAmong, located, label, attribute?, Function.comp_def, Row.rename]

/-- The rows of several trees are those of each in turn. -/
theorem labelsAmong_cons (first : Element) (rest : List Element) :
    labelsAmong (first :: rest) =
      (labels first).map (Row.rename Place.inFirst) ++
        (labelsAmong rest).map (Row.rename Place.behind) := by
  simp [labels, labelsAmong, locatedAmong, Function.comp_def, Row.rename]

/-- A row after an id was given at a place. -/
def relabel {ρ : Type} [DecidableEq ρ] (gift : ρ × String) (row : Row ρ) : Row ρ :=
  if row.1 = gift.1 then (row.1, row.2.1, some gift.2) else row

/-- An id given elsewhere changes no row. -/
theorem map_relabel_elsewhere {ρ σ : Type} [DecidableEq σ] {anew : ρ → σ} {gift : σ × String}
    (elsewhere : ∀ place, anew place ≠ gift.1) (rows : List (Row ρ)) :
    (rows.map (Row.rename anew)).map (relabel gift) = rows.map (Row.rename anew) := by
  -- No row has the place of the id under its new name.
  rw [List.map_map]
  apply List.map_congr_left
  intro row _
  simp [relabel, Row.rename, elsewhere]

/-- Whether ids are given before or after places are renamed makes no difference. -/
theorem map_relabel_rename {ρ σ : Type} [DecidableEq ρ] [DecidableEq σ] {anew : ρ → σ}
    (distinct : ∀ left right, anew left = anew right ↔ left = right) (place : ρ) (id : String)
    (rows : List (Row ρ)) :
    (rows.map (Row.rename anew)).map (relabel (anew place, id)) =
      (rows.map (relabel (place, id))).map (Row.rename anew) := by
  -- A row is at the place before the renaming exactly if it is so afterwards.
  simp only [List.map_map]
  congr 1
  funext row
  simp only [Function.comp_apply, relabel, Row.rename, distinct]
  split <;> rfl

mutual

/-- An id given in a tree is seen at its place and nowhere else. -/
theorem labels_modifyAt (id : String) (path : List Nat) : ∀ element : Element,
    labels (element.modifyAt (withId id) path) = (labels element).map (relabel (path, id))
  | ⟨name, attributes, text, children⟩ => by
    cases path with
    | nil =>
      -- All other rows stand below the root, so their ways are not empty.
      simp only [modifyAt, withId, setAttribute, labels_node, List.map_cons]
      rw [map_relabel_elsewhere (by simp)]
      simp [relabel]
    | cons index rest =>
      have below := labelsAmong_modifyAmong id ⟨index, rest⟩ children
      have there : modifyAt (withId id) (index :: rest) ⟨name, attributes, text, children⟩ =
          ⟨name, attributes, text, modifyAmong (withId id) ⟨index, rest⟩ children⟩ := rfl
      rw [there, labels_node, below, labels_node, List.map_cons, Place.fromParent_cons,
        map_relabel_rename fun _ _ => Place.fromParent_inj]
      rfl

/-- An id given in several trees is seen at its place and nowhere else. -/
theorem labelsAmong_modifyAmong (id : String) (place : Place) : ∀ trees : List Element,
    labelsAmong (modifyAmong (withId id) place trees) =
      (labelsAmong trees).map (relabel (place, id))
  | [] => by simp [labelsAmong, modifyAmong, locatedAmong]
  | first :: rest => by
    -- The rows of one half are relabelled, and those of the other are elsewhere.
    rcases place.inFirst_or_behind with ⟨path, rfl⟩ | ⟨before, rfl⟩
    · have here := labels_modifyAt id path first
      have there : modifyAmong (withId id) (.inFirst path) (first :: rest) =
          first.modifyAt (withId id) path :: rest := rfl
      rw [there, labelsAmong_cons, here, labelsAmong_cons, List.map_append,
        map_relabel_rename (fun _ _ => Place.inFirst_inj), map_relabel_elsewhere (by simp)]
    · have later := labelsAmong_modifyAmong id before rest
      have there : modifyAmong (withId id) before.behind (first :: rest) =
          first :: modifyAmong (withId id) before rest := rfl
      rw [there, labelsAmong_cons, later, labelsAmong_cons, List.map_append,
        map_relabel_rename (fun _ _ => Place.behind_inj), map_relabel_elsewhere (by simp)]

end

/-- A row after several ids were given. -/
def relabelAll {ρ : Type} [DecidableEq ρ] (given : Given ρ) (row : Row ρ) : Row ρ :=
  given.foldl (fun row gift => relabel gift row) row

/-- Ids given in several trees are seen at their places and nowhere else. -/
theorem labelsAmong_giveIdsAmong (given : Given Place) (trees : List Element) :
    labelsAmong (giveIdsAmong given trees) = (labelsAmong trees).map (relabelAll given) := by
  -- The first id is given to the trees, and the others to the trees that result.
  induction given generalizing trees with
  | nil => exact (List.map_id _).symm
  | cons gift others ih =>
    calc labelsAmong (giveIdsAmong others (modifyAmong (withId gift.2) gift.1 trees))
        = (labelsAmong (modifyAmong (withId gift.2) gift.1 trees)).map (relabelAll others) := ih _
      _ = ((labelsAmong trees).map (relabel gift)).map (relabelAll others) := by
          rw [labelsAmong_modifyAmong]
      _ = (labelsAmong trees).map (relabelAll (gift :: others)) := by
          rw [List.map_map]
          rfl

section Rows

variable {ρ : Type} [DecidableEq ρ] {given : Given ρ} {row : Row ρ}

/-- No row is moved by giving ids. -/
@[simp] theorem relabelAll_place (given : Given ρ) (row : Row ρ) :
    (relabelAll given row).1 = row.1 := by
  -- A single id changes at most what is seen at the place.
  induction given generalizing row with
  | nil => rfl
  | cons gift others ih =>
    have kept : (relabel gift row).1 = row.1 := by
      rw [relabel]
      split <;> rfl
    exact (ih _).trans kept

/-- Ids given elsewhere change no row. -/
theorem relabelAll_elsewhere (elsewhere : row.1 ∉ given.map (·.1)) :
    relabelAll given row = row := by
  -- Neither the first id nor any other is given at the place.
  induction given with
  | nil => rfl
  | cons gift others ih =>
    rw [List.map_cons, List.mem_cons, not_or] at elsewhere
    have same : relabel gift row = row := if_neg elsewhere.1
    calc relabelAll others (relabel gift row) = relabelAll others row := by rw [same]
      _ = row := ih elsewhere.2

/-- An id given at the place of a row is the one that the row ends up with. -/
theorem relabelAll_given (distinct : (given.map (·.1)).Nodup) {id : String}
    (member : (row.1, id) ∈ given) : relabelAll given row = (row.1, row.2.1, some id) := by
  induction given generalizing row with
  | nil => cases member
  | cons gift others ih =>
    obtain ⟨absent, apart⟩ := List.nodup_cons.1 distinct
    cases member with
    | head =>
      -- No other id is given at the place of the first.
      have here : relabel (row.1, id) row = (row.1, row.2.1, some id) := if_pos rfl
      calc relabelAll others (relabel (row.1, id) row)
          = relabelAll others (row.1, row.2.1, some id) := by rw [here]
        _ = (row.1, row.2.1, some id) := relabelAll_elsewhere absent
    | tail _ later =>
      have other : row.1 ≠ gift.1 := by
        intro same
        exact absent (List.mem_map.2 ⟨(row.1, id), later, same⟩)
      have same : relabel gift row = row := if_neg other
      calc relabelAll others (relabel gift row) = relabelAll others row := by rw [same]
        _ = (row.1, row.2.1, some id) := ih apart later

end Rows

end Element

end BeanWiring
