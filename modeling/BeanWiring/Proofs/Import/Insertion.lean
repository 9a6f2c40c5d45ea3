import BeanWiring.Proofs.Files.Spelling
import BeanWiring.Proofs.Import.Search
import Mathlib.Data.List.Induction

/-!
Sets of documents that grow by insertions, with declarations changed in between.

Main statement: such a set is an ordered map on paths, in which the document that was inserted
first under a path stays, however the path is written.
-/

namespace BeanWiring

namespace DocumentSet

/-- A step in the making of a set: a document is inserted, or the declaration of an id changed. -/
inductive Step where
  | insert (document : Document)
  | edit (id : String) (change : Element → Element)

namespace Step

/-- The path under which a step inserts a document. -/
def path? : Step → Option Path
  | .insert document => some document.path
  | .edit _ _ => none

/-- Whether a step inserts a document under a path, however that is written. -/
def inserts (path : Path) (step : Step) : Bool :=
  step.path?.any fun other => other.same path

end Step

/-- The set after a step. -/
def take (set : DocumentSet) : Step → DocumentSet
  | .insert document => (set.add document).2
  | .edit id change => (set.updateBean? id change).getD set

/-- The set that steps make from nothing. -/
def made (steps : List Step) : DocumentSet :=
  steps.foldl take {}

/-- What a step makes of the document under a path: it is edited if the search ends in it. -/
def edited (set : DocumentSet) (path : Path) (document : Document) : Step → Document
  | .insert _ => document
  | .edit id change =>
    -- An edit changes the first document with the bean, which may be another one.
    if (set.findBean? id).any fun found => found.1.same path then
      (document.updateBean? id change).getD document
    else document

/-- What steps make of the document under a path, one after another. -/
def editedAll (path : Path) : DocumentSet → Document → List Step → Document
  | _, document, [] => document
  | set, document, step :: rest =>
    editedAll path (set.take step) (set.edited path document step) rest

/-- One more step is taken after those in front of it. -/
theorem made_append (steps : List Step) (step : Step) :
    made (steps ++ [step]) = (made steps).take step := by
  simp [made]

/-- A document stands under a path if a document has this path, however it is written. -/
theorem contains_iff_any (set : DocumentSet) (path : Path) :
    set.contains path = set.paths.any fun other => other.same path := by
  rw [contains, get?, List.isSome_find?, paths, List.any_map]
  rfl

/-- What stands under a path does not depend on how the path is written. -/
theorem get?_congr {path other : Path} (same : path.same other = true) (set : DocumentSet) :
    set.get? path = set.get? other := by
  simp only [Path.same, beq_iff_eq] at same
  simp only [get?, Path.same, same]

section Get

variable {set : DocumentSet} {path : Path} {document : Document}

/-- A change in the first of several documents that has an id is seen under its path only. -/
theorem find?_updateAmong? (id : String) (change : Element → Element) (path : Path)
    (documents : List Document) :
    ((updateAmong? id change documents).getD documents).find?
        (fun document => document.path.same path) =
      (documents.find? fun document => document.path.same path).map fun document =>
        edited ⟨documents⟩ path document (.edit id change) := by
  -- The induction is on the documents: the first one is changed, or passed by both searches.
  induction documents with
  | nil => rfl
  | cons first rest ih =>
    rcases first.searches_or_none id with ⟨_, read, written⟩ | ⟨_, found, ends⟩
    · have search : findBean? ⟨first :: rest⟩ id = findBean? ⟨rest⟩ id := by
        simp [findBean?, read]
      have step : (updateAmong? id change (first :: rest)).getD (first :: rest) =
          first :: (updateAmong? id change rest).getD rest := by
        rw [updateAmong?, written change]
        cases updateAmong? id change rest <;> rfl
      simp only [edited, search] at ih ⊢
      rw [step, List.find?_cons, List.find?_cons]
      split
      · -- The first document has the path, and nothing of it is changed.
        simp [written change]
      · exact ih
    · have read : first.findBean? id = some found := ends.read
      obtain ⟨root, changed, _⟩ := ends.written change
      have written : first.updateBean? id change = some { first with root := root } := by
        rw [Document.updateBean?, changed, Option.map_some]
      have search : findBean? ⟨first :: rest⟩ id = some (first.path, found) := by
        simp [findBean?, read]
      have step : (updateAmong? id change (first :: rest)).getD (first :: rest) =
          { first with root := root } :: rest := by
        rw [updateAmong?, written]
        rfl
      simp only [edited, search, Option.any_some]
      rw [step, List.find?_cons, List.find?_cons]
      by_cases here : first.path.same path = true
      · simp [here, written]
      · -- No document under the path has been changed.
        simp [here]

/-- A document under a path stays there, edited at most. -/
theorem get?_take_of_some (there : set.get? path = some document) (step : Step) :
    (set.take step).get? path = some (set.edited path document step) := by
  cases step with
  | insert other =>
    simp only [take, add, edited]
    split
    · exact there
    · -- The new document stands behind the one that is found.
      rw [get?, List.find?_append]
      simp only [get?] at there
      rw [there]
      rfl
  | edit id change =>
    have changed := find?_updateAmong? id change path set.documents
    simp only [get?] at there ⊢
    rw [there, Option.map_some] at changed
    simp only [take, updateBean?]
    cases search : updateAmong? id change set.documents with
    | none => simpa [search] using changed
    | some documents => simpa [search] using changed

/-- Where nothing stands, something does after a step only if the step inserts it there. -/
theorem get?_take_of_none (absent : set.get? path = none) (step : Step) :
    (set.take step).get? path =
      match step with
      | .insert document => if document.path.same path then some document else none
      | .edit _ _ => none := by
  cases step with
  | insert other =>
    simp only [take, add]
    by_cases here : other.path.same path = true
    · -- The path of the new document is another way to write this one, so it is new too.
      have fresh : set.contains other.path = false := by
        rw [contains, get?_congr here, absent]
        rfl
      simp only [get?] at absent
      simp [fresh, get?, absent, here]
    · split
      · simpa [here] using absent
      · simp only [get?] at absent
        simp [get?, absent, here]
  | edit id change =>
    have changed := find?_updateAmong? id change path set.documents
    simp only [get?] at absent ⊢
    rw [absent, Option.map_none] at changed
    simp only [take, updateBean?]
    cases search : updateAmong? id change set.documents with
    | none => simpa [search] using changed
    | some documents => simpa [search] using changed

/-- A document under a path stays there through all steps, edited at most. -/
theorem get?_foldl_of_some (there : set.get? path = some document) (steps : List Step) :
    (steps.foldl take set).get? path = some (editedAll path set document steps) := by
  -- The induction is on the steps, with the set and the document that each of them leaves.
  induction steps generalizing set document with
  | nil => exact there
  | cons step rest ih => exact ih (get?_take_of_some there step)

/-- Where no step inserts a document, none stands. -/
theorem get?_made_of_none {steps : List Step} {path : Path}
    (absent : ∀ step ∈ steps, step.inserts path = false) : (made steps).get? path = none := by
  -- The induction is on the steps, the last of which is taken behind the others.
  induction steps using List.reverseRecOn with
  | nil => rfl
  | append_singleton steps step ih =>
    have before := ih fun other member => absent other (List.mem_append_left _ member)
    have last := absent step (by simp)
    rw [made_append, get?_take_of_none before]
    cases step with
    | insert other => simpa [Step.inserts, Step.path?] using last
    | edit id change => rfl

/-- What is inserted first under a path is found there, edited by the steps that follow. -/
theorem get?_made_of_first {before : List Step}
    (absent : ∀ step ∈ before, step.inserts path = false)
    (here : document.path.same path = true) (after : List Step) :
    (made (before ++ .insert document :: after)).get? path =
      some (editedAll path (made (before ++ [.insert document])) document after) := by
  -- No step in front inserts under the path, so the document is added.
  have inserted : (made (before ++ [.insert document])).get? path = some document := by
    rw [made_append, get?_take_of_none (get?_made_of_none absent)]
    exact if_pos here
  have split : made (before ++ .insert document :: after) =
      after.foldl take (made (before ++ [.insert document])) := by
    simp [made]
  rw [split, get?_foldl_of_some inserted]

end Get

/-- The paths after a step: an insertion adds one at the end, if none of them is the same. -/
theorem paths_take (set : DocumentSet) (step : Step) :
    (set.take step).paths =
      set.paths ++ step.path?.toList.filter fun path => !set.contains path := by
  cases step with
  | insert document =>
    cases there : set.contains document.path <;> simp [take, add, Step.path?, paths, there]
  -- An edit changes a tree and no path.
  | edit id change =>
    simp only [take, updateBean?_eq, Step.path?, Option.toList_none, List.filter_nil,
      List.append_nil]
    cases set.placeOf? id with
    | none => rfl
    | some place => exact paths_modifyAt change place set

/-- Steps add the paths that they insert, in order, but for those that are there already. -/
theorem paths_foldl_take (set : DocumentSet) (steps : List Step) :
    (steps.foldl take set).paths =
      set.paths ++ ((steps.filterMap Step.path?).filter fun path =>
        !set.contains path).eraseDupsBy Path.same := by
  -- The induction is on the steps, with the set that each of them leaves.
  induction steps generalizing set with
  | nil => simp
  | cons step rest ih =>
    have first := paths_take set step
    have there : ∀ path, (set.take step).contains path =
        (set.contains path || (step.path?.toList.filter fun path => !set.contains path).any
          fun other => other.same path) := by
      intro path
      rw [contains_iff_any, contains_iff_any, first, List.any_append]
    rw [List.foldl_cons, ih, first, List.append_assoc]
    simp only [there]
    cases step with
    | edit id change => simp [List.filterMap_cons, Step.path?]
    | insert document =>
      cases known : set.contains document.path with
      | true => simp [Step.path?, known]
      | false =>
        -- The paths that are the same as the new one are left out of those that follow.
        simp [Step.path?, known, List.eraseDupsBy_cons, List.filter_filter,
          Path.same_comm document.path, Bool.and_comm]

/-- A step keeps the paths of a set different. -/
theorem distinct_take {set : DocumentSet}
    (distinct : set.paths.Pairwise fun earlier later => earlier.same later = false)
    (step : Step) :
    (set.take step).paths.Pairwise fun earlier later => earlier.same later = false := by
  rw [paths_take]
  cases step with
  | edit id change => simpa [Step.path?] using distinct
  | insert document =>
    cases known : set.contains document.path with
    | true => simpa [Step.path?, known] using distinct
    | false =>
      -- The path at the end is the same as none of those in front of it.
      have fresh : ∀ path ∈ set.paths, path.same document.path = false := by
        simpa [contains_iff_any] using known
      simpa [Step.path?, known, List.pairwise_append] using ⟨distinct, fresh⟩

/-- Where some step inserts a document, a first one does. -/
theorem exists_first_insertion {steps : List Step} {path : Path}
    (inserted : ∃ step ∈ steps, step.inserts path = true) :
    ∃ before document after, steps = before ++ .insert document :: after ∧
      (∀ step ∈ before, step.inserts path = false) ∧ document.path.same path = true := by
  obtain ⟨step, found⟩ := Option.isSome_iff_exists.1 (List.find?_isSome.2 inserted)
  obtain ⟨inserts, before, after, rfl, passed⟩ := List.find?_eq_some_iff_append.1 found
  -- The step that was found is an insertion, since an edit inserts nothing.
  cases step with
  | edit id change => simp [Step.inserts, Step.path?] at inserts
  | insert document =>
    exact ⟨before, document, after, rfl, by simpa using passed,
      by simpa [Step.inserts, Step.path?] using inserts⟩

/-- A path stands in a set that steps make exactly if one of them inserts it. -/
theorem contains_made_iff (steps : List Step) (path : Path) :
    (made steps).contains path = true ↔ ∃ step ∈ steps, step.inserts path = true := by
  constructor
  · -- Where nothing is inserted, nothing stands.
    intro there
    by_contra nowhere
    have absent : ∀ step ∈ steps, step.inserts path = false := by simpa using nowhere
    rw [contains, get?_made_of_none absent] at there
    contradiction
  · -- What is inserted first stays to the end.
    intro inserted
    obtain ⟨before, document, after, rfl, absent, here⟩ := exists_first_insertion inserted
    rw [contains, get?_made_of_first absent here]
    rfl

/-- A document is added at the end, or it is not because its path is there. -/
theorem add_eq (set : DocumentSet) (document : Document) :
    ((∀ path ∈ set.paths, path.same document.path = false) ∧
        set.add document = (true, ⟨set.documents ++ [document]⟩)) ∨
      ((∃ path ∈ set.paths, path.same document.path = true) ∧ set.add document = (false, set)) := by
  -- Looking for the path is looking through the paths that stand there.
  cases known : set.contains document.path with
  | true =>
    have there := known
    rw [contains_iff_any, List.any_eq_true] at there
    exact .inr ⟨there, by simp [add, known]⟩
  | false =>
    have fresh := known
    rw [contains_iff_any, List.any_eq_false] at fresh
    exact .inl ⟨by simpa using fresh, by simp [add, known]⟩

/-- The first document of a set that declares an id is the one that is searched for. -/
theorem findBean?_eq_some_iff {set : DocumentSet} {id : String} {path : Path}
    {declaration : Element} :
    set.findBean? id = some (path, declaration) ↔
      ∃ front document behind, set.documents = front ++ document :: behind ∧
        (∀ earlier ∈ front, earlier.findBean? id = none) ∧ document.path = path ∧
        document.findBean? id = some declaration := by
  simp only [findBean?, List.findSome?_eq_some_iff, Option.map_eq_some_iff, Option.map_eq_none_iff,
    Prod.mk.injEq]
  -- The first document with the bean is the one behind those without it.
  constructor
  · rintro ⟨front, document, behind, cut, ⟨_, found, rfl, rfl⟩, passed⟩
    exact ⟨front, document, behind, cut, passed, rfl, found⟩
  · rintro ⟨front, document, behind, cut, passed, rfl, found⟩
    exact ⟨front, document, behind, cut, ⟨declaration, found, rfl, rfl⟩, passed⟩

/--
Whether a set is the ordered map on paths that steps make, with the first document under each path.
-/
structure KeepsFirst (steps : List Step) (set : DocumentSet) : Prop where
  /-- No two documents stand under one path. -/
  distinct : set.paths.Pairwise fun earlier later => earlier.same later = false
  /-- The paths stand in the order in which each was inserted first. -/
  order : set.paths = (steps.filterMap Step.path?).eraseDupsBy Path.same
  /-- A further document is added at the end exactly if its path is new. -/
  added : ∀ document,
    ((∀ path ∈ set.paths, path.same document.path = false) ∧
        set.add document = (true, ⟨set.documents ++ [document]⟩)) ∨
      ((∃ path ∈ set.paths, path.same document.path = true) ∧ set.add document = (false, set))
  /-- A path stands in the set exactly if some step inserts it. -/
  inserted : ∀ path, set.contains path = true ↔ ∃ step ∈ steps, step.inserts path = true
  /-- Under a path stands the document that was inserted first, with the edits made since. -/
  first : ∀ before document after path, steps = before ++ .insert document :: after →
    (∀ step ∈ before, step.inserts path = false) → document.path.same path = true →
    set.get? path = some (editedAll path (made (before ++ [.insert document])) document after)
  /-- It does not matter how a path is written. -/
  spelling : ∀ path other, path.Spells other →
    set.get? path = set.get? other ∧ set.contains path = set.contains other
  /-- Declarations are searched for in the order of the documents. -/
  searched : ∀ id path declaration, set.findBean? id = some (path, declaration) ↔
    ∃ front document behind, set.documents = front ++ document :: behind ∧
      (∀ earlier ∈ front, earlier.findBean? id = none) ∧ document.path = path ∧
      document.findBean? id = some declaration

end DocumentSet

open DocumentSet in
/--
A set that grows by insertions, with edits of declarations in between, is an ordered map on paths
in which the first document under a path stays. Paths are the same exactly if they can be written
for each other.
-/
theorem first_document_stays :
    (∀ left right : Path, left.same right = true ↔ left.Spells right) ∧
      ∀ steps : List Step, KeepsFirst steps (made steps) := by
  refine ⟨Path.same_iff_spells, fun steps => ?_⟩
  constructor
  case distinct =>
    -- Each step keeps the paths different.
    induction steps using List.reverseRecOn with
    | nil => exact .nil
    | append_singleton steps step ih =>
      rw [made_append]
      exact distinct_take ih step
  case order =>
    have order := paths_foldl_take {} steps
    simpa [made, contains, get?, paths] using order
  case added => exact add_eq (made steps)
  case inserted => exact contains_made_iff steps
  case first =>
    rintro before document after path rfl absent here
    exact get?_made_of_first absent here after
  case spelling =>
    intro path other spells
    have same := get?_congr ((Path.same_iff_spells path other).2 spells) (made steps)
    exact ⟨same, congrArg Option.isSome same⟩
  case searched => exact fun _ _ _ => findBean?_eq_some_iff

end BeanWiring
