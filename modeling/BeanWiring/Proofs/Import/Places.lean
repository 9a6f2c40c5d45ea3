import BeanWiring.Import.DocumentSet
import BeanWiring.Proofs.Markup.Ids

/-!
Places in sets of documents: a set is searched as the row of its trees is.

An id given where there was none is found there, and it hides no other.
-/

namespace BeanWiring

/-- An element that declares an id is labelled as a bean with that id. -/
theorem Element.declares_iff (id : String) (element : Element) :
    element.declares id = true ↔ element.label = ("bean", some id) := by
  simp [declares, label]

namespace DocumentSet

/-- The trees of the documents in order. -/
def trees (set : DocumentSet) : List Element :=
  set.documents.map (·.root)

/-- The element at a place of the documents. -/
def element? (set : DocumentSet) (place : Place) : Option Element :=
  Element.among? set.trees place

/-- The element at a place of the documents with the path of its document. -/
def pathAndElement? (set : DocumentSet) (place : Place) : Option (Path × Element) :=
  set.documents[place.tree]?.bind fun document =>
    (document.root.at? place.path).map fun element => (document.path, element)

/-- The place of the declaration that a search for an id ends at. -/
def placeOf? (set : DocumentSet) (id : String) : Option Place :=
  ((Element.locatedAmong set.trees).find? fun found => found.2.declares id).map (·.1)

/-- The set with the element at a place changed. -/
def modifyAt (change : Element → Element) (place : Place) (set : DocumentSet) : DocumentSet :=
  ⟨set.documents.modify place.tree fun document =>
    { document with root := document.root.modifyAt change place.path }⟩

/-- The set with ids given at places of its documents. -/
def giveIds (given : Given Place) (set : DocumentSet) : DocumentSet :=
  given.foldl (fun set gift => set.modifyAt (Element.withId gift.2) gift.1) set

/-- The trees of a changed set are the changed trees. -/
@[simp] theorem trees_modifyAt (change : Element → Element) (place : Place) (set : DocumentSet) :
    (set.modifyAt change place).trees = Element.modifyAmong change place set.trees := by
  -- The tree at an index is changed on both sides, or on neither.
  apply List.ext_getElem?
  intro index
  simp only [trees, modifyAt, Element.modifyAmong, List.getElem?_map, List.getElem?_modify]
  cases set.documents[index]? with
  | none => rfl
  | some document => by_cases on : place.tree = index <;> simp [on]

/-- The trees of a set with ids given are the trees with these ids. -/
@[simp] theorem trees_giveIds (given : Given Place) (set : DocumentSet) :
    (set.giveIds given).trees = Element.giveIdsAmong given set.trees := by
  induction given generalizing set with
  | nil => rfl
  | cons gift others ih =>
    -- The first id is given, and the others are given in what that leaves.
    calc ((set.modifyAt (Element.withId gift.2) gift.1).giveIds others).trees
        = Element.giveIdsAmong others
            (set.modifyAt (Element.withId gift.2) gift.1).trees := ih _
      _ = Element.giveIdsAmong (gift :: others) set.trees := by
          rw [trees_modifyAt]
          rfl

/-- Ids given in two goes are given one after the other. -/
theorem giveIds_append (given more : Given Place) (set : DocumentSet) :
    set.giveIds (given ++ more) = (set.giveIds given).giveIds more := by
  simp [giveIds]

/-- No document is moved by a change. -/
@[simp] theorem paths_modifyAt (change : Element → Element) (place : Place) (set : DocumentSet) :
    (set.modifyAt change place).paths = set.paths := by
  apply List.ext_getElem?
  intro index
  simp only [paths, modifyAt, List.getElem?_map, List.getElem?_modify]
  -- Changing a tree leaves the path of its document.
  cases set.documents[index]? with
  | none => rfl
  | some document => by_cases on : place.tree = index <;> simp [on]

/-- No document is moved by giving ids. -/
@[simp] theorem paths_giveIds (given : Given Place) (set : DocumentSet) :
    (set.giveIds given).paths = set.paths := by
  -- Each id is given inside a tree.
  induction given generalizing set with
  | nil => rfl
  | cons gift others ih => exact (ih _).trans (paths_modifyAt _ _ _)

/-- A set is determined by the paths and the trees of its documents. -/
theorem ext_of_paths {left right : DocumentSet} (paths : left.paths = right.paths)
    (trees : left.trees = right.trees) : left = right := by
  -- The induction goes through both lists of documents at once.
  obtain ⟨documents⟩ := left
  obtain ⟨others⟩ := right
  simp only [DocumentSet.paths, DocumentSet.trees] at paths trees
  congr 1
  induction documents generalizing others with
  | nil =>
    cases others with
    | nil => rfl
    | cons other rest => cases paths
  | cons document rest ih =>
    cases others with
    | nil => cases paths
    | cons other remaining =>
      obtain ⟨path, furtherPaths⟩ := List.cons.inj paths
      obtain ⟨root, furtherTrees⟩ := List.cons.inj trees
      have same : document = other := by
        cases document
        cases other
        simp_all
      rw [same, ih remaining furtherPaths furtherTrees]

/-- Replacing the element at a place by itself with ids below it is giving these ids. -/
theorem modifyAt_giveIds {set : DocumentSet} {place : Place} {found : Element}
    (there : set.element? place = some found) (given : Given (List Nat)) :
    set.modifyAt (fun _ => found.giveIds given) place =
      set.giveIds (given.map fun gift => (place.down gift.1, gift.2)) := by
  -- No path changes, and of the trees only the one at the place does.
  apply ext_of_paths
  · rw [paths_modifyAt, paths_giveIds]
  · rw [trees_modifyAt, trees_giveIds, Element.giveIdsAmong_down]
    exact Element.modifyAmong_congr there rfl

/-- The id at a place of the documents, empty if there is none. -/
def idAt (set : DocumentSet) (place : Place) : String :=
  Element.idAmong set.trees place

/-- With ids given below an element, the element with these ids stands in its place. -/
theorem element?_giveIds {set : DocumentSet} {place : Place} {found : Element}
    (there : set.element? place = some found) (given : Given (List Nat)) :
    (set.giveIds (given.map fun gift => (place.down gift.1, gift.2))).element? place =
      some (found.giveIds given) := by
  -- Ids given below the element change it where it stands.
  rw [element?, trees_giveIds, Element.giveIdsAmong_down, Element.among?_modifyAmong_self _ there]

/-- With ids given below an element, the ids there are those of the element with these ids. -/
theorem idAt_giveIds_down {set : DocumentSet} {place : Place} {found : Element}
    (there : set.element? place = some found) (given : Given (List Nat)) (path : List Nat) :
    (set.giveIds (given.map fun gift => (place.down gift.1, gift.2))).idAt (place.down path) =
      (found.giveIds given).idAt path := by
  -- Ids given below a place are given in the element that stands there.
  rw [idAt, Element.idAmong, Element.among?_down, ← element?, element?_giveIds there]
  rfl

/-- An entry is the element at its place under the path of the document there. -/
theorem pathAndElement?_eq (set : DocumentSet) (place : Place) :
    set.pathAndElement? place =
      set.paths[place.tree]?.bind fun path => (set.element? place).map fun element =>
        (path, element) := by
  simp only [pathAndElement?, element?, Element.among?, paths, trees, List.getElem?_map]
  cases set.documents[place.tree]? <;> rfl

/-- A search in the first of several documents ends in it or goes on behind it. -/
theorem placeOf?_cons (document : Document) (rest : List Document) (id : String) :
    placeOf? ⟨document :: rest⟩ id =
      (((Element.located document.root).find? fun found => found.2.declares id).map fun found =>
        .inFirst found.1).or ((placeOf? ⟨rest⟩ id).map Place.behind) := by
  -- The first document is searched, and only then the others are.
  simp [placeOf?, trees, Element.locatedAmong, List.find?_append, List.find?_map,
    Function.comp_def, Option.map_or]

/-- A document is searched as its tree is. -/
theorem findBean?_document (document : Document) (id : String) :
    document.findBean? id =
      ((Element.located document.root).find? fun found => found.2.declares id).map (·.2) := by
  -- The elements of a document are those that are listed with their places.
  rw [Document.findBean?, Element.descendants_eq, List.find?_map]
  rfl

/-- A search for a declaration ends at its place. -/
theorem findBean?_eq (set : DocumentSet) (id : String) :
    set.findBean? id = (set.placeOf? id).bind set.pathAndElement? := by
  obtain ⟨documents⟩ := set
  induction documents with
  | nil => rfl
  | cons document rest ih =>
    simp only [findBean?, placeOf?_cons] at ih ⊢
    rw [List.findSome?_cons, findBean?_document]
    cases first : (Element.located document.root).find? fun found => found.2.declares id with
    | some found =>
      have listed := List.mem_of_find?_eq_some first
      have there := (Element.mem_located found.1 found.2 document.root).1 listed
      simp [pathAndElement?, Place.inFirst, there]
    | none =>
      -- The places of the others are counted from the next document on.
      simp only [Option.map_none, Option.none_or, ih, Option.bind_map]
      rfl

/-- A declaration is changed at its place. -/
theorem updateBean?_eq (set : DocumentSet) (id : String) (change : Element → Element) :
    set.updateBean? id change = (set.placeOf? id).map fun place => set.modifyAt change place := by
  obtain ⟨documents⟩ := set
  simp only [updateBean?]
  induction documents with
  | nil => rfl
  | cons document rest ih =>
    rw [updateAmong?, placeOf?_cons, Document.updateBean?, Element.updateFirst?_eq]
    cases first : (Element.located document.root).find? fun found => found.2.declares id with
    | some found => simp [modifyAt, Place.inFirst]
    | none =>
      -- The change is made further behind, and the first document stays in front.
      have others := congrArg (Option.map fun set => (⟨document :: set.documents⟩ : DocumentSet)) ih
      simpa [Function.comp_def, modifyAt, Place.behind] using others

/-- The ids declared are those of the elements that are beans. -/
theorem mem_declaredIds (set : DocumentSet) (id : String) :
    id ∈ set.declaredIds ↔
      ∃ place, (set.element? place).map Element.label = some ("bean", some id) := by
  -- The ids are those of the beans among all the elements listed.
  have listed : set.documents.flatMap (fun document => document.root.descendants) =
      (Element.locatedAmong set.trees).map (·.2) := by
    simp [Element.locatedAmong_map_snd, trees, List.flatMap_map, Element.descendants_eq]
  have swept : set.declaredIds =
      (((Element.locatedAmong set.trees).map (·.2)).filter fun element =>
        element.name == "bean").filterMap fun element => element.attribute? "id" := by
    simp only [← listed, List.filter_flatMap, List.filterMap_flatMap]
    rfl
  rw [swept]
  constructor
  · intro declared
    obtain ⟨element, bean, named⟩ := List.mem_filterMap.1 declared
    obtain ⟨member, isBean⟩ := List.mem_filter.1 bean
    obtain ⟨found, stands, rfl⟩ := List.mem_map.1 member
    have there := (Element.mem_locatedAmong found.1 found.2 set.trees).1 stands
    exact ⟨found.1, by simpa [element?, there, Element.label, named] using isBean⟩
  · rintro ⟨place, labelled⟩
    obtain ⟨element, there, label⟩ := Option.map_eq_some_iff.1 labelled
    obtain ⟨isBean, named⟩ := Prod.mk.inj label
    have stands := (Element.mem_locatedAmong place element set.trees).2 there
    exact List.mem_filterMap.2 ⟨element,
      List.mem_filter.2 ⟨List.mem_map_of_mem stands, by simpa using isBean⟩, named⟩

end DocumentSet

end BeanWiring
