import BeanWiring.Proofs.Import.Gifts
import BeanWiring.Proofs.Markup.Search

/-!
The two searches of a set of documents, one to read a declaration and one to change it.

Main statement: they agree. In a tree both end at the first element in document order that meets
the condition, and in a set both end at the first declaration of the id in the first document that
has one, if the id is declared at all.
-/

namespace BeanWiring

/-- The ids of a document are those that elements of its tree declare. -/
theorem Document.mem_beanIds (document : Document) (id : String) :
    id ∈ document.beanIds ↔ ∃ found ∈ document.root.descendants, found.declares id = true := by
  simp [beanIds, List.mem_filterMap, Element.declares, and_assoc]

/-- A document is searched for an id as its tree is. -/
theorem Document.searches_or_none (document : Document) (id : String) :
    (id ∉ document.beanIds ∧ document.findBean? id = none ∧
        ∀ change, document.updateBean? id change = none) ∨
      ∃ path found, document.root.SearchesEndAt (Element.declares id) path found := by
  rcases Element.searches_or_none (Element.declares id) document.root with
    ⟨others, read, written⟩ | ⟨path, found, ends⟩
  -- An id that an element declares is an id of the document.
  · refine .inl ⟨?_, read, fun change => ?_⟩
    · rw [mem_beanIds]
      rintro ⟨found, member, declares⟩
      rw [others found member] at declares
      cases declares
    · rw [updateBean?, written change, Option.map_none]
  · exact .inr ⟨path, found, ends⟩

/--
Whether both searches of a set of documents end at a declaration: no document in front of its own
has the id, it is what both searches of its own tree end at, and a change leaves everything else in
the set as it was.
-/
structure DocumentSet.SearchesEndAt (set : DocumentSet) (id : String) (index : Nat)
    (document : Document) (path : List Nat) (declaration : Element) : Prop where
  stands : set.documents[index]? = some document
  front : ∀ earlier other, earlier < index → set.documents[earlier]? = some other →
    id ∉ other.beanIds
  inside : document.root.SearchesEndAt (Element.declares id) path declaration
  read : set.findBean? id = some (document.path, declaration)
  written : ∀ change, ∃ root, Element.ChangedAt change path document.root root ∧
    set.updateBean? id change =
      some ⟨set.documents.set index { document with root := root }⟩

namespace DocumentSet

/-- The ids that documents declare are those of each of them. -/
theorem mem_declaredIds_iff_exists_document (set : DocumentSet) (id : String) :
    id ∈ set.declaredIds ↔ ∃ document ∈ set.documents, id ∈ document.beanIds :=
  List.mem_flatMap

/-- A declaration in the first document is found there and changed there. -/
theorem searchesEndAt_first {id : String} {document : Document} {path : List Nat}
    {declaration : Element} (rest : List Document)
    (inside : document.root.SearchesEndAt (Element.declares id) path declaration) :
    SearchesEndAt ⟨document :: rest⟩ id 0 document path declaration := by
  have read : document.findBean? id = some declaration := inside.read
  constructor
  case stands => rfl
  -- No document stands in front of the first one.
  case front => exact fun earlier _ before => absurd before (Nat.not_lt_zero earlier)
  case inside => exact inside
  case read => simp [findBean?, read]
  case written =>
    intro change
    obtain ⟨root, search, changed⟩ := inside.written change
    exact ⟨root, changed, by simp [updateBean?, updateAmong?, Document.updateBean?, search]⟩

/-- A document without the id is passed by both searches. -/
theorem SearchesEndAt.behind {id : String} {documents : List Document} {index : Nat}
    {document : Document} {path : List Nat} {declaration : Element}
    (ends : SearchesEndAt ⟨documents⟩ id index document path declaration) {first : Document}
    (lacks : id ∉ first.beanIds) (read : first.findBean? id = none)
    (written : ∀ change, first.updateBean? id change = none) :
    SearchesEndAt ⟨first :: documents⟩ id (index + 1) document path declaration := by
  constructor
  case stands => simpa using ends.stands
  case front =>
    intro earlier other before there
    cases earlier with
    | zero =>
      obtain rfl : first = other := by simpa using there
      exact lacks
    | succ earlier =>
      exact ends.front earlier other (Nat.lt_of_succ_lt_succ before) (by simpa using there)
  case inside => exact ends.inside
  case read =>
    have later := ends.read
    simp only [findBean?] at later ⊢
    simp [read, later]
  case written =>
    intro change
    obtain ⟨root, changed, later⟩ := ends.written change
    refine ⟨root, changed, ?_⟩
    -- The changed documents of the rest stand behind the first one.
    obtain ⟨others, search, same⟩ := Option.map_eq_some_iff.1 later
    obtain rfl := DocumentSet.mk.inj same
    simp only at search
    simp [updateBean?, updateAmong?, written change, search]

/-- Both searches of a set end at one declaration, or no document has the id. -/
theorem searches_or_none (set : DocumentSet) (id : String) :
    (id ∉ set.declaredIds ∧ set.findBean? id = none ∧
        ∀ change, set.updateBean? id change = none) ∨
      id ∈ set.declaredIds ∧ ∃ index document path declaration,
        set.SearchesEndAt id index document path declaration := by
  obtain ⟨documents⟩ := set
  -- The induction is on the documents, of which the first one decides or is passed.
  induction documents with
  | nil => exact .inl ⟨by simp [declaredIds], rfl, fun _ => rfl⟩
  | cons first rest ih =>
    have ids : declaredIds ⟨first :: rest⟩ = first.beanIds ++ declaredIds ⟨rest⟩ := rfl
    rw [ids, List.mem_append]
    rcases first.searches_or_none id with ⟨lacks, read, written⟩ | ⟨path, declaration, inside⟩
    · rcases ih with ⟨undeclared, nowhere, unchanged⟩ | ⟨declared, index, document, path,
        declaration, ends⟩
      · refine .inl ⟨not_or.2 ⟨lacks, undeclared⟩, ?_, fun change => ?_⟩
        · simp only [findBean?] at nowhere ⊢
          simp [read, nowhere]
        · have others := unchanged change
          simp only [updateBean?, Option.map_eq_none_iff] at others ⊢
          simp [updateAmong?, written change, others]
      · exact .inr ⟨.inr declared, index + 1, document, path, declaration,
          ends.behind lacks read written⟩
    · have holds : id ∈ first.beanIds := (first.mem_beanIds id).2
        ⟨declaration, List.mem_of_find?_eq_some inside.read, inside.first.holds⟩
      exact .inr ⟨.inl holds, 0, first, path, declaration, searchesEndAt_first rest inside⟩

end DocumentSet

/--
The two searches agree. Going through a tree on a stack takes off each element once, in document
order, which is the root and then the elements of each child in turn. The search that changes an
element ends at the first of these that meets the condition, or nowhere if none does, and changes
that element and no other. So in a set of documents both searches for an id end at one declaration,
the first in the first document that has one, and they do so exactly if some document declares it.
-/
theorem searches_agree :
    (∀ element : Element,
      Element.TakesOff [element] element.descendants ∧
      element.descendants = element :: element.children.flatMap Element.descendants ∧
      ∃ places, Enumerates (· < ·) places (fun path => (element.at? path).isSome) ∧
        element.descendants.map some = places.map element.at?) ∧
    (∀ (element : Element) (meets : Element → Bool),
      ((∀ found ∈ element.descendants, meets found = false) ∧
          element.descendants.find? meets = none ∧
          ∀ change, element.updateFirst? meets change = none) ∨
        ∃ path found, element.SearchesEndAt meets path found) ∧
    ∀ (set : DocumentSet) (id : String),
      (id ∈ set.declaredIds ↔ ∃ document ∈ set.documents, id ∈ document.beanIds) ∧
      ((id ∉ set.declaredIds ∧ set.findBean? id = none ∧
          ∀ change, set.updateBean? id change = none) ∨
        id ∈ set.declaredIds ∧ ∃ index document path declaration,
          set.SearchesEndAt id index document path declaration) := by
  refine ⟨fun element => ⟨?_, element.descendants_eq_flatMap, ?_⟩, ?_, ?_⟩
  · exact Element.takesOff_sweep [element]
  · refine ⟨_, element.enumerates_located, ?_⟩
    -- Each row of the list is a place with the element that stands there.
    rw [element.descendants_eq, List.map_map, List.map_map]
    refine List.map_congr_left fun row listed => ?_
    exact ((Element.mem_located row.1 row.2 element).1 listed).symm
  · exact fun element meets => Element.searches_or_none meets element
  · exact fun set id => ⟨set.mem_declaredIds_iff_exists_document id, set.searches_or_none id⟩

end BeanWiring
