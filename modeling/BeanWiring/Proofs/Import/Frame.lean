import BeanWiring.Proofs.Import.Gifts
import BeanWiring.Proofs.Markup.Bare

/-!
What giving ids leaves alone: documents keep their paths and their order, and elements their
places, names, texts and the attributes that they had.

Taking the ids away gives back what was there before.
-/

namespace BeanWiring

namespace Element

/-- The element with attributes behind those that it has. -/
def withAttributes (more : List (String × String)) (element : Element) : Element :=
  { element with attributes := element.attributes ++ more }

/-- The element without its id. -/
def withoutId (element : Element) : Element :=
  { element with attributes := Entries.without "id" element.attributes }

/-- No attributes added is nothing changed. -/
@[simp] theorem withAttributes_nil (element : Element) : element.withAttributes [] = element := by
  cases element
  simp [withAttributes]

/-- An id given to an element without one is an attribute behind all others. -/
theorem withId_eq {element : Element} (nameless : element.attribute? "id" = none) (id : String) :
    element.withId id = element.withAttributes [("id", id)] := by
  -- An attribute with a new key goes behind those that are there.
  have unknown := Entries.get?_eq_none_iff.1 nameless
  simp [withId, setAttribute, withAttributes, Entries.set_new id unknown]

/-- An id that was given can be taken away again. -/
theorem withoutId_withId {element : Element} (nameless : element.attribute? "id" = none)
    (id : String) : (element.withId id).withoutId = element := by
  -- Without an id no attribute is left out.
  have unknown := Entries.get?_eq_none_iff.1 nameless
  have same : Entries.without "id" element.attributes = element.attributes := by
    rw [Entries.without, List.filter_eq_self]
    intro entry member
    simpa using fun equal => unknown (List.mem_map.2 ⟨entry, member, equal⟩)
  cases element
  simpa [withId, setAttribute, withoutId, Entries.without_set] using same

/-- A change of an element by itself is seen at its place and nowhere else. -/
theorem alone_at?_modifyAt {change : Element → Element}
    (keeps : ∀ element, (change element).children = element.children) (path other : List Nat)
    (element : Element) :
    ((element.modifyAt change path).at? other).map alone =
      (element.at? other).map fun found =>
        if other = path then (change found).alone else found.alone := by
  -- The induction is on the way of the change; the other way parts from it or goes along.
  induction path generalizing element other with
  | nil =>
    cases other with
    | nil => simp [modifyAt]
    | cons index rest => simp [modifyAt, at?, keeps]
  | cons step path ih =>
    cases other with
    | nil => simp [modifyAt, alone]
    | cons index rest =>
      simp only [modifyAt, at?, List.getElem?_modify, List.cons.injEq]
      cases element.children[index]? with
      | none => simp
      | some child =>
        by_cases along : step = index
        · subst along
          simp [ih]
        · simp [along, Ne.symm along]

/-- A change of an element by itself is seen at its place of several trees and nowhere else. -/
theorem alone_among?_modifyAmong {change : Element → Element}
    (keeps : ∀ element, (change element).children = element.children) (place other : Place)
    (trees : List Element) :
    (among? (modifyAmong change place trees) other).map alone =
      (among? trees other).map fun found =>
        if other = place then (change found).alone else found.alone := by
  -- Another tree is left alone, and in the same tree the ways decide.
  obtain ⟨tree, path⟩ := place
  obtain ⟨index, way⟩ := other
  simp only [among?, modifyAmong, List.getElem?_modify, Place.mk.injEq]
  cases trees[index]? with
  | none => rfl
  | some found =>
    by_cases same : tree = index
    · subst same
      simpa using alone_at?_modifyAt keeps path way found
    · simp [same, Ne.symm same]

end Element

/-- The ids given at a place, as attributes. -/
def idsGiven (given : Given Place) (place : Place) : List (String × String) :=
  (given.filter fun gift => gift.1 = place).map fun gift => ("id", gift.2)

namespace DocumentSet

/-- The documents without the ids at places. -/
def takeIds (places : List Place) (set : DocumentSet) : DocumentSet :=
  places.foldr (fun place set => set.modifyAt Element.withoutId place) set

/-- Changes at a place of the documents that undo each other change nothing. -/
theorem modifyAt_undone {set : DocumentSet} {place : Place} {found : Element}
    {change undo : Element → Element} (there : set.element? place = some found)
    (undone : undo (change found) = found) :
    (set.modifyAt change place).modifyAt undo place = set := by
  -- Both changes at the place come to one, which changes nothing there.
  apply ext_of_paths
  · simp
  · rw [trees_modifyAt, trees_modifyAt, Element.modifyAmong_modifyAmong]
    exact (Element.modifyAmong_congr there undone).trans (Element.modifyAmong_self place set.trees)

/-- The element at a place where a bean has no id has none. -/
theorem NamelessAt.exists_element {set : DocumentSet} {place : Place}
    (nameless : set.NamelessAt place) :
    ∃ found, set.element? place = some found ∧ found.attribute? "id" = none := by
  obtain ⟨found, there, label⟩ := Option.map_eq_some_iff.1 nameless
  exact ⟨found, there, (Prod.mk.inj label).2⟩

/-- A bean without an id at one place still has none when one is given at another. -/
theorem NamelessAt.modifyAt {set : DocumentSet} {place other : Place}
    (nameless : set.NamelessAt place) (id : String) (apart : place ≠ other) :
    (set.modifyAt (Element.withId id) other).NamelessAt place := by
  -- An id at another place changes nothing here.
  have same := Fits.labelAt?_elsewhere [(other, id)] set (by simpa using apart)
  exact Eq.trans same nameless

section Given

variable {given : Given Place} {set : DocumentSet}

/-- Beans without an id at places that are all different have none when the first is given one. -/
theorem nameless_behind {gift : Place × String} (apart : ((gift :: given).map (·.1)).Nodup)
    (nameless : ∀ other ∈ gift :: given, set.NamelessAt other.1) :
    ∀ other ∈ given, (set.modifyAt (Element.withId gift.2) gift.1).NamelessAt other.1 := by
  -- None of the other places is that of the first id.
  intro other member
  apply (nameless other (List.mem_cons_of_mem gift member)).modifyAt
  intro same
  exact (List.nodup_cons.1 apart).1 (List.mem_map.2 ⟨other, member, same⟩)

/-- Of all that elements are by themselves only the ids given change, as last attributes. -/
theorem alone_giveIds (apart : (given.map (·.1)).Nodup)
    (nameless : ∀ gift ∈ given, set.NamelessAt gift.1) (place : Place) :
    ((set.giveIds given).element? place).map Element.alone =
      (set.element? place).map fun found =>
        (found.withAttributes (idsGiven given place)).alone := by
  -- The induction is on the ids: one is given, and then the others, at other places.
  induction given generalizing set with
  | nil =>
    have none : idsGiven [] place = [] := rfl
    simp only [none, Element.withAttributes_nil]
    rfl
  | cons gift others ih =>
    obtain ⟨elsewhere, distinct⟩ := List.nodup_cons.1 apart
    have still := nameless_behind apart nameless
    have first : ((set.modifyAt (Element.withId gift.2) gift.1).element? place).map Element.alone =
        (set.element? place).map fun found =>
          if place = gift.1 then (found.withId gift.2).alone else found.alone := by
      rw [element?, trees_modifyAt]
      have keeps : ∀ element : Element, (element.withId gift.2).children = element.children :=
        fun _ => rfl
      exact Element.alone_among?_modifyAmong keeps gift.1 place set.trees
    calc ((set.giveIds (gift :: others)).element? place).map Element.alone
        = ((set.modifyAt (Element.withId gift.2) gift.1).element? place).map fun found =>
            (found.withAttributes (idsGiven others place)).alone := ih distinct still
      _ = (((set.modifyAt (Element.withId gift.2) gift.1).element? place).map Element.alone).map
            (Element.withAttributes (idsGiven others place)) := by
          rw [Option.map_map]
          rfl
      _ = (set.element? place).map fun found =>
            (found.withAttributes (idsGiven (gift :: others) place)).alone := by
          rw [first, Option.map_map]
          by_cases here : place = gift.1
          · -- No other id is given at the place of the first.
            subst here
            have none : idsGiven others gift.1 = [] := by
              rw [idsGiven, List.map_eq_nil_iff, List.filter_eq_nil_iff]
              intro other member same
              exact elsewhere (List.mem_map.2 ⟨other, member, by simpa using same⟩)
            have one : idsGiven (gift :: others) gift.1 =
                ("id", gift.2) :: idsGiven others gift.1 := by
              simp [idsGiven]
            obtain ⟨found, there, unnamed⟩ :=
              (nameless gift List.mem_cons_self).exists_element
            simp only [there, none, one, Option.map_some, if_true, Function.comp_apply,
              Element.withId_eq unnamed]
            simp [Element.withAttributes, Element.alone]
          · have passed : idsGiven (gift :: others) place = idsGiven others place := by
              simp [idsGiven, Ne.symm here]
            simp only [passed, if_neg here]
            rfl

/-- Ids that were given can be taken away again. -/
theorem takeIds_giveIds (apart : (given.map (·.1)).Nodup)
    (nameless : ∀ gift ∈ given, set.NamelessAt gift.1) :
    (set.giveIds given).takeIds (given.map (·.1)) = set := by
  -- The id that was given last is taken away first.
  induction given generalizing set with
  | nil => rfl
  | cons gift others ih =>
    obtain ⟨elsewhere, distinct⟩ := List.nodup_cons.1 apart
    have still := nameless_behind apart nameless
    obtain ⟨found, there, unnamed⟩ := (nameless gift List.mem_cons_self).exists_element
    calc (set.giveIds (gift :: others)).takeIds ((gift :: others).map (·.1))
        = (set.modifyAt (Element.withId gift.2) gift.1).modifyAt Element.withoutId gift.1 :=
          congrArg (DocumentSet.modifyAt Element.withoutId gift.1) (ih distinct still)
      _ = set := modifyAt_undone there (Element.withoutId_withId unnamed gift.2)

end Given

/--
Documents that differ from others by ids and by nothing else: each id is new, and is the last
attribute of a bean that had none. Taken away again they leave the others.
-/
structure MarkedWith (marked origin : DocumentSet) (given : Given Place) : Prop where
  fits : origin.Fits given
  paths : marked.paths = origin.paths
  elements : ∀ place, (marked.element? place).map Element.alone =
    (origin.element? place).map fun found =>
      (found.withAttributes (idsGiven given place)).alone
  taken : marked.takeIds (given.map (·.1)) = origin

/-- Giving ids that fit marks documents with them. -/
theorem Fits.markedWith {set : DocumentSet} {given : Given Place} (fits : set.Fits given) :
    (set.giveIds given).MarkedWith set given :=
  ⟨fits, paths_giveIds given set, alone_giveIds fits.apart fits.nameless,
    takeIds_giveIds fits.apart fits.nameless⟩

end DocumentSet

end BeanWiring
