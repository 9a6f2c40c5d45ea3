import BeanWiring.Proofs.Import.Places
import Mathlib.Data.List.Find
import Mathlib.Data.List.Nodup

/-!
Ids given in a set of documents, each new and at a bean that had none.

Such an id is found where it was given, and what other ids lead to stays as it was.
-/

namespace BeanWiring

namespace DocumentSet

/-- What searches for ids look at in the element at a place. -/
def labelAt? (set : DocumentSet) (place : Place) : Option (String × Option String) :=
  (set.element? place).map Element.label

/-- Whether a bean without an id stands at a place. -/
def NamelessAt (set : DocumentSet) (place : Place) : Prop :=
  set.labelAt? place = some ("bean", none)

/-- Whether a bean with an id stands at a place. -/
def DeclaredAt (set : DocumentSet) (id : String) (place : Place) : Prop :=
  set.labelAt? place = some ("bean", some id)

/-- A bean either has an id or has none. -/
theorem NamelessAt.not_declaredAt {set : DocumentSet} {place : Place} {id : String}
    (nameless : set.NamelessAt place) : ¬ set.DeclaredAt id place := by
  intro declared
  rw [NamelessAt] at nameless
  -- One place has one label.
  rw [DeclaredAt, nameless] at declared
  simp at declared

/-- Whether a search for an id ends at a place. -/
def Finds (set : DocumentSet) (id : String) (place : Place) : Prop :=
  set.placeOf? id = some place

/-- The rows of a set are the labels under their places. -/
theorem mem_labels (set : DocumentSet) (place : Place) (label : String × Option String) :
    (place, label) ∈ Element.labelsAmong set.trees ↔ set.labelAt? place = some label := by
  simp only [Element.labelsAmong, List.mem_map, labelAt?, Option.map_eq_some_iff, element?,
    Prod.mk.injEq]
  -- An element is listed under a place exactly if it stands there.
  constructor
  · rintro ⟨found, stands, rfl, rfl⟩
    exact ⟨found.2, (Element.mem_locatedAmong found.1 found.2 set.trees).1 stands, rfl⟩
  · rintro ⟨element, there, rfl⟩
    exact ⟨(place, element), (Element.mem_locatedAmong place element set.trees).2 there, rfl, rfl⟩

/-- A search for an id ends at the first row that has it. -/
theorem placeOf?_eq (set : DocumentSet) (id : String) :
    set.placeOf? id =
      ((Element.labelsAmong set.trees).find? fun row => row.2 = ("bean", some id)).map (·.1) := by
  simp only [placeOf?, Element.labelsAmong, List.find?_map, Option.map_map, Function.comp_def,
    ← Element.declares_iff, Bool.decide_eq_true]

/-- A search ends at a bean that has the id. -/
theorem Finds.declaredAt {set : DocumentSet} {id : String} {place : Place}
    (finds : set.Finds id place) : set.DeclaredAt id place := by
  -- The row at which a search ends has the id.
  rw [Finds, placeOf?_eq] at finds
  obtain ⟨row, found, rfl⟩ := Option.map_eq_some_iff.1 finds
  have label : row.2 = ("bean", some id) := by simpa using List.find?_some found
  rw [DeclaredAt, ← mem_labels, ← label]
  exact List.mem_of_find?_eq_some found

/-- Where a bean has an id, the search for it ends somewhere. -/
theorem DeclaredAt.exists_finds {set : DocumentSet} {id : String} {place : Place}
    (declared : set.DeclaredAt id place) : ∃ found, set.Finds id found := by
  -- The row of the bean is one at which a search can end.
  have member := (mem_labels set place _).2 declared
  simp only [Finds, placeOf?_eq, Option.map_eq_some_iff]
  cases first : (Element.labelsAmong set.trees).find? fun row => row.2 = ("bean", some id) with
  | some row => exact ⟨row.1, row, rfl, rfl⟩
  | none =>
    have none := List.find?_eq_none.1 first _ member
    simp at none

/-- An id that one bean alone has leads to it. -/
theorem DeclaredAt.finds {set : DocumentSet} {id : String} {place : Place}
    (declared : set.DeclaredAt id place)
    (alone : ∀ other, set.DeclaredAt id other → other = place) : set.Finds id place := by
  obtain ⟨found, finds⟩ := declared.exists_finds
  -- What is found is declared, and only this place is.
  obtain rfl := alone found finds.declaredAt
  exact finds

/-- A search that ends at a place finds the entry there. -/
theorem Finds.findBean?_eq {set : DocumentSet} {id : String} {place : Place}
    (finds : set.Finds id place) : set.findBean? id = set.pathAndElement? place := by
  rw [set.findBean?_eq, finds, Option.bind_some]

/-- A search for an id that ends at a place finds the element there. -/
theorem Finds.exists_element {set : DocumentSet} {id : String} {place : Place}
    (finds : set.Finds id place) :
    ∃ path element, set.element? place = some element ∧ set.findBean? id = some (path, element) ∧
      set.pathAndElement? place = some (path, element) := by
  -- The tree of the place belongs to a document, which has a path.
  obtain ⟨element, there, _⟩ := Option.map_eq_some_iff.1 finds.declaredAt
  obtain ⟨tree, inside, _⟩ := Option.bind_eq_some_iff.1 there
  have path : ∃ path, set.paths[place.tree]? = some path := by
    simp only [trees, List.getElem?_map, Option.map_eq_some_iff] at inside
    obtain ⟨document, stands, _⟩ := inside
    exact ⟨document.path, by simp [paths, stands]⟩
  obtain ⟨path, stands⟩ := path
  have entry : set.pathAndElement? place = some (path, element) := by
    simp [set.pathAndElement?_eq, stands, there]
  refine ⟨path, element, there, ?_, entry⟩
  rw [finds.findBean?_eq, entry]

/-- The ids declared are those that beans have. -/
theorem mem_declaredIds_iff (set : DocumentSet) (id : String) :
    id ∈ set.declaredIds ↔ ∃ place, set.DeclaredAt id place :=
  set.mem_declaredIds id

/-- A search that ends nowhere is one for an id that no bean has. -/
theorem placeOf?_eq_none_iff (set : DocumentSet) (id : String) :
    set.placeOf? id = none ↔ id ∉ set.declaredIds := by
  -- A search ends somewhere exactly if some bean has the id.
  rw [mem_declaredIds_iff]
  constructor
  · rintro nowhere ⟨place, declared⟩
    obtain ⟨found, finds⟩ := declared.exists_finds
    rw [Finds, nowhere] at finds
    cases finds
  · intro unknown
    cases search : set.placeOf? id with
    | none => rfl
    | some place =>
      have finds : set.Finds id place := search
      exact absurd ⟨place, finds.declaredAt⟩ unknown

/-- Ids that are new to a set, each for a place of its own where a bean has none. -/
structure Fits (set : DocumentSet) (given : Given Place) : Prop where
  apart : (given.map (·.1)).Nodup
  nameless : ∀ gift ∈ given, set.NamelessAt gift.1
  distinct : (given.map (·.2)).Nodup
  fresh : ∀ gift ∈ given, gift.2 ∉ set.declaredIds

namespace Fits

variable {given more : Given Place} {set : DocumentSet}

/-- An id given is the one of the bean at its place. -/
theorem declaredAt (fits : Fits set given) {gift : Place × String} (member : gift ∈ given) :
    (set.giveIds given).DeclaredAt gift.2 gift.1 := by
  -- The row at the place was nameless, and one id alone is given there.
  have row := (mem_labels set gift.1 _).2 (fits.nameless gift member)
  rw [DeclaredAt, ← mem_labels, trees_giveIds, Element.labelsAmong_giveIdsAmong]
  rw [List.mem_map]
  exact ⟨_, row, Element.relabelAll_given fits.apart member⟩

/-- Where no id is given all labels stay. -/
theorem labelAt?_elsewhere (given : Given Place) (set : DocumentSet) {place : Place}
    (elsewhere : place ∉ given.map (·.1)) :
    (set.giveIds given).labelAt? place = set.labelAt? place := by
  -- The rows at the place are the same before and after.
  apply Option.ext
  intro label
  rw [← mem_labels, ← mem_labels, trees_giveIds, Element.labelsAmong_giveIdsAmong, List.mem_map]
  constructor
  · rintro ⟨row, stands, same⟩
    have here : row.1 = place := by rw [← Element.relabelAll_place given row, same]
    rw [Element.relabelAll_elsewhere (here ▸ elsewhere)] at same
    rwa [← same]
  · intro stands
    exact ⟨_, stands, Element.relabelAll_elsewhere elsewhere⟩

/-- A bean that has an id has it from before, or was given it. -/
theorem declaredAt_cases (fits : Fits set given) {id : String} {place : Place}
    (declared : (set.giveIds given).DeclaredAt id place) :
    (place, id) ∈ given ∨ place ∉ given.map (·.1) ∧ set.DeclaredAt id place := by
  -- A place with an id given has this id; at all others nothing changed.
  by_cases there : place ∈ given.map (·.1)
  · obtain ⟨gift, member, rfl⟩ := List.mem_map.1 there
    have held := fits.declaredAt member
    rw [DeclaredAt] at declared held
    obtain rfl : id = gift.2 := by
      rw [declared] at held
      simpa using held
    exact .inl member
  · rw [DeclaredAt, labelAt?_elsewhere given set there] at declared
    exact .inr ⟨there, declared⟩

/-- The ids given are those of the beans that had none. -/
theorem mem_iff (fits : Fits set given) (place : Place) (id : String) :
    (place, id) ∈ given ↔ set.NamelessAt place ∧ (set.giveIds given).DeclaredAt id place := by
  constructor
  · intro member
    exact ⟨fits.nameless _ member, fits.declaredAt member⟩
  · rintro ⟨nameless, declared⟩
    -- An id declared behind was given, or it was declared in front.
    rcases fits.declaredAt_cases declared with member | ⟨_, before⟩
    · exact member
    · exact absurd before nameless.not_declaredAt

/-- No other bean has an id that was given. -/
theorem alone (fits : Fits set given) {gift : Place × String} (member : gift ∈ given)
    {place : Place} (declared : (set.giveIds given).DeclaredAt gift.2 place) : place = gift.1 := by
  -- The id was on no bean before, and it was given once.
  rcases fits.declaredAt_cases declared with also | ⟨_, before⟩
  · have same := List.inj_on_of_nodup_map fits.distinct also member rfl
    rw [← same]
  · have known := (set.mem_declaredIds_iff gift.2).2 ⟨place, before⟩
    exact absurd known (fits.fresh gift member)

/-- An id given is found where it was given. -/
theorem finds (fits : Fits set given) {gift : Place × String} (member : gift ∈ given) :
    (set.giveIds given).Finds gift.2 gift.1 :=
  (fits.declaredAt member).finds fun _ => fits.alone member

/-- What an id that was not given leads to stays as it was. -/
theorem placeOf?_giveIds (fits : Fits set given) {id : String} (other : id ∉ given.map (·.2)) :
    (set.giveIds given).placeOf? id = set.placeOf? id := by
  rw [placeOf?_eq, placeOf?_eq, trees_giveIds, Element.labelsAmong_giveIdsAmong, List.find?_map,
    Option.map_map]
  have places : (fun row : Element.Row Place => row.1) ∘ Element.relabelAll given =
      fun row => row.1 := funext (Element.relabelAll_place given)
  rw [places]
  congr 1
  apply List.find?_congr
  intro row stands
  -- A row with the id is not one of those that got one, neither before nor after.
  by_cases there : row.1 ∈ given.map (·.1)
  · obtain ⟨gift, member, same⟩ := List.mem_map.1 there
    have after : Element.relabelAll given row = (row.1, row.2.1, some gift.2) :=
      Element.relabelAll_given fits.apart (same ▸ member)
    have before : row.2 = ("bean", none) := by
      have nameless := fits.nameless gift member
      rw [NamelessAt, same, (set.mem_labels row.1 row.2).1 stands] at nameless
      exact Option.some.inj nameless
    have differ : gift.2 ≠ id := by
      rintro rfl
      exact other (List.mem_map_of_mem (f := (·.2)) member)
    simp [after, before, differ]
  · simp [Element.relabelAll_elsewhere there]

/-- The ids declared in the end are those from before and those given. -/
theorem mem_declaredIds (fits : Fits set given) (id : String) :
    id ∈ (set.giveIds given).declaredIds ↔ id ∈ set.declaredIds ∨ id ∈ given.map (·.2) := by
  rw [mem_declaredIds_iff, mem_declaredIds_iff]
  constructor
  · rintro ⟨place, declared⟩
    rcases fits.declaredAt_cases declared with member | ⟨_, before⟩
    · exact .inr (List.mem_map_of_mem (f := (·.2)) member)
    · exact .inl ⟨place, before⟩
  · rintro (⟨place, before⟩ | member)
    -- No gift touches a place that had an id, so the old declaration stays.
    · refine ⟨place, ?_⟩
      rw [DeclaredAt, labelAt?_elsewhere given set, ← DeclaredAt]
      · exact before
      · intro named
        obtain ⟨gift, member, rfl⟩ := List.mem_map.1 named
        exact (fits.nameless gift member).not_declaredAt before
    · obtain ⟨gift, there, rfl⟩ := List.mem_map.1 member
      exact ⟨gift.1, fits.declaredAt there⟩

/-- Ids that are new to a set to which others were given fit with these. -/
theorem append (fits : Fits set given) (others : Fits (set.giveIds given) more) :
    Fits set (given ++ more) := by
  -- A bean that got an id is not nameless any more, so it gets no second one.
  have elsewhere : ∀ gift ∈ more, gift.1 ∉ given.map (·.1) := by
    intro gift member named
    obtain ⟨before, earlier, same⟩ := List.mem_map.1 named
    have declared := fits.declaredAt earlier
    rw [same] at declared
    exact (others.nameless gift member).not_declaredAt declared
  refine ⟨?_, ?_, ?_, ?_⟩
  · rw [List.map_append, List.nodup_append]
    refine ⟨fits.apart, others.apart, ?_⟩
    rintro place earlier _ later rfl
    obtain ⟨gift, member, rfl⟩ := List.mem_map.1 later
    exact elsewhere gift member earlier
  · intro gift member
    rcases List.mem_append.1 member with earlier | later
    · exact fits.nameless gift earlier
    · have nameless := others.nameless gift later
      rwa [NamelessAt, labelAt?_elsewhere given set (elsewhere gift later)] at nameless
  · rw [List.map_append, List.nodup_append]
    refine ⟨fits.distinct, others.distinct, ?_⟩
    rintro id earlier _ later rfl
    obtain ⟨gift, member, rfl⟩ := List.mem_map.1 later
    exact others.fresh gift member ((fits.mem_declaredIds gift.2).2 (.inr earlier))
  · intro gift member
    rcases List.mem_append.1 member with earlier | later
    · exact fits.fresh gift earlier
    · exact fun known => others.fresh gift later ((fits.mem_declaredIds gift.2).2 (.inl known))

end Fits

end DocumentSet

end BeanWiring
