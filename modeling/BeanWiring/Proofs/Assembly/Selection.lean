import BeanWiring.Proofs.Assembly.Bean

/-!
The inline beans that a declaration refers to: which they are, told from the tree alone, and where
their ids turn up in the definition.

A survey that ends well has met exactly these. Each has its id in the definition, unless it stands
in an entry that a later one with the same key replaces.
-/

namespace BeanWiring

namespace Element

/-- Whether an entry stands at a position of the array that the value of a node is read from. -/
structure HasEntry (node : Element) (index position : Nat) (entry : Element) : Prop where
  marker : Marker.of? node = some .entries
  first : (node.children.findIdx? fun child => child.name == Marker.entries.name) = some index
  stands : (node.children[index]?.bind fun array => array.children[position]?) = some entry
  named : entry.name = "entry"

/--
Whether the value of a node refers to the inline bean at a way: to the first one among its
children, or to one in an entry of its array, however deep.
-/
inductive Selects : Element → List Nat → Prop
  | inline {node : Element} {index : Nat} (marker : Marker.of? node = some .inlineBean)
      (first : (node.children.findIdx? fun child =>
        child.name == Marker.inlineBean.name) = some index) : Selects node [index]
  | entry {node entry : Element} {index position : Nat} {path : List Nat}
      (holds : node.HasEntry index position entry) (inside : Selects entry path) :
      Selects node (index :: position :: path)

/-- Whether a way leads through an entry that a later one with the same key replaces. -/
inductive Replaced : Element → List Nat → Prop
  | here {node entry other : Element} {index position later : Nat} {path : List Nat}
      (holds : node.HasEntry index position entry) (also : node.HasEntry index later other)
      (behind : position < later) (same : other.attribute? "key" = entry.attribute? "key") :
      Replaced node (index :: position :: path)
  | within {node entry : Element} {index position : Nat} {path : List Nat}
      (holds : node.HasEntry index position entry) (inside : Replaced entry path) :
      Replaced node (index :: position :: path)

/-- Whether one of the elements in a row that have certain names refers to the bean at a place. -/
def SelectsAmong (named : String → Prop) (row : List Element) (place : Place) : Prop :=
  ∃ element, row[place.tree]? = some element ∧ named element.name ∧ element.Selects place.path

/-- Whether the first array in a row has an entry that refers to the bean at a place. -/
def SelectsInArray (row : List Element) (place : Place) : Prop :=
  ∃ index array inside, (row.findIdx? fun child => child.name == Marker.entries.name) = some index ∧
    row[index]? = some array ∧ SelectsAmong (· = "entry") array.children inside ∧
    place = ⟨index, inside.fromParent⟩

/-- The children of a declaration that give values: properties and constructor arguments. -/
def GivesValue (name : String) : Prop :=
  name = "property" ∨ name = "constructor-arg"

/-- Whether a declaration refers to the inline bean at a way. -/
def RefersTo (declaration : Element) (path : List Nat) : Prop :=
  ∃ place : Place, SelectsAmong GivesValue declaration.children place ∧ path = place.fromParent

/-- Without a marker for it a value refers to no inline bean. -/
theorem not_selects {node : Element} (plain : Marker.of? node ≠ some .inlineBean)
    (single : Marker.of? node ≠ some .entries) (path : List Nat) : ¬ node.Selects path := by
  -- Each way of referring to a bean starts with the marker for it.
  rintro (⟨marker, _⟩ | ⟨⟨marker, _, _, _⟩, _⟩)
  · exact plain marker
  · exact single marker

/-- What a row selects its first element selects, if it is one of those named, or the others do. -/
theorem selectsAmong_cons (named : String → Prop) (first : Element) (rest : List Element)
    (place : Place) :
    SelectsAmong named (first :: rest) place ↔
      (∃ path, (named first.name ∧ first.Selects path) ∧ place = .inFirst path) ∨
        ∃ before, SelectsAmong named rest before ∧ place = before.behind := by
  -- A place is in the first tree of a row or behind it.
  rcases place.inFirst_or_behind with ⟨path, rfl⟩ | ⟨before, rfl⟩
  · simp [SelectsAmong, Place.inFirst, Place.behind]
  · simp only [Place.behind_ne_inFirst, Place.behind_inj, and_false, exists_false, false_or,
      exists_eq_right']
    rfl

/-- Whether a place leads through the first array in a row to what is told of its elements. -/
def InFirstArray (told : List Element → Place → Prop) (row : List Element) (place : Place) :
    Prop :=
  ∃ index array inside, (row.findIdx? fun child => child.name == Marker.entries.name) = some index ∧
    row[index]? = some array ∧ told array.children inside ∧ place = ⟨index, inside.fromParent⟩

/-- An array in front of a row is the one that counts. -/
theorem inFirstArray_cons (told : List Element → Place → Prop) {first : Element}
    (array : (first.name == Marker.entries.name) = true) (rest : List Element) (place : Place) :
    InFirstArray told (first :: rest) place ↔
      ∃ inside, told first.children inside ∧ place = .inFirst inside.fromParent := by
  simp [InFirstArray, List.findIdx?_cons, array, Place.inFirst]

/-- An element in front of a row that is no array does not count. -/
theorem inFirstArray_cons_other (told : List Element → Place → Prop) {first : Element}
    (other : ¬ (first.name == Marker.entries.name) = true) (rest : List Element) (place : Place) :
    InFirstArray told (first :: rest) place ↔
      ∃ before, InFirstArray told rest before ∧ place = before.behind := by
  -- The first array stands one position further back than it does in the rest.
  simp only [InFirstArray, List.findIdx?_cons, if_neg other, Option.map_eq_some_iff]
  constructor
  · rintro ⟨_, array, inside, ⟨index, found, rfl⟩, stands, holds, rfl⟩
    exact ⟨⟨index, inside.fromParent⟩, ⟨index, array, inside, found, stands, holds, rfl⟩, rfl⟩
  · rintro ⟨_, ⟨index, array, inside, found, stands, holds, rfl⟩, rfl⟩
    exact ⟨index + 1, array, inside, ⟨index, found, rfl⟩, stands, holds, rfl⟩

/-- An array in front of a row is the one whose entries select. -/
theorem selectsInArray_cons {first : Element} (array : (first.name == Marker.entries.name) = true)
    (rest : List Element) (place : Place) :
    SelectsInArray (first :: rest) place ↔
      ∃ inside, SelectsAmong (· = "entry") first.children inside ∧
        place = .inFirst inside.fromParent :=
  inFirstArray_cons (SelectsAmong (· = "entry")) array rest place

/-- An element in front of a row that is no array does not select. -/
theorem selectsInArray_cons_other {first : Element}
    (other : ¬ (first.name == Marker.entries.name) = true) (rest : List Element) (place : Place) :
    SelectsInArray (first :: rest) place ↔
      ∃ before, SelectsInArray rest before ∧ place = before.behind :=
  inFirstArray_cons_other (SelectsAmong (· = "entry")) other rest place

/-- A node with an array refers to what the entries of the array refer to. -/
theorem selects_entries {node : Element} (marker : Marker.of? node = some .entries)
    (path : List Nat) :
    node.Selects path ↔ ∃ place, SelectsInArray node.children place ∧ path = place.fromParent := by
  -- The marker rules out an inline bean, and the first array is the same for both.
  constructor
  · intro selects
    cases selects with
    | inline inline _ =>
      rw [marker] at inline
      cases inline
    | @entry _ entry index position rest holds inside =>
      obtain ⟨array, there, stands⟩ := Option.bind_eq_some_iff.1 holds.stands
      exact ⟨⟨index, position :: rest⟩, ⟨index, array, ⟨position, rest⟩, holds.first, there,
        ⟨entry, stands, holds.named, inside⟩, rfl⟩, rfl⟩
  · rintro ⟨_, ⟨index, array, inside, found, there, ⟨entry, stands, named, selects⟩, rfl⟩, rfl⟩
    exact .entry ⟨marker, found, by simp [there, stands], named⟩ selects

end Element

/--
What a survey that ends well has met: the places of the draft are those referred to, and the beans
without an id are among them.
-/
structure Survey.Meets {α ρ : Type} (survey : Survey α ρ) (selects : ρ → Prop)
    (placesOf : α → List ρ) : Prop where
  places : ∀ draft, survey.outcome = .ok draft → ∀ place, place ∈ placesOf draft ↔ selects place
  nameless : ∀ draft, survey.outcome = .ok draft → ∀ place ∈ survey.nameless,
    place ∈ placesOf draft

namespace Survey.Meets

variable {α β γ ρ σ : Type} {selects also : ρ → Prop}
  {placesOf : α → List ρ} {placesAnew : β → List σ} {more : β → List ρ} {both : γ → List ρ}

/-- A survey that ends with a fault has nothing to meet. -/
theorem fault {survey : Survey α ρ} {error : DefinitionError}
    (ended : survey.outcome = .error error) : survey.Meets selects placesOf := by
  constructor <;>
  · intro draft sound
    rw [ended] at sound
    -- A survey at fault ends without a draft.
    cases sound

/-- A survey without any inline bean meets what refers to none. -/
theorem none {outcome : Except DefinitionError α}
    (empty : ∀ draft, outcome = .ok draft → placesOf draft = [])
    (nothing : ∀ place, ¬ selects place) :
    (⟨outcome, []⟩ : Survey α ρ).Meets selects placesOf := by
  -- Neither the draft nor the survey holds any place.
  refine ⟨?_, by simp⟩
  intro draft ended place
  simp [empty draft ended, nothing place]

/-- What a survey meets can be told in other words. -/
theorem congr {survey : Survey α ρ} (meets : survey.Meets selects placesOf)
    (same : ∀ place, also place ↔ selects place) : survey.Meets also placesOf :=
  ⟨fun draft ended place => (meets.places draft ended place).trans (same place).symm,
    meets.nameless⟩

/-- From further up a survey meets the same beans. -/
theorem map {survey : Survey α ρ} (meets : survey.Meets selects placesOf) {change : α → β}
    {anew : ρ → σ} (renamed : ∀ draft, placesAnew (change draft) = (placesOf draft).map anew) :
    (survey.map change anew).Meets (fun place => ∃ before, selects before ∧ place = anew before)
      placesAnew := by
  -- The places of the draft and the beans without an id go under other names alike.
  constructor
  case places =>
    intro draft ended place
    obtain ⟨original, outcome, rfl⟩ := ok_of_map ended
    simp only [renamed, List.mem_map, meets.places original outcome, eq_comm]
  case nameless =>
    intro draft ended place member
    obtain ⟨original, outcome, rfl⟩ := ok_of_map ended
    obtain ⟨before, earlier, rfl⟩ := List.mem_map.1 member
    rw [renamed]
    exact List.mem_map_of_mem (meets.nameless original outcome before earlier)

/-- Two surveys, one after the other, meet what either of them does. -/
theorem follow {first : Survey α ρ} {others : Survey β ρ} {draft : α} {join : β → γ}
    (meets : first.Meets selects placesOf) (later : others.Meets also more)
    (ended : first.outcome = .ok draft)
    (joined : ∀ drafts, both (join drafts) = placesOf draft ++ more drafts) :
    (⟨others.outcome.map join, first.nameless ++ others.nameless⟩ : Survey γ ρ).Meets
      (fun place => selects place ∨ also place) both := by
  -- There is a draft of both only if both surveys ended well.
  constructor
  case places =>
    intro result finished place
    obtain ⟨drafts, outcome, rfl⟩ := ok_of_map finished
    rw [joined, List.mem_append, meets.places draft ended, later.places drafts outcome]
  case nameless =>
    intro result finished place member
    obtain ⟨drafts, outcome, rfl⟩ := ok_of_map finished
    rw [joined]
    rcases List.mem_append.1 member with here | there
    · exact List.mem_append_left _ (meets.nameless draft ended place here)
    · exact List.mem_append_right _ (later.nameless drafts outcome place there)

end Survey.Meets

/-- The survey of a node with an inline bean meets the first one. -/
theorem surveyInline_meets {node : Element} (marker : Marker.of? node = some .inlineBean) :
    (surveyInline node).Meets node.Selects Draft.places := by
  -- The marker rules out arrays, so the first inline bean is the only one referred to.
  simp only [surveyInline]
  cases at? : node.children.findIdx? fun child => child.name == Marker.inlineBean.name with
  | none =>
    apply Survey.Meets.none (fun draft ended => by cases ended; rfl)
    rintro _ (⟨_, first⟩ | ⟨⟨entries, _, _, _⟩, _⟩)
    · rw [at?] at first
      cases first
    · rw [marker] at entries
      cases entries
  | some index =>
    constructor
    case places =>
      intro draft ended path
      cases ended
      constructor
      · intro member
        obtain rfl := List.mem_singleton.1 member
        exact .inline marker at?
      · rintro (⟨_, first⟩ | ⟨⟨entries, _, _, _⟩, _⟩)
        · rw [at?] at first
          cases first
          exact List.mem_singleton.2 rfl
        · rw [marker] at entries
          cases entries
    case nameless =>
      intro draft ended path member
      cases ended
      -- The bean without an id, if it has none, is the one that the draft refers to.
      exact (List.mem_ite_nil_right.1 member).2

mutual

/-- The survey of a node meets what the value of the node refers to. -/
theorem survey_meets (bean : String) : ∀ node : Element,
    (survey bean node).Meets node.Selects Draft.places
  | ⟨name, attributes, text, children⟩ => by
    simp only [survey]
    cases kind : Marker.of? ⟨name, attributes, text, children⟩ with
    | none =>
      exact .none (fun draft ended => by cases ended; rfl)
        (Element.not_selects (by simp [kind]) (by simp [kind]))
    | some marker =>
      cases marker with
      | inlineBean => exact surveyInline_meets kind
      | entries =>
        exact Survey.Meets.congr ((surveyArray_meets bean children).map
          (Draft.placesOfRows_renameRows Place.fromParent)) (Element.selects_entries kind)
      | nothing | no | yes | code =>
        exact .none (fun draft ended => by cases ended; rfl)
          (Element.not_selects (by simp [kind]) (by simp [kind]))
      -- A reference names a bean, but no place in the tree.
      | reference =>
        apply Survey.Meets.none _ (Element.not_selects (by simp [kind]) (by simp [kind]))
        intro draft ended
        obtain ⟨value, _, rfl⟩ := ok_of_map ended
        rfl

/-- The survey of an array meets what its entries refer to. -/
theorem surveyArray_meets (bean : String) : ∀ children : List Element,
    (surveyArray bean children).Meets (Element.SelectsInArray children) Draft.placesOfRows
  | [] => .none (fun draft ended => by cases ended; rfl) (by simp [Element.SelectsInArray])
  | ⟨name, attributes, text, children⟩ :: rest => by
    simp only [surveyArray]
    split
    · next array =>
      -- The first array is the only one that is surveyed.
      have inside := ((surveyEntries_meets bean children).map
        (Draft.placesOfRows_renameRows Place.fromParent)).map
          (Draft.placesOfRows_renameRows Place.inFirst)
      apply inside.congr
      intro place
      rw [Element.selectsInArray_cons array]
      constructor
      · rintro ⟨inner, selects, rfl⟩
        exact ⟨inner.fromParent, ⟨inner, selects, rfl⟩, rfl⟩
      · rintro ⟨_, ⟨inner, selects, rfl⟩, rfl⟩
        exact ⟨inner, selects, rfl⟩
    · next other =>
      have others := (surveyArray_meets bean rest).map
        (Draft.placesOfRows_renameRows Place.behind)
      exact others.congr (Element.selectsInArray_cons_other other rest)

/-- The survey of the entries of an array meets what they refer to. -/
theorem surveyEntries_meets (bean : String) : ∀ entries : List Element,
    (surveyEntries bean entries).Meets (Element.SelectsAmong (· = "entry") entries)
      Draft.placesOfRows
  | [] => .none (fun draft ended => by cases ended; rfl) (by simp [Element.SelectsAmong])
  | entry :: rest => by
    have others := (surveyEntries_meets bean rest).map
      (Draft.placesOfRows_renameRows Place.behind)
    have either := Element.selectsAmong_cons (· = "entry") entry rest
    simp only [surveyEntries]
    split
    · next named =>
      cases requiredAttribute ⟨bean, []⟩ entry "key" with
      | error error => exact .fault rfl
      | ok key =>
        have first := (survey_meets bean entry).map (Draft.places_rename Place.inFirst)
        cases ended : ((survey bean entry).map (Draft.rename Place.inFirst)
            Place.inFirst).outcome with
        | error error => exact .fault rfl
        | ok draft =>
          refine Survey.Meets.congr (first.follow others ended fun _ => rfl) ?_
          simpa [beq_iff_eq.1 named] using either
    · next other =>
      -- An element that is no entry is passed over.
      apply others.congr
      simpa [beq_iff_eq.not.1 other] using either

end

/-- The survey of a child of a declaration meets what it refers to, if it gives a value. -/
theorem surveyPart_meets (bean : String) (child : Element) :
    (surveyPart bean child).Meets
      (fun path => Element.GivesValue child.name ∧ child.Selects path)
      fun part => part.toList.flatMap PartDraft.places := by
  -- Properties and arguments are surveyed as values are, and nothing else has inline beans.
  have read := survey_meets bean child
  simp only [surveyPart]
  split
  · next property =>
    cases requiredAttribute ⟨bean, []⟩ child "name" with
    | error error => exact .fault rfl
    | ok name =>
      refine Survey.Meets.congr (read.map fun draft => ?_) ?_
      · simp [PartDraft.places]
      · simp [Element.GivesValue, property]
  · next other =>
    split
    · next argument =>
      refine Survey.Meets.congr (read.map fun draft => ?_) ?_
      · simp [PartDraft.places]
      · simp [Element.GivesValue, argument]
    · next neither =>
      have none : ∀ path, ¬ (Element.GivesValue child.name ∧ child.Selects path) :=
        fun path gives => gives.1.elim other neither
      split
      · refine .none ?_ none
        intro part ended
        obtain ⟨aspect, _, rfl⟩ := ok_of_map ended
        rfl
      · exact .none (fun part ended => by cases ended; rfl) none

/-- The survey of the children of a declaration meets what those that give values refer to. -/
theorem surveyParts_meets (bean : String) (children : List Element) :
    (surveyParts bean children).Meets (Element.SelectsAmong Element.GivesValue children)
      (List.flatMap PartDraft.places) := by
  -- The induction is on the children, whose surveys are put one behind the other.
  induction children with
  | nil => exact .none (fun parts ended => by cases ended; rfl) (by simp [Element.SelectsAmong])
  | cons child rest ih =>
    have first : ((surveyPart bean child).map (Option.map (PartDraft.rename Place.inFirst))
        Place.inFirst).Meets _ fun part => part.toList.flatMap PartDraft.places :=
      (surveyPart_meets bean child).map
        fun part => by cases part <;> simp [PartDraft.places_rename]
    have others : ((surveyParts bean rest).map (List.map (PartDraft.rename Place.behind))
        Place.behind).Meets _ (List.flatMap PartDraft.places) :=
      ih.map fun parts => by simp [List.flatMap_map, List.map_flatMap, PartDraft.places_rename]
    simp only [surveyParts]
    cases ended : ((surveyPart bean child).map (Option.map (PartDraft.rename Place.inFirst))
        Place.inFirst).outcome with
    | error error => exact .fault rfl
    | ok part =>
      exact Survey.Meets.congr (first.follow others ended fun parts => by simp)
        (Element.selectsAmong_cons Element.GivesValue child rest)

/-- The survey of a declaration meets what the declaration refers to. -/
theorem surveyAt_meets (bean : String) (seed : Option Definition) (declaration : Element) :
    (surveyAt bean seed declaration).Meets declaration.RefersTo DefinitionDraft.places := by
  -- No attribute refers to an inline bean, so the children decide.
  simp only [surveyAt, surveyDeclaration]
  cases applyAttributes bean (seed.getD { name := bean }) declaration with
  | error error => exact .fault rfl
  | ok dressed =>
    refine Survey.Meets.congr ((surveyParts_meets bean declaration.children).map ?_)
      fun path => Iff.rfl
    intro parts
    simp [DefinitionDraft.places, List.flatMap_map, List.map_flatMap, PartDraft.places_rename]

/-- The beans to be named are those without an id that the declaration refers to. -/
theorem mem_nameless_iff {documents : DocumentSet} {bean : String} {seed : Option Definition}
    {place : Place} {declaration : Element} {draft : DefinitionDraft (List Nat)}
    (there : documents.element? place = some declaration)
    (found : (surveyAt bean seed declaration).outcome = .ok draft) (path : List Nat) :
    path ∈ (surveyAt bean seed declaration).nameless ↔
      documents.NamelessAt (place.down path) ∧ declaration.RefersTo path := by
  have survey : (surveyAt bean seed declaration).Sound declaration.at? DefinitionDraft.places :=
    surveyDeclaration_sound bean (seed.getD { name := bean }) declaration
  have meets := surveyAt_meets bean seed declaration
  constructor
  · intro member
    refine ⟨?_, (meets.places draft found path).1 (meets.nameless draft found path member)⟩
    rw [DocumentSet.NamelessAt, DocumentSet.labelAt?_down there]
    exact survey.nameless path member
  · rintro ⟨nameless, refers⟩
    -- A bean that the draft refers to has an id, or it is one of those to be named.
    rcases survey.complete draft found path ((meets.places draft found path).2 refers) with
      member | ⟨id, label⟩
    · exact member
    · rw [← DocumentSet.labelAt?_down there] at label
      exact absurd label nameless.not_declaredAt

end BeanWiring
