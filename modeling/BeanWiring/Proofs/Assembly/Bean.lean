import BeanWiring.Assembly.Bean
import BeanWiring.Proofs.Assembly.Reading
import BeanWiring.Proofs.Import.Gifts

/-!
Assembling a definition is surveying its declaration and filling the draft.

The names drawn are given as ids in the documents if the declaration is sound, and in no other
case are the documents changed.
-/

namespace BeanWiring

/-- A part of a declaration in whose values each inline bean is named by its place. -/
inductive PartDraft (ρ : Type) where
  | property (name : String) (draft : Draft ρ)
  | argument (draft : Draft ρ)
  | aspect (found : Aspect)

namespace PartDraft

variable {ρ σ : Type}

/-- The part in which inline beans have these ids. -/
def fill (ids : ρ → String) : PartDraft ρ → Part
  | .property name draft => .property ⟨name, draft.fill ids⟩
  | .argument draft => .argument ⟨draft.fill ids⟩
  | .aspect found => .aspect found

/-- The part under other names of the places. -/
def rename (anew : ρ → σ) : PartDraft ρ → PartDraft σ
  | .property name draft => .property name (draft.rename anew)
  | .argument draft => .argument (draft.rename anew)
  | .aspect found => .aspect found

/-- The places of the inline beans of a part. -/
def places : PartDraft ρ → List ρ
  | .property _ draft | .argument draft => draft.places
  | .aspect _ => []

/-- A renamed part is filled by the ids that the new names have. -/
theorem fill_rename (anew : ρ → σ) (ids : σ → String) (part : PartDraft ρ) :
    (part.rename anew).fill ids = part.fill fun place => ids (anew place) := by
  -- A part has the places of its draft, and an aspect has none.
  cases part with
  | property name draft => simp only [rename, fill, Draft.fill_rename]
  | argument draft => simp only [rename, fill, Draft.fill_rename]
  | aspect found => rfl

/-- The places of a renamed part are the renamed places. -/
theorem places_rename (anew : ρ → σ) (part : PartDraft ρ) :
    (part.rename anew).places = part.places.map anew := by
  cases part with
  | property name draft => exact Draft.places_rename anew draft
  | argument draft => exact Draft.places_rename anew draft
  | aspect found => rfl

/-- Only the ids at the places of a part count. -/
theorem fill_congr {ids others : ρ → String} {part : PartDraft ρ}
    (same : ∀ place ∈ part.places, ids place = others place) :
    part.fill ids = part.fill others := by
  cases part with
  | property name draft => simp only [fill, Draft.fill_congr same]
  | argument draft => simp only [fill, Draft.fill_congr same]
  | aspect found => rfl

end PartDraft

/-- Surveys one child of a declaration; children of other names take no part. -/
def surveyPart (bean : String) (child : Element) :
    Survey (Option (PartDraft (List Nat))) (List Nat) :=
  if child.name = "property" then
    match requiredAttribute ⟨bean, []⟩ child "name" with
    | .error error => ⟨.error error, []⟩
    | .ok name => (survey bean child).map (fun draft => some (.property name draft)) id
  else if child.name = "constructor-arg" then
    (survey bean child).map (fun draft => some (.argument draft)) id
  -- An aspect holds no value, so no inline bean is met in it.
  else if child.name = "aspect" then
    ⟨(extractAspect bean child).value.map fun aspect => some (.aspect aspect), []⟩
  else ⟨.ok none, []⟩

/-- Surveys the children of a declaration, up to the first that is not sound. -/
def surveyParts (bean : String) : List Element → Survey (List (PartDraft Place)) Place
  | [] => ⟨.ok [], []⟩
  | child :: rest =>
    let first := (surveyPart bean child).map (Option.map (PartDraft.rename Place.inFirst))
      Place.inFirst
    -- Nothing is met behind the first fault.
    match first.outcome with
    | .error error => ⟨.error error, first.nameless⟩
    | .ok part =>
      let others := (surveyParts bean rest).map (List.map (PartDraft.rename Place.behind))
        Place.behind
      ⟨others.outcome.map (part.toList ++ ·), first.nameless ++ others.nameless⟩

/-- Reading one child of a declaration follows the survey. -/
theorem extractPart_ends (context : Context) (names : Names) (child : Element) :
    let drawn := names.drawFor context.taken (surveyPart context.bean child).nameless
    (extractPart context names child).Ends
      ((surveyPart context.bean child).outcome.map fun part =>
        part.map (PartDraft.fill (child.giveIds drawn.1).idAt))
      (child.giveIds drawn.1) drawn.2 := by
  -- Properties and arguments are read as values are; nothing else draws names.
  have read := extract_ends context names child
  simp only [extractPart, surveyPart]
  split
  · simp only [extractProperty]
    rw [show requiredAttribute ⟨context.bean, []⟩ child "name" =
      requiredAttribute context child "name" from rfl]
    cases requiredAttribute context child "name" with
    | error error => exact ⟨rfl, rfl, rfl⟩
    | ok name =>
      simp only [Survey.map, List.map_id]
      refine ⟨?_, read.node, read.names⟩
      simp only [Extraction.map, read.outcome]
      cases (survey context.bean child).outcome <;> rfl
  · split
    · simp only [Survey.map, List.map_id]
      refine ⟨?_, read.node, read.names⟩
      simp only [Extraction.map, extractArgument, read.outcome]
      cases (survey context.bean child).outcome <;> rfl
    · split
      · refine ⟨?_, rfl, rfl⟩
        cases (extractAspect context.bean child).value <;> rfl
      · exact ⟨rfl, rfl, rfl⟩

/-- Reading the children of a declaration follows the survey. -/
theorem extractParts_ends (context : Context) (names : Names) (children : List Element) :
    let drawn := names.drawFor context.taken (surveyParts context.bean children).nameless
    let marked := Element.giveIdsAmong drawn.1 children
    (extractParts context names children).Ends
      ((surveyParts context.bean children).outcome.map fun parts =>
        parts.map (PartDraft.fill (Element.idAmong marked)))
      marked drawn.2 := by
  induction children generalizing names with
  | nil => exact ⟨rfl, rfl, rfl⟩
  | cons child rest ih =>
    have first := extractPart_ends context names child
    simp only [extractParts, surveyParts, Survey.map]
    cases sound : (surveyPart context.bean child).outcome with
    | error error =>
      simp only [sound, Except.map] at first ⊢
      simp only [first.outcome, Names.drawFor_map, Element.giveIdsAmong_inFirst]
      exact ⟨rfl, by rw [first.node], first.names⟩
    | ok part =>
      -- The names left by the first child are those that the others draw from.
      have others := ih (names.drawFor context.taken (surveyPart context.bean child).nameless).2
      simp only [sound, Except.map] at first ⊢
      simp only [first.outcome, first.names, first.node, Names.drawFor_append,
        Names.drawFor_map, Element.giveIdsAmong_append, Element.giveIdsAmong_inFirst,
        Element.giveIdsAmong_behind]
      refine ⟨?_, ?_, others.names⟩
      · rw [others.outcome]
        cases (surveyParts context.bean rest).outcome with
        | error error => rfl
        | ok parts => cases part <;> simp [Except.map, PartDraft.fill_rename,
            Element.idAmong_inFirst, Element.idAmong_behind, Function.comp_def]
      · rw [others.node]

/-- The survey of one child of a declaration is sound. -/
theorem surveyPart_sound (bean : String) (child : Element) :
    (surveyPart bean child).Sound child.at? fun part => part.toList.flatMap PartDraft.places := by
  -- Only the values of properties and arguments have inline beans.
  have read := survey_sound bean child
  simp only [surveyPart]
  split
  · cases requiredAttribute ⟨bean, []⟩ child "name" with
    | error error => exact .none fun part ended => by cases ended
    | ok name =>
      apply read.map (fun _ _ => Iff.rfl) (fun _ => rfl)
      intro draft
      simp [PartDraft.places]
  · split
    · apply read.map (fun _ _ => Iff.rfl) (fun _ => rfl)
      intro draft
      simp [PartDraft.places]
    · split
      · apply Survey.Sound.none
        intro part ended
        cases aspect : (extractAspect bean child).value with
        | error error =>
          rw [aspect] at ended
          cases ended
        | ok found =>
          rw [aspect] at ended
          cases ended
          rfl
      · exact .none fun part ended => by cases ended; rfl

/-- The survey of the children of a declaration is sound. -/
theorem surveyParts_sound (bean : String) (children : List Element) :
    (surveyParts bean children).Sound (Element.among? children)
      (List.flatMap PartDraft.places) := by
  induction children with
  | nil => exact .none fun parts ended => by cases ended; rfl
  | cons child rest ih =>
    -- The places of the first child are apart from those of the others.
    have others : ((surveyParts bean rest).map (List.map (PartDraft.rename Place.behind))
        Place.behind).Sound (Element.among? (child :: rest)) (List.flatMap PartDraft.places) :=
      ih.map (fun _ _ => Place.behind_inj) (Element.among?_behind child rest)
        fun parts => by simp [List.flatMap_map, List.map_flatMap, PartDraft.places_rename]
    have first : ((surveyPart bean child).map (Option.map (PartDraft.rename Place.inFirst))
        Place.inFirst).Sound (Element.among? (child :: rest))
          fun part => part.toList.flatMap PartDraft.places :=
      (surveyPart_sound bean child).map (fun _ _ => Place.inFirst_inj)
        (Element.among?_inFirst child rest)
        fun part => by cases part <;> simp [PartDraft.places_rename]
    simp only [surveyParts]
    cases ended : ((surveyPart bean child).map (Option.map (PartDraft.rename Place.inFirst))
        Place.inFirst).outcome with
    | error error => exact first.cut error
    | ok part => exact first.follow others ended Place.inFirst_apart fun parts => by simp

/-- A definition in whose parts each inline bean is named by its place. -/
structure DefinitionDraft (ρ : Type) where
  /-- The base with the attributes of the declaration. -/
  dressed : Definition
  parts : List (PartDraft ρ)

namespace DefinitionDraft

variable {ρ : Type}

/-- The definition in which inline beans have these ids. -/
def fill (ids : ρ → String) (draft : DefinitionDraft ρ) : Definition :=
  applyParts draft.dressed (draft.parts.map (PartDraft.fill ids))

/-- The places of the inline beans of a definition. -/
def places (draft : DefinitionDraft ρ) : List ρ :=
  draft.parts.flatMap PartDraft.places

/-- Only the ids at the places of a definition count. -/
theorem fill_congr {ids others : ρ → String} {draft : DefinitionDraft ρ}
    (same : ∀ place ∈ draft.places, ids place = others place) :
    draft.fill ids = draft.fill others := by
  have parts : draft.parts.map (PartDraft.fill ids) = draft.parts.map (PartDraft.fill others) := by
    apply List.map_congr_left
    intro part member
    exact PartDraft.fill_congr fun place inside =>
      same place (List.mem_flatMap.2 ⟨part, member, inside⟩)
  simp only [fill, parts]

end DefinitionDraft

/-- Surveys a declaration over a base. -/
def surveyDeclaration (bean : String) (base : Definition) (declaration : Element) :
    Survey (DefinitionDraft (List Nat)) (List Nat) :=
  match applyAttributes bean base declaration with
  | .error error => ⟨.error error, []⟩
  -- Places among the children become ways down from the declaration.
  | .ok dressed =>
    (surveyParts bean declaration.children).map
      (fun parts => ⟨dressed, parts.map (PartDraft.rename Place.fromParent)⟩) Place.fromParent

/-- Reading a declaration follows the survey. -/
theorem extractDeclaration_ends (context : Context) (names : Names) (base : Definition)
    (declaration : Element) :
    let drawn := names.drawFor context.taken
      (surveyDeclaration context.bean base declaration).nameless
    (extractDeclaration context names base declaration).Ends
      ((surveyDeclaration context.bean base declaration).outcome.map fun draft =>
        draft.fill (declaration.giveIds drawn.1).idAt)
      (declaration.giveIds drawn.1) drawn.2 := by
  -- Attributes draw no names, and the parts are read among the children.
  simp only [extractDeclaration, surveyDeclaration]
  cases applyAttributes context.bean base declaration with
  | error error => exact ⟨rfl, rfl, rfl⟩
  | ok dressed =>
    obtain ⟨name, attributes, text, children⟩ := declaration
    have parts := extractParts_ends context names children
    simp only [Survey.map, Names.drawFor_map, Element.giveIds_fromParent]
    refine ⟨?_, ?_, parts.names⟩
    · rw [parts.outcome]
      cases (surveyParts context.bean children).outcome with
      | error error => rfl
      | ok drafts => simp [Except.map, DefinitionDraft.fill, PartDraft.fill_rename,
          Element.idAt_fromParent, Function.comp_def]
    · rw [parts.node]

/-- The survey of a declaration is sound. -/
theorem surveyDeclaration_sound (bean : String) (base : Definition) (declaration : Element) :
    (surveyDeclaration bean base declaration).Sound declaration.at? DefinitionDraft.places := by
  simp only [surveyDeclaration]
  cases applyAttributes bean base declaration with
  | error error => exact .none fun draft ended => by cases ended
  | ok dressed =>
    -- The places are those that the children give, each below the declaration.
    obtain ⟨name, attributes, text, children⟩ := declaration
    exact (surveyParts_sound bean children).map (fun _ _ => Place.fromParent_inj)
      (Element.at?_fromParent name attributes text children)
      fun parts => by simp [DefinitionDraft.places, List.flatMap_map, List.map_flatMap,
        PartDraft.places_rename]

/-- The survey of the declaration at a place, on behalf of a bean and over a seed. -/
def surveyAt (bean : String) (seed : Option Definition) (declaration : Element) :
    Survey (DefinitionDraft (List Nat)) (List Nat) :=
  surveyDeclaration bean (seed.getD { name := bean }) declaration

/-- The ids given when the declaration at a place is assembled, each with its place in the set. -/
def giftsAt (documents : DocumentSet) (names : Names) (place : Place)
    (nameless : List (List Nat)) : Given Place :=
  (names.drawFor documents.declaredIds nameless).1.map fun gift => (place.down gift.1, gift.2)

/-- A bean that is not declared is answered by the seed. -/
theorem assemble_undeclared {documents : DocumentSet} {bean : String}
    (undeclared : documents.placeOf? bean = none) (names : Names) (seed : Option Definition) :
    assemble documents names bean seed = ⟨.ok seed, documents, names, [.undeclared bean]⟩ := by
  simp [assemble, documents.findBean?_eq, undeclared]

/-- A bean that is declared is assembled from the survey of its declaration. -/
theorem assemble_declared {documents : DocumentSet} {bean : String} {place : Place}
    (finds : documents.Finds bean place) (names : Names) (seed : Option Definition) :
    ∃ declaration, documents.element? place = some declaration ∧
      let found := surveyAt bean seed declaration
      let gifts := giftsAt documents names place found.nameless
      let assembly := assemble documents names bean seed
      assembly.names = (names.drawFor documents.declaredIds found.nameless).2 ∧
        match found.outcome with
        | .error error => assembly.outcome = .error error ∧ assembly.documents = documents
        | .ok draft =>
          assembly.documents = documents.giveIds gifts ∧
            assembly.outcome = .ok (some (draft.fill fun path =>
              assembly.documents.idAt (place.down path))) := by
  obtain ⟨path, declaration, there, found, _⟩ := finds.exists_element
  refine ⟨declaration, there, ?_⟩
  have read := extractDeclaration_ends ⟨bean, documents.declaredIds⟩ names
    (seed.getD { name := bean }) declaration
  have marks := documents.updateBean?_eq bean
  rw [finds] at marks
  simp only [assemble, found, surveyAt, giftsAt]
  cases sound : (surveyDeclaration bean (seed.getD { name := bean }) declaration).outcome with
  | error error =>
    simp only [sound, Except.map] at read
    simp only [read.outcome, read.names, and_self]
  | ok draft =>
    simp only [sound, Except.map] at read
    -- The declaration with its ids is put back where it was found.
    simp only [read.outcome, read.names, read.node, marks, Option.map_some, Option.getD_some,
      DocumentSet.modifyAt_giveIds there, DocumentSet.idAt_giveIds_down there, and_self]

/-- What stands below a place is what stands below the element there. -/
theorem DocumentSet.labelAt?_down {set : DocumentSet} {place : Place} {found : Element}
    (there : set.element? place = some found) (path : List Nat) :
    set.labelAt? (place.down path) = (found.at? path).map Element.label := by
  -- The way from the top goes through the element that stands at the place.
  rw [labelAt?, element?, Element.among?_down, ← element?, there]
  rfl

/-- Ids are given at the places of the beans without one that were met, in order. -/
theorem giftsAt_places (documents : DocumentSet) (names : Names) (place : Place)
    (nameless : List (List Nat)) :
    (giftsAt documents names place nameless).map (·.1) = nameless.map place.down := by
  rw [← Names.drawFor_places documents.declaredIds names nameless, giftsAt, List.map_map,
    List.map_map]
  -- Names are drawn for the places in their order.
  simp [Function.comp_def]

/-- The ids given when a declaration is assembled have the numbers of the names drawn. -/
theorem giftsAt_numbered (documents : DocumentSet) (names : Names) (place : Place)
    (nameless : List (List Nat)) :
    Numbered names.issued (names.drawFor documents.declaredIds nameless).2.issued
      (giftsAt documents names place nameless) :=
  (Names.numbered_drawFor documents.declaredIds names nameless).rename place.down

/-- The ids given when a declaration is assembled are new, each at a bean that has none. -/
theorem giftsAt_fits {documents : DocumentSet} {place : Place} {declaration : Element}
    (there : documents.element? place = some declaration) (names : Names) (bean : String)
    (seed : Option Definition) :
    documents.Fits (giftsAt documents names place (surveyAt bean seed declaration).nameless) := by
  -- The survey meets each nameless bean once, and each name drawn for one is free.
  have sound : (surveyAt bean seed declaration).Sound declaration.at? DefinitionDraft.places :=
    surveyDeclaration_sound bean (seed.getD { name := bean }) declaration
  constructor
  case apart =>
    rw [giftsAt_places]
    exact sound.distinct.map fun left right same => by simpa [Place.down] using same
  case nameless =>
    intro gift member
    obtain ⟨drawn, early, rfl⟩ := List.mem_map.1 member
    have listed : drawn.1 ∈ (surveyAt bean seed declaration).nameless := by
      rw [← Names.drawFor_places documents.declaredIds names
        (surveyAt bean seed declaration).nameless]
      exact List.mem_map_of_mem (f := (·.1)) early
    rw [DocumentSet.NamelessAt, DocumentSet.labelAt?_down there]
    exact sound.nameless drawn.1 listed
  case distinct => exact (giftsAt_numbered documents names place _).distinct
  case fresh =>
    intro gift member
    obtain ⟨drawn, early, rfl⟩ := List.mem_map.1 member
    have free : drawn.2 ∉ documents.declaredIds := Names.drawFor_not_taken early
    exact free

end BeanWiring
