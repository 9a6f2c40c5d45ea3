import BeanWiring.Proofs.Assembly.Draft
import Mathlib.Data.List.Nodup

/-!
Reading a node is surveying it, drawing a name for each inline bean without an id, giving these
names as ids, and filling the draft with the ids that are there then.
-/

namespace BeanWiring

/-- How reading ends: with an outcome, with what was read as it is then, and with the names left. -/
structure Extraction.Ends {α β : Type} (extraction : Extraction α β)
    (outcome : Except DefinitionError α) (node : β) (names : Names) : Prop where
  outcome : extraction.outcome = outcome
  node : extraction.node = node
  names : extraction.names = names

/-- The first child of a name is the one at the first index that has the name. -/
theorem Element.child?_eq (element : Element) (name : String) :
    element.child? name =
      (element.children.findIdx? fun child => child.name == name).bind (element.children[·]?) := by
  -- Both searches pass over the same children.
  rw [child?]
  induction element.children with
  | nil => rfl
  | cons first rest ih =>
    rw [List.find?_cons, List.findIdx?_cons]
    cases first.name == name with
    | true => rfl
    | false =>
      -- An index among the others is the next one among all.
      simp only [ih, Bool.false_eq_true, if_false, Option.bind_map]
      rfl

/-- Changing the first child of a name changes what stands at its index. -/
theorem Element.updateChild?_eq (element : Element) (name : String)
    (change : Element → Element) :
    element.updateChild? name change =
      (element.children.findIdx? fun child => child.name == name).map fun index =>
        element.modifyAt change [index] := by
  -- The search among the children is followed for every list of them.
  have among : ∀ children : List Element, updateChild?.go name change children =
      (children.findIdx? fun child => child.name == name).map fun index =>
        children.modify index change := by
    intro children
    induction children with
    | nil => rfl
    | cons first rest ih =>
      rw [updateChild?.go, List.findIdx?_cons]
      cases first.name == name with
      | true => rfl
      | false => simp [ih, Function.comp_def]
  simp only [updateChild?, among, Option.map_map]
  rfl

/-- Reading a node that may have an inline bean follows the survey. -/
theorem extractInline_ends (context : Context) (names : Names) (node : Element) :
    let drawn := names.drawFor context.taken (surveyInline node).nameless
    (extractInline context names node).Ends
      ((surveyInline node).outcome.map fun draft => draft.fill (node.giveIds drawn.1).idAt)
      (node.giveIds drawn.1) drawn.2 := by
  -- The reading goes by the child, the survey by its index.
  have found := node.child?_eq Marker.inlineBean.name
  have marks := node.updateChild?_eq Marker.inlineBean.name
  simp only [extractInline, surveyInline]
  cases at? : node.children.findIdx? fun child => child.name == Marker.inlineBean.name with
  | none =>
    simp only [at?, Option.bind_none] at found
    simp only [found]
    exact ⟨rfl, rfl, rfl⟩
  | some index =>
    obtain ⟨inside, _⟩ := List.findIdx?_eq_some_iff_getElem.1 at?
    have stands : node.children[index]? = some node.children[index] :=
      List.getElem?_eq_getElem inside
    simp only [at?, Option.bind_some, stands] at found
    simp only [at?, Option.map_some] at marks
    simp only [found, stands, Option.bind_some]
    have there : node.at? [index] = some node.children[index] := by simp [Element.at?, stands]
    cases declared : node.children[index].attribute? "id" with
    | some id =>
      have held : node.idAt [index] = id := by simp [Element.idAt, there, declared]
      refine ⟨?_, rfl, rfl⟩
      simp [Extraction.done, Except.map, Draft.fill, held, Names.drawFor, Element.giveIds]
    | none =>
      -- One name is drawn, and it is the id that the inline bean has afterwards.
      have held : (node.modifyAt (Element.withId (names.nextFree context.taken).1) [index]).idAt
          [index] = (names.nextFree context.taken).1 := by
        rw [Element.idAt, Element.at?_modifyAt_self _ there]
        simp [Element.attribute?, Element.withId, Element.setAttribute]
      refine ⟨?_, ?_, rfl⟩
      · simp [Except.map, Draft.fill, Names.drawFor, Element.giveIds, held]
      · simp only [marks]
        rfl

namespace Element

/-- The ids at places below an element are those among its children. -/
theorem idAt_fromParent (name : String) (attributes : List (String × String)) (text : String)
    (children : List Element) (place : Place) :
    (⟨name, attributes, text, children⟩ : Element).idAt place.fromParent =
      idAmong children place := by
  simp [idAt, idAmong]

/-- The ids in the first tree of a row are those of that tree. -/
theorem idAmong_inFirst (first : Element) (rest : List Element) (path : List Nat) :
    idAmong (first :: rest) (.inFirst path) = first.idAt path := by
  simp [idAt, idAmong]

/-- The ids behind the first tree of a row are those of the others. -/
theorem idAmong_behind (first : Element) (rest : List Element) (place : Place) :
    idAmong (first :: rest) place.behind = idAmong rest place := by
  simp [idAmong]

end Element

/-- Of those for whom a reference is read only the bean counts, which a fault names. -/
theorem referenceOf_context (context : Context) (node : Element) :
    referenceOf context node = referenceOf ⟨context.bean, []⟩ node :=
  rfl

mutual

/-- Reading a node follows the survey. -/
theorem extract_ends (context : Context) (names : Names) : ∀ node : Element,
    let drawn := names.drawFor context.taken (survey context.bean node).nameless
    (extract context names node).Ends
      ((survey context.bean node).outcome.map fun draft =>
        draft.fill (node.giveIds drawn.1).idAt)
      (node.giveIds drawn.1) drawn.2
  | ⟨name, attributes, text, children⟩ => by
    simp only [extract, survey]
    cases kind : Marker.of? ⟨name, attributes, text, children⟩ with
    | none => exact ⟨rfl, rfl, rfl⟩
    | some marker =>
      cases marker with
      | inlineBean => exact extractInline_ends context names _
      | entries =>
        -- The array is read among the children, so its places are those from their parent.
        have array := extractArray_ends context names children
        simp only [Survey.map, Names.drawFor_map, Element.giveIds_fromParent]
        refine ⟨?_, ?_, array.names⟩
        · rw [array.outcome]
          cases (surveyArray context.bean children).outcome with
          | error error => rfl
          | ok rows => simp [Except.map, Draft.fill, Draft.fillRows_renameRows,
              Element.idAt_fromParent]
        · rw [array.node]
      | nothing | no | yes | code => exact ⟨rfl, rfl, rfl⟩
      | reference =>
        refine ⟨?_, rfl, rfl⟩
        rw [← referenceOf_context context]
        simp only [Extraction.done]
        cases referenceOf context ⟨name, attributes, text, children⟩ <;> rfl

/-- Reading the first array among the children of a node follows the survey. -/
theorem extractArray_ends (context : Context) (names : Names) : ∀ children : List Element,
    let drawn := names.drawFor context.taken (surveyArray context.bean children).nameless
    let marked := Element.giveIdsAmong drawn.1 children
    (extractArray context names children).Ends
      ((surveyArray context.bean children).outcome.map fun rows =>
        Draft.fillRows (Element.idAmong marked) rows [])
      marked drawn.2
  | [] => ⟨rfl, rfl, rfl⟩
  | ⟨name, attributes, text, children⟩ :: rest => by
    simp only [extractArray, surveyArray]
    split
    · -- The first array is the only one that is read.
      have entries := extractEntries_ends context names [] children
      simp only [Survey.map, Names.drawFor_map, Element.giveIdsAmong_inFirst,
        Element.giveIds_fromParent]
      refine ⟨?_, ?_, entries.names⟩
      · rw [entries.outcome]
        cases (surveyEntries context.bean children).outcome with
        | error error => rfl
        | ok rows => simp [Except.map, Draft.fillRows_renameRows, Element.idAmong_inFirst,
            Element.idAt_fromParent]
      · rw [entries.node]
    · have others := extractArray_ends context names rest
      simp only [Survey.map, Names.drawFor_map, Element.giveIdsAmong_behind]
      refine ⟨?_, ?_, others.names⟩
      · rw [others.outcome]
        cases (surveyArray context.bean rest).outcome with
        | error error => rfl
        | ok rows => simp [Except.map, Draft.fillRows_renameRows, Element.idAmong_behind]
      · rw [others.node]

/-- Reading the entries of an array follows the survey. -/
theorem extractEntries_ends (context : Context) (names : Names)
    (before : List (String × Value)) : ∀ entries : List Element,
    let drawn := names.drawFor context.taken (surveyEntries context.bean entries).nameless
    let marked := Element.giveIdsAmong drawn.1 entries
    (extractEntries context names before entries).Ends
      ((surveyEntries context.bean entries).outcome.map fun rows =>
        Draft.fillRows (Element.idAmong marked) rows before)
      marked drawn.2
  | [] => ⟨rfl, rfl, rfl⟩
  | entry :: rest => by
    simp only [extractEntries, surveyEntries]
    split
    · rw [show requiredAttribute ⟨context.bean, []⟩ entry "key" =
        requiredAttribute context entry "key" from rfl]
      cases requiredAttribute context entry "key" with
      | error error => exact ⟨rfl, rfl, rfl⟩
      | ok key =>
        have first := extract_ends context names entry
        simp only [Survey.map]
        cases sound : (survey context.bean entry).outcome with
        | error error =>
          -- The entry that is not sound is the last that is read.
          simp only [sound, Except.map] at first ⊢
          simp only [first.outcome, Names.drawFor_map, Element.giveIdsAmong_inFirst]
          exact ⟨rfl, by rw [first.node], first.names⟩
        | ok draft =>
          -- The names left by the first entry are those that the others draw from.
          have others := extractEntries_ends context
            (names.drawFor context.taken (survey context.bean entry).nameless).2
            (Entries.set key (draft.fill (entry.giveIds
              (names.drawFor context.taken (survey context.bean entry).nameless).1).idAt) before)
            rest
          simp only [sound, Except.map] at first ⊢
          simp only [first.outcome, first.names, first.node, Names.drawFor_append,
            Names.drawFor_map, Element.giveIdsAmong_append, Element.giveIdsAmong_inFirst,
            Element.giveIdsAmong_behind]
          refine ⟨?_, ?_, others.names⟩
          · rw [others.outcome]
            cases (surveyEntries context.bean rest).outcome with
            | error error => rfl
            | ok rows => simp [Except.map, Draft.fillRows, Draft.fill_rename,
                Draft.fillRows_renameRows, Element.idAmong_inFirst, Element.idAmong_behind]
          · rw [others.node]
    · have others := extractEntries_ends context names before rest
      simp only [Survey.map, Names.drawFor_map, Element.giveIdsAmong_behind]
      refine ⟨?_, ?_, others.names⟩
      · rw [others.outcome]
        cases (surveyEntries context.bean rest).outcome with
        | error error => rfl
        | ok rows => simp [Except.map, Draft.fillRows_renameRows, Element.idAmong_behind]
      · rw [others.node]

end

/--
A survey of elements at places: no inline bean without an id is met twice, and these with those
that have an id are all that the draft refers to.
-/
structure Survey.Sound {α ρ : Type} (survey : Survey α ρ) (found? : ρ → Option Element)
    (placesOf : α → List ρ) : Prop where
  distinct : survey.nameless.Nodup
  nameless : ∀ place ∈ survey.nameless, (found? place).map Element.label = some ("bean", none)
  complete : ∀ draft, survey.outcome = .ok draft → ∀ place ∈ placesOf draft,
    place ∈ survey.nameless ∨ ∃ id, (found? place).map Element.label = some ("bean", some id)

namespace Survey.Sound

variable {α β γ ρ σ : Type} {found? : ρ → Option Element} {other? : σ → Option Element}
  {placesOf : α → List ρ} {placesAnew : β → List σ} {more : β → List ρ} {both : γ → List ρ}

/-- A survey that ends without any inline bean is sound. -/
theorem none {outcome : Except DefinitionError α}
    (empty : ∀ draft, outcome = .ok draft → placesOf draft = []) :
    (⟨outcome, []⟩ : Survey α ρ).Sound found? placesOf := by
  refine ⟨by simp, by simp, ?_⟩
  intro draft ended place member
  -- A draft without places asks for no id.
  rw [empty draft ended] at member
  cases member

/-- A sound survey is sound from further up. -/
theorem map {survey : Survey α ρ} (sound : survey.Sound found? placesOf) {change : α → β}
    {anew : ρ → σ} (apart : ∀ left right, anew left = anew right ↔ left = right)
    (same : ∀ place, other? (anew place) = found? place)
    (renamed : ∀ draft, placesAnew (change draft) = (placesOf draft).map anew) :
    (survey.map change anew).Sound other? placesAnew := by
  -- Places that differ still do under their new names, and the same stands at them.
  constructor
  · exact sound.distinct.map fun left right => (apart left right).1
  · intro place member
    obtain ⟨before, earlier, rfl⟩ := List.mem_map.1 member
    rw [same]
    exact sound.nameless before earlier
  · intro draft ended place member
    simp only [Survey.map] at ended
    cases outcome : survey.outcome with
    | error error =>
      rw [outcome] at ended
      cases ended
    | ok original =>
      rw [outcome] at ended
      obtain rfl : change original = draft := Except.ok.inj ended
      rw [renamed] at member
      obtain ⟨before, earlier, rfl⟩ := List.mem_map.1 member
      rw [same]
      rcases sound.complete original outcome before earlier with unnamed | declared
      · exact .inl (List.mem_map_of_mem unnamed)
      · exact .inr declared

/-- A sound survey that was cut short by a fault is sound. -/
theorem cut {survey : Survey α ρ} (sound : survey.Sound found? placesOf)
    (error : DefinitionError) :
    (⟨.error error, survey.nameless⟩ : Survey β ρ).Sound found? more :=
  ⟨sound.distinct, sound.nameless, fun _ ended => by cases ended⟩

/-- Two sound surveys, of which one looks elsewhere than the other, are sound together. -/
theorem follow {first : Survey α ρ} {others : Survey β ρ} {draft : α} {join : β → γ}
    (sound : first.Sound found? placesOf) (later : others.Sound found? more)
    (ended : first.outcome = .ok draft)
    (apart : ∀ place ∈ first.nameless, ∀ other ∈ others.nameless, place ≠ other)
    (joined : ∀ drafts, both (join drafts) = placesOf draft ++ more drafts) :
    (⟨others.outcome.map join, first.nameless ++ others.nameless⟩ : Survey γ ρ).Sound found?
      both := by
  -- A place of the joined drafts is one of the first or one of the others.
  refine ⟨List.nodup_append.2 ⟨sound.distinct, later.distinct, apart⟩, ?_, ?_⟩
  · intro place member
    rcases List.mem_append.1 member with here | there
    · exact sound.nameless place here
    · exact later.nameless place there
  · intro result finished place member
    cases outcome : others.outcome with
    | error error =>
      rw [outcome] at finished
      cases finished
    | ok drafts =>
      rw [outcome] at finished
      obtain rfl : join drafts = result := Except.ok.inj finished
      rw [joined] at member
      rcases List.mem_append.1 member with here | there
      · rcases sound.complete draft ended place here with unnamed | declared
        · exact .inl (List.mem_append_left _ unnamed)
        · exact .inr declared
      · rcases later.complete drafts outcome place there with unnamed | declared
        · exact .inl (List.mem_append_right _ unnamed)
        · exact .inr declared

end Survey.Sound

/-- Places in the first tree and behind it are apart, whatever they are places of. -/
theorem Place.inFirst_apart {paths : List (List Nat)} {places : List Place} :
    ∀ place ∈ paths.map Place.inFirst, ∀ other ∈ places.map Place.behind, place ≠ other := by
  intro place first other behind same
  obtain ⟨path, _, rfl⟩ := List.mem_map.1 first
  obtain ⟨before, _, rfl⟩ := List.mem_map.1 behind
  -- No place in the first tree is one behind it.
  exact Place.inFirst_ne_behind same

/-- Of inline beans the survey of a node meets the first one. -/
theorem surveyInline_sound (node : Element) :
    (surveyInline node).Sound node.at? Draft.places := by
  -- The place is the index of the first inline bean, which has an id or has none.
  simp only [surveyInline]
  cases at? : node.children.findIdx? fun child => child.name == Marker.inlineBean.name with
  | none => exact .none fun draft ended => by cases ended; rfl
  | some index =>
    obtain ⟨inside, named, _⟩ := List.findIdx?_eq_some_iff_getElem.1 at?
    have stands : node.children[index]? = some node.children[index] :=
      List.getElem?_eq_getElem inside
    have label : (node.at? [index]).map Element.label =
        some ("bean", node.children[index].attribute? "id") := by
      have name : node.children[index].name = "bean" := by simpa [Marker.name] using named
      simp [Element.at?, stands, Element.label, name]
    simp only [stands, Option.bind_some]
    cases declared : node.children[index].attribute? "id" with
    | none =>
      rw [declared] at label
      refine ⟨by simp, by simpa using label, ?_⟩
      intro draft ended place member
      cases ended
      exact .inl member
    | some id =>
      rw [declared] at label
      refine ⟨by simp, by simp, ?_⟩
      intro draft ended place member
      cases ended
      obtain rfl := List.mem_singleton.1 member
      exact .inr ⟨id, label⟩

mutual

/-- The survey of a node is sound. -/
theorem survey_sound (bean : String) : ∀ node : Element,
    (survey bean node).Sound node.at? Draft.places
  | ⟨name, attributes, text, children⟩ => by
    simp only [survey]
    cases kind : Marker.of? ⟨name, attributes, text, children⟩ with
    | none => exact .none fun draft ended => by cases ended; rfl
    | some marker =>
      cases marker with
      | inlineBean => exact surveyInline_sound _
      | entries =>
        exact (surveyArray_sound bean children).map (fun _ _ => Place.fromParent_inj)
          (Element.at?_fromParent name attributes text children)
          (Draft.placesOfRows_renameRows Place.fromParent)
      | nothing | no | yes | code => exact .none fun draft ended => by cases ended; rfl
      | reference =>
        -- A bean that is referred to by name is not an inline one.
        apply Survey.Sound.none
        intro draft ended
        cases read : referenceOf ⟨bean, []⟩ ⟨name, attributes, text, children⟩ with
        | error error =>
          rw [read] at ended
          cases ended
        | ok value =>
          rw [read] at ended
          cases ended
          rfl

/-- The survey of an array is sound. -/
theorem surveyArray_sound (bean : String) : ∀ children : List Element,
    (surveyArray bean children).Sound (Element.among? children) Draft.placesOfRows
  | [] => .none fun draft ended => by cases ended; rfl
  | ⟨name, attributes, text, children⟩ :: rest => by
    simp only [surveyArray]
    split
    -- The entries lie below the first array, which is the first of the children.
    · have inside : ((surveyEntries bean children).map (Draft.renameRows Place.fromParent)
          Place.fromParent).Sound (⟨name, attributes, text, children⟩ : Element).at?
          Draft.placesOfRows :=
        (surveyEntries_sound bean children).map (fun _ _ => Place.fromParent_inj)
          (Element.at?_fromParent name attributes text children)
          (Draft.placesOfRows_renameRows Place.fromParent)
      exact inside.map (fun _ _ => Place.inFirst_inj) (Element.among?_inFirst _ rest)
        (Draft.placesOfRows_renameRows Place.inFirst)
    · exact (surveyArray_sound bean rest).map (fun _ _ => Place.behind_inj)
        (Element.among?_behind _ rest) (Draft.placesOfRows_renameRows Place.behind)

/-- The survey of the entries of an array is sound. -/
theorem surveyEntries_sound (bean : String) : ∀ entries : List Element,
    (surveyEntries bean entries).Sound (Element.among? entries) Draft.placesOfRows
  | [] => .none fun draft ended => by cases ended; rfl
  | entry :: rest => by
    -- The places of the first entry are apart from those of the others.
    have others := (surveyEntries_sound bean rest).map (fun _ _ => Place.behind_inj)
      (Element.among?_behind entry rest) (Draft.placesOfRows_renameRows Place.behind)
    simp only [surveyEntries]
    split
    · cases requiredAttribute ⟨bean, []⟩ entry "key" with
      | error error => exact .none fun draft ended => by cases ended
      | ok key =>
        have first : ((survey bean entry).map (Draft.rename Place.inFirst) Place.inFirst).Sound
            (Element.among? (entry :: rest)) Draft.places :=
          (survey_sound bean entry).map (fun _ _ => Place.inFirst_inj)
            (Element.among?_inFirst entry rest) (Draft.places_rename Place.inFirst)
        cases ended : ((survey bean entry).map (Draft.rename Place.inFirst)
            Place.inFirst).outcome with
        | error error => exact first.cut error
        | ok draft => exact first.follow others ended Place.inFirst_apart fun _ => rfl
    · exact others

end

end BeanWiring
