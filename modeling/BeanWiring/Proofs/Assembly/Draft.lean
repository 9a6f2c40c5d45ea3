import BeanWiring.Assembly.Value
import BeanWiring.Proofs.Assembly.Names

/-!
Drafts of values: what reading finds in a node before ids are given to the inline beans of it.

Reading a node comes down to a survey, which draws no names: the draft it makes is filled with
the ids that the inline beans have in the end.
-/

namespace BeanWiring

/-- A value in which each inline bean is named by its place. -/
inductive Draft (ρ : Type) where
  | known (value : Value)
  | inline (place : ρ)
  /-- The entries as they are written, those with a repeated key among them. -/
  | array (rows : List (String × Draft ρ))

namespace Draft

variable {ρ σ : Type}

mutual

/-- The value in which inline beans have these ids. -/
def fill (ids : ρ → String) : Draft ρ → Value
  | .known value => value
  | .inline place => .beanRef (ids place)
  | .array rows => .array (fillRows ids rows [])

/-- The entries in which inline beans have these ids, put to those before. -/
def fillRows (ids : ρ → String) :
    List (String × Draft ρ) → List (String × Value) → List (String × Value)
  | [], entries => entries
  | (key, draft) :: rest, entries => fillRows ids rest (Entries.set key (fill ids draft) entries)

end

mutual

/-- The draft under other names of the places. -/
def rename (anew : ρ → σ) : Draft ρ → Draft σ
  | .known value => .known value
  | .inline place => .inline (anew place)
  | .array rows => .array (renameRows anew rows)

/-- The entries under other names of the places. -/
def renameRows (anew : ρ → σ) : List (String × Draft ρ) → List (String × Draft σ)
  | [] => []
  | (key, draft) :: rest => (key, rename anew draft) :: renameRows anew rest

end

mutual

/-- The places of the inline beans of a draft. -/
def places : Draft ρ → List ρ
  | .known _ => []
  | .inline place => [place]
  | .array rows => placesOfRows rows

/-- The places of the inline beans of entries. -/
def placesOfRows : List (String × Draft ρ) → List ρ
  | [] => []
  | (_, draft) :: rest => places draft ++ placesOfRows rest

end

mutual

/-- A renamed draft is filled by the ids that the new names have. -/
theorem fill_rename (anew : ρ → σ) (ids : σ → String) :
    ∀ draft : Draft ρ, (draft.rename anew).fill ids = draft.fill fun place => ids (anew place)
  | .known _ | .inline _ => rfl
  | .array rows => by
    -- Only an array holds more drafts.
    simp only [rename, fill]
    rw [fillRows_renameRows anew ids rows []]

/-- Renamed entries are filled by the ids that the new names have. -/
theorem fillRows_renameRows (anew : ρ → σ) (ids : σ → String) :
    ∀ (rows : List (String × Draft ρ)) (entries : List (String × Value)),
      fillRows ids (renameRows anew rows) entries =
        fillRows (fun place => ids (anew place)) rows entries
  | [], _ => rfl
  | (key, draft) :: rest, entries => by
    -- The entries of rows are renamed one by one, as their values are.
    simp only [renameRows, fillRows]
    rw [fill_rename anew ids draft, fillRows_renameRows anew ids rest]

end

mutual

/-- The places of a renamed draft are the renamed places. -/
theorem places_rename (anew : ρ → σ) :
    ∀ draft : Draft ρ, (draft.rename anew).places = draft.places.map anew
  | .known _ | .inline _ => rfl
  | .array rows => placesOfRows_renameRows anew rows

/-- The places of renamed entries are the renamed places. -/
theorem placesOfRows_renameRows (anew : ρ → σ) :
    ∀ rows : List (String × Draft ρ),
      placesOfRows (renameRows anew rows) = (placesOfRows rows).map anew
  | [] => rfl
  | (key, draft) :: rest => by
    -- The places of a row are those of its value, in front of those of the others.
    simp only [renameRows, placesOfRows, List.map_append]
    rw [places_rename anew draft, placesOfRows_renameRows anew rest]

end

mutual

/-- Only the ids at the places of a draft count. -/
theorem fill_congr {ids others : ρ → String} : ∀ {draft : Draft ρ},
    (∀ place ∈ draft.places, ids place = others place) → draft.fill ids = draft.fill others
  | .known _, _ => rfl
  | .inline place, same => by
    -- Only at its place does a draft ask for an id.
    have here := same place (List.mem_singleton.2 rfl)
    simp only [fill, here]
  | .array rows, same => by
    simp only [fill]
    rw [fillRows_congr same]

/-- Only the ids at the places of entries count. -/
theorem fillRows_congr {ids others : ρ → String} :
    ∀ {rows : List (String × Draft ρ)} {entries : List (String × Value)},
      (∀ place ∈ placesOfRows rows, ids place = others place) →
        fillRows ids rows entries = fillRows others rows entries
  | [], _, _ => rfl
  | (key, draft) :: rest, entries, same => by
    -- The places of the first entry come first, then those of the others.
    have first := fun place member => same place (List.mem_append_left _ member)
    have later := fun place member => same place (List.mem_append_right _ member)
    simp only [fillRows]
    rw [fill_congr first, fillRows_congr later]

end

end Draft

/--
What a survey finds: the outcome, and the places of the inline beans without an id in the order
in which they are met.
-/
structure Survey (α ρ : Type) where
  outcome : Except DefinitionError α
  nameless : List ρ := []

namespace Survey

variable {α β ρ σ : Type}

/-- The survey under other names of the places. -/
def map (change : α → β) (anew : ρ → σ) (survey : Survey α ρ) : Survey β σ :=
  ⟨survey.outcome.map change, survey.nameless.map anew⟩

end Survey

/-- A changed outcome that is a success is the change of a success. -/
theorem ok_of_map {ε α β : Type} {change : α → β} {outcome : Except ε α} {result : β}
    (ended : outcome.map change = .ok result) :
    ∃ original, outcome = .ok original ∧ change original = result := by
  cases outcome with
  | error error => cases ended
  | ok original => exact ⟨original, rfl, Except.ok.inj ended⟩

/-- A changed outcome fails as the outcome does. -/
theorem map_eq_error_iff {ε α β : Type} {change : α → β} {outcome : Except ε α} {error : ε} :
    outcome.map change = .error error ↔ outcome = .error error := by
  cases outcome <;> simp [Except.map]

/-- Surveys a node that may have an inline bean: the first one is what the value refers to. -/
def surveyInline (node : Element) : Survey (Draft (List Nat)) (List Nat) :=
  match node.children.findIdx? fun child => child.name == Marker.inlineBean.name with
  | none => ⟨.ok (.known (plainValue node)), []⟩
  -- An inline bean with an id is named by it already.
  | some index =>
    ⟨.ok (.inline [index]), if (node.children[index]?.bind fun bean => bean.attribute? "id").isNone
      then [[index]] else []⟩

mutual

/-- Surveys a node on behalf of a bean. -/
def survey (bean : String) : Element → Survey (Draft (List Nat)) (List Nat)
  | ⟨name, attributes, text, children⟩ =>
    let node : Element := ⟨name, attributes, text, children⟩
    match Marker.of? node with
    | some .reference => ⟨(referenceOf ⟨bean, []⟩ node).map .known, []⟩
    | some .nothing => ⟨.ok (.known (.simple .null)), []⟩
    | some .no => ⟨.ok (.known (.simple (.bool false))), []⟩
    | some .yes => ⟨.ok (.known (.simple (.bool true))), []⟩
    | some .inlineBean => surveyInline node
    -- The places among the children become ways down from the node.
    | some .entries =>
      (surveyArray bean children).map (fun rows => .array (Draft.renameRows Place.fromParent rows))
        Place.fromParent
    | some .code => ⟨.ok (.known (codeOf node)), []⟩
    | none => ⟨.ok (.known (plainValue node)), []⟩

/-- Surveys the first array among the children of a node. -/
def surveyArray (bean : String) : List Element → Survey (List (String × Draft Place)) Place
  | [] => ⟨.ok [], []⟩
  | ⟨name, _, _, children⟩ :: rest =>
    -- Only the first child of this name counts.
    if name == Marker.entries.name then
      ((surveyEntries bean children).map (Draft.renameRows Place.fromParent)
        Place.fromParent).map (Draft.renameRows Place.inFirst) Place.inFirst
    else (surveyArray bean rest).map (Draft.renameRows Place.behind) Place.behind

/-- Surveys the entries of an array, up to the first that is not sound. -/
def surveyEntries (bean : String) : List Element → Survey (List (String × Draft Place)) Place
  | [] => ⟨.ok [], []⟩
  | entry :: rest =>
    if entry.name == "entry" then
      match requiredAttribute ⟨bean, []⟩ entry "key" with
      | .error error => ⟨.error error, []⟩
      | .ok key =>
        let first := (survey bean entry).map (Draft.rename Place.inFirst) Place.inFirst
        -- Nothing is met behind the first fault.
        match first.outcome with
        | .error error => ⟨.error error, first.nameless⟩
        | .ok draft =>
          let others := (surveyEntries bean rest).map (Draft.renameRows Place.behind) Place.behind
          ⟨others.outcome.map ((key, draft) :: ·), first.nameless ++ others.nameless⟩
    else (surveyEntries bean rest).map (Draft.renameRows Place.behind) Place.behind

end

end BeanWiring
