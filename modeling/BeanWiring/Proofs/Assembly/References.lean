import BeanWiring.Proofs.Assembly.Selection

/-!
The ids that a definition refers to beans by.

An inline bean that a declaration refers to has its id among them, unless it stands in an entry
that a later one with the same key replaces.
-/

namespace BeanWiring

namespace Value

mutual

/-- The ids that a value refers to beans by. -/
def references : Value → List String
  | .beanRef bean => [bean]
  | .array entries => referencesAmong entries
  | .simple _ | .code _ => []

/-- The ids that the values of entries refer to beans by. -/
def referencesAmong : List (String × Value) → List String
  | [] => []
  | (_, value) :: rest => references value ++ referencesAmong rest

end

/-- The references of entries are those of each value in turn. -/
theorem mem_referencesAmong {id : String} {entries : List (String × Value)} :
    id ∈ referencesAmong entries ↔ ∃ entry ∈ entries, id ∈ entry.2.references := by
  induction entries with
  | nil => simp [referencesAmong]
  | cons entry rest ih => simp [referencesAmong, ih]

end Value

/-- The ids that the properties and the arguments of a definition refer to beans by. -/
def Definition.references (definition : Definition) : List String :=
  (definition.properties.flatMap fun property => property.value.references) ++
    definition.arguments.flatMap fun argument => argument.value.references

/-- An entry under a key that no row has stays when rows are filled in. -/
theorem Draft.mem_fillRows {ρ : Type} (ids : ρ → String) {rows : List (String × Draft ρ)}
    {entry : String × Value} {entries : List (String × Value)} (member : entry ∈ entries)
    (other : entry.1 ∉ rows.map (·.1)) : entry ∈ Draft.fillRows ids rows entries := by
  -- The induction is on the rows, each of which sets a key of its own.
  induction rows generalizing entries with
  | nil => exact member
  | cons row rest ih =>
    obtain ⟨differ, later⟩ : entry.1 ≠ row.1 ∧ entry.1 ∉ rest.map (·.1) := by simpa using other
    exact ih (Entries.mem_set_of_mem differ _ member) later

namespace Element

/-- Whether a place is in an entry of a row that a later one replaces, or further down. -/
def ReplacedAmong (row : List Element) (place : Place) : Prop :=
  ∃ entry, row[place.tree]? = some entry ∧ entry.name = "entry" ∧
    ((∃ (later : Nat) (other : Element), place.tree < later ∧ row[later]? = some other ∧
      other.name = "entry" ∧ other.attribute? "key" = entry.attribute? "key") ∨
        entry.Replaced place.path)

/-- Whether a place is in an entry of the first array of a row that is replaced, or below it. -/
def ReplacedInArray (row : List Element) (place : Place) : Prop :=
  ∃ index array inside, (row.findIdx? fun child => child.name == Marker.entries.name) = some index ∧
    row[index]? = some array ∧ ReplacedAmong array.children inside ∧
    place = ⟨index, inside.fromParent⟩

/-- Whether a declaration gives a value in which the entry of the bean at a way is replaced. -/
def Drops (declaration : Element) (path : List Nat) : Prop :=
  ∃ (index : Nat) (part : Element) (rest : List Nat), declaration.children[index]? = some part ∧
    part.Replaced rest ∧ path = index :: rest

/-- What is replaced behind the first element of a row is replaced in the row. -/
theorem ReplacedAmong.behind {rest : List Element} {place : Place}
    (replaced : ReplacedAmong rest place) (first : Element) :
    ReplacedAmong (first :: rest) place.behind := by
  -- The positions of both entries go up by one.
  obtain ⟨entry, stands, named, ⟨later, other, further, there, also, same⟩ | below⟩ := replaced
  · exact ⟨entry, stands, named,
      .inl ⟨later + 1, other, Nat.succ_lt_succ further, there, also, same⟩⟩
  · exact ⟨entry, stands, named, .inr below⟩

/-- What is replaced in the array that a value is read from is replaced in the value. -/
theorem ReplacedInArray.replaced {node : Element} (marker : Marker.of? node = some .entries)
    {place : Place} (replaced : ReplacedInArray node.children place) :
    node.Replaced place.fromParent := by
  -- The first array among the children is the one that the value is read from.
  obtain ⟨index, array, inside, first, there, ⟨entry, stands, named, cause⟩, rfl⟩ := replaced
  have holds : node.HasEntry index inside.tree entry :=
    ⟨marker, first, by simp [there, stands], named⟩
  rcases cause with ⟨later, other, further, behind, also, same⟩ | below
  · exact .here holds ⟨marker, first, by simp [there, behind], also⟩ further same
  · exact .within holds below

end Element

/-- Rows keep their keys under other names of the places. -/
theorem Draft.keys_renameRows {ρ σ : Type} (anew : ρ → σ) (rows : List (String × Draft ρ)) :
    (Draft.renameRows anew rows).map (·.1) = rows.map (·.1) := by
  -- Renaming changes places, and keys are none.
  induction rows with
  | nil => rfl
  | cons row rest ih => simp [Draft.renameRows, ih]

/-- Entries that are surveyed without a fault give a row each, the others give none. -/
theorem surveyEntries_ok_cases {bean : String} {entry : Element} {rest : List Element}
    {rows : List (String × Draft Place)}
    (ended : (surveyEntries bean (entry :: rest)).outcome = .ok rows) :
    ∃ others, (surveyEntries bean rest).outcome = .ok others ∧
      ((entry.name = "entry" ∧ ∃ key draft, entry.attribute? "key" = some key ∧
          (survey bean entry).outcome = .ok draft ∧
          rows = (key, draft.rename Place.inFirst) :: Draft.renameRows Place.behind others) ∨
        (entry.name ≠ "entry" ∧ rows = Draft.renameRows Place.behind others)) := by
  -- Every branch with a fault would have ended with it.
  simp only [surveyEntries, requiredAttribute] at ended
  split at ended
  · next named =>
    cases keyed : entry.attribute? "key" with
    | none =>
      simp only [keyed] at ended
      cases ended
    | some key =>
      simp only [keyed, Survey.map] at ended
      cases sound : (survey bean entry).outcome with
      | error error =>
        simp only [sound, Except.map] at ended
        cases ended
      | ok draft =>
        simp only [sound] at ended
        obtain ⟨_, later, rfl⟩ := ok_of_map ended
        obtain ⟨others, outcome, rfl⟩ := ok_of_map later
        exact ⟨others, outcome, .inl ⟨beq_iff_eq.1 named, key, draft, rfl, rfl, rfl⟩⟩
  · next other =>
    obtain ⟨others, outcome, rfl⟩ := ok_of_map ended
    exact ⟨others, outcome, .inr ⟨beq_iff_eq.not.1 other, rfl⟩⟩

/-- The keys of the rows that a survey finds are those of the entries. -/
theorem surveyEntries_keys {bean : String} {entries : List Element}
    {rows : List (String × Draft Place)} (ended : (surveyEntries bean entries).outcome = .ok rows)
    {key : String} (member : key ∈ rows.map (·.1)) :
    ∃ (position : Nat) (entry : Element), entries[position]? = some entry ∧
      entry.name = "entry" ∧ entry.attribute? "key" = some key := by
  -- The induction is on the entries; those of other names give no row.
  induction entries generalizing rows with
  | nil =>
    cases ended
    cases member
  | cons entry rest ih =>
    obtain ⟨others, outcome, cause⟩ := surveyEntries_ok_cases ended
    have later : key ∈ others.map (·.1) → ∃ (position : Nat) (found : Element),
        (entry :: rest)[position]? = some found ∧ found.name = "entry" ∧
          found.attribute? "key" = some key := by
      intro inside
      obtain ⟨position, found, stands, named, keyed⟩ := ih outcome inside
      exact ⟨position + 1, found, stands, named, keyed⟩
    rcases cause with ⟨named, first, draft, keyed, _, rfl⟩ | ⟨_, rfl⟩
    · rw [List.map_cons, Draft.keys_renameRows] at member
      rcases List.mem_cons.1 member with rfl | inside
      · exact ⟨0, entry, rfl, named, keyed⟩
      · exact later inside
    · rw [Draft.keys_renameRows] at member
      exact later member

mutual

/--
In a value the beans that its node refers to have their ids, but for those in entries that are
replaced.
-/
theorem survey_references {bean : String} : ∀ {node : Element} {draft : Draft (List Nat)},
    (survey bean node).outcome = .ok draft → ∀ (ids : List Nat → String) {path : List Nat},
      node.Selects path → node.Replaced path ∨ ids path ∈ (draft.fill ids).references
  | ⟨name, attributes, text, children⟩, draft, ended, ids, path, selects => by
    cases kind : Marker.of? ⟨name, attributes, text, children⟩ with
    | none => exact absurd selects (Element.not_selects (by simp [kind]) (by simp [kind]) path)
    | some marker =>
      cases marker with
      | inlineBean =>
        -- The one bean that the value refers to is where the draft says.
        right
        have member := ((surveyInline_meets kind).places draft (by simpa [survey, kind] using ended)
          path).2 selects
        simp only [survey, kind, surveyInline] at ended
        split at ended
        · cases ended
          cases member
        · cases ended
          obtain rfl := List.mem_singleton.1 member
          exact List.mem_singleton.2 rfl
      | entries =>
        simp only [survey, kind] at ended
        obtain ⟨rows, outcome, rfl⟩ := ok_of_map ended
        obtain ⟨place, inside, rfl⟩ := (Element.selects_entries kind path).1 selects
        rcases surveyArray_references outcome (fun place => ids place.fromParent) inside with
          replaced | named
        · exact .inl (replaced.replaced kind)
        · right
          simpa [Draft.fill, Draft.fillRows_renameRows, Value.references] using named
      | nothing | no | yes | code | reference =>
        exact absurd selects (Element.not_selects (by simp [kind]) (by simp [kind]) path)

/-- In an array the beans that its entries refer to have their ids, unless they are replaced. -/
theorem surveyArray_references {bean : String} :
    ∀ {children : List Element} {rows : List (String × Draft Place)},
    (surveyArray bean children).outcome = .ok rows → ∀ (ids : Place → String) {place : Place},
      Element.SelectsInArray children place → Element.ReplacedInArray children place ∨
        ids place ∈ Value.referencesAmong (Draft.fillRows ids rows [])
  | [], _, _, _, _, selects => by
    obtain ⟨_, _, _, found, _⟩ := selects
    cases found
  | ⟨name, attributes, text, children⟩ :: rest, rows, ended, ids, place, selects => by
    simp only [surveyArray] at ended
    split at ended
    -- The first child is the array, so what is selected lies below it.
    · next array =>
      obtain ⟨_, outer, rfl⟩ := ok_of_map ended
      obtain ⟨drafts, outcome, rfl⟩ := ok_of_map outer
      obtain ⟨inside, among, rfl⟩ := (Element.selectsInArray_cons array rest place).1 selects
      rcases surveyEntries_references outcome (fun place => ids (.inFirst place.fromParent)) []
        among with replaced | named
      · exact .inl ⟨0, _, inside, by simp [List.findIdx?_cons, array], rfl, replaced, rfl⟩
      · right
        simpa [Draft.fillRows_renameRows] using named
    -- The array comes later, and all places are behind the first child.
    · next other =>
      obtain ⟨drafts, outcome, rfl⟩ := ok_of_map ended
      obtain ⟨before, among, rfl⟩ :=
        (Element.selectsInArray_cons_other other rest place).1 selects
      rcases surveyArray_references outcome (fun place => ids place.behind) among with
        ⟨index, array, inside, found, there, replaced, rfl⟩ | named
      · left
        exact ⟨index + 1, array, inside, by simp [List.findIdx?_cons, other, found], there,
          replaced, rfl⟩
      · right
        simpa [Draft.fillRows_renameRows] using named

/-- Among entries the beans that they refer to have their ids, unless they are replaced. -/
theorem surveyEntries_references {bean : String} :
    ∀ {entries : List Element} {rows : List (String × Draft Place)},
    (surveyEntries bean entries).outcome = .ok rows → ∀ (ids : Place → String)
      (before : List (String × Value)) {place : Place},
      Element.SelectsAmong (· = "entry") entries place → Element.ReplacedAmong entries place ∨
        ids place ∈ Value.referencesAmong (Draft.fillRows ids rows before)
  | [], _, _, _, _, _, selects => by
    obtain ⟨_, stands, _⟩ := selects
    cases stands
  | entry :: rest, rows, ended, ids, before, place, selects => by
    obtain ⟨others, outcome, cause⟩ := surveyEntries_ok_cases ended
    rcases (Element.selectsAmong_cons (· = "entry") entry rest place).1 selects with
      ⟨path, ⟨named, inside⟩, rfl⟩ | ⟨earlier, behind, rfl⟩
    · rcases cause with ⟨_, key, draft, keyed, sound, rfl⟩ | ⟨unnamed, _⟩
      · rcases survey_references sound (fun path => ids (.inFirst path)) inside with
          replaced | referred
        · exact .inl ⟨entry, rfl, named, .inr replaced⟩
        · -- The value of the entry stays unless a later one has its key.
          by_cases again : key ∈ others.map (·.1)
          · obtain ⟨position, other, stands, also, same⟩ := surveyEntries_keys outcome again
            exact .inl ⟨entry, rfl, named, .inl ⟨position + 1, other, Nat.succ_pos _, stands, also,
              same.trans keyed.symm⟩⟩
          · right
            rw [Value.mem_referencesAmong]
            refine ⟨(key, draft.fill fun path => ids (.inFirst path)), ?_, referred⟩
            rw [Draft.fillRows, Draft.fill_rename]
            exact Draft.mem_fillRows ids (Entries.mem_set_self key _ before)
              (by rwa [Draft.keys_renameRows])
      · exact absurd named unnamed
    · -- What comes behind the first entry does not depend on what was put before.
      have further := fun before => surveyEntries_references outcome (fun place => ids place.behind)
        before behind
      rcases cause with ⟨_, key, draft, _, _, rfl⟩ | ⟨_, rfl⟩
      · rcases further (Entries.set key ((draft.rename Place.inFirst).fill ids) before) with
          replaced | referred
        · exact .inl (replaced.behind entry)
        · right
          simpa [Draft.fillRows, Draft.fillRows_renameRows] using referred
      · rcases further before with replaced | referred
        · exact .inl (replaced.behind entry)
        · right
          simpa [Draft.fillRows_renameRows] using referred

end

/-- The ids that a part of a declaration refers to beans by. -/
def Part.references : Part → List String
  | .property found => found.value.references
  | .argument found => found.value.references
  | .aspect _ => []

/-- What a part refers to the definition refers to. -/
theorem mem_references_applyParts (base : Definition) {parts : List Part} {part : Part}
    (member : part ∈ parts) {id : String} (referred : id ∈ part.references) :
    id ∈ (applyParts base parts).references := by
  -- Where there is a part of a kind the base has no say.
  simp only [Definition.references, applyParts, List.mem_append, List.mem_flatMap]
  cases part with
  | property found =>
    have among : found ∈ parts.filterMap Part.property? :=
      List.mem_filterMap.2 ⟨_, member, rfl⟩
    refine .inl ⟨found, ?_, referred⟩
    rwa [declaredOr, if_neg (by simpa using List.ne_nil_of_mem among)]
  | argument found =>
    have among : found ∈ parts.filterMap Part.argument? :=
      List.mem_filterMap.2 ⟨_, member, rfl⟩
    refine .inr ⟨found, ?_, referred⟩
    rwa [declaredOr, if_neg (by simpa using List.ne_nil_of_mem among)]
  | aspect found => cases referred

/-- A child that gives a value is a part that refers to the beans that the value does. -/
theorem surveyPart_references {bean : String} {child : Element}
    {part : Option (PartDraft (List Nat))} (ended : (surveyPart bean child).outcome = .ok part)
    (gives : Element.GivesValue child.name) (ids : List Nat → String) {path : List Nat}
    (selects : child.Selects path) :
    child.Replaced path ∨
      ∃ found, part = some found ∧ ids path ∈ (found.fill ids).references := by
  -- A child that gives a value is a property, or else an argument.
  simp only [surveyPart] at ended
  split at ended
  · split at ended
    · cases ended
    · obtain ⟨draft, outcome, rfl⟩ := ok_of_map ended
      exact (survey_references outcome ids selects).imp_right fun referred => ⟨_, rfl, referred⟩
  · next other =>
    rw [if_pos (gives.resolve_left other)] at ended
    obtain ⟨draft, outcome, rfl⟩ := ok_of_map ended
    exact (survey_references outcome ids selects).imp_right fun referred => ⟨_, rfl, referred⟩

/-- The parts of a declaration refer to the beans that its children do, unless they are replaced. -/
theorem surveyParts_references {bean : String} {children : List Element}
    {parts : List (PartDraft Place)} (ended : (surveyParts bean children).outcome = .ok parts)
    (ids : Place → String) {place : Place}
    (selects : Element.SelectsAmong Element.GivesValue children place) :
    (∃ part, children[place.tree]? = some part ∧ part.Replaced place.path) ∨
      ∃ part ∈ parts, ids place ∈ (part.fill ids).references := by
  -- The induction is on the children; each gives one part or none.
  induction children generalizing parts ids place with
  | nil =>
    obtain ⟨_, stands, _⟩ := selects
    cases stands
  | cons child rest ih =>
    simp only [surveyParts, Survey.map] at ended
    cases first : (surveyPart bean child).outcome with
    | error error =>
      simp only [first, Except.map] at ended
      cases ended
    | ok part =>
      simp only [first] at ended
      obtain ⟨_, later, rfl⟩ := ok_of_map ended
      obtain ⟨others, outcome, rfl⟩ := ok_of_map later
      rcases (Element.selectsAmong_cons Element.GivesValue child rest place).1 selects with
        ⟨path, ⟨gives, inside⟩, rfl⟩ | ⟨before, behind, rfl⟩
      · rcases surveyPart_references first gives (fun path => ids (.inFirst path)) inside with
          replaced | ⟨found, rfl, referred⟩
        · exact .inl ⟨child, rfl, replaced⟩
        · exact .inr ⟨found.rename Place.inFirst, by simp,
            by rwa [PartDraft.fill_rename]⟩
      · rcases ih outcome (fun place => ids place.behind) behind with
          ⟨found, stands, replaced⟩ | ⟨found, member, referred⟩
        · exact .inl ⟨found, stands, replaced⟩
        · exact .inr ⟨found.rename Place.behind,
            List.mem_append_right _ (List.mem_map_of_mem member), by rwa [PartDraft.fill_rename]⟩

/-- A definition refers to the beans that its declaration does, unless their entry is replaced. -/
theorem surveyAt_references {bean : String} {seed : Option Definition} {declaration : Element}
    {draft : DefinitionDraft (List Nat)}
    (ended : (surveyAt bean seed declaration).outcome = .ok draft) (ids : List Nat → String)
    {path : List Nat} (refers : declaration.RefersTo path) :
    declaration.Drops path ∨ ids path ∈ (draft.fill ids).references := by
  -- Attributes that are not sound would have ended the survey before its parts.
  simp only [surveyAt, surveyDeclaration] at ended
  split at ended
  · cases ended
  · obtain ⟨parts, outcome, rfl⟩ := ok_of_map ended
    obtain ⟨place, among, rfl⟩ := refers
    rcases surveyParts_references outcome (fun place => ids place.fromParent) among with
      ⟨part, stands, replaced⟩ | ⟨part, member, referred⟩
    · exact .inl ⟨place.tree, part, place.path, stands, replaced, rfl⟩
    · right
      refine mem_references_applyParts _ (List.mem_map_of_mem (List.mem_map_of_mem member)) ?_
      rwa [PartDraft.fill_rename]

end BeanWiring
