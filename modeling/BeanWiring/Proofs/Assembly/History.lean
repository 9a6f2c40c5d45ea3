import BeanWiring.Proofs.Assembly.Session
import BeanWiring.Proofs.Markup.Bare

/-!
What a declaration is assembled to does not depend on what was assembled before.

A survey never looks at ids, so it finds the same draft whatever ids were given on the way; only
the ids that fill the draft can differ, and they do so only where the documents had none at first.
-/

namespace BeanWiring

section Bare

variable (bean : String) (node : Element)

/-- The kind of a value does not depend on ids. -/
theorem Marker.of?_bare : Marker.of? node.bare = Marker.of? node := by
  -- A marker is found by the name of its element, which stays.
  simp only [Marker.of?, Element.bare_child?, Option.isSome_map]

/-- The text of a node does not depend on ids. -/
theorem plainValue_bare : plainValue node.bare = plainValue node := by
  simp only [plainValue, Element.bare_child?]
  cases node.child? "value" <;> simp

/-- The code in a node does not depend on ids. -/
theorem codeOf_bare : codeOf node.bare = codeOf node := by
  simp only [codeOf, Element.bare_child?]
  cases node.child? Marker.code.name <;> simp

/-- Whether an element has an attribute other than its id, and which, does not depend on ids. -/
theorem requiredAttribute_bare (context : Context) {key : String} (other : key ≠ "id") :
    requiredAttribute context node.bare key = requiredAttribute context node key := by
  simp only [requiredAttribute, Element.bare_attribute? other, Element.bare_name]

/-- A reference that is written does not depend on ids. -/
theorem referenceOf_bare (context : Context) :
    referenceOf context node.bare = referenceOf context node := by
  simp only [referenceOf, Element.bare_child?]
  cases node.child? Marker.reference.name with
  | none => simp
  -- What is asked of the reference is not its id.
  | some reference => simp [requiredAttribute_bare reference context (by decide : "bean" ≠ "id")]

/-- Which inline bean a node has does not depend on ids. -/
theorem surveyInline_bare :
    (surveyInline node.bare).outcome = (surveyInline node).outcome := by
  -- The survey tells where the inline bean stands and not what it is called.
  simp only [surveyInline, Element.bare_children, List.findIdx?_map, Function.comp_def,
    Element.bare_name, plainValue_bare]
  cases node.children.findIdx? fun child => child.name == Marker.inlineBean.name <;> rfl

/-- What an aspect says does not depend on ids. -/
theorem extractAspect_bare :
    (extractAspect bean node.bare).value = (extractAspect bean node).value := by
  -- The pointcuts are bare as well, and their expressions are no ids.
  have worker := node.bare_attribute? (by decide : "ref" ≠ "id")
  have kind := node.bare_attribute? (by decide : "type" ≠ "id")
  have named : node.bare.childrenNamed "pointcut" =
      (node.childrenNamed "pointcut").map Element.bare := by
    simp [Element.childrenNamed, List.filter_map, Function.comp_def]
  have expression : pointcutExpression bean ∘ Element.bare = pointcutExpression bean := by
    funext pointcut
    simp [pointcutExpression, pointcut.bare_attribute? (by decide : "expression" ≠ "id")]
  have aspect : readAspect bean node.bare = readAspect bean node := by
    simp only [readAspect, worker, kind, named, List.mapM_map, expression]
  rw [extractAspect_value, extractAspect_value, aspect]

end Bare

mutual

/-- What the survey of a node finds does not depend on ids. -/
theorem survey_bare (bean : String) : ∀ node : Element,
    (survey bean node.bare).outcome = (survey bean node).outcome
  | ⟨name, attributes, text, children⟩ => by
    have kind := Marker.of?_bare ⟨name, attributes, text, children⟩
    have reference := referenceOf_bare ⟨name, attributes, text, children⟩ ⟨bean, []⟩
    have inline := surveyInline_bare ⟨name, attributes, text, children⟩
    have code := codeOf_bare ⟨name, attributes, text, children⟩
    have plain := plainValue_bare ⟨name, attributes, text, children⟩
    have array := surveyArray_bare bean children
    simp only [Element.bare] at kind reference inline code plain ⊢
    simp only [survey, kind]
    -- Each kind of value has been looked at by itself.
    cases Marker.of? ⟨name, attributes, text, children⟩ with
    | none => simp only [plain]
    | some marker =>
      cases marker with
      | inlineBean => exact inline
      | entries => simp only [Survey.map, array]
      | nothing | no | yes => rfl
      | code => simp only [code]
      | reference => simp only [reference]

/-- What the survey of an array finds does not depend on ids. -/
theorem surveyArray_bare (bean : String) : ∀ children : List Element,
    (surveyArray bean (Element.bareAll children)).outcome = (surveyArray bean children).outcome
  | [] => rfl
  | ⟨name, attributes, text, children⟩ :: rest => by
    have entries := surveyEntries_bare bean children
    have others := surveyArray_bare bean rest
    simp only [Element.bareAll, Element.bare, surveyArray]
    -- The name of a child stays, so the same child is the array.
    split
    · simp only [Survey.map, entries]
    · simp only [Survey.map, others]

/-- What the survey of the entries of an array finds does not depend on ids. -/
theorem surveyEntries_bare (bean : String) : ∀ entries : List Element,
    (surveyEntries bean (Element.bareAll entries)).outcome = (surveyEntries bean entries).outcome
  | [] => rfl
  | entry :: rest => by
    have first := survey_bare bean entry
    have others := surveyEntries_bare bean rest
    have key := requiredAttribute_bare entry ⟨bean, []⟩ (by decide : "key" ≠ "id")
    -- Entries under other names are passed over on both sides.
    simp only [Element.bareAll, surveyEntries, Element.bare_name, key]
    split
    · cases requiredAttribute ⟨bean, []⟩ entry "key" with
      | error error => rfl
      | ok key =>
        simp only [Survey.map, first, others]
        cases (survey bean entry).outcome <;> rfl
    · simp only [Survey.map, others]

end

/-- What the survey of a child of a declaration finds does not depend on ids. -/
theorem surveyPart_bare (bean : String) (child : Element) :
    (surveyPart bean child.bare).outcome = (surveyPart bean child).outcome := by
  -- The name of the child decides which of the four rules it is read by.
  have name := requiredAttribute_bare child ⟨bean, []⟩ (by decide : "name" ≠ "id")
  simp only [surveyPart, Element.bare_name, name]
  split
  · cases requiredAttribute ⟨bean, []⟩ child "name" with
    | error error => rfl
    | ok name => simp only [Survey.map, survey_bare]
  · split
    · simp only [Survey.map, survey_bare]
    · split
      · simp only [extractAspect_bare]
      · rfl

/-- What the survey of the children of a declaration finds does not depend on ids. -/
theorem surveyParts_bare (bean : String) (children : List Element) :
    (surveyParts bean (children.map Element.bare)).outcome =
      (surveyParts bean children).outcome := by
  -- The induction is on the children; the first fault decides on both sides.
  induction children with
  | nil => rfl
  | cons child rest ih =>
    simp only [List.map_cons, surveyParts, Survey.map, surveyPart_bare, ih]
    cases (surveyPart bean child).outcome <;> rfl

/-- The attributes of a declaration that a definition takes over do not depend on ids. -/
theorem applyAttributes_bare (bean : String) (base : Definition) (declaration : Element) :
    applyAttributes bean base declaration.bare = applyAttributes bean base declaration := by
  -- None of the attributes that are read is the id.
  have read := fun key (other : key ≠ "id") => declaration.bare_attribute? other
  simp only [applyAttributes, declaredScope, declaredAttribute,
    read "class" (by decide), read "scope" (by decide), read "factory-method" (by decide),
    read "factory-bean" (by decide), read "init-method" (by decide),
    read "destroy-method" (by decide), read "depends-on" (by decide)]

/-- What the survey of a declaration finds does not depend on ids. -/
theorem surveyAt_bare (bean : String) (seed : Option Definition) (declaration : Element) :
    (surveyAt bean seed declaration.bare).outcome = (surveyAt bean seed declaration).outcome := by
  simp only [surveyAt, surveyDeclaration, applyAttributes_bare, Element.bare_children]
  -- Neither the attributes that count nor the children depend on ids.
  cases applyAttributes bean (seed.getD { name := bean }) declaration with
  | error error => rfl
  | ok dressed => simp only [Survey.map, surveyParts_bare]

/-- Under the ids given at a place stands what stood there before. -/
theorem DocumentSet.element?_bare (given : Given Place) (set : DocumentSet) (place : Place) :
    ((set.giveIds given).element? place).map Element.bare =
      (set.element? place).map Element.bare := by
  simp only [element?, trees_giveIds, ← Element.bare_among?, Element.bare_giveIdsAmong]

/-- What a survey finds at a place stays the same while ids are given. -/
theorem Grown.exists_survey {origin documents : DocumentSet} {low high : Nat}
    {given : Given Place} (grown : Grown origin documents low high given) {place : Place}
    {declaration : Element} (there : origin.element? place = some declaration) :
    ∃ reached, documents.element? place = some reached ∧ ∀ bean seed,
      (surveyAt bean seed reached).outcome = (surveyAt bean seed declaration).outcome := by
  -- What stands at the place by now is, without ids, what stood there in the beginning.
  have bare := origin.element?_bare given place
  rw [← grown.documents, there] at bare
  obtain ⟨reached, stands, same⟩ := Option.map_eq_some_iff.1 bare
  refine ⟨reached, stands, fun bean seed => ?_⟩
  rw [← surveyAt_bare bean seed reached, same, surveyAt_bare]

/--
The id of the bean at a place, where a mark stands for the ids of beans that had none in the
beginning.
-/
def DocumentSet.markedId (origin reached : DocumentSet) (mark : Place → String)
    (place : Place) : String :=
  if origin.labelAt? place = some ("bean", none) then mark place else reached.idAt place

/--
Two assemblies of the same bean that differ, if at all, in ids given since the beginning.

The declaration is surveyed as it stood in the beginning. If it is not sound, both tell the same
error; else both are the draft found in it, filled with the ids that stand at its inline beans by
then. These all stand there in the beginning, some with an id; the definitions become equal when
the others are told by whatever marks their places.
-/
def SameButForGiven (origin : DocumentSet) (bean : String) (first second : Assembly) : Prop :=
  ∃ place declaration, origin.Finds bean place ∧ origin.element? place = some declaration ∧
    match (surveyAt bean none declaration).outcome with
    | .error error => first.outcome = .error error ∧ second.outcome = .error error
    | .ok draft =>
      first.outcome =
          .ok (some (draft.fill fun path => first.documents.idAt (place.down path))) ∧
      second.outcome =
          .ok (some (draft.fill fun path => second.documents.idAt (place.down path))) ∧
      -- A reference names a bean that had no id at first, or the same id in both.
      (∀ path ∈ draft.places, origin.NamelessAt (place.down path) ∨
        ∃ id, origin.DeclaredAt id (place.down path) ∧
          first.documents.idAt (place.down path) = id ∧
          second.documents.idAt (place.down path) = id) ∧
      ∀ mark,
        (draft.fill fun path => origin.markedId first.documents mark (place.down path)) =
          draft.fill fun path => origin.markedId second.documents mark (place.down path)

namespace Workspace

/-- After any run a bean is assembled from what its declaration was in the beginning. -/
theorem assemble_after_run {origin : DocumentSet} {bean : String} {place : Place}
    {declaration : Element} (finds : origin.Finds bean place)
    (there : origin.element? place = some declaration) (names : Names)
    (requests : List Request) :
    let assembly := (run ⟨origin, names⟩ requests).assemble ⟨bean, none⟩
    match (surveyAt bean none declaration).outcome with
    | .error error => assembly.outcome = .error error
    | .ok draft =>
      assembly.outcome =
          .ok (some (draft.fill fun path => assembly.documents.idAt (place.down path))) ∧
        ∀ path ∈ draft.places, origin.NamelessAt (place.down path) ∨
          ∃ id, origin.DeclaredAt id (place.down path) ∧
            assembly.documents.idAt (place.down path) = id := by
  intro assembly
  -- The run and the assembly after it only give ids.
  obtain ⟨upto, given, grown⟩ := run_grown ⟨origin, names⟩ requests
  obtain ⟨onwards, more, further⟩ := assemble_grown (run ⟨origin, names⟩ requests).documents
    (run ⟨origin, names⟩ requests).names bean none
  have whole := grown.trans further upto onwards
  obtain ⟨reached, stands, same⟩ := grown.exists_survey there
  obtain ⟨found, here, _, ended⟩ :=
    assemble_declared (grown.finds finds) (run ⟨origin, names⟩ requests).names none
  obtain rfl : reached = found := Option.some.inj (stands.symm.trans here)
  have survey := same bean none
  have sound : (surveyAt bean none declaration).Sound declaration.at? DefinitionDraft.places :=
    surveyDeclaration_sound bean _ declaration
  simp only [survey] at ended
  cases found : (surveyAt bean none declaration).outcome with
  | error error =>
    simp only [found] at ended
    exact ended.1
  | ok draft =>
    simp only [found] at ended
    refine ⟨ended.2, ?_⟩
    intro path member
    -- An inline bean had no id in the beginning, or it keeps the one that it had.
    rcases sound.complete draft found path member with nameless | ⟨id, labelled⟩
    · left
      rw [DocumentSet.NamelessAt, DocumentSet.labelAt?_down there]
      exact sound.nameless path nameless
    · right
      have declared : origin.DeclaredAt id (place.down path) := by
        rw [DocumentSet.DeclaredAt, DocumentSet.labelAt?_down there]
        exact labelled
      exact ⟨id, declared, (whole.declaredAt declared).idAt⟩

/--
What a declared bean is assembled to is the same after any two runs on the same documents, from
whatever supplies of names, but for the ids given to inline beans that had none.
-/
theorem outcome_does_not_depend_on_history (origin : DocumentSet) (names others : Names)
    (requests further : List Request) (bean : String) (declared : bean ∈ origin.declaredIds) :
    SameButForGiven origin bean ((run ⟨origin, names⟩ requests).assemble ⟨bean, none⟩)
      ((run ⟨origin, others⟩ further).assemble ⟨bean, none⟩) := by
  obtain ⟨_, known⟩ := (origin.mem_declaredIds_iff bean).1 declared
  obtain ⟨place, finds⟩ := known.exists_finds
  obtain ⟨_, declaration, there, _, _⟩ := finds.exists_element
  have first := assemble_after_run finds there names requests
  have second := assemble_after_run finds there others further
  refine ⟨place, declaration, finds, there, ?_⟩
  cases found : (surveyAt bean none declaration).outcome with
  | error error =>
    simp only [found] at first second
    exact ⟨first, second⟩
  | ok draft =>
    simp only [found] at first second
    obtain ⟨outcome, ids⟩ := first
    obtain ⟨outcome', ids'⟩ := second
    -- At each inline bean both runs see the id from the beginning, or there was none.
    have both : ∀ path ∈ draft.places, origin.NamelessAt (place.down path) ∨
        ∃ id, origin.DeclaredAt id (place.down path) ∧
          ((run ⟨origin, names⟩ requests).assemble ⟨bean, none⟩).documents.idAt
            (place.down path) = id ∧
          ((run ⟨origin, others⟩ further).assemble ⟨bean, none⟩).documents.idAt
            (place.down path) = id := by
      intro path member
      rcases ids path member with nameless | ⟨id, declared, here⟩
      · exact .inl nameless
      · rcases ids' path member with nameless | ⟨other, declared', there'⟩
        · exact .inl nameless
        · rw [DocumentSet.DeclaredAt] at declared declared'
          have same : other = id := by simpa [declared] using declared'.symm
          exact .inr ⟨id, declared, here, same ▸ there'⟩
    refine ⟨outcome, outcome', both, ?_⟩
    intro mark
    apply DefinitionDraft.fill_congr
    intro path member
    rcases both path member with nameless | ⟨id, declared, here, there'⟩
    · have marked : origin.labelAt? (place.down path) = some ("bean", none) := nameless
      simp only [DocumentSet.markedId, if_pos marked]
    · simp only [DocumentSet.markedId, here, there']

/-- A document with a bean whose property holds a bean without an id, which holds another. -/
def nestedDocuments : DocumentSet :=
  ⟨[⟨⟨"a.xml"⟩, ⟨"beans", [], "", [⟨"bean",
    [("id", "svc"), ("class", "Svc"), ("scope", "singleton")], "", [⟨"property",
      [("name", "inner")], "", [⟨"bean", [("class", "Inner"), ("scope", "prototype")], "",
        [⟨"constructor-arg", [], "", [⟨"bean", [("class", "Innermost"), ("scope", "prototype")],
          "", []⟩]⟩]⟩]⟩]⟩]⟩⟩]⟩

/-- The bean is the same to begin with and after lookups of it, of its inner bean and of none. -/
theorem outcome_after_other_lookups :
    "svc" ∈ nestedDocuments.declaredIds ∧
      SameButForGiven nestedDocuments "svc"
        ((run ⟨nestedDocuments, {}⟩ []).assemble ⟨"svc", none⟩)
        ((run ⟨nestedDocuments, ⟨6⟩⟩
          [⟨"svc", none⟩, ⟨"anonymous-bean#7", none⟩, ⟨"missing", none⟩]).assemble
            ⟨"svc", none⟩) := by
  have declared : "svc" ∈ nestedDocuments.declaredIds := by decide +kernel
  -- One history is empty; in the other three beans are asked for, with another supply.
  exact ⟨declared, outcome_does_not_depend_on_history _ {} ⟨6⟩ [] _ "svc" declared⟩

end Workspace

end BeanWiring
