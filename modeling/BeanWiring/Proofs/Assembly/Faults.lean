import BeanWiring.Proofs.Assembly.Session

/-!
What assembling says about a bean: a fault is something wrong with its declaration and names it,
and a definition made from a declaration has its name.

That a bean is not declared is no fault of an assembly.
-/

namespace BeanWiring

/-- What can be wrong with the declaration of a bean. -/
inductive DefinitionError.InDeclaration (bean : String) : DefinitionError → Prop where
  | scope (scope : String) : InDeclaration bean (.invalidScope bean scope)
  | aspectType (aspectType : String) : InDeclaration bean (.invalidAspectType bean aspectType)
  | attribute (element key : String) : InDeclaration bean (.missingAttribute bean element key)
  | element (element : String) : InDeclaration bean (.missingElement bean element)

/-- Whether a reading fails for nothing but what is wrong with the declaration of a bean. -/
def FailsFor {α : Type} (bean : String) (outcome : Except DefinitionError α) : Prop :=
  ∀ error, outcome = .error error → error.InDeclaration bean

namespace FailsFor

variable {α β : Type} {bean : String}

/-- A reading that succeeds does not fail. -/
theorem ok (value : α) : FailsFor bean (.ok value) := by
  intro error fault
  cases fault

/-- A reading fails for what is wrong with the declaration. -/
theorem fault {error : DefinitionError} (wrong : error.InDeclaration bean) :
    FailsFor bean (.error error : Except DefinitionError α) := by
  intro told same
  exact Except.error.inj same ▸ wrong

/-- A reading whose result is changed fails as before. -/
theorem map {outcome : Except DefinitionError α} (fails : FailsFor bean outcome)
    (change : α → β) : FailsFor bean (outcome.map change) := by
  cases outcome with
  | error told => exact .fault (fails told rfl)
  | ok value => exact .ok _

/-- Readings one after the other fail for what the first or the second fails for. -/
theorem bind {outcome : Except DefinitionError α} {next : α → Except DefinitionError β}
    (first : FailsFor bean outcome) (second : ∀ value, FailsFor bean (next value)) :
    FailsFor bean (outcome >>= next) := by
  -- The fault is that of the first reading, or of the one behind it.
  cases outcome with
  | error told => exact .fault (first told rfl)
  | ok value => exact second value

/-- Readings in a row fail for what one of them fails for. -/
theorem mapM {next : α → Except DefinitionError β} (each : ∀ value, FailsFor bean (next value))
    (values : List α) : FailsFor bean (values.mapM next) := by
  induction values with
  | nil => exact .ok _
  | cons value rest ih =>
    rw [List.mapM_cons]
    -- The fault, if there is one, is that of the first value or of one behind it.
    exact (each value).bind fun result => ih.bind fun results => .ok _

end FailsFor

/-- A node without an attribute that it has to have is a fault of the declaration. -/
theorem requiredAttribute_fails (context : Context) (node : Element) (key : String) :
    FailsFor context.bean (requiredAttribute context node key) := by
  unfold requiredAttribute
  split
  · exact .ok _
  · exact .fault (.attribute _ _)

/-- A pointcut without an expression is a fault of the declaration. -/
theorem pointcutExpression_fails (bean : String) (pointcut : Element) :
    FailsFor bean (pointcutExpression bean pointcut) := by
  unfold pointcutExpression
  split
  · exact .ok _
  · exact .fault (.attribute _ _)

/-- A reference that names no bean is a fault of the declaration. -/
theorem referenceOf_fails (context : Context) (node : Element) :
    FailsFor context.bean (referenceOf context node) := by
  unfold referenceOf
  -- Only a reference without a bean is at fault.
  split
  · exact (requiredAttribute_fails context _ "bean").map _
  · exact .ok _

/-- An inline bean is never a fault. -/
theorem surveyInline_fails (bean : String) (node : Element) :
    FailsFor bean (surveyInline node).outcome := by
  unfold surveyInline
  split <;> exact .ok _

mutual

/-- A value that is not sound is a fault of the declaration. -/
theorem survey_fails (bean : String) : ∀ node : Element, FailsFor bean (survey bean node).outcome
  | ⟨name, attributes, text, children⟩ => by
    have array := surveyArray_fails bean children
    simp only [survey]
    cases Marker.of? ⟨name, attributes, text, children⟩ with
    | none => exact .ok _
    | some marker =>
      cases marker with
      | reference => exact (referenceOf_fails ⟨bean, []⟩ _).map _
      | inlineBean => exact surveyInline_fails bean _
      | entries => exact array.map _
      -- These four are read whatever stands in them.
      | nothing | no | yes | code => exact .ok _

/-- An array that is not sound is a fault of the declaration. -/
theorem surveyArray_fails (bean : String) : ∀ children : List Element,
    FailsFor bean (surveyArray bean children).outcome
  | [] => .ok _
  | ⟨name, attributes, text, children⟩ :: rest => by
    have entries := surveyEntries_fails bean children
    have others := surveyArray_fails bean rest
    simp only [surveyArray]
    split
    -- The entries of the first array are read, those of others are not.
    · exact (entries.map _).map _
    · exact others.map _

/-- Entries that are not sound are a fault of the declaration. -/
theorem surveyEntries_fails (bean : String) : ∀ entries : List Element,
    FailsFor bean (surveyEntries bean entries).outcome
  | [] => .ok _
  | entry :: rest => by
    have first := survey_fails bean entry
    have others := surveyEntries_fails bean rest
    have keyed := requiredAttribute_fails ⟨bean, []⟩ entry "key"
    -- The first fault is the one that is told.
    simp only [surveyEntries]
    split
    · cases key : requiredAttribute ⟨bean, []⟩ entry "key" with
      | error error => exact .fault (keyed error key)
      | ok key =>
        simp only [Survey.map]
        cases value : (survey bean entry).outcome with
        | error error => exact .fault (first error value)
        | ok draft => exact (others.map _).map _
    · exact others.map _

end

/-- An aspect that is not sound is a fault of the declaration. -/
theorem readAspect_fails (bean : String) (node : Element) :
    FailsFor bean (readAspect bean node) := by
  -- The checks come in the order of the reading: worker bean, kind, expressions.
  have pointcuts := FailsFor.mapM (pointcutExpression_fails bean) (node.childrenNamed "pointcut")
  simp only [readAspect]
  cases node.attribute? "ref" with
  | none => exact .fault (.attribute _ _)
  | some worker =>
    cases AspectType.ofName? ((node.attribute? "type").getD "") with
    | none => exact .fault (.aspectType _)
    | some aspectType =>
      cases told : (node.childrenNamed "pointcut").mapM (pointcutExpression bean) with
      | error error => exact .fault (pointcuts error told)
      | ok expressions =>
        dsimp only
        cases expressions.getLast? with
        | none => exact .fault (.element _)
        | some expression => exact .ok _

/-- An aspect that is not sound is a fault of the declaration, whatever else is told of it. -/
theorem extractAspect_fails (bean : String) (node : Element) :
    FailsFor bean (extractAspect bean node).value := by
  rw [extractAspect_value]
  exact readAspect_fails bean node

/-- A child of a declaration that is not sound is a fault of it. -/
theorem surveyPart_fails (bean : String) (child : Element) :
    FailsFor bean (surveyPart bean child).outcome := by
  -- Only a property needs a name; values are read alike, and of the others only aspects.
  simp only [surveyPart]
  split
  · have named := requiredAttribute_fails ⟨bean, []⟩ child "name"
    cases name : requiredAttribute ⟨bean, []⟩ child "name" with
    | error error => exact .fault (named error name)
    | ok name => exact (survey_fails bean child).map _
  · split
    · exact (survey_fails bean child).map _
    · split
      · exact (extractAspect_fails bean child).map _
      · exact .ok _

/-- Children of a declaration that are not sound are a fault of it. -/
theorem surveyParts_fails (bean : String) (children : List Element) :
    FailsFor bean (surveyParts bean children).outcome := by
  -- The induction is on the children, of which the first fault is told.
  induction children with
  | nil => exact .ok _
  | cons child rest ih =>
    have first := surveyPart_fails bean child
    simp only [surveyParts, Survey.map]
    cases part : (surveyPart bean child).outcome with
    | error error => exact .fault (first error part)
    | ok found => exact (ih.map _).map _

/-- An attribute that a declaration lacks is a fault of it. -/
theorem declaredAttribute_fails (bean : String) (declaration : Element) (key : String) :
    FailsFor bean (declaredAttribute bean declaration key) := by
  unfold declaredAttribute
  split
  · exact .ok _
  · exact .fault (.attribute _ _)

/-- Attributes of a declaration that are not sound are a fault of it. -/
theorem applyAttributes_fails (bean : String) (base : Definition) (declaration : Element) :
    FailsFor bean (applyAttributes bean base declaration) := by
  -- A scope can be missing or unknown.
  have scope : FailsFor bean (declaredScope bean declaration) := by
    refine (declaredAttribute_fails bean declaration "scope").bind fun name => ?_
    split
    · exact .ok _
    · exact .fault (.scope _)
  exact (declaredAttribute_fails bean declaration "class").bind fun className =>
    scope.bind fun found => .ok _

/-- A definition has the name of the bean that it was declared for. -/
theorem applyAttributes_name {bean : String} {base dressed : Definition} {declaration : Element}
    (sound : applyAttributes bean base declaration = .ok dressed) : dressed.name = bean := by
  unfold applyAttributes at sound
  cases className : declaredAttribute bean declaration "class" with
  | error error =>
    rw [className] at sound
    cases sound
  -- With both attributes sound the name is that of the bean, whatever the base was called.
  | ok named =>
    cases scope : declaredScope bean declaration with
    | error error =>
      rw [className, scope] at sound
      cases sound
    | ok found =>
      rw [className, scope] at sound
      cases sound
      rfl

/-- A declaration that is not sound is told with its bean. -/
theorem surveyAt_fails (bean : String) (seed : Option Definition) (declaration : Element) :
    FailsFor bean (surveyAt bean seed declaration).outcome := by
  -- The attributes are judged before the children.
  have attributes := applyAttributes_fails bean (seed.getD { name := bean }) declaration
  simp only [surveyAt, surveyDeclaration]
  cases dressed : applyAttributes bean (seed.getD { name := bean }) declaration with
  | error error => exact .fault (attributes error dressed)
  | ok base => exact (surveyParts_fails bean declaration.children).map _

/-- A definition made from a declaration has the name of the bean, whatever its ids are. -/
theorem surveyAt_name {bean : String} {seed : Option Definition} {declaration : Element}
    {draft : DefinitionDraft (List Nat)}
    (sound : (surveyAt bean seed declaration).outcome = .ok draft) (ids : List Nat → String) :
    (draft.fill ids).name = bean := by
  simp only [surveyAt, surveyDeclaration] at sound
  cases dressed : applyAttributes bean (seed.getD { name := bean }) declaration with
  | error error =>
    simp only [dressed] at sound
    cases sound
  | ok base =>
    simp only [dressed, Survey.map] at sound
    -- Parts are added to the definition, which keeps its name.
    obtain ⟨parts, _, rfl⟩ := ok_of_map sound
    have name : base.name = bean := applyAttributes_name dressed
    exact name

/-- An assembly fails for nothing but what is wrong with the declaration of the bean. -/
theorem assemble_fails (documents : DocumentSet) (names : Names) (bean : String)
    (seed : Option Definition) : FailsFor bean (assemble documents names bean seed).outcome := by
  -- The search for a declaration never fails, so a fault is one of its survey.
  cases search : documents.placeOf? bean with
  | none =>
    rw [assemble_undeclared search]
    exact .ok _
  | some place =>
    obtain ⟨declaration, _, _, ended⟩ := assemble_declared search names seed
    cases found : (surveyAt bean seed declaration).outcome with
    | error error =>
      simp only [found] at ended
      rw [ended.1]
      exact .fault (surveyAt_fails bean seed declaration error found)
    | ok draft =>
      simp only [found] at ended
      rw [ended.2]
      exact .ok _

/-- A definition made from documents has the name of the bean. -/
theorem MadeFrom.name_eq {documents reached : DocumentSet} {bean : String}
    {seed : Option Definition} {place : Place} {draft : DefinitionDraft (List Nat)}
    {definition : Definition}
    (made : MadeFrom documents reached bean seed place draft definition) :
    definition.name = bean := by
  obtain ⟨declaration, _, found⟩ := made.surveyed
  -- Filling places leaves the name that the attributes gave.
  rw [made.filled]
  exact surveyAt_name found _

end BeanWiring
