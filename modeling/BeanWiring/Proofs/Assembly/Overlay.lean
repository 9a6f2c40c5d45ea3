import BeanWiring.Proofs.Assembly.Declaration
import BeanWiring.Proofs.Assembly.Stability

/-!
What a seed has to say in a definition that is assembled over it.

Main statement: a seed fills in what the declaration leaves open, field by field, and decides
nothing else, neither whether the declaration is sound nor what is drawn and written for it. So a
definition that was assembled is what assembling over it comes to.
-/

namespace BeanWiring

/--
Whether a definition is what a declaration says by itself: its class and its scope, the attributes
it has, and a part for each child that takes part.
-/
structure Definition.DeclaredBy (definition : Definition) (context : Context)
    (declaration : Element) : Prop where
  name : definition.name = context.bean
  className : declaration.attribute? "class" = some definition.className
  scope : (declaration.attribute? "scope").bind Scope.ofName? = some definition.scope
  factoryMethod : definition.factoryMethod = declaration.attribute? "factory-method"
  factoryBean : definition.factoryBean = declaration.attribute? "factory-bean"
  initMethod : definition.initMethod = declaration.attribute? "init-method"
  destroyMethod : definition.destroyMethod = declaration.attribute? "destroy-method"
  dependsOn : definition.dependsOn =
    ((declaration.attribute? "depends-on").map splitList).getD []
  properties : List.Forall₂ (Property.ReadFrom context) definition.properties
    (declaration.childrenNamed "property")
  arguments : List.Forall₂ (Argument.ReadFrom context) definition.arguments
    (declaration.childrenNamed "constructor-arg")
  aspects : List.Forall₂ (Aspect.ReadFrom context) definition.aspects
    (declaration.childrenNamed "aspect")

/--
A definition in which the fields that the declaration leaves open are those of a base. The name,
the class and the scope are always given; an optional attribute is if it is present, and the parts
of a kind are if there is a child for them.
-/
def Definition.filledFrom (definition : Definition) (declaration : Element) (base : Definition) :
    Definition :=
  -- Which of the two a field is taken from.
  let given (key : String) := if (declaration.attribute? key).isSome then definition else base
  let child (name : String) := if (declaration.child? name).isSome then definition else base
  { name := definition.name
    className := definition.className
    scope := definition.scope
    factoryMethod := (given "factory-method").factoryMethod
    factoryBean := (given "factory-bean").factoryBean
    initMethod := (given "init-method").initMethod
    destroyMethod := (given "destroy-method").destroyMethod
    dependsOn := (given "depends-on").dependsOn
    properties := (child "property").properties
    arguments := (child "constructor-arg").arguments
    aspects := (child "aspect").aspects }

/-- A definition that was filled from a base is what filling from it comes to. -/
theorem Definition.filledFrom_filledFrom (definition : Definition) (declaration : Element)
    (base : Definition) :
    definition.filledFrom declaration (definition.filledFrom declaration base) =
      definition.filledFrom declaration base := by
  -- In each field the same test decides twice.
  simp only [filledFrom, Definition.mk.injEq, true_and]
  refine ⟨?_, ?_, ?_, ?_, ?_, ?_, ?_, ?_⟩
  all_goals split <;> rfl

/-- Parts without a base are all that there is. -/
@[simp] theorem declaredOr_nil {α : Type} (declared : List α) :
    declaredOr declared [] = declared := by
  cases declared <;> rfl

/-- Parts go before those of a base exactly if there is a child that they are read from. -/
theorem declaredOr_eq_field {α : Type} {reads : α → Element → Prop} {declared : List α}
    {declaration : Element} {name : String}
    (read : List.Forall₂ reads declared (declaration.childrenNamed name))
    (field : Definition → List α) {plain : Definition} (same : field plain = declared)
    (base : Definition) :
    declaredOr declared (field base) =
      field (if (declaration.child? name).isSome then plain else base) := by
  -- There are as many parts as children, so there are none only without any child.
  rw [Element.child?_eq_head?]
  generalize declaration.childrenNamed name = children at read
  cases read with
  | nil => rfl
  | cons => exact same.symm

/-- An attribute that is present goes before the field of a base. -/
theorem attribute_or_eq_field {declaration : Element} {key : String}
    (field : Definition → Option String) {plain : Definition}
    (same : field plain = declaration.attribute? key) (base : Definition) :
    (declaration.attribute? key).or (field base) =
      field (if (declaration.attribute? key).isSome then plain else base) := by
  -- A declared attribute is that of the plain definition, and without one the base counts.
  cases given : declaration.attribute? key with
  | none => rfl
  | some value => exact (same.trans given).symm

section Dressed

variable {context : Context} {declaration : Element} {className : String} {scope : Scope}
  {parts : List Part}

/-- A declaration says by itself what is read of it over nothing. -/
theorem PartsRead.declaredBy (read : PartsRead context declaration parts)
    (classed : declaration.attribute? "class" = some className)
    (ranged : (declaration.attribute? "scope").bind Scope.ofName? = some scope) :
    (applyParts (({ name := context.bean } : Definition).dress context.bean className scope
      declaration) parts).DeclaredBy context declaration := by
  constructor
  case name => rfl
  case className => exact classed
  case scope => exact ranged
  -- Nothing stands in the base, so an attribute that is not declared is absent.
  case factoryMethod => exact Option.or_none
  case factoryBean => exact Option.or_none
  case initMethod => exact Option.or_none
  case destroyMethod => exact Option.or_none
  case dependsOn => rfl
  case properties => simpa [applyParts, Definition.dress] using read.properties
  case arguments => simpa [applyParts, Definition.dress] using read.arguments
  case aspects => simpa [applyParts, Definition.dress] using read.aspects

/-- Reading over a base is reading over nothing and taking what is left open from the base. -/
theorem PartsRead.filledFrom (read : PartsRead context declaration parts) (base : Definition) :
    applyParts (base.dress context.bean className scope declaration) parts =
      (applyParts (({ name := context.bean } : Definition).dress context.bean className scope
        declaration) parts).filledFrom declaration base := by
  -- An attribute that is present counts, even one that lists nothing.
  have dependsOn : ((declaration.attribute? "depends-on").map splitList).getD base.dependsOn =
      Definition.dependsOn (if (declaration.attribute? "depends-on").isSome then
        applyParts (({ name := context.bean } : Definition).dress context.bean className scope
          declaration) parts else base) := by
    cases given : declaration.attribute? "depends-on" with
    | none => rfl
    | some value => simp [applyParts, Definition.dress, given]
  -- Field by field, the attributes first.
  rw [applyParts, Definition.filledFrom, Definition.mk.injEq]
  refine ⟨rfl, rfl, rfl, ?_, ?_, ?_, ?_, dependsOn, ?_, ?_, ?_⟩
  · exact attribute_or_eq_field Definition.factoryMethod Option.or_none base
  · exact attribute_or_eq_field Definition.factoryBean Option.or_none base
  · exact attribute_or_eq_field Definition.initMethod Option.or_none base
  · exact attribute_or_eq_field Definition.destroyMethod Option.or_none base
  · exact declaredOr_eq_field read.properties Definition.properties (declaredOr_nil _) base
  · exact declaredOr_eq_field read.arguments Definition.arguments (declaredOr_nil _) base
  · exact declaredOr_eq_field read.aspects Definition.aspects (declaredOr_nil _) base

end Dressed

/-- Over any base a declaration has one fault, or the same definition up to what it leaves open. -/
theorem extractDeclaration_over (context : Context) (names : Names) (declaration : Element)
    (base : Definition) :
    let seeded := extractDeclaration context names base declaration
    let plain := extractDeclaration context names { name := context.bean } declaration
    seeded.node = plain.node ∧ seeded.names = plain.names ∧ seeded.notices = plain.notices ∧
      ((∃ error, seeded.outcome = .error error ∧ plain.outcome = .error error) ∨
        ∃ definition, plain.outcome = .ok definition ∧
          definition.DeclaredBy context declaration ∧
          seeded.outcome = .ok (definition.filledFrom declaration base)) := by
  simp only [extractDeclaration]
  rcases applyAttributes_cases context.bean declaration with
    ⟨_, error, fault⟩ | ⟨className, scope, classed, ranged, dressed⟩
  · -- Without sound attributes the children are not read at all.
    simp only [fault, true_and]
    exact .inl ⟨error, rfl, rfl⟩
  · simp only [dressed, true_and]
    cases read : (extractParts context names declaration.children).outcome with
    | error error => exact .inl ⟨error, rfl, rfl⟩
    | ok parts =>
      -- The parts do not depend on the base, so they are the same over both.
      have sound := extractParts_read read
      refine .inr ⟨_, rfl, sound.declaredBy classed ranged, ?_⟩
      rw [← sound.filledFrom base]
      rfl

/--
Whether an assembly over a base differs from one over nothing in no more than what the declaration
leaves open: they leave the same behind, and both fail with one error or make the definition that
is declared, the first one filled from the base.
-/
structure Assembly.Overlays (seeded plain : Assembly) (context : Context) (declaration : Element)
    (base : Definition) : Prop where
  documents : seeded.documents = plain.documents
  names : seeded.names = plain.names
  notices : seeded.notices = plain.notices
  outcome : (∃ error, seeded.outcome = .error error ∧ plain.outcome = .error error) ∨
    ∃ definition, plain.outcome = .ok (some definition) ∧
      definition.DeclaredBy context declaration ∧
      seeded.outcome = .ok (some (definition.filledFrom declaration base))

/-- A seed is the base of what is assembled of a declaration. -/
theorem assemble_overlays {documents : DocumentSet} {bean : String} {path : Path}
    {declaration : Element} (found : documents.findBean? bean = some (path, declaration))
    (names : Names) (seed : Option Definition) :
    (assemble documents names bean seed).Overlays (assemble documents names bean none)
      ⟨bean, documents.declaredIds⟩ declaration (seed.getD { name := bean }) := by
  obtain ⟨node, drawn, notices, ended⟩ := extractDeclaration_over ⟨bean, documents.declaredIds⟩
    names declaration (seed.getD { name := bean })
  simp only [assemble, found, Option.getD_none]
  rcases ended with ⟨error, seeded, plain⟩ | ⟨definition, plain, declared, seeded⟩
  · -- A fault leaves the documents alone, with a seed or without.
    simp only [seeded, plain, drawn, notices]
    exact ⟨rfl, rfl, rfl, .inl ⟨error, rfl, rfl⟩⟩
  · simp only [seeded, plain, drawn, notices, node]
    exact ⟨rfl, rfl, rfl, .inr ⟨definition, rfl, declared, rfl⟩⟩

/-- The definition of a declared bean is what assembling over it comes to. -/
theorem assemble_over_made {documents : DocumentSet} {bean : String} {seed : Option Definition}
    {place : Place} {draft : DefinitionDraft (List Nat)} {definition : Definition}
    (made : MadeFrom documents documents bean seed place draft definition) (names : Names) :
    let assembly := assemble documents names bean (some definition)
    assembly.outcome = .ok (some definition) ∧ assembly.documents = documents ∧
      assembly.names = names := by
  -- Over its own seed the definition is made again, and nothing is drawn or given for it.
  obtain ⟨outcome, same, drawn⟩ := made.again names
  obtain ⟨path, declaration, _, found, _⟩ := made.finds.exists_element
  have first := assemble_overlays found names seed
  have again := assemble_overlays found names (some definition)
  refine ⟨?_, again.documents.trans (first.documents.symm.trans same),
    again.names.trans (first.names.symm.trans drawn)⟩
  rcases first.outcome with ⟨error, fault, _⟩ | ⟨plain, alone, _, seeded⟩
  · rw [outcome] at fault
    cases fault
  · -- Over either seed the definition is filled from what is declared alone.
    rw [outcome] at seeded
    have whole : definition = plain.filledFrom declaration (seed.getD { name := bean }) :=
      Option.some.inj (Except.ok.inj seeded)
    rcases again.outcome with ⟨error, _, fault⟩ | ⟨other, also, _, result⟩
    · rw [alone] at fault
      cases fault
    · rw [alone] at also
      obtain rfl : plain = other := Option.some.inj (Except.ok.inj also)
      -- What the seed filled in the first time it fills in the second time.
      calc (assemble documents names bean (some definition)).outcome
          = .ok (some (plain.filledFrom declaration definition)) := result
        _ = .ok (some definition) := by rw [whole, Definition.filledFrom_filledFrom]

/-- Assembling over an answer, in the documents that it left, has the same answer. -/
theorem assemble_over_answer {documents : DocumentSet} {names : Names} {bean : String}
    {seed answer : Option Definition}
    (answered : (assemble documents names bean seed).outcome = .ok answer) (others : Names) :
    let reached := (assemble documents names bean seed).documents
    let assembly := assemble reached others bean answer
    assembly.outcome = .ok answer ∧ assembly.documents = reached ∧ assembly.names = others := by
  intro reached assembly
  cases search : documents.placeOf? bean with
  | none =>
    -- The answer was the seed, and it is the seed again.
    have undeclared := assemble_undeclared search
    have stays : reached = documents := by simp only [reached, undeclared]
    simp only [assembly, stays, undeclared, and_self]
  | some place =>
    obtain ⟨path, declaration, _, found, _⟩ := DocumentSet.Finds.exists_element search
    rcases (assemble_overlays found names seed).outcome with
      ⟨error, fault, _⟩ | ⟨_, _, _, sound⟩
    · rw [answered] at fault
      cases fault
    · -- The documents have grown by the ids that were given, and the definition is made of them.
      obtain ⟨_, given, grown⟩ := assemble_grown documents names bean seed
      rcases assemble_made sound with ⟨undeclared, _⟩ | ⟨_, draft, made⟩
      · cases undeclared.symm.trans search
      · rw [answered] at sound
        obtain rfl := Except.ok.inj sound
        exact assemble_over_made (made.settle grown) others

/--
A seed is a base and nothing more. It is the answer for a bean that is not declared. For one that
is, the assemblies with it and without fail alike, leave the same documents and names behind, and
make the same definition up to the fields that the declaration leaves open, which are those of the
seed. So the answer of an assembly, taken as a seed, is answered again, and nothing is drawn or
given for it.
-/
theorem seed_is_base (documents : DocumentSet) (names : Names) (bean : String) :
    (∀ seed, bean ∉ documents.declaredIds →
      assemble documents names bean seed = ⟨.ok seed, documents, names, [.undeclared bean]⟩) ∧
    (bean ∈ documents.declaredIds →
      ∃ path declaration, documents.findBean? bean = some (path, declaration) ∧
        ∀ seed, (assemble documents names bean (some seed)).Overlays
          (assemble documents names bean none) ⟨bean, documents.declaredIds⟩ declaration seed) ∧
    ∀ seed answer, (assemble documents names bean seed).outcome = .ok answer →
      ∀ others,
        let reached := (assemble documents names bean seed).documents
        let assembly := assemble reached others bean answer
        assembly.outcome = .ok answer ∧ assembly.documents = reached ∧
          assembly.names = others := by
  refine ⟨?_, ?_, fun seed answer answered others => assemble_over_answer answered others⟩
  · intro seed undeclared
    exact assemble_undeclared ((documents.placeOf?_eq_none_iff bean).2 undeclared) names seed
  · -- A declared id leads to a declaration, and the search for the bean ends there.
    intro declared
    obtain ⟨_, known⟩ := (documents.mem_declaredIds_iff bean).1 declared
    obtain ⟨place, finds⟩ := known.exists_finds
    obtain ⟨path, declaration, _, found, _⟩ := finds.exists_element
    exact ⟨path, declaration, found, fun seed => assemble_overlays found names (some seed)⟩

end BeanWiring
