import BeanWiring.Proofs.Assembly.Aspects
import BeanWiring.Proofs.Assembly.Faults
import BeanWiring.Proofs.Assembly.Overlay

/-!
What a declaration is assembled to, child by child, and which of its faults is told.

Main statement: a declaration is assembled exactly if its class, its scope and all of its children
are sound, and then it has one part for each child that takes part, in document order. Else the
fault that is told is the first one: of the class, of the scope, and then of the children in order.
-/

namespace BeanWiring

/-- The scopes of documents are those of the two names. -/
theorem Scope.ofName?_isSome_iff (text : String) :
    (ofName? text).isSome ↔ text = "singleton" ∨ text = "prototype" := by
  simp [ofName?, name, @eq_comm _ text]

namespace Element

/-- The first fault of a child of a declaration: of a property the name goes before the value. -/
inductive FirstPartFault (bean : String) (child : Element) : DefinitionError → Prop
  | propertyName (named : child.name = "property") (lacks : child.attribute? "name" = none) :
      FirstPartFault bean child (.missingAttribute bean "property" "name")
  | propertyValue {error : DefinitionError} (named : child.name = "property")
      (keyed : (child.attribute? "name").isSome) (inside : child.FirstFault bean error) :
      FirstPartFault bean child error
  | argument {error : DefinitionError} (named : child.name = "constructor-arg")
      (inside : child.FirstFault bean error) : FirstPartFault bean child error
  | aspect {error : DefinitionError} (named : child.name = "aspect")
      (inside : child.FirstAspectFault bean error) : FirstPartFault bean child error

/-- The first fault among children: those in front of the child that has it are sound. -/
def FirstFaultAmong (bean : String) (children : List Element) (error : DefinitionError) : Prop :=
  ∃ front child behind, children = front ++ child :: behind ∧
    (∀ other ∈ front, other.SoundPart bean) ∧ child.FirstPartFault bean error

/-- Whether a declaration is sound: it has a class, one of the two scopes, and sound children. -/
structure SoundDeclaration (bean : String) (declaration : Element) : Prop where
  className : (declaration.attribute? "class").isSome
  scope : declaration.attribute? "scope" = some "singleton" ∨
    declaration.attribute? "scope" = some "prototype"
  children : ∀ child ∈ declaration.children, child.SoundPart bean

/-- The first fault of a declaration: of its class, its scope, and then its children in order. -/
inductive FirstDeclarationFault (bean : String) (declaration : Element) : DefinitionError → Prop
  | className (lacks : declaration.attribute? "class" = none) :
      FirstDeclarationFault bean declaration (.missingAttribute bean "bean" "class")
  | scope (classed : (declaration.attribute? "class").isSome)
      (lacks : declaration.attribute? "scope" = none) :
      FirstDeclarationFault bean declaration (.missingAttribute bean "bean" "scope")
  | invalidScope {text : String} (classed : (declaration.attribute? "class").isSome)
      (written : declaration.attribute? "scope" = some text)
      (unknown : text ≠ "singleton" ∧ text ≠ "prototype") :
      FirstDeclarationFault bean declaration (.invalidScope bean text)
  | child {error : DefinitionError} (classed : (declaration.attribute? "class").isSome)
      (ranged : declaration.attribute? "scope" = some "singleton" ∨
        declaration.attribute? "scope" = some "prototype")
      (first : FirstFaultAmong bean declaration.children error) :
      FirstDeclarationFault bean declaration error

end Element

/--
Whether results are what the children of a name are read as, one for each and in their order. A
child is read with the names that are left by the children in front of it, of whatever name.
-/
structure ReadInOrder {α : Type} (context : Context) (names : Names) (children : List Element)
    (name : String) (read : Names → Element → Except DefinitionError α) (results : List α) :
    Prop where
  count : results.length = (children.filter fun child => child.name == name).length
  each : ∀ front child behind, children = front ++ child :: behind → child.name = name →
    ∃ result, results[(front.filter fun other => other.name == name).length]? = some result ∧
      read (extractParts context names front).names child = .ok result

/-- Whether the parts of a definition are what the children of a declaration are read as. -/
structure Definition.MapsChildren (definition : Definition) (context : Context) (names : Names)
    (children : List Element) : Prop where
  properties : ReadInOrder context names children "property"
    (fun drawn child => (extractProperty context drawn child).outcome) definition.properties
  arguments : ReadInOrder context names children "constructor-arg"
    (fun drawn child => (extractArgument context drawn child).outcome) definition.arguments
  aspects : ReadInOrder context names children "aspect"
    (fun _ child => (extractAspect context.bean child).value) definition.aspects

/-- A fault of a child is told exactly if it is its first one. -/
theorem extractPart_error_iff (context : Context) (names : Names) (child : Element)
    (error : DefinitionError) :
    (extractPart context names child).outcome = .error error ↔
      child.FirstPartFault context.bean error := by
  have value := extract_error_iff context names child error
  have worker := readAspect_error_iff context.bean child error
  constructor
  · intro told
    unfold extractPart at told
    -- The name of the child decides what is read of it.
    split at told
    · next named =>
      have inside := map_eq_error_iff.1 told
      unfold extractProperty requiredAttribute at inside
      cases given : child.attribute? "name" with
      | none =>
        simp only [given, Extraction.done, named] at inside
        obtain rfl := Except.error.inj inside
        exact .propertyName named given
      | some name =>
        -- With a name only the value can be at fault.
        simp only [given] at inside
        exact .propertyValue named (by simp [given]) (value.1 (map_eq_error_iff.1 inside))
    · split at told
      · next named =>
        exact .argument named (value.1 (map_eq_error_iff.1 (map_eq_error_iff.1 told)))
      · split at told
        · next named =>
          have inside := map_eq_error_iff.1 told
          rw [extractAspect_value] at inside
          exact .aspect named (worker.1 inside)
        · cases told
  · intro fault
    cases fault with
    | propertyName named lacks =>
      simp [extractPart, named, extractProperty, requiredAttribute, lacks, Extraction.map,
        Extraction.done, Except.map]
    | propertyValue named keyed inside =>
      obtain ⟨name, given⟩ := Option.isSome_iff_exists.1 keyed
      simp [extractPart, named, extractProperty, requiredAttribute, given, Extraction.map,
        value.2 inside, Except.map]
    | argument named inside =>
      simp [extractPart, named, extractArgument, Extraction.map, value.2 inside, Except.map]
    | aspect named inside =>
      simp [extractPart, named, worker.2 inside, Except.map]

section Parts

variable (context : Context) (names : Names) {children : List Element}

/-- Children in front that are read leave their parts and names to those behind them. -/
theorem extractParts_append {front : List Element} {before : List Part} (behind : List Element)
    (sound : (extractParts context names front).outcome = .ok before) :
    (extractParts context names (front ++ behind)).outcome =
      (extractParts context (extractParts context names front).names behind).outcome.map
        (before ++ ·) := by
  -- The induction is on the children in front, each of which is read by itself.
  induction front generalizing names before with
  | nil =>
    obtain rfl := Except.ok.inj sound
    simp only [List.nil_append, extractParts, Extraction.done]
    cases (extractParts context names behind).outcome <;> rfl
  | cons child rest ih =>
    obtain ⟨part, others, first, later, rfl⟩ := extractParts_cons_ok sound
    simp only [List.cons_append, extractParts, first, ih _ later]
    cases (extractParts context _ behind).outcome <;> simp [Except.map]

/-- Children are read exactly if all are sound. -/
theorem extractParts_ok_iff :
    (∃ parts, (extractParts context names children).outcome = .ok parts) ↔
      ∀ child ∈ children, child.SoundPart context.bean := by
  -- Soundness does not depend on names, so the induction is for all that those in front leave.
  induction children generalizing names with
  | nil => simp [extractParts, Extraction.done]
  | cons child rest ih =>
    rw [List.forall_mem_cons, ← extractPart_ok_iff context names child]
    simp only [extractParts]
    cases first : (extractPart context names child).outcome with
    | error error => simp
    | ok part =>
      -- The first child is read, so the others decide.
      simp only [Except.ok.injEq, exists_eq', true_and,
        ← ih (extractPart context names child).names]
      cases (extractParts context _ rest).outcome <;> simp [Except.map]

/-- A fault of children is told exactly if it is the first one. -/
theorem extractParts_error_iff {error : DefinitionError} :
    (extractParts context names children).outcome = .error error ↔
      Element.FirstFaultAmong context.bean children error := by
  constructor
  · intro told
    induction children generalizing names with
    | nil => cases told
    | cons child rest ih =>
      simp only [extractParts] at told
      cases first : (extractPart context names child).outcome with
      | error other =>
        simp only [first] at told
        obtain rfl := Except.error.inj told
        exact ⟨[], child, rest, rfl, by simp, (extractPart_error_iff context names child _).1 first⟩
      | ok part =>
        -- A child that is read only moves the first fault of the rest one further back.
        simp only [first] at told
        have sound := (extractPart_ok_iff context names child).1 ⟨part, first⟩
        obtain ⟨front, other, behind, rfl, before, fault⟩ := ih _ (map_eq_error_iff.1 told)
        exact ⟨child :: front, other, behind, rfl, List.forall_mem_cons.2 ⟨sound, before⟩, fault⟩
  · -- The children in front are read, and then the one at fault is met.
    rintro ⟨front, child, behind, rfl, before, fault⟩
    obtain ⟨parts, read⟩ := (extractParts_ok_iff context names).2 before
    have first := (extractPart_error_iff context (extractParts context names front).names child
      error).2 fault
    rw [extractParts_append context names _ read, map_eq_error_iff, extractParts, first]

variable {context names}

/--
Whether of what children are read as one kind is that of the children of a name, which have a
reader of their own.
-/
def ReadsKind {α : Type} (context : Context) (kind? : Part → Option α) (name : String)
    (reader : Names → Element → Except DefinitionError α) : Prop :=
  ∀ names child part, (extractPart context names child).outcome = .ok part →
    (child.name = name ∧ ∃ found, part.bind kind? = some found ∧ reader names child = .ok found) ∨
      child.name ≠ name ∧ part.bind kind? = none

section Kind

variable {α : Type} {kind? : Part → Option α} {name : String}
  {reader : Names → Element → Except DefinitionError α}

/-- There are as many parts of a kind as there are children that they are read from. -/
theorem length_filterMap_parts (kind : ReadsKind context kind? name reader) {parts : List Part}
    (read : (extractParts context names children).outcome = .ok parts) :
    (parts.filterMap kind?).length =
      (children.filter fun child => child.name == name).length := by
  -- Parts of the kind and children of the name come in pairs.
  have pairs : List.Forall₂ (fun _ _ => True) (parts.filterMap kind?)
      (children.filter fun child => child.name == name) := by
    refine forall₂_filterMap_parts read fun drawn child part given => ?_
    rcases kind drawn child part given with ⟨named, found, is, _⟩ | other
    · exact .inl ⟨named, found, is, trivial⟩
    · exact .inr other
  exact pairs.length_eq

/-- The parts of a kind are what the children of its name are read as, in order. -/
theorem readInOrder_filterMap (kind : ReadsKind context kind? name reader) {parts : List Part}
    (read : (extractParts context names children).outcome = .ok parts) :
    ReadInOrder context names children name reader (parts.filterMap kind?) := by
  refine ⟨length_filterMap_parts kind read, ?_⟩
  rintro front child behind rfl named
  -- What stands in front of the child is read, and so is the child.
  have sound := (extractParts_ok_iff context names).1 ⟨parts, read⟩
  obtain ⟨before, first⟩ := (extractParts_ok_iff context names).2 fun other member =>
    sound other (List.mem_append_left _ member)
  rw [extractParts_append context names _ first] at read
  obtain ⟨others, later, rfl⟩ := ok_of_map read
  obtain ⟨part, rest, here, _, rfl⟩ := extractParts_cons_ok later
  rcases kind _ child part here with ⟨_, found, given, inside⟩ | ⟨other, _⟩
  · -- In front of its part there are as many as there are children of the name.
    refine ⟨found, ?_, inside⟩
    rw [← length_filterMap_parts kind first]
    simp [filterMap_toList, given]
  · exact absurd named other

end Kind

/-- The parts of each kind are what the children of its name are read as. -/
theorem mapsChildren_of_extractParts {parts : List Part} (dressed : Definition)
    (bare : dressed.properties = [] ∧ dressed.arguments = [] ∧ dressed.aspects = [])
    (read : (extractParts context names children).outcome = .ok parts) :
    (applyParts dressed parts).MapsChildren context names children := by
  obtain ⟨properties, arguments, aspects⟩ := bare
  -- The three kinds of parts go into three lists, by the same argument.
  constructor
  all_goals
    simp only [applyParts, properties, arguments, aspects, declaredOr_nil]
    refine readInOrder_filterMap (fun drawn child part given => ?_) read
    rcases extractPart_cases given with ⟨named, found, rfl, inside⟩ |
      ⟨named, found, rfl, inside⟩ | ⟨named, found, rfl, inside⟩ | ⟨property, argument, aspect, rfl⟩
  all_goals simp [*, Part.property?, Part.argument?, Part.aspect?]

end Parts

/-- Attributes are sound if there is a class and one of the two scopes. -/
theorem Element.soundAttributes_iff (declaration : Element) :
    declaration.SoundAttributes ↔ (declaration.attribute? "class").isSome ∧
      (declaration.attribute? "scope" = some "singleton" ∨
        declaration.attribute? "scope" = some "prototype") := by
  have scope : ((declaration.attribute? "scope").bind Scope.ofName?).isSome ↔
      (declaration.attribute? "scope" = some "singleton" ∨
        declaration.attribute? "scope" = some "prototype") := by
    cases declaration.attribute? "scope" with
    | none => simp
    | some text => simp [Scope.ofName?_isSome_iff]
  -- The scope is known exactly if it is one of the two names.
  rw [← scope]
  exact ⟨fun sound => ⟨sound.className, sound.scope⟩, fun ⟨className, scope⟩ => ⟨className, scope⟩⟩

section Declaration

variable {declaration : Element} (context : Context)

/-- With sound attributes the children of a declaration decide what it is read as. -/
theorem extractDeclaration_of_soundAttributes (sound : declaration.SoundAttributes)
    (names : Names) :
    ∃ dressed : Definition,
      (dressed.properties = [] ∧ dressed.arguments = [] ∧ dressed.aspects = []) ∧
      (extractDeclaration context names { name := context.bean } declaration).outcome =
        (extractParts context names declaration.children).outcome.map (applyParts dressed) := by
  rcases applyAttributes_cases context.bean declaration with
    ⟨unsound, _⟩ | ⟨className, scope, _, _, dressed⟩
  · exact absurd sound unsound
  -- The attributes give a definition without parts, and the parts are read from the children.
  · refine ⟨({ name := context.bean } : Definition).dress context.bean className scope declaration,
      ⟨rfl, rfl, rfl⟩, ?_⟩
    simp only [extractDeclaration, dressed]

/-- A sound declaration is read, with a part for each child. -/
theorem Element.SoundDeclaration.extract (sound : declaration.SoundDeclaration context.bean)
    (names : Names) :
    ∃ definition, (extractDeclaration context names { name := context.bean } declaration).outcome =
        .ok definition ∧ definition.MapsChildren context names declaration.children := by
  have attributes := declaration.soundAttributes_iff.2 ⟨sound.className, sound.scope⟩
  obtain ⟨dressed, bare, outcome⟩ := extractDeclaration_of_soundAttributes context attributes names
  -- Sound children give their parts, from any supply of names.
  obtain ⟨parts, read⟩ := (extractParts_ok_iff context names).2 sound.children
  refine ⟨applyParts dressed parts, ?_, mapsChildren_of_extractParts dressed bare read⟩
  rw [outcome, read]
  rfl

/-- The first fault of a declaration is told. -/
theorem Element.FirstDeclarationFault.extract {error : DefinitionError}
    (fault : declaration.FirstDeclarationFault context.bean error) (names : Names) :
    (extractDeclaration context names { name := context.bean } declaration).outcome =
      .error error := by
  -- What comes before a fault is known to be sound, and what comes behind it is not looked at.
  cases fault with
  | className lacks =>
    simp [extractDeclaration, applyAttributes, declaredAttribute, lacks, bind, Except.bind,
      Extraction.done]
  | scope classed lacks =>
    obtain ⟨className, given⟩ := Option.isSome_iff_exists.1 classed
    simp [extractDeclaration, applyAttributes, declaredScope, declaredAttribute, given, lacks, bind,
      Except.bind, Extraction.done]
  | @invalidScope text classed written unknown =>
    obtain ⟨className, given⟩ := Option.isSome_iff_exists.1 classed
    have nothing : Scope.ofName? text = none := by
      rw [← Option.not_isSome_iff_eq_none, Scope.ofName?_isSome_iff, not_or]
      exact unknown
    simp [extractDeclaration, applyAttributes, declaredScope, declaredAttribute, given, written,
      nothing, bind, Except.bind, Extraction.done]
  | child classed ranged first =>
    obtain ⟨dressed, _, outcome⟩ := extractDeclaration_of_soundAttributes context
      (declaration.soundAttributes_iff.2 ⟨classed, ranged⟩) names
    rw [outcome, map_eq_error_iff]
    exact (extractParts_error_iff context names).2 first

/-- A declaration is sound, or it has a first fault. -/
theorem Element.soundDeclaration_or_firstFault (bean : String) (declaration : Element) :
    declaration.SoundDeclaration bean ∨ ∃ error, declaration.FirstDeclarationFault bean error := by
  -- The checks are gone through in the order in which they are made.
  cases className : declaration.attribute? "class" with
  | none => exact .inr ⟨_, .className className⟩
  | some named =>
    have classed : (declaration.attribute? "class").isSome := by simp [className]
    cases written : declaration.attribute? "scope" with
    | none => exact .inr ⟨_, .scope classed written⟩
    | some text =>
      by_cases known : text = "singleton" ∨ text = "prototype"
      · have ranged : declaration.attribute? "scope" = some "singleton" ∨
            declaration.attribute? "scope" = some "prototype" := by simpa [written] using known
        -- The attributes are sound, so the children decide.
        cases read : (extractParts ⟨bean, []⟩ {} declaration.children).outcome with
        | error error =>
          exact .inr ⟨error, .child classed ranged ((extractParts_error_iff _ _).1 read)⟩
        | ok parts =>
          exact .inl ⟨classed, ranged, (extractParts_ok_iff _ _).1 ⟨parts, read⟩⟩
      · exact .inr ⟨_, .invalidScope classed written (not_or.1 known)⟩

end Declaration

/-- What a declared bean is assembled to without a seed is what its declaration is read as. -/
theorem assemble_outcome {documents : DocumentSet} {bean : String} {path : Path}
    {declaration : Element} (found : documents.findBean? bean = some (path, declaration))
    (names : Names) :
    (assemble documents names bean none).outcome =
      (extractDeclaration ⟨bean, documents.declaredIds⟩ names { name := bean }
        declaration).outcome.map some := by
  simp only [assemble, found, Option.getD_none]
  -- Success and fault are told as the declaration tells them.
  cases read : (extractDeclaration ⟨bean, documents.declaredIds⟩ names { name := bean }
    declaration).outcome <;> simp [Except.map]

/--
Whether assembling a declared bean maps its declaration child by child, or tells the first fault
of the declaration and the bean with it.
-/
structure Assembly.MapsOrTellsFirst (assembly : Assembly) (context : Context) (names : Names)
    (declaration : Element) : Prop where
  /-- The declaration is sound, or it has a first fault. -/
  either : declaration.SoundDeclaration context.bean ∨
    ∃ error, declaration.FirstDeclarationFault context.bean error
  /-- A child is sound exactly if it is read, with whatever names. -/
  children : ∀ child ∈ declaration.children, ∀ drawn,
    (∃ part, (extractPart context drawn child).outcome = .ok part) ↔ child.SoundPart context.bean
  succeeds : (∃ definition, assembly.outcome = .ok (some definition)) ↔
    declaration.SoundDeclaration context.bean
  maps : ∀ definition, assembly.outcome = .ok (some definition) →
    definition.MapsChildren context names declaration.children
  fails : ∀ error, assembly.outcome = .error error ↔
    declaration.FirstDeclarationFault context.bean error
  named : ∀ error, assembly.outcome = .error error → error.InDeclaration context.bean

/--
A declared bean is assembled exactly if its declaration has a class, one of the two scopes, and no
child that cannot be read. The definition then has one property, argument and aspect for each child
of the kind, in document order and each read from that child, however the kinds stand among each
other. Else the fault that is told is the first one, of the class, of the scope and then of the
children in order, and it names the bean.
-/
theorem assembly_maps_children_or_tells_first_fault {documents : DocumentSet} {bean : String}
    {path : Path} {declaration : Element}
    (found : documents.findBean? bean = some (path, declaration)) (names : Names) :
    (assemble documents names bean none).MapsOrTellsFirst ⟨bean, documents.declaredIds⟩ names
      declaration := by
  have outcome := assemble_outcome found names
  have either := declaration.soundDeclaration_or_firstFault bean
  -- A sound declaration is read and the first fault of another is told, so each tells the other.
  have read : declaration.SoundDeclaration bean → ∃ definition,
      (assemble documents names bean none).outcome = .ok (some definition) ∧
        definition.MapsChildren ⟨bean, documents.declaredIds⟩ names declaration.children := by
    intro sound
    obtain ⟨definition, ended, maps⟩ :=
      Element.SoundDeclaration.extract ⟨bean, documents.declaredIds⟩ sound names
    exact ⟨definition, by rw [outcome, ended]; rfl, maps⟩
  have told : ∀ error, declaration.FirstDeclarationFault bean error →
      (assemble documents names bean none).outcome = .error error := by
    intro error fault
    rw [outcome, map_eq_error_iff]
    exact Element.FirstDeclarationFault.extract ⟨bean, documents.declaredIds⟩ fault names
  constructor
  case either => exact either
  case children => exact fun child _ drawn => extractPart_ok_iff _ drawn child
  case succeeds =>
    constructor
    · -- A fault would have been told.
      rintro ⟨definition, ended⟩
      refine either.resolve_right fun ⟨error, fault⟩ => ?_
      rw [told error fault] at ended
      cases ended
    · intro sound
      obtain ⟨definition, ended, _⟩ := read sound
      exact ⟨definition, ended⟩
  case maps =>
    intro definition ended
    rcases either with sound | ⟨error, fault⟩
    · obtain ⟨other, also, maps⟩ := read sound
      rw [ended] at also
      obtain rfl : definition = other := Option.some.inj (Except.ok.inj also)
      exact maps
    · rw [told error fault] at ended
      cases ended
  case fails =>
    intro error
    refine ⟨fun failed => ?_, told error⟩
    rcases either with sound | ⟨other, fault⟩
    · obtain ⟨definition, ended, _⟩ := read sound
      rw [failed] at ended
      cases ended
    · have also := told other fault
      rw [failed] at also
      obtain rfl := Except.error.inj also
      exact fault
  case named => exact assemble_fails documents names bean none

/--
A declaration whose properties, arguments and aspects stand among each other and beside a child
that takes no part; the second property holds a bean without an id.
-/
def interleavedDeclaration : Element :=
  ⟨"bean", [("id", "svc"), ("class", "Svc"), ("scope", "prototype")], "", [
    ⟨"property", [("name", "first")], "1", []⟩,
    ⟨"aspect", [("ref", "log"), ("type", "method")], "", [
      ⟨"pointcut", [("expression", "get.*")], "", []⟩]⟩,
    ⟨"constructor-arg", [], "", [⟨"true", [], "", []⟩]⟩,
    ⟨"description", [], "no part", []⟩,
    ⟨"property", [("name", "second")], "", [⟨"bean", [], "", []⟩]⟩]⟩

/-- A document with that declaration. -/
def interleavedDocuments : DocumentSet :=
  ⟨[⟨⟨"a.xml"⟩, ⟨"beans", [], "", [interleavedDeclaration]⟩⟩]⟩

/-- Children of all kinds that stand among each other are mapped in order. -/
theorem interleaved_children_are_mapped :
    interleavedDocuments.findBean? "svc" = some (⟨"a.xml"⟩, interleavedDeclaration) ∧
      (assemble interleavedDocuments {} "svc" none).MapsOrTellsFirst
        ⟨"svc", interleavedDocuments.declaredIds⟩ {} interleavedDeclaration ∧
      (assemble interleavedDocuments {} "svc" none).outcome = .ok (some {
        name := "svc"
        className := "Svc"
        scope := .prototype
        properties := [⟨"first", .ofText "1"⟩, ⟨"second", .beanRef "anonymous-bean#1"⟩]
        arguments := [⟨.simple (.bool true)⟩]
        aspects := [⟨"get.*", .method, "log"⟩] }) := by
  have found : interleavedDocuments.findBean? "svc" = some (⟨"a.xml"⟩, interleavedDeclaration) := by
    decide +kernel
  -- The five children are of three kinds and one that is no part.
  exact ⟨found, assembly_maps_children_or_tells_first_fault found {}, by decide +kernel⟩

end BeanWiring
