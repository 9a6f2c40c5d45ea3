import BeanWiring.Assembly.Bean
import BeanWiring.Proofs.Assembly.Sound
import Mathlib.Data.List.Forall2

/-!
What a declaration is read as: the parts that its children give, each kind from the children of
one name, and the attributes, which are sound over every base or over none.
-/

namespace BeanWiring

/-- Whether a property has the name of a child and the value that the child is read as. -/
structure Property.ReadFrom (context : Context) (property : Property) (child : Element) :
    Prop where
  name : child.attribute? "name" = some property.name
  value : ∃ names, (extract context names child).outcome = .ok property.value

/-- Whether an argument has the value that a child is read as. -/
def Argument.ReadFrom (context : Context) (argument : Argument) (child : Element) : Prop :=
  ∃ names, (extract context names child).outcome = .ok argument.value

/-- Whether an aspect is what a child is read as. -/
def Aspect.ReadFrom (context : Context) (aspect : Aspect) (child : Element) : Prop :=
  readAspect context.bean child = .ok aspect

/-- The part that a child of a declaration gives: its name decides which, and others give none. -/
inductive Element.GivesPart (context : Context) (child : Element) : Option Part → Prop
  | property {property : Property} (named : child.name = "property")
      (read : property.ReadFrom context child) : GivesPart context child (some (.property property))
  | argument {argument : Argument} (named : child.name = "constructor-arg")
      (read : argument.ReadFrom context child) : GivesPart context child (some (.argument argument))
  | aspect {aspect : Aspect} (named : child.name = "aspect")
      (read : aspect.ReadFrom context child) : GivesPart context child (some (.aspect aspect))
  | other (property : child.name ≠ "property") (argument : child.name ≠ "constructor-arg")
      (aspect : child.name ≠ "aspect") : GivesPart context child none

/-- What a child that is read gives: its name decides by which reader. -/
theorem extractPart_cases {context : Context} {names : Names} {child : Element}
    {part : Option Part}
    (read : (extractPart context names child).outcome = .ok part) :
    (child.name = "property" ∧ ∃ property, part = some (.property property) ∧
        (extractProperty context names child).outcome = .ok property) ∨
      (child.name = "constructor-arg" ∧ ∃ argument, part = some (.argument argument) ∧
        (extractArgument context names child).outcome = .ok argument) ∨
      (child.name = "aspect" ∧ ∃ aspect, part = some (.aspect aspect) ∧
        readAspect context.bean child = .ok aspect) ∨
      child.name ≠ "property" ∧ child.name ≠ "constructor-arg" ∧ child.name ≠ "aspect" ∧
        part = none := by
  unfold extractPart at read
  -- The names are tried in turn.
  split at read
  · next named =>
    obtain ⟨property, inside, rfl⟩ := ok_of_map read
    exact .inl ⟨named, property, rfl, inside⟩
  · split at read
    · next named =>
      obtain ⟨argument, inside, rfl⟩ := ok_of_map read
      exact .inr (.inl ⟨named, argument, rfl, inside⟩)
    · split at read
      · next named =>
        obtain ⟨aspect, inside, rfl⟩ := ok_of_map read
        rw [extractAspect_value] at inside
        exact .inr (.inr (.inl ⟨named, aspect, rfl, inside⟩))
      · next property argument aspect =>
        exact .inr (.inr (.inr ⟨property, argument, aspect, (Except.ok.inj read).symm⟩))

/-- A child of a declaration is read as the part that it gives. -/
theorem extractPart_gives {context : Context} {names : Names} {child : Element}
    {part : Option Part} (read : (extractPart context names child).outcome = .ok part) :
    child.GivesPart context part := by
  rcases extractPart_cases read with ⟨named, property, rfl, inside⟩ |
    ⟨named, argument, rfl, inside⟩ | ⟨named, aspect, rfl, inside⟩ |
    ⟨property, argument, aspect, rfl⟩
  · unfold extractProperty requiredAttribute at inside
    cases given : child.attribute? "name" with
    | none =>
      simp only [given] at inside
      cases inside
    | some name =>
      -- The value is read only once the name is known.
      simp only [given] at inside
      obtain ⟨value, sound, rfl⟩ := ok_of_map inside
      exact .property named ⟨given, names, sound⟩
  · obtain ⟨value, sound, rfl⟩ := ok_of_map inside
    exact .argument named ⟨names, sound⟩
  · exact .aspect named inside
  · exact .other property argument aspect

/--
Whether a child of a declaration is sound: a property has a name and a value that can be read, an
argument has such a value, and an aspect can be read. Children of other names always are.
-/
structure Element.SoundPart (bean : String) (child : Element) : Prop where
  property : child.name = "property" → (child.attribute? "name").isSome ∧ child.Sound
  argument : child.name = "constructor-arg" → child.Sound
  aspect : child.name = "aspect" → ∃ aspect, readAspect bean child = .ok aspect

/-- A child of a declaration is read exactly if it is sound, whatever names are drawn for it. -/
theorem extractPart_ok_iff (context : Context) (names : Names) (child : Element) :
    (∃ part, (extractPart context names child).outcome = .ok part) ↔
      child.SoundPart context.bean := by
  constructor
  · rintro ⟨part, read⟩
    -- The name of the child decides which of the three conditions says something.
    cases extractPart_gives read with
    | property named inside =>
      obtain ⟨drawn, value⟩ := inside.value
      have sound := (extract_ok_iff context drawn child).1 ⟨_, value⟩
      constructor <;> simp [named, inside.name, sound]
    | argument named inside =>
      obtain ⟨drawn, value⟩ := inside
      have sound := (extract_ok_iff context drawn child).1 ⟨_, value⟩
      constructor <;> simp [named, sound]
    | aspect named inside => constructor <;> simp [named, show readAspect _ _ = _ from inside]
    | other property argument aspect => constructor <;> simp [property, argument, aspect]
  · -- A sound child is read by the reader for its name.
    intro sound
    by_cases property : child.name = "property"
    · obtain ⟨named, value⟩ := sound.property property
      obtain ⟨name, given⟩ := Option.isSome_iff_exists.1 named
      obtain ⟨found, read⟩ := value.extract context names
      exact ⟨some (.property ⟨name, found⟩), by
        simp [extractPart, property, extractProperty, requiredAttribute, given, Extraction.map,
          read, Except.map]⟩
    · by_cases argument : child.name = "constructor-arg"
      · obtain ⟨found, read⟩ := (sound.argument argument).extract context names
        exact ⟨some (.argument ⟨found⟩), by
          simp [extractPart, argument, extractArgument, Extraction.map, read, Except.map]⟩
      · by_cases aspect : child.name = "aspect"
        · obtain ⟨found, read⟩ := sound.aspect aspect
          exact ⟨some (.aspect found), by
            simp [extractPart, aspect, read, Except.map]⟩
        · exact ⟨none, by simp [extractPart, property, argument, aspect, Extraction.done]⟩

/-- A part that is there or not is of a kind as it is by itself. -/
theorem filterMap_toList {α : Type} (part : Option Part) (kind? : Part → Option α) :
    part.toList.filterMap kind? = (part.bind kind?).toList := by
  cases part with
  | none => rfl
  | some found => cases given : kind? found <;> simp [given]

/-- Children that are read give the part of the first and then those of the others. -/
theorem extractParts_cons_ok {context : Context} {names : Names} {child : Element}
    {rest : List Element} {parts : List Part}
    (read : (extractParts context names (child :: rest)).outcome = .ok parts) :
    ∃ part others, (extractPart context names child).outcome = .ok part ∧
      (extractParts context (extractPart context names child).names rest).outcome = .ok others ∧
      parts = part.toList ++ others := by
  rw [extractParts] at read
  cases first : (extractPart context names child).outcome with
  -- If the first child were at fault, nothing would have been read.
  | error error =>
    simp only [first] at read
    cases read
  | ok part =>
    simp only [first] at read
    obtain ⟨others, later, same⟩ := ok_of_map read
    exact ⟨part, others, rfl, later, same.symm⟩

/--
Of the parts of a declaration those of one kind are read from the children of one name, in order,
if this is so for each child.
-/
theorem forall₂_filterMap_parts {α : Type} {context : Context} {names : Names}
    {children : List Element} {parts : List Part}
    (read : (extractParts context names children).outcome = .ok parts) {kind? : Part → Option α}
    {name : String} {reads : α → Element → Prop}
    (kind : ∀ drawn child part, (extractPart context drawn child).outcome = .ok part →
      (child.name = name ∧ ∃ found, part.bind kind? = some found ∧ reads found child) ∨
        child.name ≠ name ∧ part.bind kind? = none) :
    List.Forall₂ reads (parts.filterMap kind?)
      (children.filter fun child => child.name == name) := by
  -- The induction is on the children, each of which gives one part or none.
  induction children generalizing names parts with
  | nil =>
    obtain rfl := Except.ok.inj read
    exact .nil
  | cons child rest ih =>
    obtain ⟨part, others, first, later, rfl⟩ := extractParts_cons_ok read
    have behind := ih later
    -- The part of the first child is of the kind in question or of none that counts.
    rw [List.filterMap_append, filterMap_toList]
    rcases kind names child part first with
      ⟨named, found, given, inside⟩ | ⟨other, nothing⟩
    · simpa [given, named] using And.intro inside behind
    · simpa [nothing, other] using behind

/-- The parts of each kind are read from the children of its name, in order. -/
structure PartsRead (context : Context) (declaration : Element) (parts : List Part) : Prop where
  properties : List.Forall₂ (Property.ReadFrom context) (parts.filterMap Part.property?)
    (declaration.childrenNamed "property")
  arguments : List.Forall₂ (Argument.ReadFrom context) (parts.filterMap Part.argument?)
    (declaration.childrenNamed "constructor-arg")
  aspects : List.Forall₂ (Aspect.ReadFrom context) (parts.filterMap Part.aspect?)
    (declaration.childrenNamed "aspect")

/-- The children of a declaration are read as their parts. -/
theorem extractParts_read {context : Context} {names : Names} {declaration : Element}
    {parts : List Part}
    (read : (extractParts context names declaration.children).outcome = .ok parts) :
    PartsRead context declaration parts := by
  -- Parts of one kind come from children of one name, and those of the others from others.
  constructor
  all_goals
    apply forall₂_filterMap_parts read
    intro drawn child part given
    cases extractPart_gives given with
    | property named inside => simp [named, inside, Part.property?, Part.argument?, Part.aspect?]
    | argument named inside => simp [named, inside, Part.property?, Part.argument?, Part.aspect?]
    | aspect named inside => simp [named, inside, Part.property?, Part.argument?, Part.aspect?]
    | other property argument aspect => simp [property, argument, aspect]

/-- The base with the attributes of a declaration whose class and scope are known. -/
def Definition.dress (base : Definition) (bean className : String) (scope : Scope)
    (declaration : Element) : Definition :=
  { base with
    name := bean
    className := className
    scope := scope
    -- What is not declared stays as the base has it.
    factoryMethod := (declaration.attribute? "factory-method").or base.factoryMethod
    factoryBean := (declaration.attribute? "factory-bean").or base.factoryBean
    initMethod := (declaration.attribute? "init-method").or base.initMethod
    destroyMethod := (declaration.attribute? "destroy-method").or base.destroyMethod
    dependsOn := ((declaration.attribute? "depends-on").map splitList).getD base.dependsOn }

/-- Whether the attributes of a declaration are sound: it has a class, and a scope that is known. -/
structure Element.SoundAttributes (declaration : Element) : Prop where
  className : (declaration.attribute? "class").isSome
  scope : ((declaration.attribute? "scope").bind Scope.ofName?).isSome

/-- Attributes are read over every base if they are sound, and over none, with one fault, if not. -/
theorem applyAttributes_cases (bean : String) (declaration : Element) :
    (¬ declaration.SoundAttributes ∧
        ∃ error, ∀ base, applyAttributes bean base declaration = .error error) ∨
      ∃ className scope, declaration.attribute? "class" = some className ∧
        (declaration.attribute? "scope").bind Scope.ofName? = some scope ∧
        ∀ base, applyAttributes bean base declaration =
          .ok (base.dress bean className scope declaration) := by
  -- The base is not looked at before the class and the scope are known.
  cases className : declaration.attribute? "class" with
  | none =>
    refine .inl ⟨fun sound => by simpa [className] using sound.className,
      .missingAttribute bean "bean" "class", fun base => ?_⟩
    simp [applyAttributes, declaredAttribute, className, bind, Except.bind]
  | some named =>
    cases written : declaration.attribute? "scope" with
    | none =>
      refine .inl ⟨fun sound => by simpa [written] using sound.scope,
        .missingAttribute bean "bean" "scope", fun base => ?_⟩
      simp [applyAttributes, declaredScope, declaredAttribute, className, written, bind,
        Except.bind]
    | some text =>
      cases known : Scope.ofName? text with
      | none =>
        refine .inl ⟨fun sound => by simpa [written, known] using sound.scope,
          .invalidScope bean text, fun base => ?_⟩
        simp [applyAttributes, declaredScope, declaredAttribute, className, written, known, bind,
          Except.bind]
      | some scope =>
        refine .inr ⟨named, scope, rfl, known, fun base => ?_⟩
        simp [applyAttributes, declaredScope, declaredAttribute, className, written, known, bind,
          Except.bind, pure, Except.pure, Definition.dress]

end BeanWiring
