import BeanWiring.Assembly.Aspect
import BeanWiring.Assembly.Value
import BeanWiring.Import.DocumentSet

/-!
Assembling the definition of a bean from its declaration in a set of documents.

The ids given to inline beans are written into the documents only if all of the declaration is
sound.
-/

namespace BeanWiring

/-- One child of a declaration that takes part in the definition. -/
inductive Part where
  | property (property : Property)
  | argument (argument : Argument)
  | aspect (aspect : Aspect)
deriving DecidableEq, Repr

namespace Part

/-- The property of a part that is one. -/
def property? : Part → Option Property
  | .property found => some found
  | _ => none

/-- The argument of a part that is one. -/
def argument? : Part → Option Argument
  | .argument found => some found
  | _ => none

/-- The aspect of a part that is one. -/
def aspect? : Part → Option Aspect
  | .aspect found => some found
  | _ => none

end Part

/-- Reads one child of a declaration; children of other names take no part. -/
def extractPart (context : Context) (names : Names) (child : Element) :
    Extraction (Option Part) Element :=
  if child.name = "property" then
    (extractProperty context names child).map fun property => some (.property property)
  else if child.name = "constructor-arg" then
    (extractArgument context names child).map fun argument => some (.argument argument)
  else if child.name = "aspect" then
    -- An aspect holds no value, so its node stays as it is and no name is drawn.
    let aspect := extractAspect context.bean child
    ⟨aspect.value.map fun aspect => some (.aspect aspect), child, names, aspect.notices⟩
  else .done (.ok none) child names

/-- Reads the children of a declaration in document order, up to the first that is not sound. -/
def extractParts (context : Context) (names : Names) :
    List Element → Extraction (List Part) (List Element)
  | [] => .done (.ok []) [] names
  | child :: rest =>
    -- What a child changed stays changed, also if a later one is at fault.
    let first := extractPart context names child
    match first.outcome with
    | .error error => ⟨.error error, first.node :: rest, first.names, first.notices⟩
    | .ok part =>
      let others := extractParts context first.names rest
      ⟨others.outcome.map (part.toList ++ ·), first.node :: others.node, others.names,
        first.notices ++ others.notices⟩

/-- The entries of a list written with commas: trimmed, and without those that are blank. -/
def splitList (text : String) : List String :=
  ((splitText ',' text).map trimBlanks).filter fun entry => entry ≠ ""

/-- The value of an attribute that a declaration has to have. -/
def declaredAttribute (bean : String) (declaration : Element) (key : String) :
    Except DefinitionError String :=
  match declaration.attribute? key with
  | some value => .ok value
  | none => .error (.missingAttribute bean "bean" key)

/-- The scope that a declaration has to name. -/
def declaredScope (bean : String) (declaration : Element) : Except DefinitionError Scope := do
  let name ← declaredAttribute bean declaration "scope"
  match Scope.ofName? name with
  | some scope => .ok scope
  | none => .error (.invalidScope bean name)

/--
The base with the attributes of a declaration;
an optional one that is absent leaves the base alone.
-/
def applyAttributes (bean : String) (base : Definition) (declaration : Element) :
    Except DefinitionError Definition := do
  -- The class is judged before the scope.
  let className ← declaredAttribute bean declaration "class"
  let scope ← declaredScope bean declaration
  return { base with
    name := bean
    className := className
    scope := scope
    factoryMethod := (declaration.attribute? "factory-method").or base.factoryMethod
    factoryBean := (declaration.attribute? "factory-bean").or base.factoryBean
    initMethod := (declaration.attribute? "init-method").or base.initMethod
    destroyMethod := (declaration.attribute? "destroy-method").or base.destroyMethod
    dependsOn := ((declaration.attribute? "depends-on").map splitList).getD base.dependsOn }

/-- The base if nothing was declared, and else all that was declared. -/
def declaredOr {α : Type} (declared base : List α) : List α :=
  if declared.isEmpty then base else declared

/-- The base with the parts of a declaration; a kind without any part leaves the base alone. -/
def applyParts (base : Definition) (parts : List Part) : Definition :=
  { base with
    properties := declaredOr (parts.filterMap Part.property?) base.properties
    arguments := declaredOr (parts.filterMap Part.argument?) base.arguments
    aspects := declaredOr (parts.filterMap Part.aspect?) base.aspects }

/-- Reads a declaration over a base: its attributes first, then its children. -/
def extractDeclaration (context : Context) (names : Names) (base : Definition)
    (declaration : Element) : Extraction Definition Element :=
  match applyAttributes context.bean base declaration with
  | .error error => .done (.error error) declaration names
  -- The children are read once all attributes are sound.
  | .ok dressed =>
    let parts := extractParts context names declaration.children
    ⟨parts.outcome.map (applyParts dressed), { declaration with children := parts.node },
      parts.names, parts.notices⟩

/-- What assembling leaves behind: the outcome, the documents with the ids given, and the names. -/
structure Assembly where
  outcome : Except DefinitionError (Option Definition)
  documents : DocumentSet
  names : Names
  notices : List Notice

/--
Assembles the definition of a bean over a seed.

Without a declaration the seed is the answer.
The ids that the documents declare are not given to inline beans.
-/
def assemble (documents : DocumentSet) (names : Names) (bean : String)
    (seed : Option Definition) : Assembly :=
  match documents.findBean? bean with
  | none => ⟨.ok seed, documents, names, [.undeclared bean]⟩
  | some (path, declaration) =>
    let context : Context := ⟨bean, documents.declaredIds⟩
    let base := seed.getD { name := bean }
    let reading := extractDeclaration context names base declaration
    let notices := .declared bean path :: reading.notices
    match reading.outcome with
    | .error error => ⟨.error error, documents, reading.names, notices⟩
    | .ok definition =>
      -- The declaration was found, so there is one to put the ids into.
      let marked := (documents.updateBean? bean fun _ => reading.node).getD documents
      ⟨.ok (some definition), marked, reading.names, notices⟩

end BeanWiring
