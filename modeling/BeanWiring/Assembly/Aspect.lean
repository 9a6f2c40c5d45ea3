import BeanWiring.Error
import BeanWiring.Notice
import BeanWiring.Bean.Definition
import BeanWiring.Markup.Element

/-!
Reading the aspect of a node: of several pointcuts only the last one counts,
but all have to be sound.
-/

namespace BeanWiring

/-- The expression of a pointcut. -/
def pointcutExpression (bean : String) (pointcut : Element) : Except DefinitionError String :=
  match pointcut.attribute? "expression" with
  | some expression => .ok expression
  | none => .error (.missingAttribute bean "pointcut" "expression")

/-- Reads an aspect: its bean first, then its type, then its pointcuts. -/
def readAspect (bean : String) (node : Element) : Except DefinitionError Aspect :=
  match node.attribute? "ref" with
  | none => .error (.missingAttribute bean "aspect" "ref")
  | some worker =>
    -- A type that is missing is judged as an empty one.
    let typeName := (node.attribute? "type").getD ""
    match AspectType.ofName? typeName with
    | none => .error (.invalidAspectType bean typeName)
    | some aspectType =>
      -- Every pointcut has to be sound, the dropped ones too.
      match (node.childrenNamed "pointcut").mapM (pointcutExpression bean) with
      | .error error => .error error
      | .ok expressions =>
        match expressions.getLast? with
        | none => .error (.missingElement bean "pointcut")
        | some expression => .ok ⟨expression, aspectType, worker⟩

/-- Reads an aspect and tells when pointcuts were dropped. -/
def extractAspect (bean : String) (node : Element) : Noted (Except DefinitionError Aspect) :=
  let count := (node.childrenNamed "pointcut").length
  match readAspect bean node with
  | .error error => ⟨.error error, []⟩
  | .ok aspect =>
    ⟨.ok aspect, if count > 1 then [.pointcutsDropped bean aspect.bean count] else []⟩

/-- Telling of dropped pointcuts leaves what is read as it is. -/
@[simp] theorem extractAspect_value (bean : String) (node : Element) :
    (extractAspect bean node).value = readAspect bean node := by
  unfold extractAspect
  cases readAspect bean node <;> rfl

end BeanWiring
