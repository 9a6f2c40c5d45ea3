import BeanWiring.Assembly.Aspect

/-!
Which fault of an aspect is told.

The bean that does the work is looked for first, then the type, and then the pointcuts, all of
which need an expression.
-/

namespace BeanWiring

/-- The aspect types of documents are those of the two names. -/
theorem AspectType.ofName?_isSome_iff (text : String) :
    (ofName? text).isSome ↔ text = "method" ∨ text = "exception" := by
  simp [ofName?, name, @eq_comm _ text]

namespace Element

/-- Whether an aspect says what it intercepts: its type is one of the two. -/
def HasAspectType (node : Element) : Prop :=
  node.attribute? "type" = some "method" ∨ node.attribute? "type" = some "exception"

/-- The first fault of an aspect: of its bean, its type, and then its pointcuts. -/
inductive FirstAspectFault (bean : String) (node : Element) : DefinitionError → Prop
  | worker (lacks : node.attribute? "ref" = none) :
      FirstAspectFault bean node (.missingAttribute bean "aspect" "ref")
  | aspectType (worker : (node.attribute? "ref").isSome) (unknown : ¬ node.HasAspectType) :
      FirstAspectFault bean node
        (.invalidAspectType bean ((node.attribute? "type").getD ""))
  | expression {pointcut : Element} (worker : (node.attribute? "ref").isSome)
      (typed : node.HasAspectType) (member : pointcut ∈ node.childrenNamed "pointcut")
      (lacks : pointcut.attribute? "expression" = none) :
      FirstAspectFault bean node (.missingAttribute bean "pointcut" "expression")
  | pointcut (worker : (node.attribute? "ref").isSome) (typed : node.HasAspectType)
      (nothing : node.childrenNamed "pointcut" = []) :
      FirstAspectFault bean node (.missingElement bean "pointcut")

/-- A type that is missing is no type, as an empty one is. -/
theorem hasAspectType_iff (node : Element) :
    node.HasAspectType ↔ (AspectType.ofName? ((node.attribute? "type").getD "")).isSome := by
  rw [HasAspectType, AspectType.ofName?_isSome_iff]
  cases node.attribute? "type" <;> simp

end Element

/-- The expressions of pointcuts are read if each has one, and not if one has none. -/
theorem mapM_pointcutExpression (bean : String) (pointcuts : List Element) :
    ((∃ pointcut ∈ pointcuts, pointcut.attribute? "expression" = none) ∧
        pointcuts.mapM (pointcutExpression bean) =
          .error (.missingAttribute bean "pointcut" "expression")) ∨
      (∀ pointcut ∈ pointcuts, (pointcut.attribute? "expression").isSome) ∧
        pointcuts.mapM (pointcutExpression bean) =
          .ok (pointcuts.filterMap (Element.attribute? · "expression")) := by
  -- The induction is on the pointcuts: the first lacks an expression, or the rest decides.
  induction pointcuts with
  | nil => exact .inr ⟨by simp, rfl⟩
  | cons pointcut rest ih =>
    rw [List.mapM_cons, pointcutExpression]
    cases given : pointcut.attribute? "expression" with
    | none => exact .inl ⟨⟨pointcut, List.mem_cons_self, given⟩, rfl⟩
    | some expression =>
      rcases ih with ⟨⟨other, member, lacks⟩, fault⟩ | ⟨all, read⟩
      · rw [fault]
        exact .inl ⟨⟨other, List.mem_cons_of_mem _ member, lacks⟩, rfl⟩
      · rw [read]
        refine .inr ⟨List.forall_mem_cons.2 ⟨by simp [given], all⟩, ?_⟩
        simp [given, bind, Except.bind, pure, Except.pure]

/-- The first fault of an aspect is told. -/
theorem Element.FirstAspectFault.readAspect {bean : String} {node : Element}
    {error : DefinitionError} (fault : node.FirstAspectFault bean error) :
    readAspect bean node = .error error := by
  have pointcuts := mapM_pointcutExpression bean (node.childrenNamed "pointcut")
  cases fault with
  | worker lacks => simp [BeanWiring.readAspect, lacks]
  | aspectType worker unknown =>
    obtain ⟨bean', named⟩ := Option.isSome_iff_exists.1 worker
    rw [hasAspectType_iff, Option.not_isSome_iff_eq_none] at unknown
    simp [BeanWiring.readAspect, named, unknown]
  | expression worker typed member lacks =>
    obtain ⟨bean', named⟩ := Option.isSome_iff_exists.1 worker
    obtain ⟨aspectType, known⟩ := Option.isSome_iff_exists.1 ((hasAspectType_iff node).1 typed)
    -- Not all pointcuts have an expression, so reading them fails.
    have fails := (pointcuts.resolve_right fun all => by simpa [lacks] using all.1 _ member).2
    simp [BeanWiring.readAspect, named, known, fails]
  | pointcut worker typed nothing =>
    obtain ⟨bean', named⟩ := Option.isSome_iff_exists.1 worker
    obtain ⟨aspectType, known⟩ := Option.isSome_iff_exists.1 ((hasAspectType_iff node).1 typed)
    simp [BeanWiring.readAspect, named, known, nothing, pure, Except.pure]

/-- A fault of an aspect is told exactly if it is the first one. -/
theorem readAspect_error_iff (bean : String) (node : Element) (error : DefinitionError) :
    readAspect bean node = .error error ↔ node.FirstAspectFault bean error := by
  refine ⟨fun told => ?_, fun fault => fault.readAspect⟩
  -- The checks are gone through in the order in which they are made.
  have typed := node.hasAspectType_iff
  simp only [readAspect] at told
  cases worker : node.attribute? "ref" with
  | none =>
    simp only [worker] at told
    obtain rfl := Except.error.inj told
    exact .worker worker
  | some named =>
    simp only [worker] at told
    cases known : AspectType.ofName? ((node.attribute? "type").getD "") with
    | none =>
      simp only [known] at told typed
      obtain rfl := Except.error.inj told
      exact .aspectType (by simp [worker]) (by simpa using typed)
    | some aspectType =>
      simp only [known, Option.isSome_some, iff_true] at told typed
      rcases mapM_pointcutExpression bean (node.childrenNamed "pointcut") with
        ⟨⟨pointcut, member, lacks⟩, fault⟩ | ⟨all, read⟩
      · rw [fault] at told
        obtain rfl := Except.error.inj told
        exact .expression (by simp [worker]) typed member lacks
      · rw [read] at told
        cases rows : node.childrenNamed "pointcut" with
        | nil =>
          simp only [rows] at told
          obtain rfl := Except.error.inj told
          exact .pointcut (by simp [worker]) typed rows
        | cons pointcut rest =>
          -- With a pointcut there is a last one, and the aspect is read.
          obtain ⟨expression, given⟩ :=
            Option.isSome_iff_exists.1 (all pointcut (rows ▸ List.mem_cons_self))
          simp only [rows, List.filterMap_cons, given, List.getLast?_cons] at told
          cases told

end BeanWiring
