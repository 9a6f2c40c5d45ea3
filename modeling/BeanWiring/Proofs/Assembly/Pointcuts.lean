import BeanWiring.Proofs.Assembly.Aspects

/-!
The pointcuts of an aspect: all of them need an expression, and the last one is kept.

Main statement: an aspect is read exactly if all that it needs is there, and then it has the last
of its pointcuts. Else the first fault is told. That pointcuts were dropped is told once, with
their number, exactly if the aspect is read. One pass over the children does all this, and holds no
more than one pointcut at a time.
-/

namespace BeanWiring

namespace Element

/-- Whether all pointcuts among elements have an expression. -/
def AllExpressed (children : List Element) : Prop :=
  ∀ child ∈ children, child.name = "pointcut" → (child.attribute? "expression").isSome

/-- Whether an aspect is sound: it has its bean, its type, and pointcuts with an expression each. -/
structure SoundAspect (node : Element) : Prop where
  worker : (node.attribute? "ref").isSome
  typed : node.HasAspectType
  pointcut : ∃ child ∈ node.children, child.name = "pointcut"
  expressions : AllExpressed node.children

/-- The number of pointcuts of an aspect, among children of whatever names. -/
def pointcutCount (node : Element) : Nat :=
  node.children.countP fun child => child.name == "pointcut"

/-- Whether an expression is that of the last pointcut among elements. -/
def LastExpression (children : List Element) (expression : String) : Prop :=
  ∃ front last behind, children = front ++ last :: behind ∧ last.name = "pointcut" ∧
    last.attribute? "expression" = some expression ∧ ∀ other ∈ behind, other.name ≠ "pointcut"

/-- Whether a pointcut among elements has no expression, while all those in front of it have one. -/
def MeetsUnexpressed (children : List Element) : Prop :=
  ∃ front first behind, children = front ++ first :: behind ∧ AllExpressed front ∧
    first.name = "pointcut" ∧ first.attribute? "expression" = none

/-- Pointcuts in a row of elements and behind it have expressions if those of both have. -/
theorem allExpressed_append (front behind : List Element) :
    AllExpressed (front ++ behind) ↔ AllExpressed front ∧ AllExpressed behind := by
  simp [AllExpressed, or_imp, forall_and]

/-- The last pointcut is still the last one in front of another child. -/
theorem LastExpression.append_other {children : List Element} {expression : String}
    (last : LastExpression children expression) {child : Element}
    (other : child.name ≠ "pointcut") : LastExpression (children ++ [child]) expression := by
  obtain ⟨front, pointcut, behind, rfl, named, given, others⟩ := last
  refine ⟨front, pointcut, behind ++ [child], by simp, named, given, ?_⟩
  -- What stands behind the pointcut is still none.
  simpa [or_imp, forall_and] using And.intro others other

/-- An aspect with a fault is not sound. -/
theorem FirstAspectFault.not_sound {bean : String} {node : Element} {error : DefinitionError}
    (fault : node.FirstAspectFault bean error) : ¬ node.SoundAspect := by
  intro sound
  -- Each fault denies one of the conditions of a sound aspect.
  cases fault with
  | worker lacks => simpa [lacks] using sound.worker
  | aspectType worker unknown => exact unknown sound.typed
  | expression worker typed member lacks =>
    have pointcut := List.mem_filter.1 member
    simpa [lacks] using sound.expressions _ pointcut.1 (beq_iff_eq.1 pointcut.2)
  | pointcut worker typed nothing =>
    obtain ⟨child, member, named⟩ := sound.pointcut
    have stands : child ∈ node.childrenNamed "pointcut" :=
      List.mem_filter.2 ⟨member, beq_iff_eq.2 named⟩
    simp [nothing] at stands

end Element

/-- Whether an aspect has the last pointcut of a node, and the type and the bean of the node. -/
structure Aspect.KeepsLast (aspect : Aspect) (node : Element) : Prop where
  pointcut : Element.LastExpression node.children aspect.pointcut
  aspectType : node.attribute? "type" = some aspect.aspectType.name
  worker : node.attribute? "ref" = some aspect.bean

/--
What one pass over the children of an aspect holds: the aspect of the last pointcut that it met,
if it met one, and how many it met.
-/
structure PointcutPass where
  held? : Option Aspect := none
  count : Nat := 0

namespace PointcutPass

variable (bean : String) (aspectType : AspectType) (worker : String)

/-- The pass after one more child: the aspect of a pointcut replaces the one that is held. -/
def meet (pass : PointcutPass) (child : Element) : Except DefinitionError PointcutPass :=
  if child.name == "pointcut" then
    (pointcutExpression bean child).map fun expression =>
      ⟨some ⟨expression, aspectType, worker⟩, pass.count + 1⟩
  -- Children of other names leave the pass as it is.
  else .ok pass

/-- The pass after more children, which ends at the first pointcut without an expression. -/
def meetAll (pass : PointcutPass) (children : List Element) :
    Except DefinitionError PointcutPass :=
  children.foldlM (meet bean aspectType worker) pass

/-- Whether a pass holds what it is to hold after it met these children. -/
structure Met (pass : PointcutPass) (seen : List Element) : Prop where
  expressed : Element.AllExpressed seen
  held : ∀ aspect, pass.held? = some aspect →
    aspect.aspectType = aspectType ∧ aspect.bean = worker ∧
      Element.LastExpression seen aspect.pointcut
  nothing : pass.held? = none → ∀ child ∈ seen, child.name ≠ "pointcut"
  count : pass.count = seen.countP fun child => child.name == "pointcut"

variable {bean aspectType worker} {pass next : PointcutPass} {seen : List Element}

/-- Before any child was met nothing is held. -/
theorem met_nil : Met aspectType worker {} [] :=
  ⟨by simp [Element.AllExpressed], by simp, by simp, rfl⟩

/-- A pass goes on over a child that is no pointcut, or is one with an expression. -/
theorem Met.meet (met : pass.Met aspectType worker seen) {child : Element}
    (read : pass.meet bean aspectType worker child = .ok next) :
    next.Met aspectType worker (seen ++ [child]) := by
  unfold PointcutPass.meet pointcutExpression at read
  by_cases named : child.name = "pointcut"
  · cases given : child.attribute? "expression" with
    | none => simp [named, given, Except.map] at read
    | some expression =>
      obtain rfl : ⟨some ⟨expression, aspectType, worker⟩, pass.count + 1⟩ = next := by
        simpa [named, given, Except.map] using read
      -- The child is the last one met, and a pointcut.
      constructor
      case expressed =>
        have here : Element.AllExpressed [child] := by simp [Element.AllExpressed, given]
        exact (Element.allExpressed_append _ _).2 ⟨met.expressed, here⟩
      case held =>
        intro aspect same
        obtain rfl := Option.some.inj same
        exact ⟨rfl, rfl, seen, child, [], rfl, named, given, by simp⟩
      case nothing => simp
      case count => simp [List.countP_append, met.count, named]
  · obtain rfl : pass = next := by simpa [named] using read
    -- What was the last pointcut before still is.
    constructor
    case expressed =>
      have here : Element.AllExpressed [child] := by simp [Element.AllExpressed, named]
      exact (Element.allExpressed_append _ _).2 ⟨met.expressed, here⟩
    case held =>
      intro aspect same
      obtain ⟨typed, working, last⟩ := met.held aspect same
      exact ⟨typed, working, last.append_other named⟩
    case nothing =>
      intro same
      simpa [or_imp, forall_and] using And.intro (met.nothing same) named
    case count => simp [List.countP_append, met.count, named]

/-- A pass ends well with what it is to hold, or with the first pointcut without an expression. -/
theorem Met.meetAll (met : pass.Met aspectType worker seen) (bean : String)
    (children : List Element) :
    (∃ next, pass.meetAll bean aspectType worker children = .ok next ∧
        next.Met aspectType worker (seen ++ children)) ∨
      pass.meetAll bean aspectType worker children =
          .error (.missingAttribute bean "pointcut" "expression") ∧
        Element.MeetsUnexpressed (seen ++ children) := by
  -- The induction is on the children to come, for all that were met before.
  induction children generalizing pass seen with
  | nil => exact .inl ⟨pass, rfl, by simpa using met⟩
  | cons child rest ih =>
    rw [PointcutPass.meetAll, List.foldlM_cons]
    cases read : pass.meet bean aspectType worker child with
    | ok next =>
      have others := ih (met.meet read)
      rwa [List.append_assoc] at others
    | error error =>
      -- Only a pointcut without an expression ends a pass.
      unfold PointcutPass.meet pointcutExpression at read
      by_cases named : child.name = "pointcut"
      · cases given : child.attribute? "expression" with
        | some expression => simp [named, given, Except.map] at read
        | none =>
          obtain rfl : .missingAttribute bean "pointcut" "expression" = error := by
            simpa [named, given, Except.map] using read
          exact .inr ⟨rfl, seen, child, rest, rfl, met.expressed, named, given⟩
      · simp [named] at read

/-- One pass does what is done by reading all expressions and keeping the last. -/
theorem meetAll_eq (bean : String) (aspectType : AspectType) (worker : String)
    (pass : PointcutPass) (children : List Element) :
    pass.meetAll bean aspectType worker children =
      ((children.filter fun child => child.name == "pointcut").mapM (pointcutExpression bean)).map
        fun expressions =>
          ⟨(expressions.getLast?.map (⟨·, aspectType, worker⟩)).or pass.held?,
            pass.count + expressions.length⟩ := by
  induction children generalizing pass with
  | nil => simp [PointcutPass.meetAll, pure, Except.pure, Except.map]
  | cons child rest ih =>
    rw [PointcutPass.meetAll, List.foldlM_cons]
    by_cases named : child.name = "pointcut"
    · cases read : pointcutExpression bean child with
      | error error =>
        simp [PointcutPass.meet, named, read, List.mapM_cons, Except.map, bind, Except.bind]
      | ok expression =>
        -- An expression that is held gives way to the last one of the rest, if there is one.
        have others := ih ⟨some ⟨expression, aspectType, worker⟩, pass.count + 1⟩
        rw [PointcutPass.meetAll] at others
        simp only [PointcutPass.meet, named, read, Except.map, beq_self_eq_true, if_true, bind,
          Except.bind, others, List.filter_cons_of_pos, List.mapM_cons]
        cases (rest.filter fun child => child.name == "pointcut").mapM
            (pointcutExpression bean) with
        | error error => rfl
        | ok expressions =>
          cases expressions with
          | nil => simp [pure, Except.pure]
          | cons first more =>
            simp [pure, Except.pure, List.getLast?_cons]
            omega
    · have others := ih pass
      rw [PointcutPass.meetAll] at others
      simpa [PointcutPass.meet, named, bind, Except.bind] using others

end PointcutPass

/-- An aspect read in one pass over its children, which holds one pointcut at a time. -/
def aspectInOnePass (bean : String) (node : Element) : Noted (Except DefinitionError Aspect) :=
  match node.attribute? "ref" with
  | none => ⟨.error (.missingAttribute bean "aspect" "ref"), []⟩
  | some worker =>
    let typeName := (node.attribute? "type").getD ""
    match AspectType.ofName? typeName with
    | none => ⟨.error (.invalidAspectType bean typeName), []⟩
    | some aspectType =>
      match PointcutPass.meetAll bean aspectType worker {} node.children with
      | .error error => ⟨.error error, []⟩
      | .ok pass =>
        -- The pointcuts are counted before it is known that there is one.
        let told := if pass.count > 1 then [.pointcutsDropped bean worker pass.count] else []
        match pass.held? with
        | none => ⟨.error (.missingElement bean "pointcut"), told⟩
        | some aspect => ⟨.ok aspect, told⟩

/-- Reading all pointcuts and keeping the last is what one pass does, with the same notices. -/
theorem extractAspect_eq_aspectInOnePass (bean : String) (node : Element) :
    extractAspect bean node = aspectInOnePass bean node := by
  simp only [extractAspect, readAspect, aspectInOnePass]
  -- Up to the pointcuts both make the same checks.
  cases worker : node.attribute? "ref" with
  | none => rfl
  | some named =>
    cases known : AspectType.ofName? ((node.attribute? "type").getD "") with
    | none => rfl
    | some aspectType =>
      have pass := PointcutPass.meetAll_eq bean aspectType named {} node.children
      simp only [pass, Element.childrenNamed]
      rcases mapM_pointcutExpression bean (node.childrenNamed "pointcut") with
        ⟨_, fault⟩ | ⟨all, read⟩
      · simp only [Element.childrenNamed] at fault
        simp [fault, Except.map]
      · -- There are as many expressions as pointcuts, so both tell the same number.
        have count := List.filterMap_length_eq_length.2 all
        simp only [Element.childrenNamed] at read count
        simp only [read, Except.map, count]
        cases expressions : (List.filter _ node.children).filterMap
            (Element.attribute? · "expression") with
        | nil => simp [← count, expressions]
        | cons expression rest => simp [List.getLast?_cons]

/-- A type that is known is the name that the node gives. -/
theorem type_eq_of_known {node : Element} {aspectType : AspectType}
    (known : AspectType.ofName? ((node.attribute? "type").getD "") = some aspectType) :
    node.attribute? "type" = some aspectType.name := by
  rw [AspectType.ofName?] at known
  have named : aspectType.name = (node.attribute? "type").getD "" := by
    simpa using List.find?_some known
  -- No type has the empty name, which a missing one is judged as.
  cases written : node.attribute? "type" with
  | none =>
    rw [written] at named
    cases aspectType <;> simp [AspectType.name] at named
  | some text => simp [named, written]

/--
One pass ends well with the last pointcut of a sound aspect, and tells how many there were if there
were several; or it ends with a fault, which may be the first pointcut without an expression.
-/
theorem aspectInOnePass_cases (bean : String) (node : Element) :
    (∃ aspect, aspectInOnePass bean node =
        ⟨.ok aspect, if node.pointcutCount > 1 then
          [.pointcutsDropped bean aspect.bean node.pointcutCount] else []⟩ ∧
        node.SoundAspect ∧ aspect.KeepsLast node) ∨
      ∃ error, aspectInOnePass bean node = ⟨.error error, []⟩ ∧
        (error = .missingAttribute bean "pointcut" "expression" →
          Element.MeetsUnexpressed node.children) := by
  simp only [aspectInOnePass]
  cases worker : node.attribute? "ref" with
  | none => exact .inr ⟨_, rfl, by simp⟩
  | some named =>
    cases known : AspectType.ofName? ((node.attribute? "type").getD "") with
    | none => exact .inr ⟨_, rfl, by simp⟩
    | some aspectType =>
      have start : PointcutPass.Met aspectType named {} [] := PointcutPass.met_nil
      rcases start.meetAll bean node.children with ⟨pass, ends, met⟩ | ⟨ends, unexpressed⟩
      · rw [List.nil_append] at met
        have count : pass.count = node.pointcutCount := met.count
        simp only [ends, count]
        cases holds : pass.held? with
        | none =>
          -- Where nothing is held there was no pointcut, so there is nothing to tell either.
          have few : node.pointcutCount = 0 := by
            simpa [Element.pointcutCount] using met.nothing holds
          exact .inr ⟨.missingElement bean "pointcut", by simp [few], by simp⟩
        | some aspect =>
          -- What the pass holds at the end is the aspect of the last pointcut of all.
          obtain ⟨rfl, rfl, last⟩ := met.held aspect holds
          have typed := node.hasAspectType_iff.2 (by simp [known])
          have there : ∃ child ∈ node.children, child.name = "pointcut" := by
            obtain ⟨front, pointcut, behind, children, pointed, _⟩ := last
            exact ⟨pointcut, by simp [children], pointed⟩
          exact .inl ⟨aspect, rfl, ⟨by simp [worker], typed, there, met.expressed⟩,
            ⟨last, type_eq_of_known known, worker⟩⟩
      · simp only [ends]
        exact .inr ⟨_, rfl, fun _ => by simpa using unexpressed⟩

/-- Whether reading an aspect gives what its node says, or else the first fault of the node. -/
structure AspectReading (bean : String) (node : Element)
    (reading : Noted (Except DefinitionError Aspect)) : Prop where
  succeeds : (∃ aspect, reading.value = .ok aspect) ↔ node.SoundAspect
  keepsLast : ∀ aspect, reading.value = .ok aspect → aspect.KeepsLast node
  fails : ∀ error, reading.value = .error error ↔ node.FirstAspectFault bean error
  /-- Of pointcuts without an expression the first one ends the reading. -/
  endsAtFirst : reading.value = .error (.missingAttribute bean "pointcut" "expression") →
    Element.MeetsUnexpressed node.children
  /-- That pointcuts were dropped is told once, as a warning with the bean and the number. -/
  warns : ∀ aspect, reading.value = .ok aspect → 1 < node.pointcutCount →
    reading.notices = [.pointcutsDropped bean aspect.bean node.pointcutCount] ∧
      ∀ notice ∈ reading.notices, notice.level = .warn
  silent : ¬ (node.SoundAspect ∧ 1 < node.pointcutCount) → reading.notices = []
  /-- The pointcuts need not all be kept until the last one is known. -/
  onePass : reading = aspectInOnePass bean node

/--
An aspect is read exactly if it has a bean, one of the two types, a pointcut and no pointcut
without an expression; it then has the expression of the last pointcut, however many there are and
whatever other children stand among them. Else the first fault is told, of the bean, of the type, of
a pointcut and then of having none. A warning with the number of pointcuts is told once if the
aspect is read and has more than one, and nothing else ever is.
-/
theorem aspect_keeps_last_pointcut_or_tells_first_fault (bean : String) (node : Element) :
    AspectReading bean node (extractAspect bean node) := by
  have fails : ∀ error, (extractAspect bean node).value = .error error ↔
      node.FirstAspectFault bean error := by
    intro error
    rw [extractAspect_value, readAspect_error_iff]
  rw [extractAspect_eq_aspectInOnePass] at fails ⊢
  rcases aspectInOnePass_cases bean node with ⟨aspect, read, sound, keeps⟩ | ⟨error, fault, first⟩
  · constructor
    case succeeds => exact iff_of_true ⟨aspect, by rw [read]⟩ sound
    case keepsLast =>
      intro other same
      rw [read] at same
      exact Except.ok.inj same ▸ keeps
    case fails => exact fails
    case endsAtFirst =>
      intro told
      rw [read] at told
      cases told
    case warns =>
      intro other same several
      rw [read] at same ⊢
      obtain rfl : aspect = other := Except.ok.inj same
      simp [several, Notice.level]
    case silent =>
      intro either
      rw [read]
      exact if_neg fun several => either ⟨sound, several⟩
    case onePass => rfl
  · -- The fault is the first one of the node, which is not sound then.
    have unsound : ¬ node.SoundAspect := ((fails error).1 (by rw [fault])).not_sound
    have unread : ∀ aspect, (aspectInOnePass bean node).value ≠ .ok aspect := by
      intro aspect same
      rw [fault] at same
      cases same
    constructor
    case succeeds => exact iff_of_false (fun ⟨aspect, same⟩ => unread aspect same) unsound
    case keepsLast => exact fun aspect same => absurd same (unread aspect)
    case fails => exact fails
    case endsAtFirst =>
      intro told
      rw [fault] at told
      exact first (Except.error.inj told)
    case warns => exact fun aspect same => absurd same (unread aspect)
    case silent =>
      intro _
      rw [fault]
    case onePass => rfl

-- The last pointcut is kept, wherever it stands among other children.
example :
    extractAspect "svc" ⟨"aspect", [("type", "method"), ("ref", "log")], "", [
      ⟨"pointcut", [("expression", "get.*")], "", []⟩,
      ⟨"pointcut", [("expression", "set.*")], "", []⟩,
      ⟨"note", [("expression", "none")], "", []⟩]⟩ =
    ⟨.ok ⟨"set.*", .method, "log"⟩, [.pointcutsDropped "svc" "log" 2]⟩ := by
  rfl

end BeanWiring
