import BeanWiring.Proofs.Markup.Order

/-!
The two searches of a tree, by going through all its elements and by going down from each to its
children, end at the same element: the first one in document order that meets a condition.
-/

namespace BeanWiring

namespace Element

/-- Whether an element is the first one of a tree, in document order, that meets a condition. -/
structure FirstMeeting (meets : Element → Bool) (element : Element) (path : List Nat)
    (found : Element) : Prop where
  stands : element.at? path = some found
  holds : meets found = true
  first : ∀ earlier other, earlier < path → element.at? earlier = some other → meets other = false

/--
Whether a tree differs from another one in no more than what a change makes of the element at a
place: what stands at all other places, by itself, is as it was, those below the place apart, which
belong to what was changed.
-/
structure ChangedAt (change : Element → Element) (path : List Nat) (before after : Element) :
    Prop where
  there : after.at? path = (before.at? path).map change
  elsewhere : ∀ other, ¬ path <+: other →
    (after.at? other).map alone = (before.at? other).map alone

/--
One step through the elements of a tree, on a stack whose top is at the end: the element on top is
taken off, and its children are put on, the last one first.
-/
def takeNext? (stack : List Element) : Option (Element × List Element) :=
  stack.getLast?.map fun element => (element, stack.dropLast ++ element.children.reverse)

/-- Whether the steps from a stack up to the end take off certain elements, in order. -/
inductive TakesOff : List Element → List Element → Prop
  | done {stack : List Element} (ended : takeNext? stack = none) : TakesOff stack []
  | next {stack rest taken : List Element} {element : Element}
      (step : takeNext? stack = some (element, rest)) (others : TakesOff rest taken) :
      TakesOff stack (element :: taken)

/-- A stack is gone through as its trees are swept, the top one first. -/
theorem takesOff_sweep (pending : List Element) : TakesOff pending.reverse (sweep pending) := by
  -- The induction follows the sweep, whose next tree is the one on top.
  induction pending using sweep.induct with
  | case1 =>
    rw [sweep]
    exact .done rfl
  | case2 element pending ih =>
    rw [sweep]
    refine .next ?_ ih
    simp [takeNext?]

/-- The elements of a tree are its root and then those of each child in turn. -/
theorem descendants_eq_flatMap (element : Element) :
    element.descendants = element :: element.children.flatMap descendants := by
  -- The descendants of a tree are listed in document order.
  have same : (fun tree => (located tree).map (·.2)) = descendants :=
    funext fun tree => tree.descendants_eq.symm
  rw [descendants_eq, located_map_snd, locatedAmong_map_snd, same]

/-- The places of a tree are listed each once, in document order. -/
theorem enumerates_located (element : Element) :
    Enumerates (· < ·) ((located element).map (·.1)) fun path => (element.at? path).isSome := by
  refine ⟨fun path => ?_, located_sorted element⟩
  simp only [List.mem_map, Option.isSome_iff_exists]
  -- Something stands where an element is listed, and nowhere else.
  constructor
  · rintro ⟨row, listed, rfl⟩
    exact ⟨row.2, (mem_located row.1 row.2 element).1 listed⟩
  · rintro ⟨found, there⟩
    exact ⟨(path, found), (mem_located path found element).2 there, rfl⟩

/-- Where rows stand in order, none before the first that meets a condition meets it. -/
theorem before_find? {ρ : Type} {before : ρ → ρ → Prop}
    (asymmetric : ∀ left right, before left right → ¬ before right left)
    {rows : List (ρ × Element)} (sorted : (rows.map (·.1)).Pairwise before)
    {meets : Element → Bool} {row : ρ × Element}
    (found : (rows.find? fun other => meets other.2) = some row) :
    ∀ other ∈ rows, before other.1 row.1 → meets other.2 = false := by
  obtain ⟨_, front, behind, rfl, passed⟩ := List.find?_eq_some_iff_append.1 found
  intro other listed earlier
  rcases List.mem_append.1 listed with inFront | rest
  · simpa using passed other inFront
  · -- The row itself and those behind it do not come before it.
    rw [List.pairwise_map, List.pairwise_append] at sorted
    rcases List.mem_cons.1 rest with rfl | later
    · exact absurd earlier (asymmetric _ _ earlier)
    · exact absurd earlier (asymmetric _ _ ((List.pairwise_cons.1 sorted.2.1).1 other later))

/-- The first element listed that meets a condition is the first of the tree. -/
theorem firstMeeting_of_find? {meets : Element → Bool} {element : Element}
    {row : List Nat × Element}
    (found : ((located element).find? fun other => meets other.2) = some row) :
    element.FirstMeeting meets row.1 row.2 := by
  constructor
  case stands => exact (mem_located row.1 row.2 element).1 (List.mem_of_find?_eq_some found)
  case holds =>
    have holds := List.find?_some found
    exact holds
  case first =>
    intro earlier other before there
    -- An element in front would be listed in front, where nothing is found.
    have listed := (mem_located earlier other element).2 there
    exact before_find? (fun _ _ => List.lt_asymm) (located_sorted element) found _ listed before

/-- A change at a place is seen neither beside it nor above it. -/
theorem alone_at?_modifyAt_elsewhere (change : Element → Element) {path other : List Nat}
    (apart : ¬ path <+: other) (element : Element) :
    ((element.modifyAt change path).at? other).map alone = (element.at? other).map alone := by
  -- The induction is on the way of the change, which the other way parts from or ends on.
  induction path generalizing element other with
  | nil => exact absurd List.nil_prefix apart
  | cons step path ih =>
    cases other with
    | nil => simp [modifyAt, alone]
    | cons index rest =>
      simp only [modifyAt, at?, List.getElem?_modify]
      cases element.children[index]? with
      | none => rfl
      | some child =>
        by_cases along : step = index
        · -- Both ways go into one child, and part below it.
          subst along
          have below : ¬ path <+: rest := fun within =>
            apart (List.cons_prefix_cons.2 ⟨rfl, within⟩)
          simpa using ih below child
        · simp [along]

/-- A change at a place of a tree changes the element there and nothing else. -/
theorem changedAt_modifyAt (change : Element → Element) {path : List Nat}
    {element found : Element} (there : element.at? path = some found) :
    ChangedAt change path element (element.modifyAt change path) := by
  constructor
  case there => rw [at?_modifyAt_self change there, there, Option.map_some]
  case elsewhere =>
    -- A change at one place leaves what stands apart from it.
    intro other apart
    exact alone_at?_modifyAt_elsewhere change apart element

/--
Whether both searches of a tree end at an element: it is the first that meets the condition, it is
the one that is found among the elements in order, and it alone is changed by a change of what the
other search finds.
-/
structure SearchesEndAt (meets : Element → Bool) (element : Element) (path : List Nat)
    (found : Element) : Prop where
  first : element.FirstMeeting meets path found
  read : element.descendants.find? meets = some found
  written : ∀ change, ∃ changed, element.updateFirst? meets change = some changed ∧
    ChangedAt change path element changed

/-- What is found among the elements of a tree is found among those listed with their places. -/
theorem find?_descendants (meets : Element → Bool) (element : Element) :
    element.descendants.find? meets =
      ((located element).find? fun row => meets row.2).map (·.2) := by
  rw [descendants_eq, List.find?_map]
  rfl

/-- Both searches of a tree end at one element, or no element meets the condition. -/
theorem searches_or_none (meets : Element → Bool) (element : Element) :
    ((∀ found ∈ element.descendants, meets found = false) ∧
        element.descendants.find? meets = none ∧
        ∀ change, element.updateFirst? meets change = none) ∨
      ∃ path found, element.SearchesEndAt meets path found := by
  -- Both searches end at the first element listed that meets the condition.
  cases search : (located element).find? fun row => meets row.2 with
  | none =>
    have read : element.descendants.find? meets = none := by
      rw [find?_descendants, search, Option.map_none]
    refine .inl ⟨fun found member => ?_, read, fun change => ?_⟩
    · simpa using List.find?_eq_none.1 read found member
    · rw [updateFirst?_eq, search, Option.map_none]
  | some row =>
    have first := firstMeeting_of_find? search
    refine .inr ⟨row.1, row.2, first, ?_, fun change => ?_⟩
    · rw [find?_descendants, search, Option.map_some]
    · exact ⟨_, by rw [updateFirst?_eq, search, Option.map_some],
        changedAt_modifyAt change first.stands⟩

end Element

end BeanWiring
