import BeanWiring.Files.Path
import Mathlib.Logic.Relation

/-!
Paths are the same exactly if one can be written for the other: a slash that is repeated, a dot
between slashes, and a slash or a dot behind the last slash can be put in or left out, and nothing
else can.
-/

namespace BeanWiring

/-- A text with a separator in it is cut there, and then on both sides. -/
theorem pieces_append (separator : Char) (front behind : List Char) :
    pieces separator (front ++ separator :: behind) =
      pieces separator front ++ pieces separator behind := by
  induction front with
  | nil => simp [pieces]
  | cons c rest ih =>
    simp only [List.cons_append, pieces, ih]
    -- The first piece of what is in front takes the character, or an empty one stands before it.
    obtain ⟨piece, more, cut⟩ := List.exists_cons_of_ne_nil (pieces_ne_nil separator rest)
    rw [cut]
    split <;> rfl

/-- How a component is written between slashes. -/
def Component.written : Component → String
  | .root => ""
  | .here => "."
  | .up => ".."
  | .name step => step

/-- The root is what stands in front of a first slash, which is nothing. -/
@[simp] theorem Component.written_root : Component.root.written = "" :=
  rfl

/-- A dot at the front is kept. -/
@[simp] theorem Component.written_here : Component.here.written = "." :=
  rfl

namespace Path

/-- Writing a path in another way, by leaving out one piece of it that names no step. -/
inductive Respelt : Path → Path → Prop
  | slash (front behind : String) : Respelt ⟨front ++ "//" ++ behind⟩ ⟨front ++ "/" ++ behind⟩
  | dot (front behind : String) : Respelt ⟨front ++ "/./" ++ behind⟩ ⟨front ++ "/" ++ behind⟩
  | lastDot (front : String) : Respelt ⟨front ++ "/."⟩ ⟨front ++ "/"⟩
  | lastSlash {front : String} (inside : front ≠ "") : Respelt ⟨front ++ "/"⟩ ⟨front⟩

/-- Whether one path can be written for another, step by step in both directions. -/
abbrev Spells : Path → Path → Prop :=
  Relation.EqvGen Respelt

/-- The pieces of a path that name steps. -/
def steps (path : Path) : List String :=
  path.parts.filter fun part => !isIdle part

/-- The component of a piece that names a step. -/
def stepOf (part : String) : Component :=
  if part == ".." then .up else .name part

/-- A path always has a piece. -/
theorem parts_ne_nil (path : Path) : path.parts ≠ [] := by
  simpa [parts, splitText] using pieces_ne_nil '/' path.text.toList

/-- A slash in a path parts its pieces. -/
theorem parts_slash (front behind : String) :
    parts ⟨front ++ "/" ++ behind⟩ = parts ⟨front⟩ ++ parts ⟨behind⟩ := by
  simp [parts, splitText, pieces_append]

/-- The pieces of a path make up its text. -/
theorem intercalate_parts (path : Path) : "/".intercalate path.parts = path.text := by
  rw [← String.toList_inj, String.toList_intercalate]
  simp [parts, splitText, Function.comp_def, intercalate_pieces]

/-- The steps of a path are those in front of a slash and those behind it. -/
theorem steps_slash (front behind : String) :
    steps ⟨front ++ "/" ++ behind⟩ = steps ⟨front⟩ ++ steps ⟨behind⟩ := by
  simp [steps, parts_slash]

/-- The empty text names no step. -/
@[simp] theorem steps_empty : steps ⟨""⟩ = [] := by
  decide

/-- A dot names no step. -/
@[simp] theorem steps_dot : steps ⟨"."⟩ = [] := by
  decide

/-- A path is made of what stands at its front and of its steps. -/
theorem components_eq (path : Path) :
    path.components =
      (if path.isAbsolute then [.root] else if path.startsHere then [.here] else []) ++
        path.steps.map stepOf :=
  rfl

/-- Behind a slash only the steps count. -/
theorem components_slash (front : String) {behind other : String}
    (same : steps ⟨behind⟩ = steps ⟨other⟩) :
    components ⟨front ++ "/" ++ behind⟩ = components ⟨front ++ "/" ++ other⟩ := by
  -- What stands at the front is told from what is before the slash.
  have absolute : ∀ rest, isAbsolute ⟨front ++ "/" ++ rest⟩ =
      ((front.toList.head?.or (some '/')) == some '/') := by
    intro rest
    simp [isAbsolute, List.head?_append]
  have here : ∀ rest, startsHere ⟨front ++ "/" ++ rest⟩ = startsHere ⟨front⟩ := by
    intro rest
    obtain ⟨first, more, cut⟩ := List.exists_cons_of_ne_nil (parts_ne_nil ⟨front⟩)
    simp [startsHere, parts_slash, cut]
  simp [components_eq, absolute, here, steps_slash, same]

/-- Leaving out a piece that names no step leaves the components as they are. -/
theorem Respelt.components {left right : Path} (respelt : Respelt left right) :
    left.components = right.components := by
  cases respelt with
  | slash front behind =>
    have text : front ++ "//" ++ behind = front ++ "/" ++ ("" ++ "/" ++ behind) := by
      simp [← String.toList_inj]
    rw [text]
    apply components_slash
    rw [steps_slash, steps_empty, List.nil_append]
  | dot front behind =>
    have text : front ++ "/./" ++ behind = front ++ "/" ++ ("." ++ "/" ++ behind) := by
      simp [← String.toList_inj]
    rw [text]
    apply components_slash
    rw [steps_slash, steps_dot, List.nil_append]
  | lastDot front =>
    have text : front ++ "/." = front ++ "/" ++ "." := by
      simp [← String.toList_inj]
    have idle : steps ⟨"."⟩ = steps ⟨""⟩ := by
      rw [steps_dot, steps_empty]
    rw [text, components_slash front idle, String.append_empty]
  | @lastSlash front inside =>
    -- In front of the slash there is something, so this is what the path starts with.
    have bare : front ++ "/" = front ++ "/" ++ "" := by
      simp
    obtain ⟨first, more, cut⟩ := List.exists_cons_of_ne_nil (parts_ne_nil ⟨front⟩)
    obtain ⟨c, rest, text⟩ : ∃ c rest, front.toList = c :: rest :=
      List.exists_cons_of_ne_nil fun empty => inside (String.toList_eq_nil_iff.1 empty)
    have absolute : isAbsolute ⟨front ++ "/" ++ ""⟩ = isAbsolute ⟨front⟩ := by
      simp [isAbsolute, text]
    have here : startsHere ⟨front ++ "/" ++ ""⟩ = startsHere ⟨front⟩ := by
      rw [startsHere, startsHere, parts_slash, cut]
      rfl
    rw [bare, components_eq, components_eq, absolute, here, steps_slash, steps_empty,
      List.append_nil]

/-- Paths that can be written for each other have the same components. -/
theorem Spells.components {left right : Path} (spells : Spells left right) :
    left.components = right.components := by
  -- Equal lists of components make an equivalence, so only single steps count.
  induction spells with
  | rel _ _ respelt => exact respelt.components
  | refl _ => rfl
  | symm _ _ _ ih => exact ih.symm
  | trans _ _ _ _ _ first second => exact first.trans second

/-- The path that is written with nothing but its components. -/
def ofComponents (components : List Component) : Path :=
  -- The root alone is a slash, which nothing stands behind.
  if components = [.root] then ⟨"/"⟩ else ⟨"/".intercalate (components.map Component.written)⟩

/-- A piece that names a step is written as its component is. -/
@[simp] theorem written_stepOf (part : String) : (stepOf part).written = part := by
  unfold stepOf
  -- Two dots are written as such, and a name as itself.
  split
  · rename_i up
    exact (beq_iff_eq.1 up).symm
  · rfl

/-- The two pieces that name no step are the empty one and the dot. -/
theorem isIdle_iff {part : String} : isIdle part = true ↔ part = "" ∨ part = "." := by
  simp [isIdle]

/-- Between slashes a piece that names no step can be left out. -/
theorem spells_between {part : String} (idle : isIdle part = true) (front behind : String) :
    Spells ⟨front ++ "/" ++ (part ++ "/" ++ behind)⟩ ⟨front ++ "/" ++ behind⟩ := by
  rcases isIdle_iff.1 idle with rfl | rfl
  -- An empty piece stands between two slashes.
  · have text : front ++ "/" ++ ("" ++ "/" ++ behind) = front ++ "//" ++ behind := by
      simp [← String.toList_inj]
    rw [text]
    exact .rel _ _ (.slash front behind)
  · have text : front ++ "/" ++ ("." ++ "/" ++ behind) = front ++ "/./" ++ behind := by
      simp [← String.toList_inj]
    rw [text]
    exact .rel _ _ (.dot front behind)

/-- At the end a piece that names no step can be left out, though not the slash of the root. -/
theorem spells_last {part : String} (idle : isIdle part = true) (front : String) :
    Spells ⟨front ++ "/" ++ part⟩ (if front = "" then ⟨"/"⟩ else ⟨front⟩) := by
  -- A slash at the end is dropped, unless it is the root itself.
  have slash : Spells ⟨front ++ "/"⟩ (if front = "" then ⟨"/"⟩ else ⟨front⟩) := by
    split
    · rename_i root
      rw [root, String.empty_append]
      exact .refl _
    · rename_i inside
      exact .rel _ _ (.lastSlash inside)
  rcases isIdle_iff.1 idle with rfl | rfl
  · rwa [String.append_empty]
  · have text : front ++ "/" ++ "." = front ++ "/." := by
      simp [← String.toList_inj]
    rw [text]
    exact .trans _ _ _ (.rel _ _ (.lastDot front)) slash

/-- Pieces that name no step can be left out behind others, though not the slash of the root. -/
theorem spells_steps {front : List String} (inside : front ≠ []) (behind : List String) :
    Spells ⟨"/".intercalate (front ++ behind)⟩
      (if "/".intercalate front = "" ∧ behind ≠ [] ∧ (behind.filter fun part => !isIdle part) = []
        then ⟨"/"⟩
        else ⟨"/".intercalate (front ++ behind.filter fun part => !isIdle part)⟩) := by
  -- The induction is on what stands behind: its first piece is left out or joins the front.
  induction behind generalizing front with
  | nil => simpa using Relation.EqvGen.refl _
  | cons part rest ih =>
    have joined := String.intercalate_append_of_ne_nil (s := "/") inside
      (List.cons_ne_nil part rest)
    by_cases idle : isIdle part = true
    · by_cases last : rest = []
      · subst last
        rw [joined, String.intercalate_singleton]
        simpa [idle] using spells_last idle ("/".intercalate front)
      · -- The slash behind the piece is left, so the rest follows the front.
        have between := spells_between idle ("/".intercalate front) ("/".intercalate rest)
        rw [← String.intercalate_cons_of_ne_nil last, ← joined,
          ← String.intercalate_append_of_ne_nil inside last] at between
        refine between.trans _ _ _ ?_
        simpa [idle, last] using ih inside
    · -- The piece is kept, and something stands in front of the rest from now on.
      have more := ih (List.append_ne_nil_of_left_ne_nil inside [part])
      have written : "/".intercalate (front ++ [part]) ≠ "" := by
        rw [String.intercalate_append_of_ne_nil inside (List.cons_ne_nil part [])]
        simp [← String.toList_inj]
      simpa [idle, written] using more

/-- A path is absolute if an empty piece stands in front of others. -/
theorem isAbsolute_iff {path : Path} {first : String} {rest : List String}
    (cut : path.parts = first :: rest) : path.isAbsolute = true ↔ first = "" ∧ rest ≠ [] := by
  simp only [parts, splitText] at cut
  simp only [isAbsolute]
  cases text : path.text.toList with
  | nil =>
    -- The empty text is a single piece.
    rw [text] at cut
    obtain ⟨rfl, rfl⟩ : "" = first ∧ [] = rest := by simpa [pieces] using cut
    simp
  | cons c others =>
    rw [text] at cut
    obtain ⟨piece, more, behind⟩ := List.exists_cons_of_ne_nil (pieces_ne_nil '/' others)
    rw [pieces, behind] at cut
    by_cases slash : c = '/'
    · obtain ⟨rfl, rfl⟩ : "" = first ∧ (piece :: more).map String.ofList = rest := by
        simpa [slash] using cut
      simp [slash]
    · -- The first piece starts with a character that is no slash.
      rw [if_neg slash] at cut
      obtain ⟨rfl, -⟩ := List.cons.inj cut
      simp [slash, ← String.toList_inj]

/-- What components a path has, by the first of its pieces. -/
theorem components_cons {path : Path} {first : String} {rest : List String}
    (cut : path.parts = first :: rest) :
    path.components =
      (if first = "" then (if rest = [] then [] else [.root])
        else if first = "." then [.here] else [stepOf first]) ++
        (rest.filter fun part => !isIdle part).map stepOf := by
  have absolute := isAbsolute_iff cut
  rw [components_eq, steps, startsHere, cut]
  -- An empty first piece stands in front of the first slash, so the path is absolute.
  by_cases empty : first = ""
  · by_cases last : rest = [] <;> simp_all [isIdle]
  · by_cases dot : first = "." <;> simp_all [isIdle]

/-- A path can be written with nothing but its components. -/
theorem spells_ofComponents (path : Path) : Spells path (ofComponents path.components) := by
  obtain ⟨first, rest, cut⟩ := List.exists_cons_of_ne_nil path.parts_ne_nil
  have text : path = ⟨"/".intercalate ([first] ++ rest)⟩ := by
    rw [List.singleton_append, ← cut, intercalate_parts]
  have spells := spells_steps (List.cons_ne_nil first []) rest
  rw [← text] at spells
  have same : ofComponents path.components =
      (if "/".intercalate [first] = "" ∧ rest ≠ [] ∧ (rest.filter fun part => !isIdle part) = []
        then ⟨"/"⟩
        else ⟨"/".intercalate ([first] ++ rest.filter fun part => !isIdle part)⟩) := by
    rw [components_cons cut, ofComponents]
    by_cases empty : first = ""
    · by_cases last : rest = []
      · simp [empty, last]
      · -- The root alone is told from a root with steps behind it by whether any are kept.
        generalize (rest.filter fun part => !isIdle part) = kept
        cases kept with
        | nil => simp [empty, last]
        | cons step more => simp [empty, last, Function.comp_def]
    · by_cases dot : first = "."
      · simp [dot, Function.comp_def]
      · have step : stepOf first ≠ .root := by
          unfold stepOf
          split <;> simp
        simp [empty, dot, step, Function.comp_def]
  rw [same]
  exact spells

/-- It does not matter which of two paths is compared with the other. -/
theorem same_comm (left right : Path) : left.same right = right.same left :=
  Bool.beq_comm

/-- Paths are the same exactly if they can be written for each other. -/
theorem same_iff_spells (left right : Path) : left.same right = true ↔ Spells left right := by
  rw [same, beq_iff_eq]
  constructor
  · -- Both can be written as what is made of their components alone.
    intro components
    have back := (spells_ofComponents right).symm
    rw [← components] at back
    exact (spells_ofComponents left).trans _ _ _ back
  · exact Spells.components

-- A dot is left out between slashes and at the end, but not at the front.
example : same ⟨"a//b/./c/."⟩ ⟨"a/b/c"⟩ = true ∧ same ⟨"./a"⟩ ⟨"a"⟩ = false := by
  decide

end Path

end BeanWiring
