import BeanWiring.Proofs.Markup.Following

/-!
Which texts are documents, and what tree a document is, told from the events of the text alone.

Main statement: a text is read as a document exactly if its events are well formed, and then its
tree is the one that the events denote, element by element.
-/

namespace BeanWiring

/-- The markup of a text, which a byte order mark in front does not belong to. -/
def markupOf (content : String) : List Char :=
  if content.toList.head? = some '\ufeff' then content.toList.tail else content.toList

/-- The events of a text, in order, up to the fault that ended reading. -/
def eventsOf (content : String) : List Event :=
  (readEvents (markupOf content)).events.map (·.value)

/-- The fault that ended the reading of a text, if one did. -/
def faultOf (content : String) : Option SyntaxFault :=
  (readEvents (markupOf content)).fault.map (·.value)

/-- The line of an event in a text, the byte order mark being part of its first line. -/
def lineIn (content : String) (placed : Placed Event) : Nat :=
  lineAt content.toList placed.offset

/--
Whether a text is that of one element: nothing in it is unreadable, its tags match, one element
stands at the top, and all that is written outside of it is blank.
-/
structure WellFormed (content : String) : Prop where
  unbroken : faultOf content = none
  sound : ∀ event ∈ eventsOf content, event.Sound
  balanced : Balanced (eventsOf content)
  single : topmost (headings {} (eventsOf content)) = 1
  outside : ∀ c ∈ dataIn none {} (eventsOf content), isBlank c = true

/--
Whether events denote a tree: its elements in document order are those that begin in the events,
and the text of each is what is delivered while it is the innermost open one.
-/
structure Denotes (events : List Event) (root : Element) : Prop where
  headings : root.located.map (fun found => found.2.heading found.1.length) = headings {} events
  texts : ∀ number way element, root.located[number]? = some (way, element) →
    element.text.toList = dataIn (some number) {} events

/-- The events and the fault of a text are those of its segments. -/
theorem told_cut_markupOf (content : String) :
    (cut [] (markupOf content)).told = (eventsOf content, faultOf content) :=
  (told_readFrom [] 0 (markupOf content)).symm

/-- Every end among the events of a text comes where an element is open. -/
theorem grounded_eventsOf (content : String) : Grounded 0 (eventsOf content) := by
  -- The reader matches each end with the innermost open element, or it stops.
  have events : (cut [] (markupOf content)).segments.flatMap Segment.events = eventsOf content :=
    congrArg Prod.fst (told_cut_markupOf content)
  rw [← events]
  exact grounded_cut [] (markupOf content)

/-- The tree in the making at the end of a text. -/
def growthOf (content : String) : Growth :=
  Growth.growAll (lineIn content) (readEvents (markupOf content)).events {}

/-- What a tree in the making and a fault behind it are read as. -/
def Growth.outcome (growth : Growth) (fault : Option Defect) : Except (List Defect) Element :=
  match growth.root, growth.allDefects fault with
  | some root, [] => .ok root
  -- With no defect at all a missing root is one.
  | none, [] => .error [.missingRoot]
  | _, defects => .error defects

/-- A text is read as an element exactly if it is the only root and there is no defect. -/
theorem readRoot_eq_ok_iff (content : String) (root : Element) :
    readRoot content = .ok root ↔
      (growthOf content).root = some root ∧ (growthOf content).defects = [] ∧
        faultOf content = none ∧ (growthOf content).opened = [] := by
  -- The defects in the end are those met on the way, the fault, and one for each open element.
  let fault := (readEvents (markupOf content)).fault.map fun placed =>
    Defect.unreadable (lineAt content.toList placed.offset) placed.value
  have read : readRoot content = (growthOf content).outcome fault := rfl
  have silent : (growthOf content).allDefects fault = [] ↔
      (growthOf content).defects = [] ∧ faultOf content = none ∧
        (growthOf content).opened = [] := by
    simp [Growth.allDefects, fault, faultOf]
  rw [read, ← silent, Growth.outcome]
  cases (growthOf content).root with
  | none => cases (growthOf content).allDefects fault <;> simp
  | some found => cases (growthOf content).allDefects fault <;> simp

/-- The tree in the making at the end of a text, beside the outline of its events. -/
theorem step_growthOf (content : String) :
    Growth.Step {} (growthOf content) {} (eventsOf content) :=
  Growth.step_growAll _ _ ⟨rfl, rfl⟩

/-- Nothing is open at the end of a text exactly if its tags match. -/
theorem opened_growthOf {content : String}
    (follows : Growth.Follows {} (growthOf content) {} (eventsOf content)) :
    (growthOf content).opened = [] ↔ Balanced (eventsOf content) := by
  -- As many elements are open in the tree as the events leave open.
  rw [balanced_iff (grounded_eventsOf content), ← List.length_eq_zero_iff,
    ← follows.counts.length_opened, Tally.length_opened_afterAll]
  rfl

/-- Where tags match, the elements that stand in no other are finished. -/
theorem finished_eq_topmost {events : List Event} (balanced : Balanced events) :
    finished 0 events = topmost (headings {} events) := by
  -- An element that stands in no other is finished or open in the end, and none is open.
  have counted := topmost_headings {} events
  have none := balanced.depth_eq 0
  simp only [List.length_nil] at counted
  rw [none] at counted
  omega

/-- A root is there at the end of a text exactly if one element stands at its top. -/
theorem root_growthOf {content : String}
    (follows : Growth.Follows {} (growthOf content) {} (eventsOf content))
    (balanced : Balanced (eventsOf content)) :
    (∃ root, (growthOf content).root = some root) ↔
      topmost (headings {} (eventsOf content)) = 1 := by
  -- The roots that are there are the finished elements that stand in no other.
  have roots : (growthOf content).roots = topmost (headings {} (eventsOf content)) := by
    rw [follows.roots, ← finished_eq_topmost balanced]
    exact Nat.zero_add _
  rw [← roots]
  cases root : (growthOf content).root <;> simp [Growth.roots, root]

/-- The tree at the end of a text is the one that its events denote. -/
theorem denotes_growthOf {content : String} {root : Element}
    (follows : Growth.Follows {} (growthOf content) {} (eventsOf content))
    (done : (growthOf content).opened = []) (only : (growthOf content).root = some root) :
    Denotes (eventsOf content) root := by
  -- With nothing open the rows are those of the root.
  have rows : (growthOf content).rows = root.rows 0 := by
    simp [Growth.rows, Growth.rowsOfRoot, only, done, rowsOfOpened]
  refine ⟨?_, ?_⟩
  · have listed := follows.headings
    rw [rows] at listed
    simpa [Element.rows, Growth.rows, Growth.rowsOfRoot, rowsOfOpened, Function.comp_def]
      using listed
  · intro number way element stands
    have text := follows.texts number
    rw [rows] at text
    simpa [Element.rows, textOf, stands, Growth.rows, Growth.rowsOfRoot, rowsOfOpened] using text

/-- A text is read as an element exactly if it is well formed. -/
theorem exists_readRoot_iff (content : String) :
    (∃ root, readRoot content = .ok root) ↔ WellFormed content := by
  -- That there is no defect on the way is that all events are admitted.
  obtain ⟨more, defects, admitted, follows⟩ := step_growthOf content
  obtain rfl : (growthOf content).defects = more := defects
  constructor
  · rintro ⟨root, read⟩
    obtain ⟨only, silent, unbroken, done⟩ := (readRoot_eq_ok_iff content root).1 read
    obtain ⟨sound, outside, _⟩ := admitted.1 silent
    have balanced := (opened_growthOf (follows silent)).1 done
    have single := (root_growthOf (follows silent) balanced).1 ⟨root, only⟩
    exact ⟨unbroken, sound, balanced, single, outside⟩
  · rintro ⟨unbroken, sound, balanced, single, outside⟩
    have room : (({} : Growth).roots + finished 0 (eventsOf content)) ≤ 1 := by
      rw [finished_eq_topmost balanced, single]
      exact Nat.le_refl 1
    have silent := admitted.2 ⟨sound, outside, room⟩
    obtain ⟨root, only⟩ := (root_growthOf (follows silent) balanced).2 single
    have done := (opened_growthOf (follows silent)).2 balanced
    exact ⟨root, (readRoot_eq_ok_iff content root).2 ⟨only, silent, unbroken, done⟩⟩

/-- The element that a text is read as is the one that its events denote. -/
theorem denotes_of_readRoot {content : String} {root : Element}
    (read : readRoot content = .ok root) : Denotes (eventsOf content) root := by
  -- Without any defect the tree followed the outline to its end.
  obtain ⟨only, silent, _, done⟩ := (readRoot_eq_ok_iff content root).1 read
  obtain ⟨more, defects, _, follows⟩ := step_growthOf content
  obtain rfl : (growthOf content).defects = more := defects
  exact denotes_growthOf (follows silent) done only

/-- A text is parsed as a document exactly if it is read as an element, which is its root. -/
theorem Document.parse_eq_ok_iff (path : Path) (content : String) (document : Document) :
    Document.parse path content = .ok document ↔
      document.path = path ∧ readRoot content = .ok document.root := by
  obtain ⟨known, root⟩ := document
  unfold Document.parse
  -- The path is only put beside the root.
  cases readRoot content <;> simp [eq_comm]

/--
A text is parsed as a document exactly if it is well formed, and the tree of the document is the
one that the events of the text denote.
-/
theorem Document.parse_denotes_events (path : Path) (content : String) :
    ((∃ document, Document.parse path content = .ok document) ↔ WellFormed content) ∧
      ∀ document, Document.parse path content = .ok document →
        document.path = path ∧ Denotes (eventsOf content) document.root := by
  refine ⟨?_, ?_⟩
  -- A text parses exactly if it has a root, and the path plays no part in that.
  · rw [← exists_readRoot_iff]
    constructor
    · rintro ⟨document, parsed⟩
      exact ⟨document.root, ((parse_eq_ok_iff path content document).1 parsed).2⟩
    · rintro ⟨root, read⟩
      exact ⟨⟨path, root⟩, (parse_eq_ok_iff path content ⟨path, root⟩).2 ⟨rfl, read⟩⟩
  · intro document parsed
    obtain ⟨known, read⟩ := (parse_eq_ok_iff path content document).1 parsed
    exact ⟨known, denotes_of_readRoot read⟩

end BeanWiring
