import BeanWiring.Proofs.Markup.Segment
import BeanWiring.Proofs.Markup.Tag

/-!
The outline of a document, told from its events alone: which elements begin, how deep each of them
stands, and which character data is delivered while an element is the innermost open one.

No tree is looked at here; the elements are known by the order in which they begin.
-/

namespace BeanWiring

/-- What a document tells of an element besides its character data. -/
structure Heading where
  /-- The number of elements that are open around the element. -/
  depth : Nat
  name : String
  attributes : List (String × String)
deriving DecidableEq, Repr

namespace Event

/-- The element that an event begins, if it begins one. -/
def heading? (depth : Nat) : Event → Option Heading
  | .opened tag | .empty tag => some ⟨depth, String.ofList tag.name, tag.entries⟩
  | _ => none

/-- The character data that an event delivers, references replaced. -/
def data : Event → List Char
  | .text raw =>
    match unescape raw with
    | .ok value => value
    | .error _ => []
  -- Only here the characters stand for themselves.
  | .verbatim raw => raw
  | _ => []

/-- Whether all that is written in a tag or in character data can be read. -/
def Sound : Event → Prop
  | .opened tag | .empty tag => tag.Sound
  | .text raw => ∃ value, unescape raw = .ok value
  | _ => True

/-- The number of open elements after an event. -/
def depthAfter (depth : Nat) : Event → Nat
  | .opened _ => depth + 1
  | .closed => depth - 1
  | _ => depth

/-- Whether an event ends an element around which no other is open. -/
def finishes (depth : Nat) : Event → Bool
  | .empty _ => depth == 0
  | .closed => depth == 1
  | _ => false

/-- Whether an event neither opens an element nor closes one. -/
def isSingle : Event → Bool
  | .opened _ | .closed => false
  | _ => true

end Event

/--
Where a document stands between two events: how many elements have begun, and the numbers of those
still open, the innermost first. Elements are numbered from zero in the order in which they begin.
-/
structure Tally where
  begun : Nat := 0
  opened : List Nat := []
deriving DecidableEq, Repr

/-- Where a document stands after one more event. -/
def Tally.after (tally : Tally) : Event → Tally
  | .opened _ => ⟨tally.begun + 1, tally.begun :: tally.opened⟩
  | .empty _ => ⟨tally.begun + 1, tally.opened⟩
  | .closed => ⟨tally.begun, tally.opened.tail⟩
  | _ => tally

/-- As many elements are open after an event as it leaves open. -/
theorem Tally.length_opened_after (tally : Tally) (event : Event) :
    (tally.after event).opened.length = event.depthAfter tally.opened.length := by
  cases event <;> simp [after, Event.depthAfter]

/-- The elements that begin in the events, in order. -/
def headings (tally : Tally) : List Event → List Heading
  | [] => []
  | event :: rest =>
    (event.heading? tally.opened.length).toList ++ headings (tally.after event) rest

/--
All that is delivered while the element of a number is the innermost open one, or, without a
number, while no element is open.
-/
def gather {σ α : Type} (event : σ → Event) (deliver : σ → List α) (inside : Option Nat)
    (tally : Tally) : List σ → List α
  | [] => []
  | item :: rest =>
    -- What an item delivers goes to the element that is open where it stands.
    (if tally.opened.head? = inside then deliver item else []) ++
      gather event deliver inside (tally.after (event item)) rest

/-- What is made of all that is delivered is what is made of each delivery. -/
theorem gather_change {σ α β : Type} (change : List α → List β) (none : change [] = [])
    (both : ∀ left right, change (left ++ right) = change left ++ change right)
    (event : σ → Event) (deliver : σ → List α) (inside : Option Nat) (tally : Tally)
    (items : List σ) :
    change (gather event deliver inside tally items) =
      gather event (fun item => change (deliver item)) inside tally items := by
  -- Where nothing is delivered nothing is made of it.
  induction items generalizing tally with
  | nil => exact none
  | cons item rest ih =>
    rw [gather, gather, both, ih]
    split
    · rfl
    · rw [none]

/-- Where each delivers the same, all that is delivered is the same. -/
theorem gather_congr {σ α : Type} {event : σ → Event} {deliver other : σ → List α}
    {items : List σ} (same : ∀ item ∈ items, deliver item = other item) (inside : Option Nat)
    (tally : Tally) :
    gather event deliver inside tally items = gather event other inside tally items := by
  -- What is delivered does not change where the document stands.
  induction items generalizing tally with
  | nil => rfl
  | cons item rest ih =>
    obtain ⟨here, behind⟩ := List.forall_mem_cons.1 same
    rw [gather, gather, here, ih behind]

/-- What is delivered in one of several places is delivered by some item. -/
theorem exists_of_mem_gather {σ α : Type} {event : σ → Event} {deliver : σ → List α}
    {inside : Option Nat} {tally : Tally} {items : List σ} {delivered : α}
    (member : delivered ∈ gather event deliver inside tally items) :
    ∃ item ∈ items, delivered ∈ deliver item := by
  -- Whatever is in front of it, each delivery is that of one item.
  induction items generalizing tally with
  | nil => cases member
  | cons item rest ih =>
    rcases List.mem_append.1 member with here | behind
    · split at here
      · exact ⟨item, List.mem_cons_self .., here⟩
      · cases here
    · obtain ⟨other, among, delivers⟩ := ih behind
      exact ⟨other, List.mem_cons_of_mem _ among, delivers⟩

/-- The character data directly inside an element, or outside of all. -/
def dataIn (inside : Option Nat) (tally : Tally) (events : List Event) : List Char :=
  gather id Event.data inside tally events

/-- The number of elements that end in the events and stand in no other. -/
def finished (depth : Nat) : List Event → Nat
  | [] => 0
  | event :: rest =>
    (if event.finishes depth then 1 else 0) + finished (event.depthAfter depth) rest

/-- Events in which every start has its matching end, and every end its start. -/
inductive Balanced : List Event → Prop
  | nil : Balanced []
  | single {event : Event} {rest : List Event} (single : event.isSingle = true)
      (others : Balanced rest) : Balanced (event :: rest)
  | pair {tag : Tag} {inner rest : List Event} (inside : Balanced inner)
      (others : Balanced rest) : Balanced (.opened tag :: (inner ++ .closed :: rest))

/-- Events in which no end comes without an element that is open, where so many are in front. -/
def Grounded (depth : Nat) : List Event → Prop
  | [] => True
  | event :: rest => (event = .closed → 0 < depth) ∧ Grounded (event.depthAfter depth) rest

/-- A single event leaves as many elements open as there were. -/
theorem Event.depthAfter_single {event : Event} (single : event.isSingle = true) (depth : Nat) :
    event.depthAfter depth = depth := by
  cases event <;> first | rfl | cases single

/-- Events that end as many elements as are open in front, besides those they begin. -/
def Closes : Nat → List Event → Prop
  | 0, events => Balanced events
  | depth + 1, events =>
    ∃ inner rest, Balanced inner ∧ Closes depth rest ∧ events = inner ++ .closed :: rest

/-- A single event in front changes nothing about what is closed. -/
theorem Closes.single {depth : Nat} {event : Event} {rest : List Event}
    (closes : Closes depth rest) (single : event.isSingle = true) :
    Closes depth (event :: rest) := by
  cases depth with
  | zero => exact Balanced.single single closes
  | succ depth =>
    -- The single event stands in the innermost open element.
    obtain ⟨inner, behind, balanced, others, rfl⟩ := closes
    exact ⟨event :: inner, behind, .single single balanced, others, rfl⟩

/-- A start in front uses up one of the ends. -/
theorem Closes.opened {depth : Nat} {tag : Tag} {rest : List Event}
    (closes : Closes (depth + 1) rest) : Closes depth (.opened tag :: rest) := by
  -- The start and the first of the ends make a pair.
  obtain ⟨inner, behind, balanced, others, rfl⟩ := closes
  cases depth with
  | zero => exact Balanced.pair balanced others
  | succ depth =>
    -- The pair stands in front of the end that is still to come.
    obtain ⟨further, last, also, outer, rfl⟩ := others
    refine ⟨.opened tag :: (inner ++ .closed :: further), last, .pair balanced also, outer, ?_⟩
    simp

/-- Grounded events that leave nothing open close all that is open in front. -/
theorem closes_of_grounded {depth : Nat} {events : List Event} (grounded : Grounded depth events)
    (ends : events.foldl Event.depthAfter depth = 0) : Closes depth events := by
  -- The induction is on the events, for every number of elements open in front.
  induction events generalizing depth with
  | nil =>
    obtain rfl : depth = 0 := ends
    exact .nil
  | cons event rest ih =>
    obtain ⟨positive, others⟩ := grounded
    have behind := ih others ends
    cases event with
    | opened tag => exact behind.opened
    | closed =>
      -- An end comes where something is open, and it is one of the ends that are counted.
      obtain ⟨before, rfl⟩ := Nat.exists_eq_add_of_lt (positive rfl)
      rw [Nat.zero_add] at behind ⊢
      exact ⟨[], rest, .nil, behind, rfl⟩
    | empty tag => exact behind.single rfl
    | text raw => exact behind.single rfl
    | verbatim raw => exact behind.single rfl
    | aside => exact behind.single rfl

/-- Balanced events leave as many elements open as there were in front. -/
theorem Balanced.depth_eq {events : List Event} (balanced : Balanced events) (depth : Nat) :
    events.foldl Event.depthAfter depth = depth := by
  -- The induction is on the grammar, with one case for each of its rules.
  induction balanced generalizing depth with
  | nil => rfl
  | single single _ ih => rw [List.foldl_cons, Event.depthAfter_single single, ih]
  | pair _ _ inside others =>
    -- The start adds one open element, which the end takes away again.
    rw [List.foldl_cons, List.foldl_append, inside, List.foldl_cons, others]
    rfl

/-- Grounded events are balanced exactly if they leave nothing open. -/
theorem balanced_iff {events : List Event} (grounded : Grounded 0 events) :
    Balanced events ↔ events.foldl Event.depthAfter 0 = 0 :=
  ⟨fun balanced => balanced.depth_eq 0, closes_of_grounded grounded⟩

/-- Where a document stands after several events. -/
def Tally.afterAll (tally : Tally) (events : List Event) : Tally :=
  events.foldl after tally

/-- As many elements are open after several events as they leave open. -/
theorem Tally.length_opened_afterAll (tally : Tally) (events : List Event) :
    (tally.afterAll events).opened.length =
      events.foldl Event.depthAfter tally.opened.length := by
  -- The induction is on the events, for wherever the document stands.
  induction events generalizing tally with
  | nil => rfl
  | cons event rest ih =>
    rw [List.foldl_cons, ← tally.length_opened_after event]
    exact ih (tally.after event)

/-- The number of elements that stand in no other, among those that begin. -/
def topmost (found : List Heading) : Nat :=
  found.countP fun heading => heading.depth = 0

/-- An element that stands in no other is finished, or it is open in the end. -/
theorem topmost_headings (tally : Tally) (events : List Event) :
    topmost (headings tally events) + min tally.opened.length 1 =
      finished tally.opened.length events +
        min (events.foldl Event.depthAfter tally.opened.length) 1 := by
  -- The two sides count the same elements, those open in front among them.
  induction events generalizing tally with
  | nil => simp [headings, topmost, finished]
  | cons event rest ih =>
    have others := ih (tally.after event)
    rw [tally.length_opened_after] at others
    simp only [headings, topmost, List.countP_append, finished, List.foldl_cons] at others ⊢
    -- What one event adds on the left it adds on the right, or it leaves an element open.
    have step : (event.heading? tally.opened.length).toList.countP
          (fun heading => heading.depth = 0) + min tally.opened.length 1 =
        (if event.finishes tally.opened.length then 1 else 0) +
          min (event.depthAfter tally.opened.length) 1 := by
      cases event with
      | opened tag =>
        by_cases top : tally.opened.length = 0
        · simp [Event.heading?, Event.finishes, Event.depthAfter, top]
        · simp [Event.heading?, Event.finishes, Event.depthAfter, top]
          omega
      | empty tag =>
        by_cases top : tally.opened.length = 0
        · simp [Event.heading?, Event.finishes, Event.depthAfter, top]
        · simp [Event.heading?, Event.finishes, Event.depthAfter, top]
      | closed =>
        by_cases last : tally.opened.length = 1
        · simp [Event.heading?, Event.finishes, Event.depthAfter, last]
        · simp [Event.heading?, Event.finishes, Event.depthAfter, last]
          omega
      | text raw => simp [Event.heading?, Event.finishes, Event.depthAfter]
      | verbatim raw => simp [Event.heading?, Event.finishes, Event.depthAfter]
      | aside => simp [Event.heading?, Event.finishes, Event.depthAfter]
    omega

/-- An end tag is read only where an element is open. -/
theorem ne_nil_of_endEvent {opened : List (List Char)} {content : List Char} {event : Event}
    (made : endEvent opened content = .ok event) : opened ≠ [] := by
  rintro rfl
  cases made

/-- The end of an element is read only where one is open. -/
theorem readMarkup_closed {opened : List (List Char)} {text content rest : List Char}
    (read : readMarkup opened text = .ok (.closed, content, rest)) : opened ≠ [] := by
  -- Of all that is read up to its bracket only tags end elements.
  unfold readMarkup at read
  split at read
  · have made := (readClosed_source read).2
    unfold verbatimEvent at made
    split at made <;> cases made
  · have made := (readClosed_source read).2
    unfold commentEvent at made
    split at made <;> cases made
  · split at read
    · have made := (readClosed_source read).2
      unfold doctypeEvent at made
      split at made
      · cases made
      · split at made <;> cases made
    · cases read
  · cases read
  · have made := (readClosed_source read).2
    unfold instructionEvent at made
    split at made <;> cases made
  · have made := (readClosed_source read).2
    unfold tagEvent at made
    split at made
    · exact ne_nil_of_endEvent made
    · split at made <;> cases made

/-- The names of the open elements are as many as there are open elements. -/
theorem length_openAfter (opened : List (List Char)) (event : Event) :
    (event.openAfter opened).length = event.depthAfter opened.length := by
  cases event <;> simp [Event.openAfter, Event.depthAfter]

/-- Every end that is read belongs to an element that is open. -/
theorem grounded_cut (opened : List (List Char)) (text : List Char) :
    Grounded opened.length ((cut opened text).segments.flatMap Segment.events) := by
  fun_induction cut opened text with
  | case1 => trivial
  | case2 => trivial
  | case3 opened tail event content rest found ih =>
    rw [length_openAfter] at ih
    refine ⟨?_, ih⟩
    rintro rfl
    exact List.length_pos_of_ne_nil (readMarkup_closed found)
  | case4 opened first tail _ ih =>
    -- Character data leaves the open elements as they are.
    simp only [Cutting.after, List.flatMap_cons, Segment.events]
    split
    · exact ih
    · refine ⟨?_, ih⟩
      intro same
      cases same

end BeanWiring
