import BeanWiring.Proofs.Markup.Growth

/-!
The tree in the making follows the outline told from the events.

One event adds to the tree in the making what it adds to the outline, or it leaves a defect; so
does a whole run of events. A defect, once met, stays.
-/

namespace BeanWiring

namespace Growth

/-- A tree in the making to which events were added as they stand in the outline. -/
structure Follows (growth next : Growth) (tally : Tally) (events : List Event) : Prop where
  counts : next.Counts (tally.afterAll events)
  headings : next.rows.map (·.1) = growth.rows.map (·.1) ++ BeanWiring.headings tally events
  texts : ∀ number,
    textOf next.rows number = textOf growth.rows number ++ dataIn (some number) tally events
  roots : next.roots = growth.roots + finished tally.opened.length events

/--
Whether events can be added without a defect: all that is written in them can be read, what they
deliver outside of all elements is blank, and there is room for the roots that they finish.
-/
structure Admits (growth : Growth) (tally : Tally) (events : List Event) : Prop where
  sound : ∀ event ∈ events, event.Sound
  outside : ∀ c ∈ dataIn none tally events, isBlank c = true
  roots : growth.roots + finished tally.opened.length events ≤ 1

variable {growth next last : Growth} {tally : Tally} {event : Event} {rest : List Event}

/-- An event is admitted exactly if it is sound, blank outside, and no second root. -/
theorem admits_singleton :
    growth.Admits tally [event] ↔
      event.Sound ∧ (tally.opened = [] → ∀ c ∈ event.data, isBlank c = true) ∧
        growth.roots + (if event.finishes tally.opened.length then 1 else 0) ≤ 1 := by
  -- Of one event all is delivered outside if nothing is open, and nothing else.
  have outside : dataIn none tally [event] = if tally.opened = [] then event.data else [] := by
    simp [dataIn, gather]
  constructor
  · rintro ⟨sound, blank, room⟩
    refine ⟨sound event (List.mem_singleton.2 rfl), ?_, by simpa [finished] using room⟩
    intro none c member
    exact blank c (by rwa [outside, if_pos none])
  · rintro ⟨sound, blank, room⟩
    refine ⟨by simpa using sound, ?_, by simpa [finished] using room⟩
    intro c member
    rw [outside] at member
    split at member
    · rename_i none
      exact blank none c member
    · cases member

/-- What follows from one event, told of it alone. -/
theorem follows_singleton (counts : next.Counts (tally.after event))
    (headings : next.rows.map (·.1) =
      growth.rows.map (·.1) ++ (event.heading? tally.opened.length).toList)
    (texts : ∀ number, textOf next.rows number =
      textOf growth.rows number ++ if tally.opened.head? = some number then event.data else [])
    (roots : next.roots = growth.roots + if event.finishes tally.opened.length then 1 else 0) :
    Follows growth next tally [event] := by
  -- Without others behind it an event adds nothing but its own part of the outline.
  refine ⟨counts, ?_, ?_, ?_⟩
  · simpa [BeanWiring.headings] using headings
  · intro number
    simpa [dataIn, gather] using texts number
  · simpa [finished] using roots

/-- An event that begins an element adds a row without text behind all others. -/
theorem follows_begun {heading : Heading} (counts : growth.Counts tally)
    (begins : event.heading? tally.opened.length = some heading) (silent : event.data = [])
    (rows : next.rows = growth.rows ++ [(heading, "")])
    (after : tally.after event = ⟨tally.begun + 1, next.numbers⟩)
    (roots : next.roots = growth.roots + if event.finishes tally.opened.length then 1 else 0) :
    Follows growth next tally [event] := by
  refine follows_singleton ⟨?_, ?_⟩ ?_ ?_ roots
  · rw [after, rows, List.length_append, ← counts.begun]
    rfl
  · rw [after]
  · rw [rows, begins, List.map_append]
    rfl
  · -- The new row has a number of its own, under which no text was stored before.
    intro number
    rw [rows, textOf_append_empty, silent, ite_self, List.append_nil]

/-- What one event leaves behind: a defect, or a tree in the making to which it was added. -/
def Step (growth next : Growth) (tally : Tally) (events : List Event) : Prop :=
  ∃ more, next.defects = growth.defects ++ more ∧ (more = [] ↔ growth.Admits tally events) ∧
    (more = [] → Follows growth next tally events)

/-- An event that changes nothing but whether there is a defect. -/
theorem step_still {more : List Defect} (counts : growth.Counts tally)
    (still : tally.after event = tally)
    (unnamed : event.heading? tally.opened.length = none)
    (unfinished : event.finishes tally.opened.length = false)
    (admitted : more = [] ↔ growth.Admits tally [event])
    (silent : more = [] → ∀ number, tally.opened.head? = some number → event.data = []) :
    Step growth { growth with defects := growth.defects ++ more } tally [event] := by
  -- Rows, numbers and roots are those of before, whatever defects were added.
  refine ⟨more, rfl, admitted, fun none => follows_singleton ?_ ?_ ?_ ?_⟩
  · rw [still]
    exact ⟨counts.begun, counts.opened⟩
  · rw [unnamed, Option.toList_none, List.append_nil]
    rfl
  · intro number
    have nothing : (if tally.opened.head? = some number then event.data else []) = [] := by
      split
      · rename_i inside
        exact silent none number inside
      · rfl
    rw [nothing, List.append_nil]
    rfl
  · rw [unfinished]
    rfl

/-- Character data that can be read goes to the innermost open element, or has to be blank. -/
theorem step_data (line : Nat) (counts : growth.Counts tally) (sound : event.Sound)
    (still : tally.after event = tally)
    (unnamed : event.heading? tally.opened.length = none)
    (unfinished : event.finishes tally.opened.length = false) :
    Step growth (growth.addText line (String.ofList event.data)) tally [event] := by
  have room := growth.roots_le_one
  have admitted := @admits_singleton growth tally event
  rw [unfinished] at admitted
  cases opened : growth.opened with
  | nil =>
    have noneOpen : tally.opened = [] := counts.opened_eq_nil_iff.2 opened
    -- Outside of all elements nothing is added, and blanks leave no defect.
    have outcome : growth.addText line (String.ofList event.data) =
        { growth with
          defects := growth.defects ++
            if event.data.all isBlank then [] else [.textOutsideRoot line] } := by
      obtain ⟨_, root, defects⟩ := growth
      obtain rfl := opened
      simp only [addText, isAllBlank, String.toList_ofList]
      split <;> simp
    rw [outcome]
    refine step_still counts still unnamed unfinished ?_ ?_
    · rw [admitted]
      simp [sound, noneOpen, room]
    · intro _ number inside
      rw [noneOpen] at inside
      cases inside
  | cons innermost others =>
    -- Inside of an element the data is added to the row of the number that is open innermost.
    obtain ⟨number, first, inside, rows⟩ :=
      rows_addText line (String.ofList event.data) opened
    have next : growth.addText line (String.ofList event.data) =
        { growth with opened := innermost.addText (String.ofList event.data) :: others } := by
      simp only [addText, opened]
    have someOpen : tally.opened ≠ [] := by
      rw [Ne, counts.opened_eq_nil_iff, opened]
      exact List.cons_ne_nil innermost others
    refine ⟨[], by simp [next], ?_, fun _ => follows_singleton ?_ ?_ ?_ ?_⟩
    · rw [admitted]
      simp [sound, someOpen, room]
    · rw [still]
      refine ⟨?_, ?_⟩
      · rw [counts.begun, rows, List.length_modify]
      · rw [counts.opened, next]
        simp [numbers, opened, numbersOfOpened, rowsOfRoot]
    · rw [unnamed, rows, headings_modify, Option.toList_none, List.append_nil]
    · intro other
      rw [rows, textOf_modify inside, counts.opened, first, String.toList_ofList]
      simp
    · rw [next, unfinished]
      rfl

/-- A start adds an element that is open and has a row of its own behind all others. -/
theorem step_opened (line : Nat) (tag : Tag) (counts : growth.Counts tally) :
    Step growth (growth.grow line (.opened tag)) tally [.opened tag] := by
  -- The defects are those of the tag, and the element is open whether it has any or not.
  have room := growth.roots_le_one
  have next : growth.grow line (.opened tag) =
      { growth with
        opened := tag.element :: growth.opened
        defects := growth.defects ++ (elementOf line tag).2 } := by
    rw [← elementOf_element line tag]
    rfl
  have rows : (growth.grow line (.opened tag)).rows =
      growth.rows ++ [(⟨tally.opened.length, String.ofList tag.name, tag.entries⟩, "")] := by
    rw [next, counts.length_opened]
    simp [Growth.rows, rowsOfRoot, rowsOfOpened, Element.rows_eq, Tag.element, Element.heading]
  -- The number of the new element is that of the row behind all others.
  have number : growth.rowsOfRoot.length + (rowsOfOpened growth.opened).length = tally.begun := by
    rw [counts.begun, Growth.rows, List.length_append]
  have numbers : (growth.grow line (.opened tag)).numbers = tally.begun :: tally.opened := by
    rw [next, counts.opened, ← number]
    rfl
  refine ⟨(elementOf line tag).2, by rw [next], ?_, fun _ => ?_⟩
  · rw [elementOf_defects, admits_singleton]
    simp [Event.Sound, Event.data, Event.finishes, room]
  · refine follows_begun counts rfl rfl rows ?_ (by rw [next]; rfl)
    rw [numbers]
    rfl

/-- An element without content adds its row behind all others, and may be a second root. -/
theorem step_empty (line : Nat) (tag : Tag) (counts : growth.Counts tally) :
    Step growth (growth.grow line (.empty tag)) tally [.empty tag] := by
  -- The defects of the tag are met first, and then that there is a root already.
  let marked : Growth := { growth with defects := growth.defects ++ (elementOf line tag).2 }
  have next : growth.grow line (.empty tag) = attach tag.element marked := by
    rw [← elementOf_element line tag]
    rfl
  have none_iff : tally.opened.length = 0 ↔ growth.opened = [] := by
    rw [List.length_eq_zero_iff, counts.opened_eq_nil_iff]
  obtain ⟨second, defects, second_iff⟩ := attach_defects tag.element marked
  refine ⟨(elementOf line tag).2 ++ second, ?_, ?_, ?_⟩
  · rw [next, defects, List.append_assoc]
  · rw [List.append_eq_nil_iff, elementOf_defects, second_iff, admits_singleton]
    simp [Event.Sound, Event.data, Event.finishes, none_iff, marked, Growth.roots]
  · intro none
    have room := second_iff.1 (List.append_eq_nil_iff.1 none).2
    -- Where there is room the element is attached with its one row.
    have rows : (growth.grow line (.empty tag)).rows =
        growth.rows ++ [(⟨tally.opened.length, String.ofList tag.name, tag.entries⟩, "")] := by
      rw [next, rows_attach tag.element room, counts.length_opened, Element.rows_eq]
      rfl
    refine follows_begun counts rfl rfl rows ?_ ?_
    · rw [next, numbers_attach tag.element room]
      show Tally.mk (tally.begun + 1) tally.opened = ⟨tally.begun + 1, growth.numbers⟩
      rw [counts.opened]
    · rw [next, roots_attach tag.element room]
      simp [Event.finishes, none_iff, marked, Growth.roots]

/-- An end adds no row: those of the finished element stand where they stood. -/
theorem step_closed (line : Nat) (counts : growth.Counts tally) :
    Step growth (growth.grow line .closed) tally [.closed] := by
  cases opened : growth.opened with
  | nil =>
    -- Where nothing is open nothing ends.
    have noneOpen : tally.opened = [] := counts.opened_eq_nil_iff.2 opened
    have still : growth.grow line .closed =
        { growth with defects := growth.defects ++ [] } := by
      obtain ⟨_, root, defects⟩ := growth
      obtain rfl := opened
      simp [grow]
    have room := growth.roots_le_one
    rw [still]
    refine step_still counts ?_ rfl ?_ ?_ fun _ _ _ => rfl
    · simp only [Tally.after, noneOpen, List.tail_nil]
      rw [← noneOpen]
    · simp [Event.finishes, noneOpen]
    · rw [admits_singleton]
      simp [Event.Sound, Event.data, Event.finishes, noneOpen, room]
  | cons innermost others =>
    -- The innermost element leaves the open ones and is attached to what is left of them.
    let without : Growth := { growth with opened := others }
    have next : growth.grow line .closed = attach innermost without := by
      simp only [grow, opened]
      rfl
    have last_iff : tally.opened.length = 1 ↔ others = [] := by
      rw [counts.length_opened, opened, List.length_cons, Nat.succ_inj, List.length_eq_zero_iff]
    obtain ⟨second, defects, second_iff⟩ := attach_defects innermost without
    refine ⟨second, by rw [next, defects], ?_, ?_⟩
    · rw [second_iff, admits_singleton]
      simp [Event.Sound, Event.data, Event.finishes, last_iff, without, Growth.roots]
    · intro none
      have room := second_iff.1 none
      -- The rows of the finished element were those of the innermost open one.
      have rows : (growth.grow line .closed).rows = growth.rows := by
        rw [next, rows_attach innermost room]
        simp [Growth.rows, rowsOfRoot, opened, rowsOfOpened, without]
      refine follows_singleton ⟨?_, ?_⟩ ?_ ?_ ?_
      · rw [rows]
        exact counts.begun
      · rw [next, numbers_attach innermost room]
        simp [Tally.after, counts.opened, Growth.numbers, opened, numbersOfOpened, rowsOfRoot,
          without]
      · simp [rows, Event.heading?]
      · simp [rows, Event.data]
      · rw [next, roots_attach innermost room]
        simp [Event.finishes, last_iff, without, Growth.roots]

/-- One event leaves a defect behind, or the tree in the making to which it was added. -/
theorem step_grow (line : Nat) (event : Event) (counts : growth.Counts tally) :
    Step growth (growth.grow line event) tally [event] := by
  -- There is one lemma for each way in which an event can change the tree.
  have room := growth.roots_le_one
  cases event with
  | opened tag => exact step_opened line tag counts
  | empty tag => exact step_empty line tag counts
  | closed => exact step_closed line counts
  | verbatim raw =>
    have sound : (Event.verbatim raw).Sound := trivial
    exact step_data line counts sound rfl rfl rfl
  | aside =>
    have still : growth.grow line .aside = { growth with defects := growth.defects ++ [] } := by
      simp [grow]
    rw [still]
    refine step_still counts rfl rfl rfl ?_ fun _ _ _ => rfl
    rw [admits_singleton]
    simp [Event.Sound, Event.data, Event.finishes, room]
  | text raw =>
    cases read : unescape raw with
    | ok value =>
      have next : growth.grow line (.text raw) =
          growth.addText line (String.ofList (Event.text raw).data) := by
        simp only [grow, Event.data, read]
      rw [next]
      exact step_data line counts ⟨value, read⟩ rfl rfl rfl
    | error fault =>
      have next : growth.grow line (.text raw) =
          { growth with defects := growth.defects ++ [.characterData line fault] } := by
        simp only [grow, read]
      rw [next]
      refine step_still counts rfl rfl rfl ?_ ?_
      · rw [admits_singleton]
        simp [Event.Sound, read]
      · intro none
        cases none

/-- Where events are admitted the first of them is. -/
theorem Admits.first (admits : growth.Admits tally (event :: rest)) :
    growth.Admits tally [event] := by
  -- What the first event delivers and finishes is part of what all of them do.
  obtain ⟨sound, blank, enough⟩ := admits
  refine ⟨?_, ?_, ?_⟩
  · simpa using sound event (List.mem_cons_self ..)
  · intro c member
    refine blank c ?_
    simp only [dataIn, gather, List.append_nil] at member ⊢
    exact List.mem_append_left _ member
  · simp only [finished] at enough ⊢
    omega

/-- Behind an event that was added the others are admitted as they are behind it. -/
theorem admits_cons (follows : Follows growth next tally [event])
    (first : growth.Admits tally [event]) :
    growth.Admits tally (event :: rest) ↔ next.Admits (tally.after event) rest := by
  -- The roots that the first event finished are those that the others find.
  have roots : next.roots + finished (tally.after event).opened.length rest =
      growth.roots + finished tally.opened.length (event :: rest) := by
    rw [follows.roots, tally.length_opened_after]
    simp [finished, Nat.add_assoc]
  have outside : dataIn none tally (event :: rest) =
      dataIn none tally [event] ++ dataIn none (tally.after event) rest := by
    simp [dataIn, gather]
  constructor
  · rintro ⟨sound, blank, room⟩
    rw [outside, List.forall_mem_append] at blank
    exact ⟨(List.forall_mem_cons.1 sound).2, blank.2, roots ▸ room⟩
  · rintro ⟨sound, blank, room⟩
    refine ⟨?_, ?_, roots ▸ room⟩
    · exact List.forall_mem_cons.2 ⟨first.sound event (List.mem_singleton.2 rfl), sound⟩
    · rw [outside, List.forall_mem_append]
      exact ⟨first.outside, blank⟩

/-- What follows from one event and then from others follows from all. -/
theorem Follows.trans (first : Follows growth next tally [event])
    (others : Follows next last (tally.after event) rest) :
    Follows growth last tally (event :: rest) := by
  -- Each part of the outline of all is that of the first and then that of the others.
  refine ⟨others.counts, ?_, ?_, ?_⟩
  · rw [others.headings, first.headings]
    simp [BeanWiring.headings]
  · intro number
    rw [others.texts, first.texts]
    simp [dataIn, gather]
  · rw [others.roots, first.roots, tally.length_opened_after]
    simp [finished, Nat.add_assoc]

/-- Defects that were met stay. -/
theorem defects_grow (line : Nat) (growth : Growth) (event : Event) :
    growth.defects <+: (growth.grow line event).defects := by
  -- Whatever an event does, new defects are told behind those that were met before.
  have text : ∀ piece, growth.defects <+: (growth.addText line piece).defects := by
    intro piece
    unfold addText
    split
    · exact List.prefix_refl _
    · split
      · exact List.prefix_refl _
      · exact List.prefix_append ..
  have attached : ∀ (element : Element) (next : Growth),
      next.defects <+: (attach element next).defects := by
    intro element next
    obtain ⟨more, defects, _⟩ := attach_defects element next
    exact ⟨more, defects.symm⟩
  cases event with
  | opened tag => exact List.prefix_append ..
  | empty tag =>
    let marked : Growth := { growth with defects := growth.defects ++ (elementOf line tag).2 }
    have kept : growth.defects <+: marked.defects := List.prefix_append ..
    exact kept.trans (attached (elementOf line tag).1 marked)
  | closed =>
    simp only [grow]
    split
    · rename_i innermost others _
      exact attached innermost { growth with opened := others }
    · exact List.prefix_refl _
  | text raw =>
    simp only [grow]
    split
    · exact text _
    · exact List.prefix_append ..
  | verbatim raw => exact text _
  | aside => exact List.prefix_refl _

/-- The tree in the making after several more events, each found on a line. -/
def growAll (lineOf : Placed Event → Nat) (placed : List (Placed Event)) (growth : Growth) :
    Growth :=
  placed.foldl (fun growth found => growth.grow (lineOf found) found.value) growth

/-- Defects that were met stay over several events. -/
theorem defects_growAll (lineOf : Placed Event → Nat) (placed : List (Placed Event))
    (growth : Growth) : growth.defects <+: (growth.growAll lineOf placed).defects := by
  -- Each event adds its defects behind those that are there.
  induction placed generalizing growth with
  | nil => exact List.prefix_refl _
  | cons found rest ih => exact (defects_grow ..).trans (ih _)

/-- A run of events leaves defects behind, or the tree in the making to which all were added. -/
theorem step_growAll (lineOf : Placed Event → Nat) (placed : List (Placed Event)) {growth : Growth}
    {tally : Tally} (counts : growth.Counts tally) :
    Step growth (growth.growAll lineOf placed) tally (placed.map (·.value)) := by
  -- The induction is on the events, for every tree that stands where the document does.
  induction placed generalizing growth tally with
  | nil =>
    have room := growth.roots_le_one
    refine ⟨[], (List.append_nil _).symm, ?_, fun _ => ?_⟩
    · exact ⟨fun _ => ⟨by simp, by simp [dataIn, gather], by simpa [finished] using room⟩,
        fun _ => rfl⟩
    · exact ⟨counts, by simp [growAll, BeanWiring.headings], by simp [growAll, dataIn, gather],
        by simp [growAll, finished]⟩
  | cons found rest ih =>
    obtain ⟨more, defects, admitted, follows⟩ := step_grow (lineOf found) found.value counts
    -- The first event was added, and the others follow it, or it left a defect.
    by_cases sound : more = []
    · have first := follows sound
      obtain ⟨further, others, admittedBehind, followsBehind⟩ := ih first.counts
      refine ⟨further, ?_, ?_, fun none => first.trans (followsBehind none)⟩
      · rw [sound, List.append_nil] at defects
        rw [← defects]
        exact others
      · rw [admittedBehind]
        exact (admits_cons first (admitted.1 sound)).symm
    · -- A defect of the first event is there in the end.
      obtain ⟨further, others⟩ :=
        defects_growAll lineOf rest (growth.grow (lineOf found) found.value)
      rw [defects, List.append_assoc] at others
      refine ⟨more ++ further, others.symm, ?_, ?_⟩
      · simp only [List.append_eq_nil_iff, sound, false_and, false_iff]
        exact fun admits => sound (admitted.2 admits.first)
      · intro none
        exact absurd (List.append_eq_nil_iff.1 none).1 sound

end Growth

end BeanWiring
