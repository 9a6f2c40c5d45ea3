import BeanWiring.Proofs.Markup.Defects

/-!
The lines that the defects of a text are told with.

An event is looked for from the end of the one before it, and white space in front of it is passed
over only then. Main statement: the line told is the one on which the event before it ended, counted
without the bytes of a byte order mark, and when that is the line of the event itself.
-/

namespace BeanWiring

/-- How far reading has come in a markup text when it meets an event. -/
structure Cursor where
  /-- All up to the end of the event before, from where this one is looked for. -/
  front : List Char := []
  /-- The white space that is passed over from there on. -/
  passed : List Char := []
deriving DecidableEq, Repr

/-- The place of an event or of a fault in a markup text. -/
structure Site extends Cursor where
  /-- What is read there, from its first character on. -/
  own : List Char
deriving DecidableEq, Repr

/-- The bytes of a text that its markup is without: those of a byte order mark. -/
def markBytes (content : String) : Nat :=
  if content.toList.head? = some '\ufeff' then '\ufeff'.utf8Size else 0

namespace Cursor

/-- All of the markup in front of what is met. -/
def before (cursor : Cursor) : List Char :=
  cursor.front ++ cursor.passed

/-- The line on which what is met begins. -/
def line (cursor : Cursor) : Nat :=
  cursor.before.count '\n' + 1

/-- The line of the place from which it is looked for, as it is counted in the whole text. -/
def told (content : String) (cursor : Cursor) : Nat :=
  lineAt content.toList (byteLength cursor.front)

/-- How far reading has come behind a segment: one without an event is passed over. -/
def behind (cursor : Cursor) (segment : Segment) : Cursor :=
  if segment.events = [] then ⟨cursor.front, cursor.passed ++ segment.source⟩
  else ⟨cursor.before ++ segment.source, []⟩

/-- The place of the event of the next segment, whose white space in front is passed over. -/
def site (cursor : Cursor) (segment : Segment) : Site :=
  ⟨⟨cursor.front, cursor.passed ++ segment.source.takeWhile isGap⟩,
    segment.source.dropWhile isGap⟩

/--
Whether no line feed comes between the place from which something is looked for and itself, nor so
close in front of that place that the bytes of a byte order mark reach back to it.
-/
structure Even (content : String) (cursor : Cursor) : Prop where
  passed : '\n' ∉ cursor.passed
  front : ∀ before behind, cursor.front = before ++ '\n' :: behind →
    markBytes content ≤ byteLength behind

end Cursor

/-- Whether a place is one of a text: white space is passed over there, and what is read is none. -/
structure Site.StandsIn (content : String) (site : Site) : Prop where
  blank : ∀ c ∈ site.passed, isGap c = true
  visible : ∃ first others, site.own = first :: others ∧ isGap first = false
  text : ∃ rest, markupOf content = site.before ++ site.own ++ rest

/-- The events of segments in a row, each with its place. -/
def sitedFrom (cursor : Cursor) : List Segment → List (Site × Event)
  | [] => []
  | segment :: rest =>
    segment.events.map (cursor.site segment, ·) ++ sitedFrom (cursor.behind segment) rest

/-- What reading tells of segments in a row and of the fault behind them, if there is one. -/
def Cutting.reading (cursor : Cursor) (cutting : Cutting) : Reading where
  events := (sitedFrom cursor cutting.segments).map fun sited =>
    ⟨byteLength sited.1.front, sited.2⟩
  fault := cutting.fault.map fun fault =>
    ⟨byteLength (cutting.segments.foldl Cursor.behind cursor).front, fault⟩

/-- A segment in front gives its event, and the others are read behind it. -/
theorem reading_after (cursor : Cursor) (segment : Segment) (cutting : Cutting) :
    (cutting.after segment).reading cursor =
      { cutting.reading (cursor.behind segment) with
        events := segment.events.map (⟨byteLength cursor.front, ·⟩) ++
          (cutting.reading (cursor.behind segment)).events } := by
  -- The events of the segment stand where the cursor is, and the others behind it.
  simp [Cutting.reading, Cutting.after, sitedFrom, Cursor.site, Function.comp_def]

/-- White space in front of a markup or of the end is passed over. -/
theorem reading_cut_gap (opened : List (List Char)) (front : List Char) {gap rest : List Char}
    (blank : ∀ c ∈ gap, isGap c = true) (stops : rest = [] ∨ ∃ tail, rest = '<' :: tail) :
    (cut opened (gap ++ rest)).reading ⟨front, []⟩ = (cut opened rest).reading ⟨front, gap⟩ := by
  by_cases nonempty : gap = []
  · rw [nonempty, List.nil_append]
  · -- The white space is a run of its own, which has no event.
    have silent : (Segment.run gap).events = [] := if_pos (List.all_eq_true.2 blank)
    rw [cut_run opened nonempty (fun c member => ne_bracket_of_isGap (blank c member)) stops,
      reading_after]
    simp [silent, Cursor.behind, Segment.source]

/-- Behind a segment with an event the next one is looked for from its end. -/
theorem behind_of_events {cursor : Cursor} {segment : Segment} (heard : segment.events ≠ []) :
    cursor.behind segment = ⟨cursor.before ++ segment.source, []⟩ :=
  if_neg heard

/-- Reading places each event where the one before it ended. -/
theorem readFrom_eq_reading (opened : List (List Char)) (offset : Nat) (text : List Char) :
    ∀ front, offset = byteLength front →
      readFrom opened offset text = (cut opened text).reading ⟨front, []⟩ := by
  -- The induction follows the reader, which has all of the front behind it.
  have blank := isGap_of_mem_takeWhile
  fun_induction readFrom opened offset text with
  | case1 opened offset text rest =>
    intro front placed
    have silent := reading_cut_gap opened front (blank text) (.inl rest)
    rw [split_gap, rest] at silent
    rw [silent, cut]
    rfl
  | case2 opened offset text tail rest fault found =>
    intro front placed
    have silent := reading_cut_gap opened front (blank text) (.inr ⟨tail, rest⟩)
    rw [split_gap, rest] at silent
    rw [silent, cut_fault found, placed]
    rfl
  | case3 opened offset text start tail ahead event content rest found others ih =>
    intro front placed
    have silent := reading_cut_gap opened front (blank text) (.inr ⟨tail, ahead⟩)
    rw [split_gap, ahead, cut_markup found] at silent
    -- The next event is looked for behind the closing bracket.
    have next : start + byteLength content + 2 =
        byteLength (front ++ text.takeWhile isGap ++ '<' :: (content ++ ['>'])) := by
      have bracket : '<'.utf8Size = 1 ∧ '>'.utf8Size = 1 := by decide
      simp only [byteLength_append, byteLength, bracket.1, bracket.2, start, placed]
      omega
    have later : others = (cut (event.openAfter opened) rest).reading
        ⟨front ++ text.takeWhile isGap ++ '<' :: (content ++ ['>']), []⟩ := ih _ next
    rw [silent, reading_after, behind_of_events (by simp [Segment.events]), later, placed]
    rfl
  | case4 opened offset text start first tail other ahead raw others ih =>
    intro front placed
    have events := events_run_text (tail.takeWhile fun c => c != '<') (blank text)
      (not_of_dropWhile_eq_cons ahead)
    -- The next event is looked for at the bracket behind the run.
    have next : start + byteLength raw = byteLength (front ++ (text.takeWhile isGap ++ raw)) := by
      simp only [byteLength_append, start, placed]
      omega
    have later : others = (cut opened (tail.dropWhile fun c => c != '<')).reading
        ⟨front ++ (text.takeWhile isGap ++ raw), []⟩ := ih _ next
    rw [cut_text opened other ahead, reading_after, behind_of_events (by simp [events]), events,
      later, placed]
    simp [Cursor.before, Segment.source, raw]

/-- A segment without an event is nothing but white space. -/
theorem isGap_of_silent {segment : Segment} (silent : segment.events = []) :
    ∀ c ∈ segment.source, isGap c = true := by
  cases segment with
  | run raw =>
    -- A run tells of nothing only if all of it is white space.
    by_cases all : raw.all isGap = true
    · exact List.all_eq_true.1 all
    · simp [Segment.events, all] at silent
  | markup event content => simp [Segment.events] at silent

/-- A segment with an event has a character that is no white space. -/
theorem exists_visible_of_event {segment : Segment} (heard : segment.events ≠ []) :
    ∃ first others, segment.source.dropWhile isGap = first :: others ∧ isGap first = false := by
  cases split : segment.source.dropWhile isGap with
  | cons first others => exact ⟨first, others, rfl, not_of_dropWhile_eq_cons split⟩
  | nil =>
    -- A run of nothing but white space has no event, and markup begins with a bracket.
    cases segment with
    | run raw =>
      have all : raw.all isGap = true :=
        List.all_eq_true.2 (List.dropWhile_eq_nil_iff.1 split)
      exact absurd (if_pos all) heard
    | markup event content =>
      have bracket : isGap '<' = false := by decide
      simp [Segment.source, bracket] at split

/-- In front of what comes behind a segment stands the segment too. -/
theorem before_behind (cursor : Cursor) (segment : Segment) :
    (cursor.behind segment).before = cursor.before ++ segment.source := by
  unfold Cursor.behind
  split <;> simp [Cursor.before]

/-- Behind a segment still nothing but white space is passed over. -/
theorem blank_behind {cursor : Cursor} (blank : ∀ c ∈ cursor.passed, isGap c = true)
    (segment : Segment) : ∀ c ∈ (cursor.behind segment).passed, isGap c = true := by
  unfold Cursor.behind
  split
  · -- A segment without an event is white space too.
    rename_i silent
    intro c member
    rcases List.mem_append.1 member with earlier | later
    · exact blank c earlier
    · exact isGap_of_silent silent c later
  · exact fun c member => nomatch member

/-- All segments in front stand in front of what comes behind them. -/
theorem before_foldl_behind (segments : List Segment) (cursor : Cursor) :
    (segments.foldl Cursor.behind cursor).before =
      cursor.before ++ segments.flatMap Segment.source := by
  induction segments generalizing cursor with
  | nil => simp
  | cons segment rest ih =>
    -- Every segment is put behind what was passed before it.
    rw [List.foldl_cons, ih, before_behind, List.flatMap_cons, List.append_assoc]

/-- Behind segments in a row still nothing but white space is passed over. -/
theorem blank_foldl_behind (segments : List Segment) {cursor : Cursor}
    (blank : ∀ c ∈ cursor.passed, isGap c = true) :
    ∀ c ∈ (segments.foldl Cursor.behind cursor).passed, isGap c = true := by
  -- Behind each segment only white space has been passed.
  induction segments generalizing cursor with
  | nil => exact blank
  | cons segment rest ih => exact ih (blank_behind blank segment)

/-- The places of events stand in the text of their segments, behind white space. -/
theorem stands_of_mem_sitedFrom {segments : List Segment} {cursor : Cursor}
    (blank : ∀ c ∈ cursor.passed, isGap c = true) {sited : Site × Event}
    (member : sited ∈ sitedFrom cursor segments) :
    (∀ c ∈ sited.1.passed, isGap c = true) ∧
      (∃ first others, sited.1.own = first :: others ∧ isGap first = false) ∧
      ∃ rest, cursor.before ++ segments.flatMap Segment.source =
        sited.1.before ++ sited.1.own ++ rest := by
  -- The induction is on the segments, for every place where they may begin.
  induction segments generalizing cursor with
  | nil => cases member
  | cons segment rest ih =>
    rcases List.mem_append.1 member with here | later
    · obtain ⟨event, among, rfl⟩ := List.mem_map.1 here
      refine ⟨?_, exists_visible_of_event (List.ne_nil_of_mem among), ?_⟩
      · intro c inside
        rcases List.mem_append.1 inside with earlier | front
        · exact blank c earlier
        · exact isGap_of_mem_takeWhile _ c front
      · refine ⟨rest.flatMap Segment.source, ?_⟩
        -- The segment is its white space in front and what is read.
        calc cursor.before ++ (segment :: rest).flatMap Segment.source
          _ = cursor.before ++ (segment.source.takeWhile isGap ++ segment.source.dropWhile isGap ++
              rest.flatMap Segment.source) := by rw [split_gap, List.flatMap_cons]
          _ = _ := by simp [Cursor.site, Cursor.before]
    · obtain ⟨passed, visible, behind, text⟩ := ih (blank_behind blank segment) later
      refine ⟨passed, visible, behind, ?_⟩
      rw [← text, before_behind, List.flatMap_cons, List.append_assoc]

/-- At the front of a text no line feed is counted. -/
theorem lineFeedsBefore_zero (text : List Char) : lineFeedsBefore text 0 = 0 := by
  cases text <;> simp [lineFeedsBefore]

/-- A line feed of a text is its first character or one of the others. -/
theorem forall_feed_cons {holds : List Char → Prop} {c : Char} {rest : List Char} :
    (∀ before behind, c :: rest = before ++ '\n' :: behind → holds behind) ↔
      (c = '\n' → holds rest) ∧
        ∀ before behind, rest = before ++ '\n' :: behind → holds behind := by
  constructor
  · intro all
    refine ⟨?_, ?_⟩
    · rintro rfl
      exact all [] rest rfl
    · rintro before behind rfl
      exact all (c :: before) behind rfl
  · rintro ⟨first, others⟩ before behind split
    -- The line feed is the first character, or it stands in the rest.
    cases before with
    | nil =>
      obtain ⟨same, rfl⟩ := List.cons.inj split
      exact first same
    | cons _ inner => exact others inner behind (List.cons.inj split).2

/--
Up to some bytes in front of the place where a second part begins, no more line feeds are counted
than the first part has, and all of these exactly if none of them is among the bytes left out.
-/
theorem lineFeedsBefore_sub (front more : List Char) (lost : Nat) :
    lineFeedsBefore (front ++ more) (byteLength front - lost) ≤ front.count '\n' ∧
      (lineFeedsBefore (front ++ more) (byteLength front - lost) = front.count '\n' ↔
        ∀ before behind, front = before ++ '\n' :: behind → lost ≤ byteLength behind) := by
  induction front with
  | nil => simp [byteLength, lineFeedsBefore_zero]
  | cons c rest ih =>
    by_cases near : byteLength (c :: rest) ≤ lost
    · -- All of the first part is left out, so it has to be without a line feed.
      rw [Nat.sub_eq_zero_of_le near, lineFeedsBefore_zero]
      refine ⟨Nat.zero_le _, ?_⟩
      constructor
      · rintro none before behind split
        have member : '\n' ∈ c :: rest := by simp [split]
        exact absurd member (List.count_eq_zero.1 none.symm)
      · intro far
        refine (List.count_eq_zero.2 fun member => ?_).symm
        obtain ⟨before, behind, split⟩ := List.append_of_mem member
        have bound := far before behind split
        have wide : '\n'.utf8Size = 1 := by decide
        rw [split] at near
        simp only [byteLength_append, byteLength, wide] at near
        omega
    · -- The first character is counted, and the others are as far from the end as before.
      have start : byteLength (c :: rest) - lost ≠ 0 := by omega
      have next : byteLength (c :: rest) - lost - c.utf8Size = byteLength rest - lost := by
        simp only [byteLength]
        omega
      have here : c = '\n' → lost ≤ byteLength rest := by
        rintro rfl
        have wide : '\n'.utf8Size = 1 := by decide
        simp only [byteLength, wide] at near
        omega
      obtain ⟨most, complete⟩ := ih
      rw [forall_feed_cons, ← complete, List.cons_append, lineFeedsBefore, if_neg start, next,
        List.count_cons]
      simp only [beq_iff_eq]
      refine ⟨by omega, ?_⟩
      constructor
      · intro same
        exact ⟨here, by omega⟩
      · rintro ⟨-, same⟩
        omega

/-- In a text with a byte order mark the line feeds of its markup begin three bytes later. -/
theorem lineFeedsBefore_content (content : String) (offset : Nat) :
    lineFeedsBefore content.toList offset =
      lineFeedsBefore (markupOf content) (offset - markBytes content) := by
  unfold markupOf markBytes
  split
  · rename_i marked
    -- The mark itself is no line feed.
    obtain ⟨rest, split⟩ : ∃ rest, content.toList = '\ufeff' :: rest :=
      List.head?_eq_some_iff.1 marked
    rw [split, List.tail_cons, lineFeedsBefore]
    split
    · rename_i start
      rw [start, Nat.zero_sub, lineFeedsBefore_zero]
    · simp
  · rw [Nat.sub_zero]

/-- The line told for a place is no later than its own, and the same one in just one case. -/
theorem told_le_line {content : String} {site : Site} (stands : site.StandsIn content) :
    site.told content ≤ site.line ∧
      (site.told content = site.line ↔ site.Even content) := by
  obtain ⟨rest, text⟩ := stands.text
  have whole : markupOf content = site.front ++ (site.passed ++ site.own ++ rest) := by
    simpa [Cursor.before] using text
  obtain ⟨most, complete⟩ := lineFeedsBefore_sub site.front (site.passed ++ site.own ++ rest)
    (markBytes content)
  rw [← whole, ← lineFeedsBefore_content] at most complete
  -- What is missed are line feeds of the front, and all that were passed over.
  have counted : site.before.count '\n' = site.front.count '\n' + site.passed.count '\n' := by
    rw [Cursor.before, List.count_append]
  simp only [Cursor.told, lineAt, Cursor.line, counted]
  refine ⟨by omega, ?_⟩
  constructor
  · intro same
    exact ⟨List.count_eq_zero.1 (by omega), complete.1 (by omega)⟩
  · rintro ⟨passed, front⟩
    have none := List.count_eq_zero.2 passed
    have all := complete.2 front
    omega

/-- The line that a defect is told with; what is wrong with a whole element is told without one. -/
def Defect.line? : Defect → Option Nat
  | .tagAttribute line _ => some line
  | .attributeValue line _ _ => some line
  | .characterData line _ => some line
  | .textOutsideRoot line => some line
  | .unreadable line _ => some line
  -- What is about whole elements is told without a line.
  | .secondRoot _ => none
  | .unclosed _ => none
  | .missingRoot => none

/-- The wording of a defect opens with its line. -/
theorem Defect.message_of_line {defect : Defect} {line : Nat} (told : defect.line? = some line) :
    ∃ wording, defect.message = onLine line wording := by
  cases defect <;> cases told <;> exact ⟨_, rfl⟩

/-- A defect of an event is told with the line of the event, or with none. -/
theorem line_of_mem_defects {line number : Nat} {standing : Standing} {event : Event}
    {defect : Defect} (member : defect ∈ event.defects line standing)
    (told : defect.line? = some number) : number = line := by
  cases inEvent_of_mem_defects member <;> cases told <;> rfl

/-- Reporting of the images of items is reporting of the items. -/
theorem report_map {σ τ : Type} (image : σ → τ) (event : τ → Event) (line : τ → Nat)
    (standing : Standing) (items : List σ) :
    report event line standing (items.map image) =
      (report (event ∘ image) (line ∘ image) standing items).map fun told =>
        (image told.1, told.2) := by
  -- What counts in front of an event depends on the events only.
  induction items generalizing standing with
  | nil => rfl
  | cons first rest ih => simp [report, ih, Function.comp_def]

/-- The events of a text, each with its place. -/
def sitedOf (content : String) : List (Site × Event) :=
  sitedFrom {} (cut [] (markupOf content)).segments

/-- The fault that ended the reading of a text, with the place of what cannot be read. -/
def sitedFault? (content : String) : Option (Site × SyntaxFault) :=
  let cutting := cut [] (markupOf content)
  cutting.fault.map fun fault =>
    (⟨cutting.segments.foldl Cursor.behind {}, cutting.rest⟩, fault)

/-- The defects of the events of a text and the fault behind them, each with its place. -/
def siteReport (content : String) : List (Site × Defect) :=
  let found := report (·.2) (fun sited => sited.1.told content) {} (sitedOf content)
  found.map (fun told => (told.1.1, told.2)) ++
    (sitedFault? content).toList.map fun ended =>
      (ended.1, .unreadable (ended.1.told content) ended.2)

/-- What is wrong with a text is what is told of its places, and the elements left open. -/
theorem defectsOf_eq_siteReport (content : String) :
    defectsOf content = (siteReport content).map (·.2) ++
      (leftOpen content).map fun name => .unclosed (String.ofList name) := by
  have read : readEvents (markupOf content) = (cut [] (markupOf content)).reading {} :=
    readFrom_eq_reading [] 0 (markupOf content) [] rfl
  -- Events are told by their places, which the reader knows by their offsets only.
  have events : (eventReport content).map (·.2) =
      (report (·.2) (fun sited => sited.1.told content) {} (sitedOf content)).map (·.2) := by
    rw [eventReport, read, Cutting.reading, report_map, List.map_map]
    rfl
  have fault : faultDefect? content = (sitedFault? content).map fun ended =>
      .unreadable (ended.1.told content) ended.2 := by
    rw [faultDefect?, read, Cutting.reading, sitedFault?, Option.map_map, Option.map_map]
    rfl
  have ended : (faultDefect? content).toList = ((sitedFault? content).toList.map fun ended =>
      ((ended.1, .unreadable (ended.1.told content) ended.2) : Site × Defect)).map (·.2) := by
    rw [fault, Option.toList_map, List.map_map]
    rfl
  have met : (siteReport content).map (·.2) =
      (eventReport content).map (·.2) ++ (faultDefect? content).toList := by
    rw [events, ended, siteReport, List.map_append, List.map_map]
    rfl
  rw [defectsOf, met]

/-- Cutting is ended by a fault in front of a bracket. -/
theorem rest_of_fault {opened : List (List Char)} {text : List Char} {fault : SyntaxFault}
    (failed : (cut opened text).fault = some fault) :
    ∃ tail, (cut opened text).rest = '<' :: tail := by
  -- Only markup can be at fault, so the rest begins with its bracket.
  fun_induction cut opened text with
  | case1 => cases failed
  | case2 opened tail => exact ⟨tail, rfl⟩
  | case3 opened tail event content rest found ih => exact ih failed
  | case4 opened first tail _ ih => exact ih failed

/-- The place of a fault stands in its text. -/
theorem stands_of_sitedFault {content : String} {ended : Site × SyntaxFault}
    (found : sitedFault? content = some ended) : ended.1.StandsIn content := by
  obtain ⟨fault, failed, rfl⟩ := Option.map_eq_some_iff.1 found
  obtain ⟨tail, rest⟩ := rest_of_fault failed
  refine ⟨?_, ⟨'<', tail, rest, by decide⟩, [], ?_⟩
  · exact blank_foldl_behind _ fun c member => nomatch member
  · -- All segments are in front of the fault.
    have source := cut_source [] (markupOf content)
    rw [List.append_nil]
    exact source.symm.trans (congrArg (· ++ _) (before_foldl_behind _ {}).symm)

/-- What is told of a text is told of a place in it, with the line that reading had come to. -/
theorem stands_of_mem_siteReport {content : String} {site : Site} {defect : Defect}
    (member : (site, defect) ∈ siteReport content) :
    site.StandsIn content ∧
      ∀ line, defect.line? = some line → line = site.told content := by
  -- It is told of an event, or of the fault behind all events.
  rcases List.mem_append.1 member with met | ended
  · obtain ⟨⟨sited, _⟩, reported, same⟩ := List.mem_map.1 met
    cases same
    obtain ⟨among, there, inEvent⟩ := mem_report reported
    have nothing : ∀ c ∈ ({} : Cursor).passed, isGap c = true := fun c inside => nomatch inside
    obtain ⟨blank, visible, behind, text⟩ := stands_of_mem_sitedFrom nothing among
    refine ⟨⟨blank, visible, behind ++ (cut [] (markupOf content)).rest, ?_⟩, ?_⟩
    · -- The segments and what is left behind them are the text.
      have source := cut_source [] (markupOf content)
      rw [← List.append_assoc, ← text]
      exact source.symm
    · exact fun line told => line_of_mem_defects inEvent told
  · obtain ⟨found, among, same⟩ := List.mem_map.1 ended
    cases same
    refine ⟨stands_of_sitedFault (Option.mem_toList.1 among), ?_⟩
    intro line told
    cases told
    rfl

/-- A text that is read as no element is no document, for the same defects. -/
theorem Document.parse_of_readRoot (path : Path) {content : String} {defects : List Defect}
    (read : readRoot content = .error defects) :
    Document.parse path content = .error (.malformed path (defects.map Defect.message)) := by
  simp only [Document.parse, read]

/--
A text that is no document is refused for the defects of its places in order and the elements left
open, or else for having no element. A line is told for a place only, and it is the one from which
the event there was looked for: never a later line than that of its own first character, and the
same exactly if no line feed was passed over on the way to it, and none stands so close in front
that the bytes of a byte order mark push it behind the offset up to which lines are counted.
-/
theorem Document.line_told_is_where_the_search_began {path : Path} {content : String}
    {error : ConfigError} (refused : Document.parse path content = .error error) :
    (∃ told, error = .malformed path (told.map Defect.message) ∧
      (told = (siteReport content).map (·.2) ++
          (leftOpen content).map (fun name => .unclosed (String.ofList name)) ∨
        told = [.missingRoot])) ∧
      ∀ site defect, (site, defect) ∈ siteReport content →
        site.StandsIn content ∧
          ∀ line, defect.line? = some line →
            (∃ wording, defect.message = onLine line wording) ∧
              line = lineAt content.toList (byteLength site.front) ∧
              line ≤ site.line ∧ (line = site.line ↔ site.Even content) := by
  refine ⟨?_, ?_⟩
  · -- A text without any defect but that no element is there is refused for that alone.
    rw [← defectsOf_eq_siteReport]
    rcases readRoot_cases content with ⟨_, read⟩ | ⟨_, _, read⟩ | ⟨_, _, root, read⟩
    · rw [parse_of_readRoot path read] at refused
      exact ⟨_, (Except.error.inj refused).symm, .inl rfl⟩
    · rw [parse_of_readRoot path read] at refused
      exact ⟨_, (Except.error.inj refused).symm, .inr rfl⟩
    · simp only [Document.parse, read] at refused
      cases refused
  · intro site defect member
    obtain ⟨stands, lines⟩ := stands_of_mem_siteReport member
    refine ⟨stands, ?_⟩
    intro line told
    obtain rfl := lines line told
    exact ⟨Defect.message_of_line told, rfl, told_le_line stands⟩

/-- A tag with a bad attribute, on a new line behind character data. -/
def tagBehindData : String :=
  "<a>x\n<b c/></a>"

/-- The place of that tag: the line feed belongs to the character data in front. -/
def siteBehindData : Site :=
  ⟨⟨"<a>x\n".toList, []⟩, "<b c/>".toList⟩

/-- Behind character data the line told is that of the tag. -/
theorem Document.line_told_behind_data :
    Document.parse ⟨"doc.xml"⟩ tagBehindData =
        .error (.malformed ⟨"doc.xml"⟩ [(Defect.tagAttribute 2 (.keyWithoutValue 3)).message]) ∧
      siteBehindData.StandsIn tagBehindData ∧ siteBehindData.line = 2 ∧
      siteBehindData.Even tagBehindData := by
  have read : readRoot tagBehindData = .error [.tagAttribute 2 (.keyWithoutValue 3)] := by
    decide +kernel
  have parsed := Document.parse_of_readRoot ⟨"doc.xml"⟩ read
  have reported : (siteBehindData, Defect.tagAttribute 2 (.keyWithoutValue 3)) ∈
      siteReport tagBehindData := by decide +kernel
  have line : siteBehindData.line = 2 := by decide +kernel
  obtain ⟨_, places⟩ := Document.line_told_is_where_the_search_began parsed
  obtain ⟨stands, lines⟩ := places siteBehindData _ reported
  obtain ⟨_, _, _, right⟩ := lines 2 rfl
  -- The line feed stands inside character data, so nothing is passed over unseen.
  exact ⟨parsed, stands, line, right.1 line.symm⟩

/-- The same tag right behind the line feed after another one. -/
def tagBehindTag : String :=
  "<a>\n<b x/></a>"

/-- Behind another tag, or in a text with a byte order mark, the line told may be too early. -/
theorem Document.line_told_behind_tag_is_early :
    Document.parse ⟨"doc.xml"⟩ tagBehindTag =
        .error (.malformed ⟨"doc.xml"⟩ [(Defect.tagAttribute 1 (.keyWithoutValue 3)).message]) ∧
      siteReport tagBehindTag =
        [(⟨⟨"<a>".toList, ['\n']⟩, "<b x/>".toList⟩, .tagAttribute 1 (.keyWithoutValue 3))] ∧
      (⟨"<a>".toList, ['\n']⟩ : Cursor).line = 2 ∧
      siteReport ("\ufeff" ++ tagBehindData) =
        [(siteBehindData, .tagAttribute 1 (.keyWithoutValue 3))] ∧
      siteBehindData.line = 2 := by
  have read : readRoot tagBehindTag = .error [.tagAttribute 1 (.keyWithoutValue 3)] := by
    -- The line feed stands between two tags, where no event tells of it.
    decide +kernel
  refine ⟨Document.parse_of_readRoot ⟨"doc.xml"⟩ read, ?_⟩
  decide +kernel

end BeanWiring
