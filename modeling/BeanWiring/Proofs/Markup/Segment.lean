import BeanWiring.Markup.Document
import Mathlib.Data.List.TakeWhile

/-!
A markup text cut into segments: runs of character data with all their white space, and markup.

Cutting loses nothing of the text, and reading gives the events of the segments in order: each
run without the white space at its two ends, and none for a run that is nothing else.
-/

namespace BeanWiring

/-- A part of a markup text: a run of character data with all its white space, or one markup. -/
inductive Segment where
  | run (raw : List Char)
  /-- Markup of which the reader makes an event, with the characters between its brackets. -/
  | markup (event : Event) (content : List Char)
deriving DecidableEq, Repr

namespace Segment

/-- The characters that a segment takes up in the text. -/
def source : Segment → List Char
  | run raw => raw
  | markup _ content => '<' :: (content ++ ['>'])

/-- The events that a segment is read as: none for a run of nothing but white space. -/
def events : Segment → List Event
  | run raw => if raw.all isGap then [] else [.text (trimBoth isGap raw)]
  | markup event _ => [event]

end Segment

/-- The segments of a text, and what is left of it behind a fault. -/
structure Cutting where
  segments : List Segment
  fault : Option SyntaxFault
  rest : List Char
deriving DecidableEq, Repr

/-- The cutting with a segment in front. -/
def Cutting.after (segment : Segment) (cutting : Cutting) : Cutting :=
  { cutting with segments := segment :: cutting.segments }

/-- Cuts a text inside the given open elements into segments, up to the first fault. -/
def cut (opened : List (List Char)) (text : List Char) : Cutting :=
  match text with
  | [] => ⟨[], none, []⟩
  | '<' :: tail =>
    match _found : readMarkup opened tail with
    | .error fault => ⟨[], some fault, '<' :: tail⟩
    | .ok (event, content, rest) =>
      (cut (event.openAfter opened) rest).after (.markup event content)
  -- Character data goes up to the next bracket.
  | first :: tail =>
    (cut opened (tail.dropWhile fun c => c != '<')).after
      (.run (first :: tail.takeWhile fun c => c != '<'))
termination_by text.length
decreasing_by
  · have shorter := readMarkup_shorter _found
    simp only [List.length_cons]
    omega
  · have inText := dropWhile_length_le (fun c => c != '<') tail
    simp only [List.length_cons]
    omega

/-- Closing a markup takes its content and the closing bracket off the text. -/
theorem closeMarkup_source {allows : List Char → Bool} {before text content rest : List Char}
    (closed : closeMarkup allows before text = some (content, rest)) :
    before.reverse ++ text = content ++ '>' :: rest := by
  -- The characters passed on the way are gathered in front.
  induction text generalizing before with
  | nil => simp [closeMarkup] at closed
  | cons c tail ih =>
    simp only [closeMarkup] at closed
    split at closed
    · rename_i here
      simp only [Bool.and_eq_true, decide_eq_true_eq] at here
      obtain ⟨rfl, rfl⟩ : before.reverse = content ∧ tail = rest := by simpa using closed
      rw [here.1]
    · simpa using ih closed

/-- Reading up to a closing bracket takes the content and the bracket off the text. -/
theorem readClosed_source {construct : Construct} {allows : List Char → Bool}
    {event : List Char → Except SyntaxFault Event} {text content rest : List Char} {found : Event}
    (read : readClosed construct allows event text = .ok (found, content, rest)) :
    text = content ++ '>' :: rest ∧ event content = .ok found := by
  -- Markup that is not closed is refused, so it was closed here.
  simp only [readClosed] at read
  split at read
  · cases read
  · rename_i inner behind closed
    have source := closeMarkup_source closed
    cases made : event inner with
    | error fault => simp [made, Except.map] at read
    | ok event' =>
      simp only [made, Except.map, Except.ok.injEq, Prod.mk.injEq] at read
      obtain ⟨rfl, rfl, rfl⟩ := read
      exact ⟨source, made⟩

/-- Reading a markup takes its content and the closing bracket off the text. -/
theorem readMarkup_source {opened : List (List Char)} {text content rest : List Char}
    {event : Event} (read : readMarkup opened text = .ok (event, content, rest)) :
    text = content ++ '>' :: rest := by
  -- Every kind of markup is read up to its own closing bracket.
  unfold readMarkup at read
  split at read
  · exact (readClosed_source read).1
  · exact (readClosed_source read).1
  · split at read
    · exact (readClosed_source read).1
    · cases read
  · cases read
  · exact (readClosed_source read).1
  · exact (readClosed_source read).1

/-- Cutting loses nothing: the segments in order, and then the rest, are the text. -/
theorem cut_source (opened : List (List Char)) (text : List Char) :
    (cut opened text).segments.flatMap Segment.source ++ (cut opened text).rest = text := by
  -- The induction is on the text that is still to be cut.
  fun_induction cut opened text with
  | case1 => rfl
  | case2 => rfl
  | case3 opened tail event content rest found ih =>
    rw [readMarkup_source found]
    simp only [Cutting.after, List.flatMap_cons, Segment.source, List.append_assoc, ih]
    simp
  | case4 opened first tail _ ih =>
    simp only [Cutting.after, List.flatMap_cons, Segment.source, List.append_assoc, ih]
    simp

/-- Without a fault nothing is left of the text. -/
theorem cut_rest {opened : List (List Char)} {text : List Char}
    (sound : (cut opened text).fault = none) : (cut opened text).rest = [] := by
  -- Only a fault ends cutting before the end of the text.
  fun_induction cut opened text with
  | case1 => rfl
  | case2 => cases sound
  | case3 opened tail event content rest found ih => exact ih sound
  | case4 opened first tail _ ih => exact ih sound

/-- A sound markup in front of a text is its first segment. -/
theorem cut_markup {opened : List (List Char)} {tail content rest : List Char} {event : Event}
    (found : readMarkup opened tail = .ok (event, content, rest)) :
    cut opened ('<' :: tail) =
      (cut (event.openAfter opened) rest).after (.markup event content) := by
  -- The same markup cannot be both refused and read.
  rw [cut]
  split
  · rename_i fault failed
    rw [found] at failed
    cases failed
  · rename_i event' content' rest' read
    rw [found] at read
    cases read
    rfl

/-- A markup that cannot be read ends cutting, and is left with all that follows. -/
theorem cut_fault {opened : List (List Char)} {tail : List Char} {fault : SyntaxFault}
    (found : readMarkup opened tail = .error fault) :
    cut opened ('<' :: tail) = ⟨[], some fault, '<' :: tail⟩ := by
  rw [cut]
  -- The text begins with a bracket, so only the outcome of its markup counts.
  split
  · rename_i fault' failed
    rw [found] at failed
    cases failed
    rfl
  · rename_i event content rest read
    rw [found] at read
    cases read

/-- Characters in front of a markup or of the end, no bracket among them, are one segment. -/
theorem cut_run (opened : List (List Char)) {raw rest : List Char} (nonempty : raw ≠ [])
    (free : ∀ c ∈ raw, c ≠ '<') (stops : rest = [] ∨ ∃ tail, rest = '<' :: tail) :
    cut opened (raw ++ rest) = (cut opened rest).after (.run raw) := by
  obtain ⟨first, others, rfl⟩ := List.exists_cons_of_ne_nil nonempty
  have other : first ≠ '<' := free first (List.mem_cons_self ..)
  have inside : ∀ c ∈ others, (c != '<') = true := by
    intro c member
    simpa using free c (List.mem_cons_of_mem _ member)
  -- The run takes all of the characters that are no bracket, and the rest begins with one.
  have taken : (others ++ rest).takeWhile (fun c => c != '<') = others := by
    rw [List.takeWhile_append_of_pos inside]
    rcases stops with rfl | ⟨tail, rfl⟩ <;> simp
  have left : (others ++ rest).dropWhile (fun c => c != '<') = rest := by
    rw [List.dropWhile_append_of_pos inside]
    rcases stops with rfl | ⟨tail, rfl⟩ <;> simp
  rw [List.cons_append, cut, taken, left]
  exact other

/-- No bracket is white space. -/
theorem ne_bracket_of_isGap {c : Char} (gap : isGap c = true) : c ≠ '<' := by
  rintro rfl
  cases gap

/-- What cutting is read as: the events of the segments, and the fault that ended it. -/
def Cutting.told (cutting : Cutting) : List Event × Option SyntaxFault :=
  (cutting.segments.flatMap Segment.events, cutting.fault)

/-- What reading tells, wherever it is told of. -/
def Reading.told (reading : Reading) : List Event × Option SyntaxFault :=
  (reading.events.map (·.value), reading.fault.map (·.value))

/-- White space in front of a markup or of the end is read as nothing. -/
theorem told_cut_gap (opened : List (List Char)) {gap rest : List Char}
    (blank : ∀ c ∈ gap, isGap c = true) (stops : rest = [] ∨ ∃ tail, rest = '<' :: tail) :
    (cut opened (gap ++ rest)).told = (cut opened rest).told := by
  by_cases nonempty : gap = []
  · rw [nonempty, List.nil_append]
  · -- The white space is a run of its own, which has no event.
    rw [cut_run opened nonempty (fun c member => ne_bracket_of_isGap (blank c member)) stops]
    have silent : (Segment.run gap).events = [] := if_pos (List.all_eq_true.2 blank)
    simp [Cutting.told, Cutting.after, silent]

/-- A character that stops the dropping of others is none of them. -/
theorem not_of_dropWhile_eq_cons {inClass : Char → Bool} {text tail : List Char} {first : Char}
    (front : text.dropWhile inClass = first :: tail) : inClass first = false := by
  -- What is dropped ends at the first character outside the class.
  have head := List.head?_dropWhile_not inClass text
  rw [front] at head
  exact head

/-- Behind the white space in front a text goes on with what is no white space. -/
theorem split_gap (text : List Char) : text.takeWhile isGap ++ text.dropWhile isGap = text :=
  List.takeWhile_append_dropWhile

/-- The characters in front of what is no white space are white space. -/
theorem isGap_of_mem_takeWhile (text : List Char) :
    ∀ c ∈ text.takeWhile isGap, isGap c = true :=
  fun _ member => List.mem_takeWhile_imp member

/-- Character data with the white space in front of it is one segment, up to the next bracket. -/
theorem cut_text (opened : List (List Char)) {text tail : List Char} {first : Char}
    (other : first ≠ '<') (front : text.dropWhile isGap = first :: tail) :
    cut opened text = (cut opened (tail.dropWhile fun c => c != '<')).after
      (.run (text.takeWhile isGap ++ first :: tail.takeWhile fun c => c != '<')) := by
  have free : ∀ c ∈ text.takeWhile isGap ++ first :: tail.takeWhile fun c => c != '<',
      c ≠ '<' := by
    intro c member
    rcases List.mem_append.1 member with before | inside
    · exact ne_bracket_of_isGap (isGap_of_mem_takeWhile text c before)
    · rcases List.mem_cons.1 inside with rfl | further
      · exact other
      · simpa using List.mem_takeWhile_imp further
  -- The run ends at the next bracket, or at the end of the text.
  have stops : (tail.dropWhile fun c => c != '<') = [] ∨
      ∃ behind, (tail.dropWhile fun c => c != '<') = '<' :: behind := by
    cases behind : tail.dropWhile fun c => c != '<' with
    | nil => exact .inl rfl
    | cons c further =>
      have bracket : c = '<' := by simpa using not_of_dropWhile_eq_cons behind
      exact .inr ⟨further, by rw [bracket]⟩
  have whole : (text.takeWhile isGap ++ first :: tail.takeWhile fun c => c != '<') ++
      (tail.dropWhile fun c => c != '<') = text := by
    have apart := split_gap text
    rw [front, ← List.takeWhile_append_dropWhile (p := fun c => c != '<') (l := tail)] at apart
    simpa using apart
  rw [← cut_run opened (by simp) free stops, whole]

/-- A run is read as its characters without the white space at its two ends. -/
theorem events_run_text (raw : List Char) {gap : List Char} {first : Char}
    (blank : ∀ c ∈ gap, isGap c = true) (visible : isGap first = false) :
    (Segment.run (gap ++ first :: raw)).events = [.text (trimEnd isGap (first :: raw))] := by
  -- The run is not silent, since its first visible character is there.
  have trimmed : trimBoth isGap (gap ++ first :: raw) = trimEnd isGap (first :: raw) := by
    rw [trimBoth, List.dropWhile_append_of_pos blank, List.dropWhile_cons_of_neg]
    simp [visible]
  rw [Segment.events, trimmed, if_neg]
  simp [visible]

/-- Reading gives the events of the segments, and ends with the fault that ends cutting. -/
theorem told_readFrom (opened : List (List Char)) (offset : Nat) (text : List Char) :
    (readFrom opened offset text).told = (cut opened text).told := by
  -- In all cases the text is its white space in front and what stands behind that.
  have blank := isGap_of_mem_takeWhile
  fun_induction readFrom opened offset text with
  | case1 opened offset text front =>
    have silent := told_cut_gap opened (blank text) (.inl front)
    rw [split_gap, front, cut] at silent
    exact silent.symm
  | case2 opened offset text tail front fault found =>
    have silent := told_cut_gap opened (blank text) (.inr ⟨tail, front⟩)
    rw [split_gap, front] at silent
    rw [silent, cut_fault found]
    rfl
  | case3 opened offset text start tail front event content rest found others ih =>
    have silent := told_cut_gap opened (blank text) (.inr ⟨tail, front⟩)
    rw [split_gap, front, cut_markup found] at silent
    rw [silent]
    simp only [Reading.told, Cutting.told, Prod.mk.injEq] at ih
    simp [Reading.told, Cutting.told, Cutting.after, Segment.events, ih.1, ih.2, others]
  | case4 opened offset text start first tail other front raw others ih =>
    -- The white space in front and the characters up to the next bracket are one run.
    have events := events_run_text (tail.takeWhile fun c => c != '<') (blank text)
      (not_of_dropWhile_eq_cons front)
    rw [cut_text opened other front]
    simp only [Reading.told, Cutting.told, Prod.mk.injEq] at ih
    simp [Reading.told, Cutting.told, Cutting.after, events, ih.1, ih.2, others, raw]

end BeanWiring
