import BeanWiring.Assembly.Value
import BeanWiring.Proofs.Markup.Parsing
import BeanWiring.Proofs.Markup.Reference
import BeanWiring.Proofs.Text.Trimming

/-!
What becomes of the white space in the character data of an element.

Each run of character data, which ends where any markup begins, loses the white space at its own
two ends, and a literal section loses none. Main statement: the text of an element is what is
kept so, and it is the whole character data without the blanks at its ends exactly if no white
space is lost between the first and the last visible character.
-/

namespace BeanWiring

/-- A character of a document, and whether it is still there in the text of its element. -/
structure Letter where
  char : Char
  kept : Bool
deriving DecidableEq, Repr

namespace Segment

/-- The event that a segment would be if no white space were taken off it. -/
def event : Segment → Event
  | run raw => .text raw
  | markup event _ => event

/-- The characters that a segment stands for: at the two ends of a run white space is not kept. -/
def letters : Segment → List Letter
  | run raw =>
    (raw.takeWhile isGap).map (⟨·, false⟩) ++
      ((Event.text (trimBoth isGap raw)).data.map (⟨·, true⟩) ++
        (behindLast isGap raw).map (⟨·, false⟩))
  -- Of markup only verbatim data delivers anything, and then all of it.
  | markup event _ => event.data.map (⟨·, true⟩)

/-- Nothing is spelled by an empty text. -/
theorem data_empty_text : (Event.text []).data = [] := by
  simp [Event.data, unescape_eq_ok_iff.2 Spells.nil]

/-- What is kept of a segment is what its events deliver. -/
theorem kept_letters (segment : Segment) :
    (segment.letters.filter (·.kept)).map (·.char) = segment.events.flatMap Event.data := by
  -- A run keeps what is between its ends, and all other markup keeps all of its data.
  cases segment with
  | run raw =>
    have kept : ((run raw).letters.filter (·.kept)).map (·.char) =
        (Event.text (trimBoth isGap raw)).data := by
      simp [letters, List.filter_map, Function.comp_def]
    rw [kept]
    simp only [events]
    split
    · -- Of white space alone nothing is kept.
      rename_i blank
      rw [trimBoth_eq_within, within_eq_nil (List.all_eq_true.1 blank)]
      exact data_empty_text
    · simp
  | markup event content =>
    simp [letters, events, List.filter_map, Function.comp_def]

/-- No white space is an ampersand. -/
theorem ne_ampersand_of_isGap {c : Char} (gap : isGap c = true) : c ≠ '&' := by
  rintro rfl
  cases gap

/-- A run that can be read without the white space at its ends can be read with it. -/
theorem char_letters {segment : Segment} (sound : ∀ event ∈ segment.events, event.Sound) :
    segment.letters.map (·.char) = segment.event.data := by
  cases segment with
  | markup event content => simp [letters, Segment.event, Function.comp_def]
  | run raw =>
    -- White space is no reference, so the ends of a run spell themselves.
    have inner : ∃ value, unescape (trimBoth isGap raw) = .ok value := by
      simp only [events] at sound
      split at sound
      · rename_i blank
        rw [trimBoth_eq_within, within_eq_nil (List.all_eq_true.1 blank)]
        exact ⟨[], unescape_eq_ok_iff.2 .nil⟩
      · exact sound _ (List.mem_singleton.2 rfl)
    obtain ⟨value, read⟩ := inner
    have front : Spells (raw.takeWhile isGap) (raw.takeWhile isGap) :=
      spells_self fun c member => ne_ampersand_of_isGap (List.mem_takeWhile_imp member)
    have behind : Spells (behindLast isGap raw) (behindLast isGap raw) := by
      refine spells_self fun c member => ne_ampersand_of_isGap ?_
      exact List.mem_takeWhile_imp (List.mem_reverse.1 member)
    -- The three parts of the run are spelled one behind the other.
    have whole := front.append ((unescape_eq_ok_iff.1 read).append behind)
    rw [trimBoth_eq_within, takeWhile_within_behindLast] at whole
    simp [letters, Segment.event, Event.data, read, unescape_eq_ok_iff.2 whole, Function.comp_def]

/-- What is not kept of a segment is white space. -/
theorem isGap_of_not_kept {segment : Segment} {letter : Letter}
    (member : letter ∈ segment.letters) (lost : letter.kept = false) :
    isGap letter.char = true := by
  -- Only at the two ends of a run is anything not kept.
  cases segment with
  | markup event content =>
    obtain ⟨c, _, rfl⟩ := List.mem_map.1 member
    cases lost
  | run raw =>
    simp only [letters, List.mem_append, List.mem_map] at member
    rcases member with ⟨c, front, rfl⟩ | ⟨c, _, rfl⟩ | ⟨c, behind, rfl⟩
    · exact List.mem_takeWhile_imp front
    · cases lost
    · exact List.mem_takeWhile_imp (List.mem_reverse.1 behind)

end Segment

/-- The segments of a text. -/
def segmentsOf (content : String) : List Segment :=
  (cut [] (markupOf content)).segments

/--
The character data written directly inside the element of a number, with all its white space:
what stands between markup with its references replaced, and literal sections as they are.
-/
def writtenIn (number : Nat) (content : String) : List Char :=
  gather Segment.event (fun segment => segment.event.data) (some number) {} (segmentsOf content)

/-- The characters directly inside the element of a number, each with whether it is kept. -/
def lettersIn (number : Nat) (content : String) : List Letter :=
  gather Segment.event Segment.letters (some number) {} (segmentsOf content)

/-- The events of a text are those of its segments. -/
theorem eventsOf_eq (content : String) :
    eventsOf content = (segmentsOf content).flatMap Segment.events :=
  (congrArg Prod.fst (told_cut_markupOf content)).symm

/-- What segments deliver as events is what they deliver one by one. -/
theorem dataIn_events (inside : Option Nat) (tally : Tally) (segments : List Segment) :
    dataIn inside tally (segments.flatMap Segment.events) =
      gather Segment.event (fun segment => segment.events.flatMap Event.data) inside tally
        segments := by
  -- The induction is on the segments, for wherever the document stands.
  induction segments generalizing tally with
  | nil => rfl
  | cons segment rest ih =>
    rw [List.flatMap_cons, gather, ← ih]
    cases segment with
    | markup event content => simp [Segment.events, Segment.event, dataIn, gather]
    | run raw =>
      -- Neither a run nor its event changes where the document stands.
      simp only [Segment.events]
      split
      · simp [Segment.event, Tally.after]
      · simp [Segment.event, Tally.after, dataIn, gather]

/-- What is kept of the characters inside an element is what the events deliver there. -/
theorem kept_lettersIn (number : Nat) (content : String) :
    ((lettersIn number content).filter (·.kept)).map (·.char) =
      dataIn (some number) {} (eventsOf content) := by
  have change := gather_change
    (fun letters : List Letter => (letters.filter (·.kept)).map (·.char)) rfl (by simp)
    Segment.event Segment.letters (some number) {} (segmentsOf content)
  -- Both are gathered along the same events, piece by piece.
  rw [eventsOf_eq, dataIn_events]
  exact change.trans (gather_congr (fun segment _ => segment.kept_letters) _ _)

/-- The characters inside an element of a document are those written there. -/
theorem char_lettersIn {content : String} (sound : ∀ event ∈ eventsOf content, event.Sound)
    (number : Nat) : (lettersIn number content).map (·.char) = writtenIn number content := by
  -- Segment by segment the characters are those of its data.
  have change := gather_change (fun letters : List Letter => letters.map (·.char)) rfl
    (by simp) Segment.event Segment.letters (some number) {} (segmentsOf content)
  have each : ∀ segment ∈ segmentsOf content,
      segment.letters.map (·.char) = segment.event.data := by
    intro segment member
    refine Segment.char_letters fun event among => sound event ?_
    rw [eventsOf_eq]
    exact List.mem_flatMap.2 ⟨segment, member, among⟩
  exact change.trans (gather_congr each _ _)

/-- The characters between the first and the last one that is not blank, both included. -/
def innerLetters (number : Nat) (content : String) : List Letter :=
  within (fun letter => isBlank letter.char) (lettersIn number content)

/-- What is not kept of a text is white space. -/
theorem isBlank_of_not_kept {number : Nat} {content : String} {letter : Letter}
    (member : letter ∈ lettersIn number content) (lost : letter.kept = false) :
    isBlank letter.char = true := by
  obtain ⟨segment, _, delivers⟩ := exists_of_mem_gather member
  -- Only white space around a run is not kept.
  exact isBlank_of_isGap (Segment.isGap_of_not_kept delivers lost)

/-- The kept characters without the blanks at their ends are those kept within. -/
theorem trimBoth_kept (number : Nat) (content : String) :
    trimBoth isBlank (((lettersIn number content).filter (·.kept)).map (·.char)) =
      ((innerLetters number content).filter (·.kept)).map (·.char) := by
  -- All that is not kept is blank, so it may be left out before or after trimming.
  rw [trimBoth_eq_within, within_map, within_filter]
  · rfl
  · exact fun letter member lost => isBlank_of_not_kept member lost

/-- Keeping some characters changes nothing exactly if all of them are kept. -/
theorem map_filter_kept_eq_iff (letters : List Letter) :
    (letters.filter (·.kept)).map (·.char) = letters.map (·.char) ↔
      ∀ letter ∈ letters, letter.kept = true := by
  -- Nothing is left out exactly if the length stays what it was.
  constructor
  · intro same letter member
    have long : (letters.filter (·.kept)).length = letters.length := by
      simpa using congrArg List.length same
    exact List.length_filter_eq_length_iff.1 long letter member
  · intro all
    rw [List.filter_eq_self.2 all]

/-- The element whose text the value of a node is, and the value that is made of it. -/
inductive ValueOfText (node : Element) : Element → (String → Value) → Prop
  | own (unmarked : Marker.of? node = none) (alone : node.child? "value" = none) :
    ValueOfText node node .ofText
  | value {element : Element} (unmarked : Marker.of? node = none)
    (found : node.child? "value" = some element) : ValueOfText node element .ofText
  | code {element : Element} (marked : Marker.of? node = some .code)
    (found : node.child? Marker.code.name = some element) : ValueOfText node element .code

/-- The value of a node is made of the text of an element without the blanks at its ends. -/
theorem extract_of_valueOfText {node element : Element} {make : String → Value}
    (source : ValueOfText node element make) (context : Context) (names : Names) :
    (extract context names node).outcome = .ok (make element.trimmedText) := by
  -- The marker decides which rule reads the node, and the rule takes the text of its element.
  obtain ⟨name, attributes, text, children⟩ := node
  cases source with
  | own unmarked alone => simp [extract, unmarked, Extraction.done, plainValue, alone]
  | value unmarked found => simp [extract, unmarked, Extraction.done, plainValue, found]
  | code marked found => simp [extract, marked, Extraction.done, codeOf, found]

/--
The segments of a document are all of its text. The text of an element is the character data
written directly inside it less the white space at the two ends of each run, and a value read from
it has no blanks at its ends. It is the whole character data without the blanks at its ends
exactly if all characters between the first and the last visible one are kept.
-/
theorem Document.text_is_kept {path : Path} {content : String} {document : Document}
    (parsed : Document.parse path content = .ok document) {number : Nat} {way : List Nat}
    {element : Element} (stands : document.root.located[number]? = some (way, element)) :
    (segmentsOf content).flatMap Segment.source = markupOf content ∧
      writtenIn number content = (lettersIn number content).map (·.char) ∧
      element.text.toList = ((lettersIn number content).filter (·.kept)).map (·.char) ∧
      (element.trimmedText = String.ofList (trimBoth isBlank (writtenIn number content)) ↔
        ∀ letter ∈ innerLetters number content, letter.kept = true) ∧
      ∀ context names node make, ValueOfText node element make →
        (extract context names node).outcome = .ok (make (String.ofList
          (((innerLetters number content).filter (·.kept)).map (·.char)))) := by
  obtain ⟨_, read⟩ := (Document.parse_eq_ok_iff path content document).1 parsed
  obtain ⟨unbroken, sound, _⟩ := (exists_readRoot_iff content).1 ⟨document.root, read⟩
  have written := char_lettersIn sound number
  have text : element.text.toList =
      ((lettersIn number content).filter (·.kept)).map (·.char) := by
    rw [kept_lettersIn]
    exact (denotes_of_readRoot read).texts number way element stands
  have trimmed : element.trimmedText =
      String.ofList (((innerLetters number content).filter (·.kept)).map (·.char)) := by
    rw [Element.trimmedText, trimBlanks, text, trimBoth_kept]
  refine ⟨?_, written.symm, text, ?_, ?_⟩
  · -- Without a fault no rest is left behind the segments.
    have fault : (cut [] (markupOf content)).fault = none := by
      rw [← unbroken]
      exact congrArg Prod.snd (told_cut_markupOf content)
    have source := cut_source [] (markupOf content)
    rw [cut_rest fault, List.append_nil] at source
    exact source
  · rw [trimmed, ← written, trimBoth_eq_within, within_map, String.ofList_inj]
    exact map_filter_kept_eq_iff (innerLetters number content)
  · intro context names node make source
    rw [extract_of_valueOfText source, trimmed]

/-- An expression whose text is cut by a comment and goes on in a literal section. -/
def cutExpression : String :=
  "<property><eval> a <!-- --> + <![CDATA[ b ]]></eval></property>"

/-- The document of that expression. -/
def cutExpressionDocument : Document :=
  ⟨⟨"doc.xml"⟩, ⟨"property", [], "", [⟨"eval", [], "a+ b ", []⟩]⟩⟩

/-- The expression is read as what its runs keep, and the white space beside the comment is lost. -/
theorem Document.text_is_kept_beside_comment :
    Document.parse ⟨"doc.xml"⟩ cutExpression = .ok cutExpressionDocument ∧
      cutExpressionDocument.root.located[1]? = some ([0], ⟨"eval", [], "a+ b ", []⟩) ∧
      writtenIn 1 cutExpression = " a  +  b ".toList ∧
      (extract ⟨"bean", []⟩ {} cutExpressionDocument.root).outcome = .ok (.code "a+ b") := by
  have read : readRoot cutExpression = .ok cutExpressionDocument.root := by decide +kernel
  have parsed : Document.parse ⟨"doc.xml"⟩ cutExpression = .ok cutExpressionDocument :=
    (Document.parse_eq_ok_iff _ _ _).2 ⟨rfl, read⟩
  have stands : cutExpressionDocument.root.located[1]? =
      some ([0], ⟨"eval", [], "a+ b ", []⟩) := by decide +kernel
  -- The value of the property is the text of its code child.
  have source : ValueOfText cutExpressionDocument.root ⟨"eval", [], "a+ b ", []⟩ .code :=
    .code (by decide +kernel) (by decide +kernel)
  obtain ⟨_, _, _, _, value⟩ := Document.text_is_kept parsed stands
  refine ⟨parsed, stands, by decide +kernel, ?_⟩
  rw [value ⟨"bean", []⟩ {} _ _ source]
  decide +kernel

/-- A text whose white space next to a comment is lost, though it stands between letters. -/
def commentBetween : String :=
  "<a>x <!-- --> y</a>"

/-- White space between two pieces of the character data of an element may be lost. -/
theorem Document.white_space_beside_comment_is_lost :
    Document.parse ⟨"doc.xml"⟩ commentBetween = .ok ⟨⟨"doc.xml"⟩, ⟨"a", [], "xy", []⟩⟩ ∧
      (⟨"a", [], "xy", []⟩ : Element).located[0]? = some ([], ⟨"a", [], "xy", []⟩) ∧
      (⟨"a", [], "xy", []⟩ : Element).trimmedText = "xy" ∧
      String.ofList (trimBoth isBlank (writtenIn 0 commentBetween)) = "x  y" := by
  have read : readRoot commentBetween = .ok ⟨"a", [], "xy", []⟩ := by decide +kernel
  -- The blanks beside the comment end a run of text, so they are cut off there.
  refine ⟨(Document.parse_eq_ok_iff _ _ _).2 ⟨rfl, read⟩, ?_, ?_, ?_⟩
  · decide +kernel
  · decide +kernel
  · decide +kernel

end BeanWiring
