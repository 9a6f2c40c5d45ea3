import BeanWiring.Text.Blank
import BeanWiring.Text.Offset
import BeanWiring.Markup.Tag

/-!
The events of a markup text, in document order.

White space before markup is skipped, text is cut at its end,
and end tags are matched with the tags they close.
-/

namespace BeanWiring

/-- The kinds of markup that a reader finds unfinished. -/
inductive Construct where
  | instruction
  | comment
  | doctype
  | verbatim
  | tag
deriving DecidableEq, Repr

/-- The reasons for which reading stops before the end of the text. -/
inductive SyntaxFault where
  | unknownMarkup
  | unclosed (construct : Construct)
  | mismatchedEnd (expected found : String)
  | unmatchedEnd (found : String)
  | namelessDoctype
deriving DecidableEq, Repr

/-- What an unfinished construct is called, with the mark that would end it. -/
def Construct.message : Construct → String
  | .instruction => "processing instruction or xml declaration not closed: `?>`"
  | .comment => "comment not closed: `-->`"
  | .doctype => "DOCTYPE not closed: `>`"
  | .verbatim => "CDATA not closed: `]]>`"
  | .tag => "tag not closed: `>`"

/-- The wording of a fault that ends reading. -/
def SyntaxFault.message : SyntaxFault → String
  | .unknownMarkup => "syntax error: unknown or missed symbol in markup"
  | .unclosed construct => s!"syntax error: {construct.message} not found before end of input"
  | .mismatchedEnd expected found =>
    s!"ill-formed document: expected `</{expected}>`, but `</{found}>` was found"
  | .unmatchedEnd found =>
    s!"ill-formed document: close tag `</{found}>` does not match any open tag"
  | .namelessDoctype =>
    "ill-formed document: `<!DOCTYPE>` declaration does not contain a name of a document type"

/-- One piece of a markup text. -/
inductive Event where
  /-- A tag that opens an element. -/
  | opened (tag : Tag)
  /-- A tag that is a whole element. -/
  | empty (tag : Tag)
  /-- The end tag of the innermost open element. -/
  | closed
  /-- Character data, whose references are still to be replaced. -/
  | text (raw : List Char)
  /-- Character data that is taken as it is. -/
  | verbatim (raw : List Char)
  /--
  A comment, a processing instruction or a document type, which says nothing about the elements.
  -/
  | aside
deriving DecidableEq, Repr

/-- An event or a fault together with the byte offset from which it was looked for. -/
structure Placed (α : Type) where
  offset : Nat
  value : α
deriving DecidableEq, Repr

/-- The events of a text up to its end, or up to the fault that ended reading. -/
structure Reading where
  events : List (Placed Event)
  fault : Option (Placed SyntaxFault)
deriving DecidableEq, Repr

/--
Markup runs to the first closing bracket that the characters before it allow.

These are gathered in reverse, so that the condition sees the nearest first.
-/
def closeMarkup (allows : List Char → Bool) (before : List Char) :
    List Char → Option (List Char × List Char)
  | [] => none
  | c :: rest =>
    if c = '>' && allows before then some (before.reverse, rest)
    else closeMarkup allows (c :: before) rest

/-- What closing a markup leaves is shorter than what it was looked for in. -/
theorem closeMarkup_shorter {allows : List Char → Bool} {before text content rest : List Char}
    (closed : closeMarkup allows before text = some (content, rest)) :
    rest.length < text.length := by
  induction text generalizing before with
  | nil => simp [closeMarkup] at closed
  | cons c tail ih =>
    simp only [closeMarkup] at closed
    split at closed
    · -- The bracket is here, and the rest is the tail.
      simp only [Option.some.injEq, Prod.mk.injEq] at closed
      simp [closed.2]
    · exact Nat.lt_succ_of_lt (ih closed)

/-- A bracket inside a quoted value does not close a tag; each quote is closed by its own kind. -/
def quoteAfter (c : Char) (quote : Option Char) : Option Char :=
  match quote with
  | none => if c = '"' ∨ c = '\'' then some c else none
  | some q => if c = q then none else some q

/-- Whether all quotes of a tag are closed, its characters being given in reverse. -/
def outsideQuotes (before : List Char) : Bool :=
  -- The fold starts at the last of the list, which is the first of the tag.
  (before.foldr quoteAfter none).isNone

/-- Whether a text, given in reverse, ends with two characters of a kind. -/
def endsTwice (c : Char) (before : List Char) : Bool :=
  before.take 2 == [c, c]

/-- Whether a tag's name is met by the front of a text, in either case for letters. -/
def startsWithWord (word text : List Char) : Bool :=
  (text.take word.length).map Char.toUpper == word

/--
Reads markup up to its closing bracket: the event it is, the characters before the bracket,
and the rest.
-/
def readClosed (construct : Construct) (allows : List Char → Bool)
    (event : List Char → Except SyntaxFault Event) (text : List Char) :
    Except SyntaxFault (Event × List Char × List Char) :=
  match closeMarkup allows [] text with
  | none => .error (.unclosed construct)
  | some (content, rest) => (event content).map fun event => (event, content, rest)

/-- Markup takes at least its closing bracket. -/
theorem readClosed_shorter {construct : Construct} {allows : List Char → Bool}
    {event : List Char → Except SyntaxFault Event} {text content rest : List Char} {found : Event}
    (read : readClosed construct allows event text = .ok (found, content, rest)) :
    rest.length < text.length := by
  unfold readClosed at read
  split at read
  · simp at read
  · rename_i inner behind closed
    -- The event is made of the characters before the bracket and leaves the rest alone.
    cases made : event inner with
    | error fault => simp [made, Except.map] at read
    | ok event' =>
      simp only [made, Except.map, Except.ok.injEq, Prod.mk.injEq] at read
      obtain ⟨-, -, rfl⟩ := read
      exact closeMarkup_shorter closed

/-- Character data that is taken as it is stands between two square brackets on each side. -/
def verbatimEvent (content : List Char) : Except SyntaxFault Event :=
  -- Nine characters open the section, the angle bracket among them, and two close it.
  if content.take 8 == ['!', '[', 'C', 'D', 'A', 'T', 'A', '['] then
    .ok (.verbatim ((content.drop 8).take (content.length - 10)))
  else .error (.unclosed .verbatim)

/-- A comment begins with two marks. -/
def commentEvent (content : List Char) : Except SyntaxFault Event :=
  if content.take 3 == ['!', '-', '-'] then .ok .aside else .error (.unclosed .comment)

/-- A document type has its word, in either case, and something after it. -/
def doctypeEvent (content : List Char) : Except SyntaxFault Event :=
  if !startsWithWord ['!', 'D', 'O', 'C', 'T', 'Y', 'P', 'E'] content then
    .error (.unclosed .doctype)
  else if (content.drop 8).all isGap then .error .namelessDoctype
  else .ok .aside

/-- The question mark that opens an instruction must not be the one that closes it. -/
def instructionEvent (content : List Char) : Except SyntaxFault Event :=
  if content.length > 1 then .ok .aside else .error (.unclosed .instruction)

/-- The name in an end tag: white space after it is cut, unless there is nothing else. -/
def endName (content : List Char) : List Char :=
  if content.all isGap then content else trimEnd isGap content

/-- An end tag closes the innermost open element and has to name it. -/
def endEvent (opened : List (List Char)) (content : List Char) : Except SyntaxFault Event :=
  let name := endName content
  match opened with
  | [] => .error (.unmatchedEnd (String.ofList name))
  | innermost :: _ =>
    if name = innermost then .ok .closed
    else .error (.mismatchedEnd (String.ofList innermost) (String.ofList name))

/-- A slash at the front makes an end tag, and one at the back a tag that is a whole element. -/
def tagEvent (opened : List (List Char)) (content : List Char) : Except SyntaxFault Event :=
  match content with
  | '/' :: name => endEvent opened name
  | _ =>
    if content.getLast? = some '/' then .ok (.empty ⟨content.dropLast⟩) else .ok (.opened ⟨content⟩)

/--
Reads the markup after an opening bracket: its event, the characters between the brackets,
and the rest.
-/
def readMarkup (opened : List (List Char)) (text : List Char) :
    Except SyntaxFault (Event × List Char × List Char) :=
  match text with
  | '!' :: '[' :: _ => readClosed .verbatim (endsTwice ']') verbatimEvent text
  | '!' :: '-' :: _ =>
    -- The two marks at the front of a comment and the two at its back must not overlap.
    readClosed .comment (fun before => before.length ≥ 5 && endsTwice '-' before) commentEvent text
  | '!' :: c :: _ =>
    -- Brackets inside a document type are balanced.
    if c = 'D' ∨ c = 'd' then
      readClosed .doctype (fun before => before.count '<' == before.count '>') doctypeEvent text
    else .error .unknownMarkup
  | ['!'] => .error .unknownMarkup
  | '?' :: _ =>
    readClosed .instruction (fun before => before.head? == some '?') instructionEvent text
  | _ => readClosed .tag outsideQuotes (tagEvent opened) text

/-- Whatever the markup is, it takes at least its closing bracket. -/
theorem readMarkup_shorter {opened : List (List Char)} {text content rest : List Char}
    {event : Event} (found : readMarkup opened text = .ok (event, content, rest)) :
    rest.length < text.length := by
  unfold readMarkup at found
  split at found
  · exact readClosed_shorter found
  · exact readClosed_shorter found
  · -- Of the other declarations only a document type is read.
    split at found
    · exact readClosed_shorter found
    · simp at found
  · simp at found
  · exact readClosed_shorter found
  · exact readClosed_shorter found

/-- The names of the open elements after an event, the innermost first. -/
def Event.openAfter (opened : List (List Char)) : Event → List (List Char)
  | .opened tag => tag.name :: opened
  | .closed => opened.tail
  | _ => opened

/-- Reads the events of a text that begins at an offset, inside the given open elements. -/
def readFrom (opened : List (List Char)) (offset : Nat) (text : List Char) : Reading :=
  -- An event is placed before the white space in front of it, and its length is counted behind
  -- that.
  let start := offset + byteLength (text.takeWhile isGap)
  match _front : text.dropWhile isGap with
  | [] => ⟨[], none⟩
  | '<' :: tail =>
    match found : readMarkup opened tail with
    | .error fault => ⟨[], some ⟨offset, fault⟩⟩
    | .ok (event, content, rest) =>
      let others := readFrom (event.openAfter opened) (start + byteLength content + 2) rest
      { others with events := ⟨offset, event⟩ :: others.events }
  | first :: tail =>
    let raw := first :: tail.takeWhile fun c => c != '<'
    let others := readFrom opened (start + byteLength raw) (tail.dropWhile fun c => c != '<')
    { others with events := ⟨offset, .text (trimEnd isGap raw)⟩ :: others.events }
termination_by text.length
decreasing_by
  all_goals
    have inFront := dropWhile_length_le isGap text
    simp only [_front, List.length_cons] at inFront
  · have shorter := readMarkup_shorter found
    omega
  · have inText := dropWhile_length_le (fun c => c != '<') tail
    omega

/-- Reads a whole text. -/
def readEvents (text : List Char) : Reading :=
  readFrom [] 0 text

end BeanWiring
