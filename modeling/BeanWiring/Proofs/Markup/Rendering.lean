import BeanWiring.Proofs.Markup.Reference
import BeanWiring.Proofs.Markup.Segment
import BeanWiring.Proofs.Markup.Tag
import BeanWiring.Proofs.Text.Trimming

/-!
Tags written out, and what reading makes of their characters: a start has the name and the
attributes that it was written with, in their order, and an end closes the element that it names.
-/

namespace BeanWiring

/-- The characters that may stand behind the first of a name. -/
def isNameChar (c : Char) : Bool :=
  c.isAlphanum || c == '-' || c == '_' || c == '.'

/-- A name begins with a letter and goes on with letters, digits and three marks. -/
structure IsName (name : List Char) : Prop where
  letter : ∃ first ∈ name.head?, first.isAlpha = true
  chars : ∀ c ∈ name, isNameChar c = true

instance (name : List Char) : Decidable (IsName name) :=
  decidable_of_iff (name.head?.any Char.isAlpha = true ∧ name.all isNameChar = true)
    ⟨fun ⟨letter, chars⟩ => ⟨(Option.any_eq_true _ _).1 letter, List.all_eq_true.1 chars⟩,
      fun ⟨letter, chars⟩ => ⟨(Option.any_eq_true _ _).2 letter, List.all_eq_true.2 chars⟩⟩

/-- The attribute as it is written in a tag. -/
def renderAttribute (entry : String × String) : List Char :=
  ' ' :: (entry.1.toList ++ '=' :: '"' :: (escape entry.2.toList ++ ['"']))

/-- The tag that opens an element. -/
def openingOf (name : String) (attributes : List (String × String)) : Tag :=
  ⟨name.toList ++ attributes.flatMap renderAttribute⟩

/-- No character of a name is one of those that end it. -/
theorem IsName.ne {name : List Char} (isName : IsName name) {c : Char} (member : c ∈ name)
    (other : Char) (foreign : isNameChar other = false) : c ≠ other := by
  rintro rfl
  rw [isName.chars c member] at foreign
  -- The character would be one of a name.
  cases foreign

/-- No character of a name is white space. -/
theorem IsName.not_isGap {name : List Char} (isName : IsName name) {c : Char}
    (member : c ∈ name) : isGap c = false := by
  -- None of the four characters may stand in a name.
  have space := isName.ne member ' ' rfl
  have tab := isName.ne member '\t' rfl
  have return_ := isName.ne member '\r' rfl
  have line := isName.ne member '\n' rfl
  simp [isGap, space, tab, return_, line]

/-- No character of a name ends a key. -/
theorem IsName.not_keyEnd {name : List Char} (isName : IsName name) {c : Char}
    (member : c ∈ name) : keyEnd c = false := by
  have sign := isName.ne member '=' rfl
  simp [keyEnd, sign, isName.not_isGap member]

/-- An attribute that is written under a new key is read as it was written. -/
theorem readAttribute_written {seen : List (List Char × Nat)} {first : Char}
    {others : List Char} (isName : IsName (first :: others))
    (unseen : first :: others ∉ seen.map (·.1)) (start : Nat) (value rest : List Char) :
    let step := readAttribute seen start first
      (others ++ '=' :: '"' :: (escape value ++ '"' :: rest))
    step.outcome = .ok ⟨first :: others, escape value⟩ ∧
      step.seen = (first :: others, start) :: seen ∧ step.rest = rest := by
  -- The key runs to the equals sign, and the value from quote to quote.
  obtain ⟨key, behindKey⟩ := split_at_stop keyEnd others
    ('=' :: '"' :: (escape value ++ '"' :: rest))
    (fun c member => isName.not_keyEnd (List.mem_cons_of_mem _ member)) fun c front => by
      rw [← Option.some.inj front]
      rfl
  obtain ⟨inside, behindValue⟩ := split_at_stop (fun c => c == '"') (escape value) ('"' :: rest)
    (fun c member => by simpa using fun quote => not_special_of_mem_escape member (by simp [quote]))
    fun c front => by rw [← Option.some.inj front]; rfl
  have unknown : seenAt? seen (first :: others) = none := by
    simp only [seenAt?, Option.map_eq_none_iff, List.find?_eq_none]
    intro entry member same
    exact unseen (List.mem_map.2 ⟨entry, member, by simpa using same⟩)
  have sign : ('=' :: '"' :: (escape value ++ '"' :: rest)).dropWhile isGap =
      '=' :: '"' :: (escape value ++ '"' :: rest) := rfl
  have quote : ('"' :: (escape value ++ '"' :: rest)).dropWhile isGap =
      '"' :: (escape value ++ '"' :: rest) := rfl
  simp only [readAttribute, key, behindKey, sign, unknown, quote, readValue, true_or, if_true,
    bne, inside, behindValue, and_self]

/-- Attributes that are written under distinct new keys are read as they were written. -/
theorem attributesFrom_written {seen : List (List Char × Nat)}
    {attributes : List (String × String)}
    (names : ∀ entry ∈ attributes, IsName entry.1.toList)
    (apart : (Entries.keys attributes).Nodup)
    (unseen : ∀ entry ∈ attributes, entry.1.toList ∉ seen.map (·.1)) (position : Nat) :
    attributesFrom seen position (attributes.flatMap renderAttribute) =
      attributes.map fun entry => .ok ⟨entry.1.toList, escape entry.2.toList⟩ := by
  -- Each key that was read is seen by those behind it.
  induction attributes generalizing seen position with
  | nil => rw [attributesFrom]; rfl
  | cons entry rest ih =>
    obtain ⟨isName, behind⟩ := List.forall_mem_cons.1 names
    obtain ⟨new, others⟩ := List.forall_mem_cons.1 unseen
    obtain ⟨other, apartBehind⟩ := List.nodup_cons.1 apart
    obtain ⟨first, tail, key⟩ : ∃ first tail, entry.1.toList = first :: tail := by
      obtain ⟨first, front, _⟩ := isName.letter
      exact ⟨first, _, List.eq_cons_of_mem_head? front⟩
    have visible : isGap first = false := isName.not_isGap (key ▸ List.mem_cons_self ..)
    have text : ((entry :: rest).flatMap renderAttribute).dropWhile isGap =
        first :: (tail ++ '=' :: '"' :: (escape entry.2.toList ++
          '"' :: rest.flatMap renderAttribute)) := by
      have blank : isGap ' ' = true := rfl
      simp [renderAttribute, key, blank, visible]
    rw [key] at isName new
    have later : ∀ start : Nat, ∀ further ∈ rest,
        further.1.toList ∉ ((first :: tail, start) :: seen).map (·.1) := by
      intro start further member seenThere
      rcases List.mem_cons.1 seenThere with same | before
      · rw [← key, String.toList_inj] at same
        exact other (List.mem_map.2 ⟨further, member, same⟩)
      · exact others further member before
    rw [attributesFrom]
    split
    · rename_i none
      rw [text] at none
      cases none
    · rename_i found others' front
      rw [text] at front
      obtain ⟨rfl, rfl⟩ := List.cons.inj front
      obtain ⟨outcome, seenBehind, left⟩ := readAttribute_written isName new
        (position + gapLength ((entry :: rest).flatMap renderAttribute)) entry.2.toList
        (rest.flatMap renderAttribute)
      dsimp only
      rw [outcome, seenBehind, left, ih behind apartBehind (later _), List.map_cons, key]

namespace Tag

section Opening

variable {name : String} {attributes : List (String × String)}

/-- Behind the name of a tag stands the white space in front of its first attribute. -/
theorem split_opening (isName : IsName name.toList) :
    (openingOf name attributes).name = name.toList ∧
      (openingOf name attributes).content.dropWhile (fun c => !isGap c) =
        attributes.flatMap renderAttribute := by
  refine split_at_stop isGap _ _ (fun c member => isName.not_isGap member) fun c front => ?_
  -- The name ends at the blank in front of the first attribute, or at the end.
  cases attributes with
  | nil => cases front
  | cons entry rest =>
    rw [← Option.some.inj front]
    rfl

/-- The attributes of a tag are those written in it. -/
theorem attributes_opening (isName : IsName name.toList)
    (keys : ∀ entry ∈ attributes, IsName entry.1.toList)
    (apart : (Entries.keys attributes).Nodup) :
    (openingOf name attributes).attributes =
      attributes.map fun entry => .ok ⟨entry.1.toList, escape entry.2.toList⟩ := by
  rw [Tag.attributes, (split_opening isName).2]
  -- No key was seen before the first attribute.
  exact attributesFrom_written keys apart (fun _ _ => List.not_mem_nil) _

/-- A tag that is written is sound. -/
theorem sound_opening (isName : IsName name.toList)
    (keys : ∀ entry ∈ attributes, IsName entry.1.toList)
    (apart : (Entries.keys attributes).Nodup) : (openingOf name attributes).Sound := by
  -- Each attribute is read as it was written, and what was escaped can be read.
  intro written member
  rw [attributes_opening isName keys apart] at member
  obtain ⟨entry, _, rfl⟩ := List.mem_map.1 member
  exact ⟨_, _, rfl, unescape_escape entry.2.toList⟩

/-- The element that a written tag opens has its name and its attributes. -/
theorem element_opening (isName : IsName name.toList)
    (keys : ∀ entry ∈ attributes, IsName entry.1.toList)
    (apart : (Entries.keys attributes).Nodup) :
    (openingOf name attributes).element = ⟨name, attributes, "", []⟩ := by
  have entries : (openingOf name attributes).entries = attributes := by
    rw [Tag.entries, attributes_opening isName keys apart, List.filterMap_map]
    -- A value is escaped when it is written, and read back when the tag is.
    have each : ∀ entry : String × String,
        entryOf? (.ok ⟨entry.1.toList, escape entry.2.toList⟩) = some entry := by
      intro entry
      simp [entryOf?, unescape_escape]
    exact (List.filterMap_congr fun entry _ => each entry).trans List.filterMap_some
  rw [Tag.element, (split_opening isName).1, entries, String.ofList_toList]

end Opening

end Tag

/-- Markup without a closing bracket inside it ends at the bracket behind it. -/
theorem closeMarkup_written {allows : List Char → Bool} {before content : List Char}
    (free : ∀ c ∈ content, c ≠ '>') (allowed : allows (content.reverse ++ before) = true)
    (rest : List Char) :
    closeMarkup allows before (content ++ '>' :: rest) =
      some (before.reverse ++ content, rest) := by
  -- The characters passed on the way are gathered in front, and none of them is a bracket.
  induction content generalizing before with
  | nil =>
    have here : allows before = true := allowed
    simp [closeMarkup, here]
  | cons c tail ih =>
    obtain ⟨other, behind⟩ := List.forall_mem_cons.1 free
    have later : allows (tail.reverse ++ c :: before) = true := by simpa using allowed
    simp [closeMarkup, other, ih behind later]

/-- Characters that leave a quote as it is do so one behind the other. -/
theorem foldl_quoteAfter {quote : Option Char} {text : List Char}
    (same : ∀ c ∈ text, quoteAfter c quote = quote) :
    text.foldl (fun quote c => quoteAfter c quote) quote = quote := by
  -- The induction is on the text; the quote is the same at each step.
  induction text with
  | nil => rfl
  | cons c rest ih =>
    obtain ⟨here, behind⟩ := List.forall_mem_cons.1 same
    rw [List.foldl_cons, here, ih behind]

/-- Outside of quotes a name leaves them closed. -/
theorem IsName.quotes {name : List Char} (isName : IsName name) :
    name.foldl (fun quote c => quoteAfter c quote) none = none := by
  refine foldl_quoteAfter fun c member => ?_
  -- A name holds no quotes, so none is opened.
  have double := isName.ne member '"' rfl
  have single := isName.ne member '\'' rfl
  simp [quoteAfter, double, single]

/-- Outside of quotes a written attribute leaves them closed. -/
theorem quotes_attribute {entry : String × String} (isName : IsName entry.1.toList) :
    (renderAttribute entry).foldl (fun quote c => quoteAfter c quote) none = none := by
  -- The first quote is open up to the last, as none is left in the value.
  have inside : (escape entry.2.toList).foldl (fun quote c => quoteAfter c quote) (some '"') =
      some '"' := by
    refine foldl_quoteAfter fun c member => ?_
    have other : c ≠ '"' := fun quote => not_special_of_mem_escape member (by simp [quote])
    simp [quoteAfter, other]
  have space : quoteAfter ' ' none = none := rfl
  have sign : quoteAfter '=' none = none := rfl
  have opens : quoteAfter '"' none = some '"' := rfl
  have closes : quoteAfter '"' (some '"') = none := rfl
  simp only [renderAttribute, List.foldl_cons, List.foldl_append, List.foldl_nil, space,
    isName.quotes, sign, opens, inside, closes]

/-- Markup that begins with neither of two marks is a tag. -/
theorem readMarkup_tag {opened : List (List Char)} {first : Char} {tail : List Char}
    (declaration : first ≠ '!') (instruction : first ≠ '?') :
    readMarkup opened (first :: tail) =
      readClosed .tag outsideQuotes (tagEvent opened) (first :: tail) := by
  -- All other markup begins with one of the two marks.
  unfold readMarkup
  split <;> simp_all

section Opening

variable {name : String} {attributes : List (String × String)} (isName : IsName name.toList)

include isName

/-- A written tag begins with a letter. -/
theorem head_opening : ∃ first rest, (openingOf name attributes).content = first :: rest ∧
    first.isAlpha = true := by
  obtain ⟨first, front, letter⟩ := isName.letter
  refine ⟨first, name.toList.tail ++ attributes.flatMap renderAttribute, ?_, letter⟩
  -- The content begins with the name, and the name with a letter.
  rw [openingOf, List.eq_cons_of_mem_head? front]
  rfl

/-- A written tag does not end with a slash. -/
theorem last_opening : (openingOf name attributes).content.getLast? ≠ some '/' := by
  intro slash
  rcases attributes.eq_nil_or_concat' with rfl | ⟨front, last, rfl⟩
  · -- Without attributes the last character is one of the name.
    have member : '/' ∈ name.toList := by
      have inside := List.mem_of_getLast? slash
      simpa [openingOf] using inside
    exact isName.ne member '/' rfl rfl
  · have whole : (openingOf name (front ++ [last])).content =
        (name.toList ++ (front.flatMap renderAttribute ++
          ' ' :: (last.1.toList ++ '=' :: '"' :: escape last.2.toList))) ++ ['"'] := by
      simp [openingOf, renderAttribute]
    rw [whole, List.getLast?_concat] at slash
    cases slash

variable (keys : ∀ entry ∈ attributes, IsName entry.1.toList)

include keys

/-- All quotes of a written tag are closed. -/
theorem outsideQuotes_opening :
    outsideQuotes ((openingOf name attributes).content.reverse ++ []) = true := by
  -- Each attribute opens a quote and closes it.
  have closed : (attributes.flatMap renderAttribute).foldl (fun quote c => quoteAfter c quote)
      none = none := by
    clear isName
    induction attributes with
    | nil => rfl
    | cons entry rest ih =>
      obtain ⟨here, behind⟩ := List.forall_mem_cons.1 keys
      rw [List.flatMap_cons, List.foldl_append, quotes_attribute here, ih behind]
  simp [outsideQuotes, openingOf, List.foldr_append, isName.quotes, closed]

/-- No closing bracket stands inside a written tag. -/
theorem ne_bracket_opening : ∀ c ∈ (openingOf name attributes).content, c ≠ '>' := by
  intro c member
  rcases List.mem_append.1 member with inName | inAttributes
  · exact isName.ne inName '>' rfl
  · obtain ⟨entry, written, here⟩ := List.mem_flatMap.1 inAttributes
    simp only [renderAttribute, List.mem_cons, List.mem_append, List.not_mem_nil, or_false] at here
    -- Names hold no bracket, and in values it is escaped.
    rcases here with rfl | inKey | rfl | rfl | inValue | rfl
    · decide
    · exact (keys entry written).ne inKey '>' rfl
    · decide
    · decide
    · exact fun bracket => not_special_of_mem_escape inValue (by simp [bracket])
    · decide

/-- A written start is read as one. -/
theorem readMarkup_opening (opened : List (List Char)) (rest : List Char) :
    readMarkup opened ((openingOf name attributes).content ++ '>' :: rest) =
      .ok (.opened (openingOf name attributes), (openingOf name attributes).content, rest) := by
  obtain ⟨first, tail, content, letter⟩ := @head_opening name attributes isName
  -- The content begins with a letter, so it is no end tag, comment or instruction.
  have other : ∀ c : Char, c.isAlpha = false → first ≠ c := by
    rintro c foreign rfl
    rw [letter] at foreign
    cases foreign
  have closed := closeMarkup_written (ne_bracket_opening isName keys)
    (outsideQuotes_opening isName keys) rest
  have made : tagEvent opened (openingOf name attributes).content =
      .ok (.opened (openingOf name attributes)) := by
    unfold tagEvent
    split
    · rename_i name' slash
      rw [content] at slash
      exact absurd (List.cons.inj slash).1 (other '/' rfl)
    · rw [if_neg (last_opening isName)]
  have tag : readMarkup opened ((openingOf name attributes).content ++ '>' :: rest) =
      readClosed .tag outsideQuotes (tagEvent opened)
        ((openingOf name attributes).content ++ '>' :: rest) := by
    rw [content]
    exact readMarkup_tag (other '!' rfl) (other '?' rfl)
  rw [tag, readClosed, closed]
  simp only [List.reverse_nil, List.nil_append, made]
  rfl

end Opening

/-- A name is the name of an end tag as it stands. -/
theorem IsName.endName_eq {name : List Char} (isName : IsName name) : endName name = name := by
  have visible : ∀ c, name.reverse.head? = some c → isGap c = false := fun c front =>
    isName.not_isGap (List.mem_reverse.1 (List.mem_of_head? front))
  rw [endName, trimEnd, dropWhile_eq_self visible, List.reverse_reverse, ite_self]

/-- A written end is read as the end of the element that it names. -/
theorem readMarkup_ending {name : List Char} (isName : IsName name) (opened : List (List Char))
    (rest : List Char) :
    readMarkup (name :: opened) ('/' :: (name ++ '>' :: rest)) =
      .ok (.closed, '/' :: name, rest) := by
  have free : ∀ c ∈ '/' :: name, c ≠ '>' :=
    List.forall_mem_cons.2 ⟨by decide, fun c member => isName.ne member '>' rfl⟩
  have quotes : outsideQuotes (('/' :: name).reverse ++ []) = true := by
    have slash : quoteAfter '/' none = none := rfl
    simp [outsideQuotes, List.foldr_append, slash, isName.quotes]
  have closed := closeMarkup_written free quotes rest
  -- The name is that of the innermost open element.
  have made : tagEvent (name :: opened) ('/' :: name) = .ok .closed := by
    simp [tagEvent, endEvent, isName.endName_eq]
  rw [readMarkup_tag (by decide) (by decide), readClosed, ← List.cons_append, closed]
  simp only [List.reverse_nil, List.nil_append, made]
  rfl

end BeanWiring
