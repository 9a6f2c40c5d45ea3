import BeanWiring.Json
import BeanWiring.Markup.Reference

/-!
What plain data is read from: a reader of objects, lists, texts and words that knows nothing of how
they are laid out, and passes over white space.

Main statement: the written form of plain data without numbers, with white space behind it, is read
back as that data, so it is the written form of nothing else.
-/

namespace BeanWiring

namespace Json

/-- The white space that may stand between the parts of a text. -/
def isSpace (c : Char) : Bool :=
  c == ' ' || c == '\n' || c == '\r' || c == '\t'

/-- A text without the white space in front of it. -/
def skip (text : List Char) : List Char :=
  text.dropWhile isSpace

/-- The character that a letter behind a backslash stands for. -/
def unescaped? (letter : Char) : Option Char :=
  match letter with
  -- Three signs stand for themselves, five letters for control characters.
  | '"' => some '"'
  | '\\' => some '\\'
  | '/' => some '/'
  | 'b' => some '\x08'
  | 'f' => some '\x0c'
  | 'n' => some '\n'
  | 'r' => some '\r'
  | 't' => some '\t'
  | _ => none

/-- The character whose number four digits in base sixteen are. -/
def numbered? (digits : List Char) : Option Char := do
  let values ← digits.mapM (digitValue? 16)
  let number := values.foldl (fun number value => 16 * number + value) 0
  if number.isValidChar then some (.ofNat number) else none

/-- The characters up to the quote that closes a text, and what stands behind it. -/
def readQuoted : List Char → Option (List Char × List Char)
  | [] => none
  | '"' :: rest => some ([], rest)
  | '\\' :: 'u' :: first :: second :: third :: fourth :: rest =>
    (numbered? [first, second, third, fourth]).bind fun c =>
      (readQuoted rest).map (Prod.map (c :: ·) id)
  | '\\' :: letter :: rest =>
    (unescaped? letter).bind fun c => (readQuoted rest).map (Prod.map (c :: ·) id)
  | c :: rest =>
    -- A control character has to be escaped, and a backslash escapes something.
    if c = '\\' ∨ c.toNat < 32 then none else (readQuoted rest).map (Prod.map (c :: ·) id)

variable {α : Type}

/-- What stands behind the first of several things, each behind a comma, up to a bracket. -/
def readOthers (one : List Char → Option (α × List Char)) (close : Char) :
    Nat → List Char → Option (List α × List Char)
  | 0, _ => none
  | fuel + 1, chars =>
    match skip chars with
    | [] => none
    | c :: rest =>
      -- Behind a thing stands the bracket, or a comma and the next one.
      if c = close then some ([], rest)
      else if c = ',' then
        (one (skip rest)).bind fun (first, rest) =>
          (readOthers one close fuel rest).map (Prod.map (first :: ·) id)
      else none

/-- Several things, or none, up to the bracket that closes them. -/
def readSeveral (one : List Char → Option (α × List Char)) (close : Char) (fuel : Nat)
    (chars : List Char) : Option (List α × List Char) :=
  match skip chars with
  | [] => none
  | c :: rest =>
    -- Only in front of the first thing may the bracket follow at once.
    if c = close then some ([], rest)
    else
      (one (c :: rest)).bind fun (first, rest) =>
        (readOthers one close fuel rest).map (Prod.map (first :: ·) id)

/-- A key in quotes and the data behind the colon. -/
def readField (value : List Char → Option (Json × List Char)) :
    List Char → Option ((String × Json) × List Char)
  -- The key is a text, and a colon stands behind it.
  | '"' :: rest =>
    (readQuoted rest).bind fun (key, rest) =>
      match skip rest with
      | ':' :: rest => (value (skip rest)).map (Prod.map (String.ofList key, ·) id)
      | _ => none
  | _ => none

/-- The data at the front of a text, and what stands behind it; numbers are not read. -/
def readFront : Nat → List Char → Option (Json × List Char)
  | 0, _ => none
  | fuel + 1, chars =>
    match chars with
    -- The first character tells what kind of data follows.
    | '"' :: rest => (readQuoted rest).map (Prod.map (.text ∘ String.ofList) id)
    | '[' :: rest => (readSeveral (readFront fuel) ']' fuel rest).map (Prod.map .list id)
    | '\x7b' :: rest =>
      (readSeveral (readField (readFront fuel)) '\x7d' fuel rest).map (Prod.map .object id)
    | 'n' :: 'u' :: 'l' :: 'l' :: rest => some (.null, rest)
    | 't' :: 'r' :: 'u' :: 'e' :: rest => some (.bool true, rest)
    | 'f' :: 'a' :: 'l' :: 's' :: 'e' :: rest => some (.bool false, rest)
    | _ => none

/-- The data that a whole text holds, with white space around it. -/
def read? (text : String) : Option Json :=
  -- No data is nested deeper, nor longer, than its text has characters.
  (readFront text.toList.length (skip text.toList)).bind fun (json, rest) =>
    if skip rest = [] then some json else none

/-- Data in which there is no number. -/
inductive NumberFree : Json → Prop
  | null : NumberFree .null
  | bool (value : Bool) : NumberFree (.bool value)
  | text (value : String) : NumberFree (.text value)
  | list {items : List Json} (each : ∀ item ∈ items, NumberFree item) : NumberFree (.list items)
  | object {fields : List (String × Json)} (each : ∀ field ∈ fields, NumberFree field.2) :
      NumberFree (.object fields)

attribute [simp] NumberFree.null NumberFree.bool NumberFree.text

/-- There is no number in a list if there is none in its items. -/
@[simp] theorem numberFree_list {items : List Json} :
    NumberFree (.list items) ↔ ∀ item ∈ items, item.NumberFree := by
  constructor
  · rintro (_ | _ | _ | each)
    exact each
  · exact .list

/-- There is no number in an object if there is none under its keys. -/
@[simp] theorem numberFree_object {fields : List (String × Json)} :
    NumberFree (.object fields) ↔ ∀ field ∈ fields, field.2.NumberFree := by
  constructor
  · rintro (_ | _ | _ | _ | each)
    exact each
  · exact .object

/-- A digit in base sixteen is read as the value that it was written for. -/
theorem digitValue?_hexDigit {value : Nat} (small : value < 16) :
    digitValue? 16 (hexDigit value) = some value := by
  -- There are sixteen of them.
  decide +revert

/-- The digits of a control character are read as that character. -/
theorem numbered?_control {c : Char} (control : c.toNat < 32) :
    numbered? ['0', '0', hexDigit (c.toNat / 16), hexDigit (c.toNat % 16)] = some c := by
  have high := digitValue?_hexDigit (show c.toNat / 16 < 16 by omega)
  have low := digitValue?_hexDigit (show c.toNat % 16 < 16 by omega)
  have zero : digitValue? 16 '0' = some 0 := by decide
  -- Of the four digits the last two are those of a number below thirty-two.
  have whole : 16 * (c.toNat / 16) + c.toNat % 16 = c.toNat := Nat.div_add_mod c.toNat 16
  have valid : c.toNat.isValidChar := c.valid
  simp [numbered?, high, low, zero, whole, valid]

/-- A character is escaped by a letter that stands for it, by its number, or not at all. -/
theorem escapeChar_cases (c : Char) :
    (∃ letter, letter ≠ 'u' ∧ unescaped? letter = some c ∧ escapeChar c = ['\\', letter]) ∨
      (c.toNat < 32 ∧ escapeChar c =
        ['\\', 'u', '0', '0', hexDigit (c.toNat / 16), hexDigit (c.toNat % 16)]) ∨
      (c ≠ '"' ∧ c ≠ '\\' ∧ ¬ c.toNat < 32 ∧ escapeChar c = [c]) := by
  -- Seven characters are escaped by a backslash and one more character.
  by_cases lettered : c ∈ ['"', '\\', '\n', '\r', '\t', '\x08', '\x0c']
  · simp only [List.mem_cons, List.not_mem_nil, or_false] at lettered
    refine .inl ?_
    rcases lettered with rfl | rfl | rfl | rfl | rfl | rfl | rfl <;>
      exact ⟨_, by decide, rfl, rfl⟩
  · simp only [List.mem_cons, List.not_mem_nil, or_false, not_or] at lettered
    by_cases control : c.toNat < 32 <;> simp [escapeChar, lettered, control]

/-- An escaped character is read as that character. -/
theorem readQuoted_escapeChar (c : Char) (chars : List Char) :
    readQuoted (escapeChar c ++ chars) = (readQuoted chars).map (Prod.map (c :: ·) id) := by
  -- The first character behind the quote tells which of the three it is.
  rcases escapeChar_cases c with
    ⟨letter, other, stands, written⟩ | ⟨control, written⟩ | ⟨quote, backslash, visible, written⟩
  · simp [written, readQuoted, stands, other]
  · simp [written, readQuoted, numbered?_control control]
  · simp [written, readQuoted, backslash, visible]

/-- A text in quotes is read as that text, whatever stands behind it. -/
theorem readQuoted_quote (value : String) (rest : List Char) :
    ∃ behind, (quote value).toList ++ rest = '"' :: behind ∧
      readQuoted behind = some (value.toList, rest) := by
  -- Characters are read one by one, up to the closing quote.
  have escaped : ∀ chars : List Char,
      readQuoted (chars.flatMap escapeChar ++ '"' :: rest) = some (chars, rest) := by
    intro chars
    induction chars with
    | nil => simp [readQuoted]
    | cons c others ih => simp [readQuoted_escapeChar, ih]
  exact ⟨_, by simp [quote], escaped value.toList⟩

/-- White space at the front of a text is passed over, up to a character that is none. -/
theorem skip_append {gap rest : List Char} (blank : ∀ c ∈ gap, isSpace c = true) :
    skip (gap ++ rest) = skip rest :=
  List.dropWhile_append_of_pos blank

/-- A text that begins with a character that is no white space is left as it is. -/
theorem skip_of_head {c : Char} {rest : List Char} (solid : isSpace c = false) :
    skip (c :: rest) = c :: rest :=
  List.dropWhile_cons_of_neg (by simp [solid])

/-- A new line is white space, however deep. -/
theorem isSpace_newLine (depth : Nat) : ∀ c ∈ (newLine depth).toList, isSpace c = true := by
  simp only [newLine, String.toList_ofList, List.mem_cons, List.mem_replicate]
  rintro c (rfl | ⟨-, rfl⟩) <;> rfl

/--
Whether something is read from the characters that it is written with, whatever stands behind them;
they begin neither with white space nor with the bracket that closes several things.
-/
structure ReadFrom (one : List Char → Option (α × List Char)) (close : Char) (thing : α)
    (written : List Char) : Prop where
  reads : ∀ rest, one (written ++ rest) = some (thing, rest)
  begins : ∃ c more, written = c :: more ∧ isSpace c = false ∧ c ≠ close

/-- Things as they are written behind the first one, each behind a comma and a gap. -/
def writeOthers (write : α → List Char) (gap : List Char) (things : List α) : List Char :=
  things.flatMap fun thing => ',' :: gap ++ write thing

/-- Several things as they are written inside brackets, with another gap behind the last one. -/
def writeSeveral (write : α → List Char) (gap last : List Char) (first : α) (others : List α) :
    List Char :=
  gap ++ (write first ++ (writeOthers write gap others ++ last))

section Several

variable {one : List Char → Option (α × List Char)} {close : Char} {write : α → List Char}
  {gap last rest : List Char} {fuel : Nat} {first : α} {others : List α}

/-- Things written each behind a comma and a gap are read up to the bracket. -/
theorem readOthers_written (solid : isSpace close = false) (apart : close ≠ ',')
    (blank : ∀ c ∈ gap, isSpace c = true) (also : ∀ c ∈ last, isSpace c = true) {things : List α}
    (each : ∀ thing ∈ things, ReadFrom one close thing (write thing))
    (enough : things.length < fuel) :
    readOthers one close fuel (writeOthers write gap things ++ (last ++ close :: rest)) =
      some (things, rest) := by
  -- The induction is on the things, each of which takes one step.
  induction things generalizing fuel with
  | nil =>
    obtain ⟨fuel, rfl⟩ : ∃ less, fuel = less + 1 := ⟨fuel - 1, by simp at enough; omega⟩
    simp [readOthers, writeOthers, skip_append also, skip_of_head solid]
  | cons thing others ih =>
    obtain ⟨fuel, rfl⟩ : ∃ less, fuel = less + 1 := ⟨fuel - 1, by simp at enough; omega⟩
    obtain ⟨reads, c, more, begins, front, -⟩ := each thing (by simp)
    have comma : isSpace ',' = false := rfl
    have later := ih (fun other member => each other (by simp [member])) (by simpa using enough)
    -- Behind the comma and the gap stands the first thing, and behind it are the others.
    have passed : ∀ behind, skip (gap ++ (write thing ++ behind)) = write thing ++ behind := by
      intro behind
      rw [skip_append blank, begins, List.cons_append, skip_of_head front]
    simp only [writeOthers, List.flatMap_cons, List.cons_append, List.append_assoc] at later ⊢
    simp only [readOthers, skip_of_head comma, apart.symm, if_false, if_true, passed, reads,
      Option.bind_some, later, Option.map_some, Prod.map_apply, id]

/-- What several things are written with is longer than any of them, and than they are many. -/
theorem length_writeSeveral :
    others.length ≤ (writeSeveral write gap last first others).length ∧
      ∀ thing ∈ first :: others,
        (write thing).length ≤ (writeSeveral write gap last first others).length := by
  have each : others.length ≤ (writeOthers write gap others).length ∧
      ∀ thing ∈ others, (write thing).length ≤ (writeOthers write gap others).length := by
    induction others with
    | nil => simp
    | cons thing rest ih =>
      -- Each thing adds its comma and its own characters.
      simp only [writeOthers, List.flatMap_cons, List.length_append, List.length_cons] at ih ⊢
      refine ⟨by omega, fun other member => ?_⟩
      rcases List.mem_cons.1 member with rfl | later
      · omega
      · have shorter := ih.2 other later
        omega
  simp only [writeSeveral, List.length_append]
  refine ⟨by omega, fun thing member => ?_⟩
  rcases List.mem_cons.1 member with rfl | later
  · omega
  · have shorter := each.2 thing later
    omega

/-- Several things in brackets are read as they are written, if each of them is with that fuel. -/
theorem readSeveral_written (solid : isSpace close = false) (apart : close ≠ ',')
    (blank : ∀ c ∈ gap, isSpace c = true) (also : ∀ c ∈ last, isSpace c = true)
    (fits : (writeSeveral write gap last first others).length < fuel)
    (each : ∀ thing ∈ first :: others, (write thing).length ≤ fuel →
      ReadFrom one close thing (write thing)) (rest : List Char) :
    readSeveral one close fuel (writeSeveral write gap last first others ++ close :: rest) =
      some (first :: others, rest) := by
  -- There is fuel for as many steps as there are things, and for each of them.
  obtain ⟨many, long⟩ := @length_writeSeveral α write gap last first others
  have reads : ∀ thing ∈ first :: others, ReadFrom one close thing (write thing) :=
    fun thing member => each thing member (by have shorter := long thing member; omega)
  have later : readOthers one close fuel (writeOthers write gap others ++ (last ++ close :: rest)) =
      some (others, rest) :=
    readOthers_written solid apart blank also (fun other member => reads other (by simp [member]))
      (by omega)
  obtain ⟨read, c, more, begins, front, differs⟩ := reads first (by simp)
  -- The first thing is read whatever stands behind it, so also in front of the others.
  have here := read (writeOthers write gap others ++ (last ++ close :: rest))
  simp only [writeSeveral, List.append_assoc]
  rw [begins, List.cons_append] at here ⊢
  rw [readSeveral, skip_append blank, skip_of_head front]
  simp only [if_neg differs, here, Option.bind_some, later, Option.map_some, Prod.map_apply, id]

end Several

/-- A field as it is written. -/
def writtenField (depth : Nat) (field : String × Json) : List Char :=
  (quote field.1).toList ++ ':' :: ' ' :: (render depth field.2).toList

/-- A list is written as several items in brackets, each on a line of its own. -/
theorem toList_render_list (depth : Nat) (first : Json) (others : List Json) :
    (render depth (.list (first :: others))).toList =
      '[' :: writeSeveral (fun item => (render (depth + 1) item).toList)
        (newLine (depth + 1)).toList (newLine depth).toList first others ++ [']'] := by
  have behind : ∀ items : List Json, (renderItems (depth + 1) items).toList =
      writeOthers (fun item => (render (depth + 1) item).toList) (newLine (depth + 1)).toList
        items := by
    intro items
    -- The items behind the first are written in the same way, however many there are.
    induction items with
    | nil => simp [renderItems, writeOthers]
    | cons item rest ih => simp [renderItems, writeOthers, ih]
  simp [render, writeSeveral, behind]

/-- An object is written as several fields in brackets, each on a line of its own. -/
theorem toList_render_object (depth : Nat) (first : String × Json)
    (others : List (String × Json)) :
    (render depth (.object (first :: others))).toList =
      '\x7b' :: writeSeveral (writtenField (depth + 1)) (newLine (depth + 1)).toList
        (newLine depth).toList first others ++ ['\x7d'] := by
  have behind : ∀ fields : List (String × Json), (renderFields (depth + 1) fields).toList =
      writeOthers (writtenField (depth + 1)) (newLine (depth + 1)).toList fields := by
    intro fields
    -- A field is its key in quotes, a colon and a blank, and its value.
    induction fields with
    | nil => simp [renderFields, writeOthers]
    | cons field rest ih => simp [renderFields, writeOthers, writtenField, ih]
  simp [render, writeSeveral, writtenField, behind]

/-- The written form of data begins neither with white space nor with a closing bracket. -/
theorem render_begins {json : Json} (free : json.NumberFree) (depth : Nat) :
    ∃ c more, (render depth json).toList = c :: more ∧ isSpace c = false ∧ c ≠ ']' := by
  -- Data begins with a quote, an opening bracket or a letter.
  cases free with
  | null => exact ⟨_, _, by simp [render]; exact ⟨rfl, rfl⟩, rfl, by decide⟩
  | bool value => cases value <;> exact ⟨_, _, by simp [render]; exact ⟨rfl, rfl⟩, rfl, by decide⟩
  | text value => exact ⟨_, _, by simp [render, quote]; exact ⟨rfl, rfl⟩, rfl, by decide⟩
  | @list items _ =>
    cases items <;> exact ⟨_, _, by simp [render]; exact ⟨rfl, rfl⟩, rfl, by decide⟩
  | @object fields _ =>
    cases fields <;> exact ⟨_, _, by simp [render]; exact ⟨rfl, rfl⟩, rfl, by decide⟩

/-- A field is read from what it is written as, if its value is. -/
theorem readFrom_writtenField {value : List Char → Option (Json × List Char)} {depth : Nat}
    {field : String × Json} (free : field.2.NumberFree)
    (reads : ∀ rest, value ((render depth field.2).toList ++ rest) = some (field.2, rest)) :
    ReadFrom (readField value) '\x7d' field (writtenField depth field) := by
  constructor
  case reads =>
    intro rest
    obtain ⟨behind, written, read⟩ := readQuoted_quote field.1
      (':' :: ' ' :: ((render depth field.2).toList ++ rest))
    have colon : isSpace ':' = false := rfl
    have blank : ∀ c ∈ [' '], isSpace c = true := by simp [isSpace]
    obtain ⟨c, more, front, solid, -⟩ := render_begins free depth
    -- Behind the colon and the blank stands the value itself.
    have passed : skip (' ' :: ((render depth field.2).toList ++ rest)) =
        (render depth field.2).toList ++ rest := by
      have skipped := @skip_append [' '] ((render depth field.2).toList ++ rest) blank
      rw [front, List.cons_append] at skipped ⊢
      exact skipped.trans (skip_of_head solid)
    simp only [writtenField, List.append_assoc, List.cons_append, written, readField, read,
      Option.bind_some, skip_of_head colon, passed, reads, Option.map_some, Prod.map_apply, id,
      String.ofList_toList]
  case begins => exact ⟨'"', _, by simp [writtenField, quote]; rfl, rfl, by decide⟩

/-- Where the written form of data fits, there is fuel for one step at least. -/
theorem exists_less {json : Json} (free : json.NumberFree) {depth fuel : Nat}
    (enough : (render depth json).toList.length ≤ fuel) : ∃ less, fuel = less + 1 := by
  obtain ⟨c, more, written, -⟩ := render_begins free depth
  -- What is written is not empty.
  rw [written, List.length_cons] at enough
  exact ⟨fuel - 1, by omega⟩

/-- The written form of data is read as that data, whatever stands behind it. -/
theorem readFront_render {json : Json} (free : json.NumberFree) (depth fuel : Nat)
    (enough : (render depth json).toList.length ≤ fuel) (rest : List Char) :
    readFront fuel ((render depth json).toList ++ rest) = some (json, rest) := by
  -- The induction is on the data; what stands inside is shorter by the opening bracket at least.
  induction free generalizing depth fuel rest with
  | null =>
    obtain ⟨fuel, rfl⟩ := exists_less .null enough
    simp [render, readFront]
  | bool value =>
    obtain ⟨fuel, rfl⟩ := exists_less (.bool value) enough
    cases value <;> simp [render, readFront]
  | text value =>
    obtain ⟨fuel, rfl⟩ := exists_less (.text value) enough
    obtain ⟨behind, written, read⟩ := readQuoted_quote value rest
    simp [render, readFront, written, read]
  | @list items each ih =>
    obtain ⟨fuel, rfl⟩ := exists_less (.list each) enough
    cases items with
    | nil => simp [render, readFront, readSeveral, skip_of_head (show isSpace ']' = false from rfl)]
    | cons first others =>
      -- The items stand between new lines, each one level deeper.
      rw [toList_render_list] at enough ⊢
      have fits : (writeSeveral (fun item => (render (depth + 1) item).toList)
          (newLine (depth + 1)).toList (newLine depth).toList first others).length < fuel := by
        simp at enough
        omega
      have read := readSeveral_written rfl (by decide) (isSpace_newLine (depth + 1))
        (isSpace_newLine depth) fits fun item member shorter =>
          ⟨ih item member (depth + 1) fuel shorter, render_begins (each item member) (depth + 1)⟩
      simpa [readFront] using read rest
  | @object fields each ih =>
    obtain ⟨fuel, rfl⟩ := exists_less (.object each) enough
    cases fields with
    | nil =>
      simp [render, readFront, readSeveral, skip_of_head (show isSpace '\x7d' = false from rfl)]
    | cons first others =>
      -- The value of a field is shorter than the field, which begins with a quote.
      rw [toList_render_object] at enough ⊢
      have fits : (writeSeveral (writtenField (depth + 1)) (newLine (depth + 1)).toList
          (newLine depth).toList first others).length < fuel := by
        simp at enough
        omega
      have read := readSeveral_written rfl (by decide) (isSpace_newLine (depth + 1))
        (isSpace_newLine depth) fits fun field member shorter =>
          readFrom_writtenField (each field member) fun rest => ih field member (depth + 1) fuel
            (by simp [writtenField] at shorter; omega) rest
      simpa [readFront] using read rest

/-- The written form of data, with white space behind it, is read back as that data. -/
theorem read?_render {json : Json} (free : json.NumberFree) {gap : String}
    (blank : ∀ c ∈ gap.toList, isSpace c = true) : read? (json.render 0 ++ gap) = some json := by
  obtain ⟨c, more, written, solid, -⟩ := render_begins free 0
  have read := readFront_render free 0 (json.render 0 ++ gap).toList.length (by simp) gap.toList
  have whole : skip (json.render 0 ++ gap).toList = (json.render 0).toList ++ gap.toList := by
    rw [String.toList_append, written, List.cons_append, skip_of_head solid]
  -- Behind the data there is only white space, which is passed over.
  have nothing : skip gap.toList = [] := by
    simpa [skip] using @skip_append gap.toList [] blank
  simp only [read?, whole, read, Option.bind_some, nothing, if_true]

/-- Data without numbers is written in the same way as no other. -/
theorem render_inj {json other : Json} (free : json.NumberFree) (also : other.NumberFree)
    (same : json.render 0 = other.render 0) : json = other := by
  have first := @read?_render json free "" (by simp)
  have second := @read?_render other also "" (by simp)
  -- The one text is read as both.
  rw [same] at first
  exact Option.some.inj (first.symm.trans second)

end Json

end BeanWiring
