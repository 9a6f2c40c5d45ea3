import BeanWiring.Proofs.Assembly.Declaration
import BeanWiring.Proofs.Text.Trimming

/-!
The beans that a bean depends on, which its declaration lists with commas.

Main statement: a text is read as the list of its pieces between commas that are not blank, in
order and without the blanks around them. The list is a normal form: written with commas, with
whatever blanks and blank pieces, it is read as itself.
-/

namespace BeanWiring

/-- Whether a text is an entry of a list: there is something to it, no comma and no blank end. -/
structure IsEntry (entry : String) : Prop where
  nonempty : entry ≠ ""
  whole : ',' ∉ entry.toList
  front : ∀ c, entry.toList.head? = some c → isBlank c = false
  back : ∀ c, entry.toList.getLast? = some c → isBlank c = false

/-- What a piece between commas says: an entry that stands between blanks, or nothing. -/
inductive PieceSays : List Char → Option String → Prop
  | nothing {piece : List Char} (blank : ∀ c ∈ piece, isBlank c = true) : PieceSays piece none
  | entry {front behind : List Char} {entry : String} (is : IsEntry entry)
      (before : ∀ c ∈ front, isBlank c = true) (after : ∀ c ∈ behind, isBlank c = true) :
      PieceSays (front ++ (entry.toList ++ behind)) (some entry)

/-- Whether a text lists entries: its pieces, joined by commas, say them in order. -/
def Lists (text : String) (entries : List String) : Prop :=
  ∃ rows : List (List Char × Option String), rows ≠ [] ∧
    (∀ row ∈ rows, PieceSays row.1 row.2) ∧
    text.toList = List.intercalate [','] (rows.map (·.1)) ∧ entries = rows.filterMap (·.2)

/-- The entry that a piece is read as, unless it is blank. -/
def saidBy? (piece : List Char) : Option String :=
  if trimBlanks (String.ofList piece) = "" then none else some (trimBlanks (String.ofList piece))

/-- A list is read piece by piece. -/
theorem splitList_eq_filterMap (text : String) :
    splitList text = (pieces ',' text.toList).filterMap saidBy? := by
  rw [splitList, splitText]
  induction pieces ',' text.toList with
  | nil => rfl
  | cons piece rest ih =>
    -- A piece gives an entry unless nothing is left of it.
    by_cases blank : trimBlanks (String.ofList piece) = "" <;>
      simpa [saidBy?, blank] using ih

/-- A piece without a comma says what it is read as. -/
theorem pieceSays_saidBy? {piece : List Char} (whole : ',' ∉ piece) :
    PieceSays piece (saidBy? piece) := by
  -- The piece is what trimming leaves of it, between the blanks that it takes off.
  have parts := takeWhile_within_behindLast isBlank piece
  have before : ∀ c ∈ piece.takeWhile isBlank, isBlank c = true :=
    fun c member => List.mem_takeWhile_imp member
  have after : ∀ c ∈ behindLast isBlank piece, isBlank c = true := fun c member =>
    mem_behindLast member
  have trimmed : trimBlanks (String.ofList piece) = String.ofList (within isBlank piece) := by
    rw [trimBlanks, String.toList_ofList, trimBoth_eq_within]
  rw [saidBy?, trimmed]
  split
  · next blank =>
    have nothing : within isBlank piece = [] := by simpa using blank
    rw [nothing, List.nil_append] at parts
    refine .nothing fun c member => ?_
    rw [← parts] at member
    exact (List.mem_append.1 member).elim (before c) (after c)
  · next something =>
    have inside : ',' ∉ within isBlank piece := by
      intro member
      rw [← parts] at whole
      exact whole (List.mem_append_right _ (List.mem_append_left _ member))
    have is : IsEntry (String.ofList (within isBlank piece)) := by
      refine ⟨something, ?_, ?_, ?_⟩ <;> rw [String.toList_ofList]
      · exact inside
      · exact fun c => head?_within
      · exact fun c => getLast?_within
    have told := PieceSays.entry is before after
    rwa [String.toList_ofList, parts] at told

/-- What a piece says has no comma in it, and is what the piece is read as. -/
theorem PieceSays.saidBy?_eq {piece : List Char} {said : Option String}
    (told : PieceSays piece said) : ',' ∉ piece ∧ saidBy? piece = said := by
  -- A comma is no blank, so it is not among those around an entry either.
  have comma : isBlank ',' = false := by decide
  have outside : ∀ blanks : List Char, (∀ c ∈ blanks, isBlank c = true) → ',' ∉ blanks := by
    intro blanks all member
    simpa [comma] using all ',' member
  cases told with
  | nothing blank =>
    refine ⟨outside _ blank, ?_⟩
    simp [saidBy?, trimBlanks, trimBoth_eq_within, within_eq_nil blank]
  | @entry front behind entry is before after =>
    refine ⟨?_, ?_⟩
    · simp [outside front before, outside behind after, is.whole]
    · simp [saidBy?, trimBlanks, trimBoth_eq_within, within_between before after is.front is.back,
        is.nonempty]

/-- A text is read as the entries that it lists, and as no others. -/
theorem splitList_eq_iff (text : String) (entries : List String) :
    splitList text = entries ↔ Lists text entries := by
  rw [splitList_eq_filterMap]
  constructor
  · rintro rfl
    -- The rows are the pieces, each with what it is read as.
    refine ⟨(pieces ',' text.toList).map fun piece => (piece, saidBy? piece), ?_, ?_, ?_, ?_⟩
    · simp [pieces_ne_nil]
    · rw [List.forall_mem_map]
      intro piece cut
      dsimp only
      exact pieceSays_saidBy? (not_mem_of_mem_pieces cut)
    · simp only [List.map_map, Function.comp_def, List.map_id', intercalate_pieces]
    · simp only [List.filterMap_map, Function.comp_def]
  · rintro ⟨rows, nonempty, told, written, rfl⟩
    -- No piece has a comma, so the rows are found again.
    have cut : pieces ',' text.toList = rows.map (·.1) := by
      rw [written]
      apply pieces_intercalate (by simpa using nonempty)
      intro piece member
      obtain ⟨row, stands, rfl⟩ := List.mem_map.1 member
      exact (told row stands).saidBy?_eq.1
    rw [cut, List.filterMap_map]
    apply List.filterMap_congr
    intro row member
    rw [Function.comp_apply, (told row member).saidBy?_eq.2]

/-- What a text lists are entries. -/
theorem Lists.isEntry {text : String} {entries : List String} (lists : Lists text entries) :
    ∀ entry ∈ entries, IsEntry entry := by
  obtain ⟨rows, _, told, _, rfl⟩ := lists
  intro entry member
  obtain ⟨⟨piece, said⟩, stands, same⟩ := List.mem_filterMap.1 member
  have piece := told _ stands
  -- A piece that gives an entry is that entry between blanks.
  rw [same] at piece
  cases piece with
  | entry is _ _ => exact is

/-- Entries that are joined by commas alone are listed. -/
theorem lists_intercalate {entries : List String} (all : ∀ entry ∈ entries, IsEntry entry) :
    Lists (",".intercalate entries) entries := by
  cases entries with
  | nil =>
    -- Without any entry the text is one empty piece.
    exact ⟨[([], none)], by simp, by simp [PieceSays.nothing], by simp, rfl⟩
  | cons first rest =>
    refine ⟨(first :: rest).map fun entry => (entry.toList, some entry), by simp, ?_, ?_, ?_⟩
    · rw [List.forall_mem_map]
      intro entry member
      -- There are no blanks around an entry.
      have alone : PieceSays ([] ++ (entry.toList ++ [])) (some entry) :=
        .entry (all entry member) (by simp) (by simp)
      simpa using alone
    · rw [String.toList_intercalate, List.map_map]
      rfl
    · simp [List.filterMap_map]

/-- A bean depends on what its declaration lists, whatever it is assembled over. -/
theorem dependsOn_of_assemble {documents : DocumentSet} {bean : String} {path : Path}
    {declaration : Element} (found : documents.findBean? bean = some (path, declaration))
    {text : String} (listed : declaration.attribute? "depends-on" = some text) {names : Names}
    {seed : Option Definition} {definition : Definition}
    (assembled : (assemble documents names bean seed).outcome = .ok (some definition)) :
    definition.dependsOn = splitList text := by
  simp only [assemble, found, extractDeclaration] at assembled
  rcases applyAttributes_cases bean declaration with
    ⟨_, error, fails⟩ | ⟨className, scope, _, _, dressed⟩
  · simp [fails, Extraction.done] at assembled
  · -- The parts that the children give are not among the dependencies.
    simp only [dressed] at assembled
    cases read : (extractParts ⟨bean, documents.declaredIds⟩ names
        declaration.children).outcome with
    | error error => simp [read, Except.map] at assembled
    | ok parts =>
      simp only [read, Except.map, Except.ok.injEq, Option.some.injEq] at assembled
      rw [← assembled]
      simp [applyParts, Definition.dress, listed]

/-- Whether the beans that a definition depends on are those that a text lists, in normal form. -/
structure Definition.DependsAsListed (definition : Definition) (text : String) : Prop where
  read : definition.dependsOn = splitList text
  lists : ∀ entries, definition.dependsOn = entries ↔ Lists text entries
  entry : ∀ entry ∈ definition.dependsOn, IsEntry entry
  again : splitList (",".intercalate definition.dependsOn) = definition.dependsOn

/--
A bean whose declaration lists beans depends on the pieces between the commas that are not blank,
without the blanks around them, in order and as often as they are listed; none of these has a comma
or a blank end. Any such entries, written with commas, blanks around them and blank pieces, are read
as themselves.
-/
theorem dependencies_are_in_normal_form {documents : DocumentSet} {bean : String} {path : Path}
    {declaration : Element} (found : documents.findBean? bean = some (path, declaration))
    {text : String} (listed : declaration.attribute? "depends-on" = some text) (names : Names)
    (seed : Option Definition) :
    (∀ definition, (assemble documents names bean seed).outcome = .ok (some definition) →
      definition.DependsAsListed text) ∧
    ∀ entries, (∀ entry ∈ entries, IsEntry entry) →
      Lists (",".intercalate entries) entries ∧
        ∀ written, Lists written entries → splitList written = entries := by
  have back : ∀ entries, (∀ entry ∈ entries, IsEntry entry) →
      splitList (",".intercalate entries) = entries := fun entries all =>
    (splitList_eq_iff _ _).2 (lists_intercalate all)
  constructor
  · intro definition assembled
    -- What the assembled bean depends on is the list as it was split.
    have read := dependsOn_of_assemble found listed assembled
    have lists := (splitList_eq_iff text _).1 read.symm
    constructor
    case read => exact read
    case lists => exact fun entries => read ▸ splitList_eq_iff text entries
    case entry => exact lists.isEntry
    case again => exact back _ lists.isEntry
  · exact fun entries all =>
      ⟨lists_intercalate all, fun written lists => (splitList_eq_iff _ _).2 lists⟩

/-- A declaration that lists one bean twice, among blanks of several kinds and blank pieces. -/
def dependentDeclaration : Element :=
  ⟨"bean", [("id", "svc"), ("class", "Svc"), ("scope", "singleton"),
    ("depends-on", " ,log\t,\u3000the store, ,log,")], "", []⟩

/-- A document with that declaration. -/
def dependentDocuments : DocumentSet :=
  ⟨[⟨⟨"a.xml"⟩, ⟨"beans", [], "", [dependentDeclaration]⟩⟩]⟩

/-- Repeated beans and blanks inside are kept, and what is around goes. -/
theorem dependencies_of_padded_list :
    dependentDocuments.findBean? "svc" = some (⟨"a.xml"⟩, dependentDeclaration) ∧
      dependentDeclaration.attribute? "depends-on" = some " ,log\t,\u3000the store, ,log," ∧
      (∃ definition, (assemble dependentDocuments {} "svc" none).outcome = .ok (some definition) ∧
        definition.DependsAsListed " ,log\t,\u3000the store, ,log," ∧
        definition.dependsOn = ["log", "the store", "log"]) ∧
      IsEntry "log" ∧ Lists " log ,," ["log"] ∧ splitList " log ,," = ["log"] := by
  have found : dependentDocuments.findBean? "svc" = some (⟨"a.xml"⟩, dependentDeclaration) := by
    decide +kernel
  have listed : dependentDeclaration.attribute? "depends-on" =
      some " ,log\t,\u3000the store, ,log," := by
    decide +kernel
  obtain ⟨reads, back⟩ := dependencies_are_in_normal_form found listed {} none
  have assembled : (assemble dependentDocuments {} "svc" none).outcome = .ok (some {
      name := "svc"
      className := "Svc"
      dependsOn := ["log", "the store", "log"] }) := by
    decide +kernel
  have entry : IsEntry "log" := by
    refine ⟨by decide, by decide, fun c first => ?_, fun c last => ?_⟩
    · obtain rfl : 'l' = c := Option.some.inj first
      decide
    · obtain rfl : 'g' = c := Option.some.inj last
      decide
  have blank : ∀ c ∈ [' '], isBlank c = true := List.forall_mem_singleton.2 (by decide)
  have log : PieceSays ([' '] ++ ("log".toList ++ [' '])) (some "log") := .entry entry blank blank
  have nothing : PieceSays [] none := .nothing (by simp)
  -- Of the three pieces the first one gives the entry, and the others are empty.
  have lists : Lists " log ,," ["log"] :=
    ⟨[(_, some "log"), ([], none), ([], none)], by simp,
      List.forall_mem_cons.2 ⟨log, List.forall_mem_cons.2 ⟨nothing, by simpa using nothing⟩⟩,
      by decide, rfl⟩
  exact ⟨found, listed, ⟨_, assembled, reads _ assembled, rfl⟩, entry, lists,
    (back ["log"] (by simpa using entry)).2 _ lists⟩

end BeanWiring
