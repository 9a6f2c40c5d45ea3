import Mathlib
import BeanWiring.Proofs.Markup.Parsing
import BeanWiring.Proofs.Markup.Wording

/-!
The defects of a text, told from its events alone.

Of what is in front of an event only two things count for its defects: which elements are open, and
whether a root has ended. Main statement: a text that is no document is refused for the defects of
its events in order, then the fault that ended reading, then the elements left open, and for nothing
else; if there is none of these, no element was seen, and just this is told.
-/

namespace BeanWiring

/-- What counts for the defects of an event of all that is in front of it. -/
structure Standing where
  /-- The names of the elements still open, the innermost first. -/
  opened : List (List Char) := []
  /-- Whether an element that stands in no other has ended. -/
  rooted : Bool := false
deriving DecidableEq, Repr

namespace Standing

/-- What counts behind one more event. -/
def after (standing : Standing) (event : Event) : Standing :=
  ⟨event.openAfter standing.opened, standing.rooted || event.finishes standing.opened.length⟩

/-- Character data on a line is a defect if it stands in no element, unless all of it is blank. -/
def dataDefects (standing : Standing) (line : Nat) (data : List Char) : List Defect :=
  if standing.opened = [] ∧ ¬ ∀ c ∈ data, isBlank c = true then [.textOutsideRoot line] else []

/-- An element that ends is a defect if it stands in no other, unless it is the first of these. -/
def rootDefects (standing : Standing) (name : List Char) : List Defect :=
  if standing.rooted then [.secondRoot (String.ofList name)] else []

end Standing

/-- The defects that an event leaves behind, told with a line. -/
def Event.defects (line : Nat) (standing : Standing) : Event → List Defect
  | .opened tag => tag.defects line
  | .empty tag =>
    tag.defects line ++ if standing.opened = [] then standing.rootDefects tag.name else []
  | .closed =>
    -- The last open element is the one that stands in no other.
    match standing.opened with
    | [name] => standing.rootDefects name
    | _ => []
  | .text raw =>
    match unescape raw with
    | .ok data => standing.dataDefects line data
    | .error fault => [.characterData line fault]
  | .verbatim raw => standing.dataDefects line raw
  | .aside => []

/-- The defects that events leave behind, in order, each with the event that it is about. -/
def report {σ : Type} (event : σ → Event) (line : σ → Nat) (standing : Standing) :
    List σ → List (σ × Defect)
  | [] => []
  | item :: rest =>
    ((event item).defects (line item) standing).map (item, ·) ++
      report event line (standing.after (event item)) rest

/-- Where a tree in the making has the open elements and the root that count for defects. -/
structure Growth.Stands (growth : Growth) (standing : Standing) : Prop where
  opened : growth.opened.map (·.name) = standing.opened.map String.ofList
  rooted : growth.root.isSome = standing.rooted

namespace Growth

variable {growth : Growth} {standing : Standing}

/-- No element is open in the tree exactly if none is open in the events. -/
theorem Stands.opened_eq_nil_iff (stands : growth.Stands standing) :
    growth.opened = [] ↔ standing.opened = [] := by
  rw [← List.map_eq_nil_iff (f := fun element : Element => element.name), stands.opened,
    List.map_eq_nil_iff]

/--
A finished element goes to the innermost open one, or else it is a root; it is told unless it is the
first.
-/
theorem stands_attach (stands : growth.Stands standing) {element : Element} {name : List Char}
    (named : element.name = String.ofList name) :
    (growth.attach element).Stands
        ⟨standing.opened, standing.rooted || standing.opened.length == 0⟩ ∧
      (growth.attach element).defects = growth.defects ++
        if standing.opened = [] then standing.rootDefects name else [] := by
  have rooted := stands.rooted
  have opened := stands.opened
  have none_iff := stands.opened_eq_nil_iff
  obtain ⟨parents, root, defects⟩ := growth
  cases parents with
  | cons parent others =>
    -- The element becomes a child, and its parent keeps its name.
    have some : standing.opened ≠ [] := fun none => nomatch none_iff.2 none
    have more : (standing.opened.length == 0) = false := by simpa using some
    refine ⟨⟨?_, ?_⟩, ?_⟩
    · simpa [attach, Element.addChild] using opened
    · simpa [attach, more] using rooted
    · simp [attach, some]
  | nil =>
    have none : standing.opened = [] := none_iff.1 rfl
    cases root with
    | none =>
      -- The first element that stands in no other is the root.
      refine ⟨⟨?_, ?_⟩, ?_⟩
      · simp [attach, none]
      · simp [attach, none]
      · simp [attach, none, Standing.rootDefects, ← rooted]
    | some first =>
      -- The root stays what it was, and the element is told by its name.
      refine ⟨⟨?_, ?_⟩, ?_⟩
      · simp [attach, none]
      · simp [attach, none]
      · simp [attach, none, Standing.rootDefects, ← rooted, named]

/-- Character data stays inside its element, or else it is told unless it is blank. -/
theorem stands_addText (stands : growth.Stands standing) (line : Nat) (data : List Char) :
    (growth.addText line (String.ofList data)).Stands standing ∧
      (growth.addText line (String.ofList data)).defects =
        growth.defects ++ standing.dataDefects line data := by
  have rooted := stands.rooted
  have opened := stands.opened
  have none_iff := stands.opened_eq_nil_iff
  obtain ⟨parents, root, defects⟩ := growth
  cases parents with
  | cons innermost others =>
    have some : standing.opened ≠ [] := fun none => nomatch none_iff.2 none
    refine ⟨⟨?_, ?_⟩, ?_⟩
    · simpa [addText, Element.addText] using opened
    · simpa [addText] using rooted
    · simp [addText, Standing.dataDefects, some]
  | nil =>
    have none : standing.opened = [] := none_iff.1 rfl
    -- Outside of all elements the tree is left as it is.
    by_cases blank : ∀ c ∈ data, isBlank c = true
    · have all : isAllBlank (String.ofList data) = true := by simpa [isAllBlank] using blank
      simp only [addText, all, if_true]
      have quiet : standing.dataDefects line data = [] := if_neg fun told => told.2 blank
      exact ⟨stands, by rw [quiet, List.append_nil]⟩
    · have all : ¬ isAllBlank (String.ofList data) = true := by simpa [isAllBlank] using blank
      simp only [addText, if_neg all]
      exact ⟨⟨stands.opened, stands.rooted⟩, by simp [Standing.dataDefects, none, blank]⟩

/-- One more event leaves its own defects behind those that were there. -/
theorem stands_grow (stands : growth.Stands standing) (line : Nat) (event : Event) :
    (growth.grow line event).Stands (standing.after event) ∧
      (growth.grow line event).defects = growth.defects ++ event.defects line standing := by
  cases event with
  | opened tag =>
    -- The element is open whether its attributes are sound or not.
    have named : (elementOf line tag).1.name = String.ofList tag.name := by
      rw [elementOf_element]
      rfl
    refine ⟨⟨?_, ?_⟩, ?_⟩
    · simp [grow, Standing.after, Event.openAfter, named, stands.opened]
    · simp [grow, Standing.after, Event.finishes, stands.rooted]
    · simp [grow, Event.defects, elementOf_told]
  | empty tag =>
    -- The attributes are told first, and then that there is a root already.
    let marked : Growth := { growth with defects := growth.defects ++ (elementOf line tag).2 }
    have named : (elementOf line tag).1.name = String.ofList tag.name := by
      rw [elementOf_element]
      rfl
    have also : marked.Stands standing := ⟨stands.opened, stands.rooted⟩
    obtain ⟨attached, told⟩ := stands_attach also named
    have next : growth.grow line (.empty tag) = Growth.attach (elementOf line tag).1 marked := rfl
    rw [next]
    refine ⟨attached, ?_⟩
    rw [told, Event.defects, ← elementOf_told, List.append_assoc]
  | closed =>
    have opened := stands.opened
    cases there : growth.opened with
    | nil =>
      -- Where nothing is open nothing ends.
      have none : standing.opened = [] := stands.opened_eq_nil_iff.1 there
      have still : growth.grow line .closed = growth := by simp [grow, there]
      rw [still]
      refine ⟨⟨?_, ?_⟩, ?_⟩
      · simp [Standing.after, Event.openAfter, none, there]
      · simp [Standing.after, Event.finishes, none, stands.rooted]
      · simp [Event.defects, none]
    | cons innermost others =>
      obtain ⟨name, names, split⟩ : ∃ name names, standing.opened = name :: names := by
        refine List.exists_cons_of_ne_nil fun none => ?_
        rw [stands.opened_eq_nil_iff.2 none] at there
        cases there
      rw [there, split] at opened
      obtain ⟨named, rest⟩ : innermost.name = String.ofList name ∧
          others.map (·.name) = names.map String.ofList := by simpa using opened
      -- The innermost element is attached to what is left of the open ones.
      have next : growth.grow line .closed =
          Growth.attach innermost { growth with opened := others } := by
        simp only [grow, there]
      have left : ({ growth with opened := others } : Growth).Stands
          ⟨names, standing.rooted⟩ := ⟨rest, stands.rooted⟩
      obtain ⟨attached, told⟩ := stands_attach left named
      rw [next]
      refine ⟨?_, ?_⟩
      · simpa [Standing.after, Event.openAfter, Event.finishes, split] using attached
      · rw [told, Event.defects, split]
        cases names <;> simp [Standing.rootDefects]
  | text raw =>
    have still : standing.after (.text raw) = standing := by
      simp [Standing.after, Event.openAfter, Event.finishes]
    rw [still]
    cases read : unescape raw with
    | ok data =>
      simp only [grow, Event.defects, read]
      exact stands_addText stands line data
    | error fault =>
      -- What cannot be read goes nowhere.
      simp only [grow, Event.defects, read, and_true]
      exact ⟨stands.opened, stands.rooted⟩
  | verbatim raw =>
    have still : standing.after (.verbatim raw) = standing := by
      simp [Standing.after, Event.openAfter, Event.finishes]
    rw [still]
    exact stands_addText stands line raw
  | aside =>
    have still : standing.after .aside = standing := by
      simp [Standing.after, Event.openAfter, Event.finishes]
    rw [still]
    exact ⟨stands, by simp [grow, Event.defects]⟩

/-- Several events leave their defects behind in order, each as it stands behind the others. -/
theorem stands_growAll (stands : growth.Stands standing) (lineOf : Placed Event → Nat)
    (placed : List (Placed Event)) :
    (growth.growAll lineOf placed).Stands
        ((placed.map (·.value)).foldl Standing.after standing) ∧
      (growth.growAll lineOf placed).defects =
        growth.defects ++ (report (·.value) lineOf standing placed).map (·.2) := by
  -- The induction is on the events, for every tree that stands where they begin.
  induction placed generalizing growth standing with
  | nil => exact ⟨stands, by simp [growAll, report]⟩
  | cons found rest ih =>
    obtain ⟨next, first⟩ := stands_grow stands (lineOf found) found.value
    obtain ⟨last, others⟩ := ih next
    refine ⟨last, ?_⟩
    -- The defects of the first event come in front of those of the others.
    calc (growth.growAll lineOf (found :: rest)).defects
      _ = (growth.grow (lineOf found) found.value).defects ++
          (report (·.value) lineOf (standing.after found.value) rest).map (·.2) := others
      _ = growth.defects ++ (report (·.value) lineOf standing (found :: rest)).map (·.2) := by
        simp [first, report, Function.comp_def]

end Growth

/-- The defects of the events of a text, in order, each with the event that it is about. -/
def eventReport (content : String) : List (Placed Event × Defect) :=
  report (·.value) (lineIn content) {} (readEvents (markupOf content)).events

/-- The defect for which reading a text ended, if it did. -/
def faultDefect? (content : String) : Option Defect :=
  (readEvents (markupOf content)).fault.map fun placed =>
    .unreadable (lineAt content.toList placed.offset) placed.value

/-- The names of the elements still open at the end of a text, the innermost first. -/
def leftOpen (content : String) : List (List Char) :=
  ((eventsOf content).foldl Standing.after {}).opened

/-- All that there is to tell about the elements and the character data of a text. -/
def defectsOf (content : String) : List Defect :=
  (eventReport content).map (·.2) ++ (faultDefect? content).toList ++
    (leftOpen content).map fun name => .unclosed (String.ofList name)

/-- The defects at the end of a text are those told from its events. -/
theorem allDefects_growthOf (content : String) :
    (growthOf content).allDefects (faultDefect? content) = defectsOf content := by
  have start : ({} : Growth).Stands {} := ⟨rfl, rfl⟩
  obtain ⟨stands, told⟩ :=
    Growth.stands_growAll start (lineIn content) (readEvents (markupOf content)).events
  have opened : (growthOf content).opened.map (·.name) =
      (leftOpen content).map String.ofList := stands.opened
  have met : (growthOf content).defects = (eventReport content).map (·.2) := told
  -- An element left open is told by its name.
  have left : (growthOf content).opened.map (fun element => Defect.unclosed element.name) =
      ((growthOf content).opened.map (·.name)).map Defect.unclosed := by
    rw [List.map_map]
    rfl
  rw [Growth.allDefects, met, left, opened, List.map_map]
  rfl

/-- The kinds of defects that an event can have; those with a line are told with its own. -/
inductive Defect.InEvent (line : Nat) : Defect → Prop
  | tagAttribute (fault : AttributeFault) : InEvent line (.tagAttribute line fault)
  | attributeValue (key : String) (fault : ReferenceFault) :
    InEvent line (.attributeValue line key fault)
  | characterData (fault : ReferenceFault) : InEvent line (.characterData line fault)
  | textOutsideRoot : InEvent line (.textOutsideRoot line)
  | secondRoot (name : String) : InEvent line (.secondRoot name)

/-- The defects of an event are of these kinds. -/
theorem inEvent_of_mem_defects {line : Nat} {standing : Standing} {event : Event} {defect : Defect}
    (member : defect ∈ event.defects line standing) : defect.InEvent line := by
  have inTag : ∀ tag : Tag, defect ∈ tag.defects line → defect.InEvent line := by
    intro tag inside
    obtain ⟨written, _, told⟩ := List.mem_filterMap.1 inside
    unfold attributeDefect? at told
    split at told
    · cases told
      exact .tagAttribute _
    · split at told <;> cases told
      exact .attributeValue _ _
  have inRoot : ∀ name, defect ∈ standing.rootDefects name → defect.InEvent line := by
    intro name inside
    unfold Standing.rootDefects at inside
    split at inside
    · obtain rfl := List.mem_singleton.1 inside
      exact .secondRoot _
    · cases inside
  have inData : ∀ data, defect ∈ standing.dataDefects line data → defect.InEvent line := by
    intro data inside
    unfold Standing.dataDefects at inside
    split at inside
    · obtain rfl := List.mem_singleton.1 inside
      exact .textOutsideRoot
    · cases inside
  cases event with
  | opened tag => exact inTag tag member
  | empty tag =>
    -- The element ends where it begins, so it may be a second root.
    rcases List.mem_append.1 member with inside | behind
    · exact inTag tag inside
    · split at behind
      · exact inRoot tag.name behind
      · cases behind
  | closed =>
    simp only [Event.defects] at member
    split at member
    · exact inRoot _ member
    · cases member
  | text raw =>
    simp only [Event.defects] at member
    split at member
    · exact inData _ member
    · obtain rfl := List.mem_singleton.1 member
      exact .characterData _
  | verbatim raw => exact inData raw member
  | aside => cases member

/-- What is reported is reported of some event, as one of its defects wherever it stands. -/
theorem mem_report {σ : Type} {event : σ → Event} {line : σ → Nat} {standing : Standing}
    {items : List σ} {item : σ} {defect : Defect}
    (member : (item, defect) ∈ report event line standing items) :
    item ∈ items ∧ ∃ there, defect ∈ (event item).defects (line item) there := by
  induction items generalizing standing with
  | nil => cases member
  | cons first rest ih =>
    -- The entry is one of the first event, or one of the events behind it.
    rcases List.mem_append.1 member with here | behind
    · obtain ⟨found, among, same⟩ := List.mem_map.1 here
      cases same
      exact ⟨List.mem_cons_self, standing, among⟩
    · obtain ⟨among, told⟩ := ih behind
      exact ⟨List.mem_cons_of_mem _ among, told⟩

/-- A defect that an event has wherever it stands is reported of it. -/
theorem report_of_mem {σ : Type} {event : σ → Event} {line : σ → Nat} {items : List σ} {item : σ}
    {defect : Defect} (member : item ∈ items)
    (always : ∀ there, defect ∈ (event item).defects (line item) there) (standing : Standing) :
    (item, defect) ∈ report event line standing items := by
  induction items generalizing standing with
  | nil => cases member
  | cons first rest ih =>
    -- What always tells a defect tells it wherever it stands.
    rcases List.mem_cons.1 member with rfl | behind
    · exact List.mem_append_left _ (List.mem_map_of_mem (always standing))
    · exact List.mem_append_right _ (ih behind _)

/-- That there is no root is none of the defects of elements and character data. -/
theorem missingRoot_not_mem_defectsOf (content : String) :
    Defect.missingRoot ∉ defectsOf content := by
  simp only [defectsOf, List.mem_append, not_or]
  -- No event leaves it, no fault is told by it, and no open element is.
  refine ⟨⟨?_, ?_⟩, ?_⟩
  · intro member
    obtain ⟨⟨placed, defect⟩, reported, rfl⟩ := List.mem_map.1 member
    obtain ⟨_, there, told⟩ := mem_report reported
    cases inEvent_of_mem_defects told
  · simp [faultDefect?]
  · simp

/--
Where nothing is wrong with elements and character data, there is a root if an element begins.
-/
theorem root_growthOf_eq_none_iff {content : String} (silent : defectsOf content = []) :
    (growthOf content).root = none ↔ headings {} (eventsOf content) = [] := by
  rw [← allDefects_growthOf, Growth.allDefects, List.append_eq_nil_iff, List.append_eq_nil_iff,
    List.map_eq_nil_iff] at silent
  obtain ⟨⟨met, _⟩, closed⟩ := silent
  -- With nothing open the elements that began are those of the root.
  obtain ⟨more, defects, _, follows⟩ := step_growthOf content
  obtain rfl : (growthOf content).defects = more := defects
  have listed := (follows met).headings
  have rows : (growthOf content).rows = (growthOf content).rowsOfRoot := by
    simp [Growth.rows, closed, rowsOfOpened]
  rw [rows] at listed
  have begun : headings {} (eventsOf content) = (growthOf content).rowsOfRoot.map (·.1) := by
    simpa [Growth.rows, Growth.rowsOfRoot, rowsOfOpened] using listed.symm
  rw [begun, List.map_eq_nil_iff, Growth.rowsOfRoot]
  cases (growthOf content).root with
  | none => simp
  | some root => simp [Element.rows_eq]

/-- A text is refused for all its defects, or for having no element, or it is read. -/
theorem readRoot_cases (content : String) :
    (defectsOf content ≠ [] ∧ readRoot content = .error (defectsOf content)) ∨
      (defectsOf content = [] ∧ headings {} (eventsOf content) = [] ∧
        readRoot content = .error [.missingRoot]) ∨
      (defectsOf content = [] ∧ headings {} (eventsOf content) ≠ [] ∧
        ∃ root, readRoot content = .ok root) := by
  have read : readRoot content = (growthOf content).outcome (faultDefect? content) := rfl
  rw [read, Growth.outcome, allDefects_growthOf]
  cases told : defectsOf content with
  | cons first rest =>
    -- Whether there is a root or not, the defects are told.
    refine .inl ⟨List.cons_ne_nil first rest, ?_⟩
    cases (growthOf content).root <;> rfl
  | nil =>
    have none_iff := root_growthOf_eq_none_iff told
    cases root : (growthOf content).root with
    | none => exact .inr (.inl ⟨rfl, none_iff.1 root, rfl⟩)
    | some element =>
      refine .inr (.inr ⟨rfl, fun none => ?_, element, rfl⟩)
      rw [none_iff.2 none] at root
      cases root

/-- A defect that an event of a text has wherever it stands is one of the text. -/
theorem mem_defectsOf {content : String} {placed : Placed Event} {defect : Defect}
    (member : placed ∈ (readEvents (markupOf content)).events)
    (always : ∀ there, defect ∈ placed.value.defects (lineIn content placed) there) :
    defect ∈ defectsOf content := by
  -- What is found in an event is told before all that is told at the end.
  have reported : (placed, defect) ∈ eventReport content := report_of_mem member always {}
  exact List.mem_append_left _ (List.mem_append_left _ (List.mem_map_of_mem (f := (·.2)) reported))

/--
Whether what is told of a refused text is all that is wrong with it: the defects of its events, its
fault and its open elements, or else that it has no element.
-/
structure TellsAll (content : String) (told : List Defect) : Prop where
  nonempty : told ≠ []
  all : defectsOf content ≠ [] → told = defectsOf content
  missing : .missingRoot ∈ told ↔ defectsOf content = [] ∧ headings {} (eventsOf content) = []
  alone : .missingRoot ∈ told → told = [.missingRoot]
  /-- An attribute that is not sound is told, whatever else is wrong. -/
  attributes : ∀ placed ∈ (readEvents (markupOf content)).events, ∀ tag,
    placed.value = .opened tag ∨ placed.value = .empty tag → ∀ written ∈ tag.attributes,
      ∀ defect, attributeDefect? (lineIn content placed) written = some defect → defect ∈ told
  /-- Character data that cannot be read is told, whatever else is wrong. -/
  data : ∀ placed ∈ (readEvents (markupOf content)).events, ∀ raw fault,
    placed.value = .text raw → unescape raw = .error fault →
      .characterData (lineIn content placed) fault ∈ told

/-- All the defects there are, or that no element is there if nothing else is wrong, are all. -/
theorem tellsAll {content : String} {told : List Defect}
    (refused : (defectsOf content ≠ [] ∧ told = defectsOf content) ∨
      (defectsOf content = [] ∧ headings {} (eventsOf content) = [] ∧ told = [.missingRoot])) :
    TellsAll content told := by
  have without := missingRoot_not_mem_defectsOf content
  -- In both cases all defects of the events are told, of which there may be none.
  have included : ∀ defect ∈ defectsOf content, defect ∈ told := by
    intro defect member
    rcases refused with ⟨_, rfl⟩ | ⟨sound, _⟩
    · exact member
    · rw [sound] at member
      cases member
  constructor
  case nonempty =>
    rcases refused with ⟨unsound, rfl⟩ | ⟨_, _, rfl⟩
    · exact unsound
    · exact List.cons_ne_nil _ _
  case all =>
    intro unsound
    rcases refused with ⟨_, same⟩ | ⟨sound, _⟩
    · exact same
    · exact absurd sound unsound
  case missing =>
    rcases refused with ⟨unsound, rfl⟩ | ⟨sound, empty, rfl⟩
    · simp [without, unsound]
    · simp [sound, empty]
  case alone =>
    intro member
    rcases refused with ⟨_, rfl⟩ | ⟨_, _, same⟩
    · exact absurd member without
    · exact same
  case attributes =>
    -- The defects of a tag stand at the front of those of its event.
    intro placed member tag kind written among defect made
    refine included defect (mem_defectsOf member fun there => ?_)
    have inTag : defect ∈ tag.defects (lineIn content placed) :=
      List.mem_filterMap.2 ⟨written, among, made⟩
    rcases kind with opened | empty
    · rw [opened]
      exact inTag
    · rw [empty]
      exact List.mem_append_left _ inTag
  case data =>
    intro placed member raw fault kind unread
    refine included _ (mem_defectsOf member fun there => ?_)
    rw [kind]
    simp [Event.defects, unread]

/--
A text is parsed as a document exactly if nothing is wrong with its events, its end and its
elements, of which there is one at least. A text that is not is refused for all that is wrong: the
defects of its events in document order, the fault that ended reading, and the elements left open,
the innermost first; if nothing is wrong but that no element is there, just for that.

There is one entry for each of these, in the same order, with its line or the name of the element;
and from an entry can be told what it is about.
-/
theorem Document.every_defect_is_told (path : Path) (content : String) :
    ((∃ document, Document.parse path content = .ok document) ↔
      defectsOf content = [] ∧ headings {} (eventsOf content) ≠ []) ∧
    (∀ error, Document.parse path content = .error error →
      ∃ told entries, error = .malformed path entries ∧ TellsAll content told ∧
        List.Forall₂ Defect.Reads told entries) ∧
    ∀ (defect other : Defect) (entry : String), defect.Reads entry → other.Reads entry →
      defect.topic = other.topic := by
  -- Whatever is told, each entry is the text of its defect.
  have read : ∀ told : List Defect, List.Forall₂ Defect.Reads told (told.map Defect.message) :=
    fun told => List.forall₂_map_right_iff.2
      (List.forall₂_same.2 fun defect _ => defect.reads_message)
  refine ⟨?_, ?_, fun _ _ _ reads also => reads.topic_eq also⟩
  · rcases readRoot_cases content with
      ⟨unsound, made⟩ | ⟨sound, empty, made⟩ | ⟨sound, begun, root, made⟩
    · simp [Document.parse, made, unsound]
    · simp [Document.parse, made, empty]
    · simp [Document.parse, made, sound, begun]
  · intro error refused
    rcases readRoot_cases content with
      ⟨unsound, made⟩ | ⟨sound, empty, made⟩ | ⟨sound, begun, root, made⟩
    · simp only [Document.parse, made] at refused
      cases refused
      exact ⟨_, _, rfl, tellsAll (.inl ⟨unsound, rfl⟩), read _⟩
    · simp only [Document.parse, made] at refused
      cases refused
      exact ⟨_, _, rfl, tellsAll (.inr ⟨sound, empty, rfl⟩), read _⟩
    · -- Where nothing is wrong nothing is refused.
      simp only [Document.parse, made] at refused
      cases refused

end BeanWiring
