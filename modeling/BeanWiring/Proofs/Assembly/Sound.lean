import BeanWiring.Proofs.Assembly.Winner

/-!
When the value of a node can be read, and which fault is told if it cannot.

A reference has to name its bean, and every entry of an array needs a key and a value that can be
read in turn, whether or not a later entry replaces it. Both are told from the tree alone, so
neither the names drawn before nor those to be avoided have any part in it.
-/

namespace BeanWiring

namespace Element

/-- A property of all nodes follows when each has it as soon as the entries of its children do. -/
theorem induction_entries {motive : Element → Prop}
    (node : ∀ node : Element, (∀ array ∈ node.children, ∀ entry ∈ array.children, motive entry) →
      motive node) (element : Element) : motive element := by
  -- The children carry the property along, for the sake of the nodes above their parents.
  have both : motive element ∧ ∀ child ∈ element.children, motive child := by
    induction element using Element.induction with
    | node name attributes text children ih =>
      refine ⟨node _ ?_, fun child member => (ih child member).1⟩
      intro array member
      exact (ih array member).2
  exact both.1

/-- The first child of a name has the name. -/
theorem name_of_child? {element child : Element} {name : String}
    (first : element.child? name = some child) : child.name = name :=
  beq_iff_eq.1 (List.find?_some (p := fun child : Element => child.name == name) first)

/--
Whether the value of a node can be read: a reference names its bean, and in an array every entry
has a key and a value that can be read.
-/
inductive Sound : Element → Prop
  | plain {node : Element} (named : Marker.of? node ≠ some .reference)
      (single : Marker.of? node ≠ some .entries) : Sound node
  | reference {node reference : Element} (wins : Marker.of? node = some .reference)
      (first : node.child? Marker.reference.name = some reference)
      (names : (reference.attribute? "bean").isSome) : Sound node
  | array {node array : Element} (wins : Marker.of? node = some .entries)
      (first : node.child? Marker.entries.name = some array)
      (keyed : ∀ entry ∈ array.children, entry.name = "entry" → (entry.attribute? "key").isSome)
      (sound : ∀ entry ∈ array.children, entry.name = "entry" → Sound entry) : Sound node

/-- Whether an element in an array is sound: only entries can fail to be. -/
def SoundEntry (element : Element) : Prop :=
  element.name = "entry" → (element.attribute? "key").isSome ∧ element.Sound

/--
The fault of a node whose value cannot be read: in an array it is that of the first entry that is
not sound, whose key is looked for before its value.
-/
inductive FirstFault (bean : String) : Element → DefinitionError → Prop
  | reference {node reference : Element} (wins : Marker.of? node = some .reference)
      (first : node.child? Marker.reference.name = some reference)
      (lacks : reference.attribute? "bean" = none) :
      FirstFault bean node (.missingAttribute bean "ref" "bean")
  | key {node array entry : Element} {front behind : List Element}
      (wins : Marker.of? node = some .entries)
      (first : node.child? Marker.entries.name = some array)
      (row : array.children = front ++ entry :: behind)
      (sound : ∀ other ∈ front, other.SoundEntry) (named : entry.name = "entry")
      (lacks : entry.attribute? "key" = none) :
      FirstFault bean node (.missingAttribute bean "entry" "key")
  | value {node array entry : Element} {front behind : List Element} {error : DefinitionError}
      (wins : Marker.of? node = some .entries)
      (first : node.child? Marker.entries.name = some array)
      (row : array.children = front ++ entry :: behind)
      (sound : ∀ other ∈ front, other.SoundEntry) (named : entry.name = "entry")
      (keyed : (entry.attribute? "key").isSome) (inside : FirstFault bean entry error) :
      FirstFault bean node error

end Element

section Extract

variable {context : Context} {node : Element}

/-- Elements of an array can be read if each entry has a key and a value that can be read. -/
theorem extractEntries_ok {elements : List Element}
    (keyed : ∀ entry ∈ elements, entry.name = "entry" → (entry.attribute? "key").isSome)
    (read : ∀ entry ∈ elements, entry.name = "entry" → ∀ names,
      ∃ value, (extract context names entry).outcome = .ok value)
    (names : Names) (entries : List (String × Value)) :
    ∃ result, (extractEntries context names entries elements).outcome = .ok result := by
  -- The induction is on the elements, for all names and values that those in front have left.
  induction elements generalizing names entries with
  | nil => exact ⟨entries, by rw [extractEntries]; rfl⟩
  | cons element rest ih =>
    obtain ⟨here, later⟩ := List.forall_mem_cons.1 keyed
    obtain ⟨value, others⟩ := List.forall_mem_cons.1 read
    by_cases named : element.name = "entry"
    · -- The rest is read with the names and the values that this entry leaves.
      obtain ⟨key, given⟩ := Option.isSome_iff_exists.1 (here named)
      obtain ⟨found, outcome⟩ := value named names
      obtain ⟨result, sound⟩ := ih later others (extract context names element).names
        (Entries.set key found entries)
      refine ⟨result, ?_⟩
      simp [extractEntries, named, requiredAttribute, given, outcome, sound]
    · -- What is no entry is passed over.
      obtain ⟨result, sound⟩ := ih later others names entries
      exact ⟨result, by simp [extractEntries, named, sound]⟩

/-- A value that can be read is read, whatever names are drawn for it. -/
theorem Element.Sound.extract (sound : node.Sound) (context : Context) (names : Names) :
    ∃ value, (extract context names node).outcome = .ok value := by
  induction sound generalizing names with
  | @plain node named single =>
    -- Only references and arrays can fail, so all that is left is what a marker says by itself.
    obtain ⟨name, attributes, text, children⟩ := node
    simp only [BeanWiring.extract]
    cases kind : Marker.of? ⟨name, attributes, text, children⟩ with
    | none => exact ⟨_, rfl⟩
    | some marker =>
      cases marker with
      | reference => exact absurd kind named
      | entries => exact absurd kind single
      | nothing | no | yes | code => exact ⟨_, rfl⟩
      | inlineBean =>
        -- An inline bean is referred to by its id or by a drawn name, and there is always one.
        simp only [extractInline]
        split
        · exact ⟨_, rfl⟩
        · split <;> exact ⟨_, rfl⟩
  | reference wins first named =>
    obtain ⟨bean, given⟩ := Option.isSome_iff_exists.1 named
    rw [(extract_alike_readChild context names wins first).1.outcome]
    exact ⟨.beanRef bean, by
      simp [readChild, requiredAttribute, given, Extraction.done, Except.map]⟩
  | array wins first keyed _ ih =>
    -- The induction gives a value of each entry for all names, whatever those in front drew.
    obtain ⟨entries, read⟩ := extractEntries_ok keyed (fun entry member named names =>
      ih entry member named names) names []
    rw [(extract_alike_readChild context names wins first).1.outcome]
    exact ⟨.array entries, by simp [readChild, read, Except.map]⟩

/-- Sound elements of an array are read. -/
theorem extractEntries_sound {front : List Element} (sound : ∀ other ∈ front, other.SoundEntry)
    (context : Context) (names : Names) :
    ∃ before, (extractEntries context names [] front).outcome = .ok before :=
  extractEntries_ok (fun entry member named => (sound entry member named).1)
    (fun entry member named names => (sound entry member named).2.extract context names) names []

/-- The fault of a value that cannot be read is told, whatever names are drawn before. -/
theorem Element.FirstFault.extract {error : DefinitionError}
    (fault : node.FirstFault context.bean error) (names : Names) :
    (extract context names node).outcome = .error error := by
  induction fault generalizing names with
  | reference wins first lacks =>
    rw [(extract_alike_readChild context names wins first).1.outcome]
    simp only [readChild, requiredAttribute, lacks, Element.name_of_child? first]
    rfl
  | @key node array entry front behind wins first row sound named lacks =>
    -- The entries in front are read, and then the one without a key is met.
    obtain ⟨before, read⟩ := extractEntries_sound sound context names
    rw [(extract_alike_readChild context names wins first).1.outcome, readChild, row]
    simp only [extractEntries_append context (entry :: behind) read]
    simp [extractEntries, named, requiredAttribute, lacks, Extraction.done, Except.map]
  | @value node array entry front behind error wins first row sound named keyed _ ih =>
    -- The entry has its key, so its value is read next, and tells the fault.
    obtain ⟨before, read⟩ := extractEntries_sound sound context names
    obtain ⟨key, given⟩ := Option.isSome_iff_exists.1 keyed
    rw [(extract_alike_readChild context names wins first).1.outcome, readChild, row]
    simp only [extractEntries_append context (entry :: behind) read]
    simp [extractEntries, named, requiredAttribute, given, ih, Except.map]

end Extract

namespace Element

/-- Of elements that are each sound or at fault either all are sound or there is a first fault. -/
theorem soundEntries_or_first (bean : String) {elements : List Element}
    (each : ∀ entry ∈ elements, entry.Sound ∨ ∃ error, entry.FirstFault bean error) :
    (∀ entry ∈ elements, entry.SoundEntry) ∨
      ∃ front entry behind, elements = front ++ entry :: behind ∧
        (∀ other ∈ front, other.SoundEntry) ∧ entry.name = "entry" ∧
        (entry.attribute? "key" = none ∨
          (entry.attribute? "key").isSome ∧ ∃ error, entry.FirstFault bean error) := by
  -- The induction is on the elements: the first of them is at fault, or it is passed.
  induction elements with
  | nil => exact .inl (by simp)
  | cons element rest ih =>
    obtain ⟨here, later⟩ := List.forall_mem_cons.1 each
    by_cases sound : element.SoundEntry
    · -- A sound element only moves the first fault of the rest one further back.
      rcases ih later with all | ⟨front, entry, behind, rfl, before, named, cause⟩
      · exact .inl (List.forall_mem_cons.2 ⟨sound, all⟩)
      · exact .inr ⟨element :: front, entry, behind, rfl, List.forall_mem_cons.2 ⟨sound, before⟩,
          named, cause⟩
    · obtain ⟨named, wrong⟩ := Classical.not_imp.1 sound
      refine .inr ⟨[], element, rest, rfl, by simp, named, ?_⟩
      -- A key that is there leaves only the value to be at fault.
      cases key : element.attribute? "key" with
      | none => exact .inl rfl
      | some given =>
        rcases here with fine | fault
        · exact absurd ⟨by simp [key], fine⟩ wrong
        · exact .inr ⟨rfl, fault⟩

/-- The value of a node can be read, or there is a first fault in it. -/
theorem sound_or_firstFault (bean : String) (node : Element) :
    node.Sound ∨ ∃ error, node.FirstFault bean error := by
  induction node using Element.induction_entries with
  | node node ih =>
    -- A reference looks at one attribute, an array at its entries, and nothing else can fail.
    by_cases single : Marker.of? node = some .reference
    · obtain ⟨_, there⟩ := (Marker.of?_eq_some_iff node _).1 single
      obtain ⟨reference, first⟩ := Option.isSome_iff_exists.1 there
      cases names : reference.attribute? "bean" with
      | none => exact .inr ⟨_, .reference single first names⟩
      | some bean => exact .inl (.reference single first (by simp [names]))
    · by_cases several : Marker.of? node = some .entries
      · obtain ⟨_, there⟩ := (Marker.of?_eq_some_iff node _).1 several
        obtain ⟨array, first⟩ := Option.isSome_iff_exists.1 there
        rcases soundEntries_or_first bean (ih array (List.mem_of_find?_eq_some first)) with
          all | ⟨front, entry, behind, row, sound, named, lacks | ⟨keyed, error, fault⟩⟩
        · exact .inl (.array several first (fun entry member named => (all entry member named).1)
            fun entry member named => (all entry member named).2)
        · exact .inr ⟨_, .key several first row sound named lacks⟩
        · exact .inr ⟨error, .value several first row sound named keyed fault⟩
      · exact .inl (.plain single several)

end Element

/-- A value is read exactly if it can be. -/
theorem extract_ok_iff (context : Context) (names : Names) (node : Element) :
    (∃ value, (extract context names node).outcome = .ok value) ↔ node.Sound := by
  constructor
  · rintro ⟨value, read⟩
    -- A node with a fault would have told it.
    refine (node.sound_or_firstFault context.bean).resolve_right ?_
    rintro ⟨error, fault⟩
    rw [fault.extract names] at read
    cases read
  · intro sound
    exact sound.extract context names

/-- A fault is told exactly if it is the first one. -/
theorem extract_error_iff (context : Context) (names : Names) (node : Element)
    (error : DefinitionError) :
    (extract context names node).outcome = .error error ↔ node.FirstFault context.bean error := by
  constructor
  · intro failed
    rcases node.sound_or_firstFault context.bean with sound | ⟨other, fault⟩
    · obtain ⟨value, read⟩ := sound.extract context names
      rw [read] at failed
      cases failed
    · -- Only one fault is told, so this is the first one.
      have told := fault.extract names
      rw [failed] at told
      obtain rfl := Except.error.inj told
      exact fault
  · intro fault
    exact fault.extract names

end BeanWiring
