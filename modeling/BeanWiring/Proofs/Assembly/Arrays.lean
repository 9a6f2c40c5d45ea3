import BeanWiring.Proofs.Assembly.Sound
import BeanWiring.Proofs.Entries

/-!
Arrays are read as maps in the order of their entries.

Main statement: in the value of a node every array, however deep, has the keys of the entries of
one element, each where it first came, and under each key what the last entry with the key is read
as. The value can be read exactly if all entries are sound, and the first that is not tells its
fault.
-/

namespace BeanWiring

namespace Element

/-- The keys of the entries among elements, in document order. -/
def entryKeys (elements : List Element) : List String :=
  (elements.filter fun element => element.name == "entry").filterMap fun entry =>
    entry.attribute? "key"

/-- An entry in front of elements gives its key in front of theirs. -/
theorem entryKeys_entry {entry : Element} {key : String} (named : entry.name = "entry")
    (keyed : entry.attribute? "key" = some key) (rest : List Element) :
    entryKeys (entry :: rest) = key :: entryKeys rest := by
  simp [entryKeys, named, keyed]

/-- An element that is no entry gives no key. -/
theorem entryKeys_other {element : Element} (other : element.name ≠ "entry")
    (rest : List Element) : entryKeys (element :: rest) = entryKeys rest := by
  simp [entryKeys, other]

/-- Whether an entry has a key and no element behind it is an entry with the same key. -/
structure LastUnder (entry : Element) (key : String) (behind : List Element) : Prop where
  named : entry.name = "entry"
  keyed : entry.attribute? "key" = some key
  last : ∀ other ∈ behind, other.name = "entry" → other.attribute? "key" ≠ some key

/-- An element without the key among its entries gives none of these keys. -/
theorem not_mem_entryKeys {elements : List Element} {key : String}
    (absent : key ∉ entryKeys elements) :
    ∀ other ∈ elements, other.name = "entry" → other.attribute? "key" ≠ some key := by
  -- Such an entry would be among those whose keys are listed.
  intro other inside named keyed
  have among : other ∈ elements.filter fun element => element.name == "entry" :=
    List.mem_filter.2 ⟨inside, by simp [named]⟩
  exact absent (List.mem_filterMap.2 ⟨other, among, keyed⟩)

/-- A key that entries have is that of a last one among them. -/
theorem exists_lastUnder {elements : List Element} {key : String}
    (member : key ∈ entryKeys elements) :
    ∃ front entry behind, elements = front ++ entry :: behind ∧ entry.LastUnder key behind := by
  -- The induction is on the elements: the last one is behind the first, or the first is it.
  induction elements with
  | nil => cases member
  | cons element rest ih =>
    by_cases later : key ∈ entryKeys rest
    · obtain ⟨front, entry, behind, rfl, last⟩ := ih later
      exact ⟨element :: front, entry, behind, rfl, last⟩
    · -- If no later entry has the key, the first element has to be the one that has it.
      by_cases named : element.name = "entry"
      · cases keyed : element.attribute? "key" with
        | none => exact absurd member (by simpa [entryKeys, named, keyed] using later)
        | some other =>
          rw [entryKeys_entry named keyed] at member
          obtain rfl := (List.mem_cons.1 member).resolve_right later
          exact ⟨[], element, rest, rfl, named, keyed, not_mem_entryKeys later⟩
      · rw [entryKeys_other named] at member
        exact absurd member later

end Element

/-- Reading sets the values of entries under their keys, one after another. -/
theorem extractEntries_eq_setAll {context : Context} {names : Names} {elements : List Element}
    {entries result : List (String × Value)}
    (sound : (extractEntries context names entries elements).outcome = .ok result) :
    ∃ rows, Entries.keys rows = Element.entryKeys elements ∧
      result = Entries.setAll entries rows := by
  -- The induction is on the elements, of which each entry adds a row.
  induction elements generalizing names entries with
  | nil =>
    rw [extractEntries] at sound
    exact ⟨[], rfl, (Except.ok.inj sound).symm⟩
  | cons element rest ih =>
    rcases extractEntries_cons context names entries element with
      ⟨error, failed⟩ | ⟨drawn, known, kind, step⟩
    · rw [failed] at sound
      cases sound
    · rw [(step rest).1] at sound
      obtain ⟨rows, keys, rfl⟩ := ih sound
      -- What is no entry adds no row, and an entry adds one in front of those behind it.
      cases kind with
      | other differs => exact ⟨rows, keys.trans (Element.entryKeys_other differs rest).symm, rfl⟩
      | @entry key value named keyed _ =>
        refine ⟨(key, value) :: rows, ?_, rfl⟩
        rw [Element.entryKeys_entry named keyed, ← keys]
        rfl

/-- A value that is an array is read of the first array of its node. -/
theorem exists_array_of_extract {context : Context} {names : Names} {node : Element}
    {entries : List (String × Value)}
    (read : (extract context names node).outcome = .ok (.array entries)) :
    Marker.of? node = some .entries ∧ ∃ array, node.child? Marker.entries.name = some array ∧
      (extractEntries context names [] array.children).outcome = .ok entries := by
  cases wins : Marker.of? node with
  | none =>
    rw [extract_unmarked context names wins] at read
    cases read
  | some marker =>
    obtain ⟨_, there⟩ := (Marker.of?_eq_some_iff node marker).1 wins
    obtain ⟨child, first⟩ := Option.isSome_iff_exists.1 there
    rw [(extract_alike_readChild context names wins first).1.outcome] at read
    -- Of what the markers stand for only an array is read as one.
    cases marker with
    | entries =>
      obtain ⟨found, sound, same⟩ := ok_of_map read
      obtain rfl := Value.array.inj same
      exact ⟨rfl, child, first, sound⟩
    | reference =>
      obtain ⟨bean, _, same⟩ := ok_of_map read
      cases same
    | nothing | no | yes | code => cases read
    | inlineBean =>
      simp only [readChild] at read
      split at read <;> cases read

/--
Whether entries are what an array is read as from some names: they have the keys of its entries in
the order in which they first come, and under each key what the last entry with it is read as.
-/
structure Element.ReadsAs (context : Context) (names : Names) (array : Element)
    (entries : List (String × Value)) : Prop where
  distinct : (Entries.keys entries).Nodup
  order : Entries.keys entries = (Element.entryKeys array.children).eraseDups
  last : ∀ key value, (key, value) ∈ entries ↔
    ∃ front entry behind, array.children = front ++ entry :: behind ∧
      entry.LastUnder key behind ∧
      (extract context (extractEntries context names [] front).names entry).outcome = .ok value

/-- In front of an entry of an array that is read the entries are read. -/
theorem extractEntries_front {context : Context} {names : Names} {node array entry : Element}
    {front behind : List Element} {value : Value}
    (read : (extract context names node).outcome = .ok value)
    (wins : Marker.of? node = some .entries)
    (first : node.child? Marker.entries.name = some array)
    (row : array.children = front ++ entry :: behind) :
    ∃ before, (extractEntries context names [] front).outcome = .ok before := by
  have sound := (extract_ok_iff context names node).1 ⟨value, read⟩
  cases sound with
  | plain _ single => exact absurd wins single
  | reference other _ _ =>
    rw [wins] at other
    cases other
  | array _ also keyed fine =>
    rw [first] at also
    obtain rfl := Option.some.inj also
    -- What stands in front of the entry stands in the array.
    have inside : ∀ other ∈ front, other ∈ array.children := fun other member => by
      rw [row]
      exact List.mem_append_left _ member
    exact extractEntries_sound (fun other member named =>
      ⟨keyed other (inside other member) named, fine other (inside other member) named⟩) _ _

/-- A value that is an array is what the first array of its node is read as. -/
theorem readsAs_of_extract {context : Context} {names : Names} {node array : Element}
    {entries : List (String × Value)}
    (read : (extract context names node).outcome = .ok (.array entries))
    (first : node.child? Marker.entries.name = some array) :
    array.ReadsAs context names entries := by
  obtain ⟨wins, other, also, sound⟩ := exists_array_of_extract read
  obtain rfl := Option.some.inj (first.symm.trans also)
  obtain ⟨rows, keys, rfl⟩ := extractEntries_eq_setAll sound
  have distinct : (Entries.keys (Entries.setAll [] rows)).Nodup :=
    Entries.nodup_keys_setAll (by simp [Entries.keys]) rows
  -- Keys that are set in order stand where each first came.
  have order : Entries.keys (Entries.setAll [] rows) =
      (Element.entryKeys array.children).eraseDups := by
    rw [Entries.keys_setAll, keys]
    simp [Entries.keys, List.removeAll]
  -- The last entry with a key is read from what those in front of it leave.
  have found : ∀ {front entry behind key}, array.children = front ++ entry :: behind →
      entry.LastUnder key behind →
      ∃ value, (extract context (extractEntries context names [] front).names entry).outcome =
          .ok value ∧ Entries.get? key (Entries.setAll [] rows) = some value := by
    intro front entry behind key row under
    obtain ⟨before, fine⟩ := extractEntries_front read wins first row
    obtain ⟨value, _, outcome, same, there⟩ :=
      (extract_at_entry context wins first row fine under.named under.keyed under.last).2 _ read
    obtain rfl := Value.array.inj same
    exact ⟨value, outcome, there⟩
  refine ⟨distinct, order, fun key value => ?_⟩
  rw [← Entries.get?_eq_some_iff distinct]
  constructor
  · intro there
    have member : key ∈ Element.entryKeys array.children := by
      have known := List.mem_map_of_mem (f := (·.1)) ((Entries.get?_eq_some_iff distinct).1 there)
      exact List.mem_eraseDups.1 (order ▸ known)
    obtain ⟨front, entry, behind, row, under⟩ := Element.exists_lastUnder member
    obtain ⟨other, outcome, same⟩ := found row under
    rw [there] at same
    obtain rfl := Option.some.inj same
    exact ⟨front, entry, behind, row, under, outcome⟩
  · -- What the last entry is read as is found under its key, and nothing else is.
    rintro ⟨front, entry, behind, row, under, outcome⟩
    obtain ⟨other, also, there⟩ := found row under
    rw [outcome] at also
    obtain rfl := Except.ok.inj also
    exact there

/-- Whether a value has another one in it, under the keys of the entries around it. -/
inductive Value.Holds : Value → List String → Value → Prop
  | here (value : Value) : Holds value [] value
  | entry {entries : List (String × Value)} {key : String} {value inner : Value}
      {keys : List String} (member : (key, value) ∈ entries) (inside : Holds value keys inner) :
      Holds (.array entries) (key :: keys) inner

/-- An array that a value holds is what an element is read as that its node comes to. -/
theorem readsAs_of_holds {context : Context} {names : Names} {node : Element} {value : Value}
    {keys : List String} {entries : List (String × Value)}
    (read : (extract context names node).outcome = .ok value)
    (holds : value.Holds keys (.array entries)) :
    ∃ drawn inner array, ReadsUnder context names node keys drawn inner ∧
      Marker.of? inner = some .entries ∧ inner.child? Marker.entries.name = some array ∧
      array.ReadsAs context drawn entries := by
  -- The induction goes from the value inwards, one entry at a time.
  generalize whole : Value.array entries = found at holds
  induction holds generalizing names node with
  | here value =>
    subst whole
    obtain ⟨wins, array, first, _⟩ := exists_array_of_extract read
    exact ⟨names, node, array, .here names node, wins, first, readsAs_of_extract read first⟩
  | @entry entries key value inner keys member _ ih =>
    -- The value under a key was read from the last entry with it, so the way goes on from there.
    obtain ⟨wins, array, first, _⟩ := exists_array_of_extract read
    obtain ⟨front, entry, behind, row, under, outcome⟩ :=
      ((readsAs_of_extract read first).last key value).1 member
    obtain ⟨before, fine⟩ := extractEntries_front read wins first row
    obtain ⟨drawn, element, deeper, under', rest⟩ := ih outcome whole
    exact ⟨drawn, element, deeper,
      .entry wins first row fine under.named under.keyed under.last under', rest⟩

/--
In the value of a node every array, however deep, is a map in the order of its entries: its keys
are all different and stand where they first come, and under each is what the last entry with it
is read as. A value can be read exactly if it is sound, which in an array all entries have to be,
those too that are replaced; and else the fault that is told is the first one, in document order
and in an entry its key before its value.
-/
theorem arrays_are_ordered_maps (context : Context) (names : Names) (node : Element) :
    (∀ value, (extract context names node).outcome = .ok value →
      ∀ keys entries, value.Holds keys (.array entries) →
        ∃ drawn inner array, ReadsUnder context names node keys drawn inner ∧
          Marker.of? inner = some .entries ∧ inner.child? Marker.entries.name = some array ∧
          array.ReadsAs context drawn entries) ∧
      ((∃ value, (extract context names node).outcome = .ok value) ↔ node.Sound) ∧
      ∀ error, (extract context names node).outcome = .error error ↔
        node.FirstFault context.bean error := by
  refine ⟨?_, extract_ok_iff context names node, extract_error_iff context names node⟩
  -- An array inside a value was itself read as an array, by the same rules.
  intro value read keys entries holds
  exact readsAs_of_holds read holds

end BeanWiring
