import BeanWiring.Proofs.Assembly.Draft

/-!
What the value of a node depends on.

Of the markers that a node has children for the first in their order wins, and of its children the
first one. Main statement: nothing else of the node has any part in its value, in the names drawn
for it and in what is written into that child; and the content of a node is worth the same wherever
it stands, be it in a property, in a constructor argument or in an array entry.
-/

namespace BeanWiring

/-- Whether two readings come to the same, whatever nodes they were of. -/
structure Extraction.Alike {α β γ : Type} (left : Extraction α β) (right : Extraction α γ) :
    Prop where
  outcome : left.outcome = right.outcome
  names : left.names = right.names
  notices : left.notices = right.notices

namespace Extraction.Alike

variable {α β γ δ ε : Type}

/-- Readings that come to the same as a third one come to the same. -/
theorem of_both {left : Extraction α β} {right : Extraction α γ} {third : Extraction α δ}
    (first : left.Alike third) (second : right.Alike third) : left.Alike right :=
  ⟨first.outcome.trans second.outcome.symm, first.names.trans second.names.symm,
    first.notices.trans second.notices.symm⟩

/-- What is made of the outcomes of like readings is alike. -/
theorem map {left : Extraction α β} {right : Extraction α γ} (alike : left.Alike right)
    (change : α → ε) : (left.map change).Alike (right.map change) :=
  ⟨congrArg (Except.map change) alike.outcome, alike.names, alike.notices⟩

end Extraction.Alike

namespace Element

/-- The first child of a name is the first of all its children that have the name. -/
theorem child?_eq_head? (element : Element) (name : String) :
    element.child? name = (element.childrenNamed name).head? :=
  (List.head?_filter ..).symm

/-- A change that keeps names makes the first child of a name the first one of the name again. -/
theorem bind_child?_updateChild? (element : Element) (name : String) (change : Element → Element)
    (keeps : ∀ child, (change child).name = child.name) :
    (element.updateChild? name change).bind (·.child? name) =
      (element.child? name).map change := by
  -- The search passes over the same children before and after the change.
  have among : ∀ children : List Element,
      (updateChild?.go name change children).bind (List.find? fun child => child.name == name) =
        (children.find? fun child => child.name == name).map change := by
    intro children
    induction children with
    | nil => rfl
    | cons first rest ih =>
      rw [updateChild?.go, List.find?_cons]
      cases named : first.name == name with
      | true => simp [keeps, named]
      | false => simpa [Option.bind_map, Function.comp_def, named] using ih
  rw [child?, ← among element.children, updateChild?, Option.bind_map]
  rfl

end Element

/-- A marker counts exactly if the node has no child for those in front of it, but one for it. -/
theorem Marker.of?_eq_some_iff (node : Element) (marker : Marker) :
    Marker.of? node = some marker ↔
      (∀ earlier ∈ Marker.all.takeWhile (· ≠ marker), node.child? earlier.name = none) ∧
        (node.child? marker.name).isSome := by
  -- The markers are asked in one order for all nodes.
  cases marker <;>
    simp [Marker.of?, Marker.all, List.find?_cons_eq_some, and_assoc, Option.isSome_iff_ne_none]

/--
What is read of the child that a marker stands for, whatever node it is a child of: the value, and
the child as it is written back.
-/
def readChild (context : Context) (names : Names) (child : Element) :
    Marker → Extraction Value Element
  | .reference => .done ((requiredAttribute context child "bean").map .beanRef) child names
  | .nothing => .done (.ok (.simple .null)) child names
  | .no => .done (.ok (.simple (.bool false))) child names
  | .yes => .done (.ok (.simple (.bool true))) child names
  | .inlineBean =>
    match child.attribute? "id" with
    | some id => .done (.ok (.beanRef id)) child names
    | none =>
      -- Without an id the child gets a free name.
      let (name, names) := names.nextFree context.taken
      ⟨.ok (.beanRef name), child.setAttribute "id" name, names, [.named context.bean name]⟩
  | .entries =>
    let entries := extractEntries context names [] child.children
    ⟨entries.outcome.map .array, { child with children := entries.node }, entries.names,
      entries.notices⟩
  | .code => .done (.ok (.code child.trimmedText)) child names

/-- An array that is the first one among the children is all of them that is read. -/
theorem extractArray_first (context : Context) (names : Names) {children : List Element}
    {array : Element} (first : (children.find? fun child => child.name == Marker.entries.name) =
      some array) :
    let entries := extractEntries context names [] array.children
    (extractArray context names children).Alike entries ∧
      ((extractArray context names children).node.find? fun child =>
        child.name == Marker.entries.name) = some { array with children := entries.node } := by
  -- The children in front are no arrays, and stay where they are.
  induction children with
  | nil => cases first
  | cons child rest ih =>
    obtain ⟨name, attributes, text, inner⟩ := child
    rw [List.find?_cons] at first
    rw [extractArray]
    cases named : name == Marker.entries.name with
    | true =>
      -- The search and the reading end with the same child.
      simp only [named, Option.some.injEq] at first
      subst first
      simp only [if_true]
      exact ⟨⟨rfl, rfl, rfl⟩, List.find?_cons_of_pos named⟩
    | false =>
      simp only [named] at first
      obtain ⟨alike, found⟩ := ih first
      simp only [Bool.false_eq_true, if_false]
      refine ⟨⟨alike.outcome, alike.names, alike.notices⟩, ?_⟩
      rw [List.find?_cons]
      simpa only [named] using found

/--
The value of a node is read of the first child for the marker that wins, which is written back.
-/
theorem extract_alike_readChild (context : Context) (names : Names) {node child : Element}
    {marker : Marker} (wins : Marker.of? node = some marker)
    (first : node.child? marker.name = some child) :
    (extract context names node).Alike (readChild context names child marker) ∧
      (extract context names node).node.child? marker.name =
        some (readChild context names child marker).node := by
  obtain ⟨name, attributes, text, children⟩ := node
  cases marker with
  | reference =>
    -- These markers leave the node as it is, and so its child.
    simp only [extract, wins, referenceOf, first]
    exact ⟨⟨rfl, rfl, rfl⟩, first⟩
  | nothing | no | yes =>
    simp only [extract, wins]
    exact ⟨⟨rfl, rfl, rfl⟩, first⟩
  | code =>
    simp only [extract, wins, codeOf, first]
    exact ⟨⟨rfl, rfl, rfl⟩, first⟩
  | inlineBean =>
    simp only [extract, wins, extractInline, readChild, first]
    cases child.attribute? "id" with
    | some id => exact ⟨⟨rfl, rfl, rfl⟩, first⟩
    | none =>
      -- The bean that is given its id is the one that was read.
      have given := Element.bind_child?_updateChild? ⟨name, attributes, text, children⟩
        Marker.inlineBean.name
        (fun bean => bean.setAttribute "id" (names.nextFree context.taken).1) fun child => rfl
      rw [first, Option.map_some] at given
      obtain ⟨marked, done, found⟩ := Option.bind_eq_some_iff.1 given
      refine ⟨⟨rfl, rfl, rfl⟩, ?_⟩
      simp only [done, Option.getD_some]
      exact found
  | entries =>
    -- The array that is written back is the one that was read.
    obtain ⟨alike, found⟩ := extractArray_first context names first
    simp only [extract, wins, readChild]
    exact ⟨⟨congrArg (Except.map Value.array) alike.outcome, alike.names, alike.notices⟩, found⟩

/-- Without any marker the value is the text of the first value child, or else of the node. -/
theorem extract_unmarked (context : Context) (names : Names) {node : Element}
    (unmarked : Marker.of? node = none) :
    extract context names node =
      .done (.ok (.ofText (trimBlanks ((node.child? "value").getD node).text))) node names := by
  obtain ⟨name, attributes, text, children⟩ := node
  -- Without a marker the text is read, that of the first value if there is one.
  simp only [extract, unmarked]
  rfl

/-- Nodes that agree in the child for the marker that wins are read alike. -/
theorem extract_alike_of_child? (context : Context) (names : Names) {node other : Element}
    {marker : Marker} (wins : Marker.of? node = some marker)
    (earlier : ∀ earlier ∈ Marker.all.takeWhile (· ≠ marker), other.child? earlier.name = none)
    (same : other.child? marker.name = node.child? marker.name) :
    (extract context names other).Alike (extract context names node) ∧
      (extract context names other).node.child? marker.name =
        (extract context names node).node.child? marker.name := by
  obtain ⟨_, there⟩ := (Marker.of?_eq_some_iff node marker).1 wins
  obtain ⟨child, first⟩ := Option.isSome_iff_exists.1 there
  -- The marker wins in the other node too, and both are read of one child.
  have also : Marker.of? other = some marker :=
    (Marker.of?_eq_some_iff other marker).2 ⟨earlier, by rw [same]; exact there⟩
  obtain ⟨left, written⟩ := extract_alike_readChild context names also (same.trans first)
  obtain ⟨right, back⟩ := extract_alike_readChild context names wins first
  exact ⟨left.of_both right, written.trans back.symm⟩

/-- Nodes with the same children of each name, in order, are read alike if their texts agree. -/
theorem extract_alike_of_childrenNamed (context : Context) (names : Names) {node other : Element}
    (rows : ∀ name, other.childrenNamed name = node.childrenNamed name)
    (text : Marker.of? node = none → other.text = node.text) :
    (extract context names other).Alike (extract context names node) := by
  have first : ∀ name, other.child? name = node.child? name := fun name => by
    rw [Element.child?_eq_head?, Element.child?_eq_head?, rows]
  have markers : Marker.of? other = Marker.of? node := by
    simp only [Marker.of?, first]
  cases wins : Marker.of? node with
  | some marker =>
    obtain ⟨earlier, _⟩ := (Marker.of?_eq_some_iff node marker).1 wins
    exact (extract_alike_of_child? context names wins
      (fun mark among => (first mark.name).trans (earlier mark among)) (first marker.name)).1
  | none =>
    -- The text that counts is that of one child, or else that of the node.
    have texts : ((other.child? "value").getD other).text =
        ((node.child? "value").getD node).text := by
      rw [first]
      cases node.child? "value" with
      | some child => rfl
      | none => exact text wins
    rw [extract_unmarked context names wins,
      extract_unmarked context names (markers.trans wins), texts]
    exact ⟨rfl, rfl, rfl⟩

/-- The value that is found in a value under keys, each of which is one of an array. -/
def Value.under? (value : Value) : List String → Option Value
  | [] => some value
  | key :: keys =>
    -- Each key leads one array deeper.
    match value.entries?.bind (Entries.get? key) with
    | some inner => inner.under? keys
    | none => none

/--
Whether reading a node comes, under keys, to an element that is read from some names: to the node
itself, or to an entry of its array, however deep, that no later one with the same key replaces.
-/
inductive ReadsUnder (context : Context) : Names → Element → List String → Names → Element → Prop
  | here (names : Names) (node : Element) : ReadsUnder context names node [] names node
  | entry {names drawn : Names} {node array entry inner : Element} {front behind : List Element}
      {key : String} {keys : List String} {before : List (String × Value)}
      (wins : Marker.of? node = some .entries)
      (first : node.child? Marker.entries.name = some array)
      (row : array.children = front ++ entry :: behind)
      (sound : (extractEntries context names [] front).outcome = .ok before)
      (named : entry.name = "entry") (keyed : entry.attribute? "key" = some key)
      (last : ∀ other ∈ behind, other.name = "entry" → other.attribute? "key" ≠ some key)
      (inside : ReadsUnder context (extractEntries context names [] front).names entry keys
        drawn inner) :
      ReadsUnder context names node (key :: keys) drawn inner

/-- What the names and the values read so far are behind one more element that is sound. -/
inductive EntryStep (context : Context) (names : Names) (entries : List (String × Value))
    (element : Element) : Names → List (String × Value) → Prop
  | other (differs : element.name ≠ "entry") : EntryStep context names entries element names entries
  | entry {key : String} {value : Value} (named : element.name = "entry")
      (keyed : element.attribute? "key" = some key)
      (read : (extract context names element).outcome = .ok value) :
      EntryStep context names entries element (extract context names element).names
        (Entries.set key value entries)

/-- One more element is a fault, or the others are read from what is there behind it. -/
theorem extractEntries_cons (context : Context) (names : Names) (entries : List (String × Value))
    (element : Element) :
    (∃ error, ∀ rest,
      (extractEntries context names entries (element :: rest)).outcome = .error error) ∨
      ∃ drawn known, EntryStep context names entries element drawn known ∧ ∀ rest,
        (extractEntries context names entries (element :: rest)).outcome =
            (extractEntries context drawn known rest).outcome ∧
          (extractEntries context names entries (element :: rest)).names =
            (extractEntries context drawn known rest).names := by
  by_cases named : element.name = "entry"
  · cases keyed : element.attribute? "key" with
    | none =>
      -- An entry without a key is not even read.
      refine .inl ⟨.missingAttribute context.bean element.name "key", fun rest => ?_⟩
      simp [extractEntries, named, requiredAttribute, keyed, Extraction.done]
    | some key =>
      cases read : (extract context names element).outcome with
      | error error =>
        refine .inl ⟨error, fun rest => ?_⟩
        simp [extractEntries, named, requiredAttribute, keyed, read]
      | ok value =>
        refine .inr ⟨_, _, .entry named keyed read, fun rest => ?_⟩
        simp [extractEntries, named, requiredAttribute, keyed, read]
  · refine .inr ⟨names, entries, .other named, fun rest => ?_⟩
    simp [extractEntries, named]

/-- Sound entries in front leave their values and names to the entries behind them. -/
theorem extractEntries_append (context : Context) {names : Names}
    {entries before : List (String × Value)} {front : List Element} (behind : List Element)
    (sound : (extractEntries context names entries front).outcome = .ok before) :
    (extractEntries context names entries (front ++ behind)).outcome =
      (extractEntries context (extractEntries context names entries front).names before
        behind).outcome := by
  -- The induction is on the entries in front, which are read from what those before them left.
  induction front generalizing names entries with
  | nil =>
    rw [extractEntries] at sound ⊢
    obtain rfl := Except.ok.inj sound
    rfl
  | cons element rest ih =>
    rcases extractEntries_cons context names entries element with
      ⟨error, failed⟩ | ⟨drawn, known, _, step⟩
    · rw [failed] at sound
      cases sound
    · rw [(step rest).1] at sound
      rw [List.cons_append, (step _).1, (step rest).2]
      exact ih sound

/-- The value under a key stays there if no entry behind it has the key. -/
theorem get?_extractEntries (context : Context) {names : Names} {key : String}
    {entries result : List (String × Value)} {behind : List Element}
    (last : ∀ other ∈ behind, other.name = "entry" → other.attribute? "key" ≠ some key)
    (sound : (extractEntries context names entries behind).outcome = .ok result) :
    Entries.get? key result = Entries.get? key entries := by
  induction behind generalizing names entries with
  | nil =>
    rw [extractEntries] at sound
    obtain rfl := Except.ok.inj sound
    rfl
  | cons element rest ih =>
    obtain ⟨here, later⟩ := List.forall_mem_cons.1 last
    rcases extractEntries_cons context names entries element with
      ⟨error, failed⟩ | ⟨drawn, known, kind, step⟩
    · rw [failed] at sound
      cases sound
    · rw [(step rest).1] at sound
      rw [ih later sound]
      cases kind with
      | other differs => rfl
      | @entry other value named keyed read =>
        -- The entry sets a value under another key.
        have apart : key ≠ other := by
          rintro rfl
          exact here named keyed
        exact Entries.get?_set_other apart value entries

/-- What is read of a sound entry is found under its key, and its fault is that of the node. -/
theorem extract_at_entry (context : Context) {names : Names} {node array entry : Element}
    {front behind : List Element} {key : String} {before : List (String × Value)}
    (wins : Marker.of? node = some .entries)
    (first : node.child? Marker.entries.name = some array)
    (row : array.children = front ++ entry :: behind)
    (sound : (extractEntries context names [] front).outcome = .ok before)
    (named : entry.name = "entry") (keyed : entry.attribute? "key" = some key)
    (last : ∀ other ∈ behind, other.name = "entry" → other.attribute? "key" ≠ some key) :
    let drawn := (extractEntries context names [] front).names
    (∀ error, (extract context drawn entry).outcome = .error error →
      (extract context names node).outcome = .error error) ∧
      ∀ value, (extract context names node).outcome = .ok value →
        ∃ found entries, (extract context drawn entry).outcome = .ok found ∧
          value = .array entries ∧ Entries.get? key entries = some found := by
  intro drawn
  -- The array is read up to the entry, then the entry, and then what is behind it.
  have whole : (extract context names node).outcome =
      (extractEntries context drawn before (entry :: behind)).outcome.map .array := by
    rw [(extract_alike_readChild context names wins first).1.outcome, ←
      extractEntries_append context (entry :: behind) sound, ← row]
    rfl
  have given : requiredAttribute context entry "key" = .ok key := by
    rw [requiredAttribute, keyed]
  rw [extractEntries] at whole
  simp only [named, beq_self_eq_true, if_true, given] at whole
  cases read : (extract context drawn entry).outcome with
  | error error =>
    simp only [read] at whole
    refine ⟨?_, ?_⟩
    · rintro _ ⟨⟩
      exact whole
    · intro value done
      rw [whole] at done
      cases done
  | ok found =>
    simp only [read] at whole
    refine ⟨?_, ?_⟩
    · intro error failed
      cases failed
    · intro value done
      rw [whole] at done
      obtain ⟨entries, others, rfl⟩ := ok_of_map done
      refine ⟨found, entries, rfl, rfl, ?_⟩
      rw [get?_extractEntries context last others, Entries.get?_set_self]

/--
What is read of an element inside a node is found under its keys, and its fault is the node's.
-/
theorem extract_under {context : Context} {names drawn : Names} {node inner : Element}
    {keys : List String} (reads : ReadsUnder context names node keys drawn inner) :
    (∀ error, (extract context drawn inner).outcome = .error error →
      (extract context names node).outcome = .error error) ∧
      ∀ value, (extract context names node).outcome = .ok value →
        ∃ found, (extract context drawn inner).outcome = .ok found ∧
          value.under? keys = some found := by
  -- The induction goes from the node inwards, one entry at a time.
  induction reads with
  | here names node => exact ⟨fun error failed => failed, fun value done => ⟨value, done, rfl⟩⟩
  | entry wins first row sound named keyed last _ ih =>
    obtain ⟨fails, gives⟩ := extract_at_entry context wins first row sound named keyed last
    refine ⟨fun error failed => fails error (ih.1 error failed), ?_⟩
    intro value done
    obtain ⟨inside, entries, read, rfl, there⟩ := gives value done
    obtain ⟨found, inner, under⟩ := ih.2 inside read
    refine ⟨found, inner, ?_⟩
    simpa [Value.under?, Value.entries?, there] using under

/--
The value of a node, its faults and the names drawn depend on one child only: the first one for the
marker that wins, which is written back the same. Without any marker they depend on the text of the
first value child, or else of the node, and no name is drawn. So neither the order of children of
different names counts nor anything else that a node has; and the content of a node is worth the
same in a property, in a constructor argument and in an entry at any depth.
-/
theorem extract_depends_only_on_winner (context : Context) (names : Names) (node : Element) :
    (∀ marker, Marker.of? node = some marker → ∀ other : Element,
      (∀ earlier ∈ Marker.all.takeWhile (· ≠ marker), other.child? earlier.name = none) →
      other.child? marker.name = node.child? marker.name →
        (extract context names other).Alike (extract context names node) ∧
          (extract context names other).node.child? marker.name =
            (extract context names node).node.child? marker.name) ∧
      (Marker.of? node = none → ∀ other, Marker.of? other = none →
        ((other.child? "value").getD other).text = ((node.child? "value").getD node).text →
          ∀ bean supply, (extract bean supply other).Alike
            { extract context names node with names := supply }) ∧
      (∀ other : Element, (∀ name, other.childrenNamed name = node.childrenNamed name) →
        (Marker.of? node = none → other.text = node.text) →
          (extract context names other).Alike (extract context names node)) ∧
      ∀ other : Element, other.children = node.children → other.text = node.text →
        (∀ name, other.attribute? "name" = some name →
          (extractProperty context names other).Alike
            ((extract context names node).map fun value => (⟨name, value⟩ : Property))) ∧
          (extractArgument context names other).Alike
            ((extract context names node).map fun value => (⟨value⟩ : Argument)) ∧
          ∀ start outer keys, ReadsUnder context start outer keys names other →
            (∀ error, (extract context names node).outcome = .error error →
              (extract context start outer).outcome = .error error) ∧
              ∀ value, (extract context start outer).outcome = .ok value →
                ∃ found, (extract context names node).outcome = .ok found ∧
                  value.under? keys = some found := by
  refine ⟨?_, ?_, ?_, ?_⟩
  · intro marker wins other earlier same
    exact extract_alike_of_child? context names wins earlier same
  · intro unmarked other also text bean supply
    rw [extract_unmarked context names unmarked, extract_unmarked bean supply also, text]
    exact ⟨rfl, rfl, rfl⟩
  · intro other rows text
    exact extract_alike_of_childrenNamed context names rows text
  · intro other children text
    -- Neither the name of a node nor its attributes are read for its value.
    have rows : ∀ name, other.childrenNamed name = node.childrenNamed name := fun name => by
      rw [Element.childrenNamed, children, Element.childrenNamed]
    have alike := extract_alike_of_childrenNamed context names rows fun _ => text
    refine ⟨?_, alike.map _, ?_⟩
    · intro name named
      have given : requiredAttribute context other "name" = .ok name := by
        rw [requiredAttribute, named]
      simp only [extractProperty, given]
      exact alike.map _
    · intro start outer keys reads
      rw [← alike.outcome]
      exact extract_under reads

end BeanWiring
