import BeanWiring.Proofs.Assembly.Sound

/-!
Reading again what was read.

A reading that ends, well or with a fault, has given an id to each inline bean that it came to, so
a second one finds all of these named. Main statement: it has the same outcome, draws no name and
changes nothing, whatever was drawn in between; and which fault there is, if any, depends on neither
the names drawn before nor those to be avoided.
-/

namespace BeanWiring

/-- Whether an element differs from another at most inside its children. -/
structure Element.SameOutside (left right : Element) : Prop where
  name : left.name = right.name
  attributes : left.attributes = right.attributes
  children : left.children.map Element.name = right.children.map Element.name

namespace Element.SameOutside

variable {left right : Element}

/-- An element is the same as itself. -/
theorem refl (element : Element) : element.SameOutside element :=
  ⟨rfl, rfl, rfl⟩

/-- The attributes of an element are the same. -/
theorem attribute? (same : left.SameOutside right) (key : String) :
    left.attribute? key = right.attribute? key := by
  rw [Element.attribute?, Element.attribute?, same.attributes]

/-- The marker that counts is told by the names of the children. -/
theorem marker (same : left.SameOutside right) : Marker.of? left = Marker.of? right := by
  -- Whether there is a child of a name is all that markers are told by.
  have there : ∀ (element : Element) (name : String),
      (element.child? name).isSome = (element.children.map Element.name).contains name := by
    intro element name
    rw [Element.child?]
    induction element.children with
    | nil => rfl
    | cons child rest ih =>
      by_cases named : child.name = name
      · simp [named]
      · simpa [List.find?_cons, named, Ne.symm named] using ih
  simp only [Marker.of?, there, same.children]

end Element.SameOutside

/-- Changing a child but not its name is no change outside the children. -/
theorem Element.updateChild?_sameOutside {element changed : Element} {name : String}
    {change : Element → Element} (done : element.updateChild? name change = some changed)
    (keeps : ∀ child, (change child).name = child.name) : changed.SameOutside element := by
  obtain ⟨children, among, rfl⟩ := Option.map_eq_some_iff.1 done
  refine ⟨rfl, rfl, ?_⟩
  -- The search passes over the children in front, and leaves those behind alone.
  have names : ∀ front others, updateChild?.go name change front = some others →
      others.map Element.name = front.map Element.name := by
    intro front
    induction front with
    | nil => intro others found; cases found
    | cons child rest ih =>
      intro others found
      rw [updateChild?.go] at found
      split at found
      · obtain rfl := Option.some.inj found
        simp [keeps]
      · obtain ⟨behind, later, rfl⟩ := Option.map_eq_some_iff.1 found
        simp [ih behind later]
  exact names _ _ among

/-- A node whose value is an inline bean is read for it. -/
theorem extract_inline {node : Element} (context : Context) (names : Names)
    (wins : Marker.of? node = some .inlineBean) :
    extract context names node = extractInline context names node := by
  cases node
  simp only [extract, wins]

/-- An inline bean that has an id is referred to by it. -/
theorem extractInline_named {node bean : Element} {id : String}
    (first : node.child? Marker.inlineBean.name = some bean)
    (named : bean.attribute? "id" = some id) (context : Context) (names : Names) :
    extractInline context names node = .done (.ok (.beanRef id)) node names := by
  simp only [extractInline, first, named]

/-- An element that has been given an id has it. -/
theorem Element.attribute?_setAttribute (element : Element) (key value : String) :
    (element.setAttribute key value).attribute? key = some value :=
  Entries.get?_set_self key value element.attributes

/-- An inline bean without an id is given one: the node then has it, and is read by it. -/
theorem extractInline_again {node : Element} (context later : Context) (names others : Names)
    (wins : Marker.of? node = some .inlineBean) :
    let first := extractInline context names node
    first.node.SameOutside node ∧
      extract later others first.node = .done first.outcome first.node others := by
  obtain ⟨_, there⟩ := (Marker.of?_eq_some_iff node _).1 wins
  obtain ⟨bean, first⟩ := Option.isSome_iff_exists.1 there
  cases named : bean.attribute? "id" with
  | some id =>
    -- With its own id the bean is read twice alike.
    rw [extractInline_named first named]
    refine ⟨.refl node, ?_⟩
    exact (extract_inline later others wins).trans (extractInline_named first named later others)
  | none =>
    -- The child that is searched for is the very one that the id is set on.
    have given := Element.bind_child?_updateChild? node Marker.inlineBean.name
      (fun bean => bean.setAttribute "id" (names.nextFree context.taken).1) fun _ => rfl
    rw [first, Option.map_some] at given
    obtain ⟨marked, done, found⟩ := Option.bind_eq_some_iff.1 given
    have same : marked.SameOutside node := Element.updateChild?_sameOutside done fun _ => rfl
    have has := bean.attribute?_setAttribute "id" (names.nextFree context.taken).1
    simp only [extractInline, first, named, done, Option.getD_some]
    -- The bean that has the id now is the first one again.
    refine ⟨same, ?_⟩
    rw [extract_inline later others (same.marker.trans wins), extractInline_named found has]

mutual

/-- Reading a node changes nothing outside its children. -/
theorem extract_sameOutside (context : Context) (names : Names) : ∀ node : Element,
    (extract context names node).node.SameOutside node
  | ⟨name, attributes, text, children⟩ => by
    cases kind : Marker.of? ⟨name, attributes, text, children⟩ with
    | none =>
      simp only [extract, kind]
      exact .refl _
    | some marker =>
      cases marker with
      -- Only an inline bean and an array change anything in the node.
      | reference | nothing | no | yes | code =>
        simp only [extract, kind]
        exact .refl _
      | inlineBean =>
        rw [extract_inline context names kind]
        exact (extractInline_again context context names names kind).1
      | entries =>
        simp only [extract, kind]
        exact ⟨rfl, rfl, extractArray_names context names children⟩

/-- Reading an array changes the name of no element. -/
theorem extractArray_names (context : Context) (names : Names) : ∀ children : List Element,
    (extractArray context names children).node.map Element.name = children.map Element.name
  | [] => rfl
  | ⟨name, attributes, text, inner⟩ :: rest => by
    simp only [extractArray]
    -- Reading may change what is inside the array, but not its name.
    split
    · rfl
    · simp [extractArray_names context names rest]

end

mutual

/-- A node that was read is read with the same outcome, and is left as it is. -/
theorem extract_again (context : Context) (taken : List String) (names others : Names) :
    ∀ node : Element, extract ⟨context.bean, taken⟩ others (extract context names node).node =
      .done (extract context names node).outcome (extract context names node).node others
  | ⟨name, attributes, text, children⟩ => by
    cases kind : Marker.of? ⟨name, attributes, text, children⟩ with
    | none => simp only [extract, kind, Extraction.done]
    | some marker =>
      cases marker with
      | nothing | no | yes | code => simp only [extract, kind, Extraction.done]
      | reference =>
        -- Of those for whom it is read only the bean is named in a fault.
        simp only [extract, kind, Extraction.done]
        rfl
      | inlineBean =>
        rw [extract_inline context names kind]
        exact (extractInline_again context ⟨context.bean, taken⟩ names others kind).2
      | entries =>
        -- Ids set further down hide no marker, so it is an array the second time too.
        have still := (extract_sameOutside context names ⟨name, attributes, text, children⟩).marker
        have array := extractArray_again context taken names others children
        simp only [extract, kind] at still ⊢
        simp only [still, array, Extraction.done]

/-- An array that was read is read with the same outcome, and is left as it is. -/
theorem extractArray_again (context : Context) (taken : List String) (names others : Names) :
    ∀ children : List Element,
      extractArray ⟨context.bean, taken⟩ others (extractArray context names children).node =
        .done (extractArray context names children).outcome
          (extractArray context names children).node others
  | [] => by simp only [extractArray, Extraction.done]
  | ⟨name, attributes, text, inner⟩ :: rest => by
    by_cases array : (name == Marker.entries.name) = true
    · have entries := extractEntries_again context taken names others [] inner
      simp only [extractArray, if_pos array, entries, Extraction.done]
    · -- The children in front of the array are passed over both times.
      have behind := extractArray_again context taken names others rest
      simp only [extractArray, if_neg array, behind, Extraction.done]

/-- Entries that were read are read with the same outcome, and are left as they are. -/
theorem extractEntries_again (context : Context) (taken : List String) (names others : Names)
    (before : List (String × Value)) : ∀ elements : List Element,
      extractEntries ⟨context.bean, taken⟩ others before
          (extractEntries context names before elements).node =
        .done (extractEntries context names before elements).outcome
          (extractEntries context names before elements).node others
  | [] => by simp only [extractEntries, Extraction.done]
  | entry :: rest => by
    by_cases named : (entry.name == "entry") = true
    · have same := extract_sameOutside context names entry
      have again := extract_again context taken names others entry
      cases keyed : entry.attribute? "key" with
      | none =>
        -- An entry without a key ends both readings before its value is looked at.
        simp only [extractEntries, if_pos named, requiredAttribute, keyed, Extraction.done]
      | some key =>
        have key' := (same.attribute? "key").trans keyed
        have named' : ((extract context names entry).node.name == "entry") = true := by
          rw [same.name, named]
        cases read : (extract context names entry).outcome with
        | error error =>
          -- Both readings end here; the entries behind were never looked at.
          simp only [extractEntries, if_pos named, requiredAttribute, keyed, read]
          simp only [if_pos named', key', again, read, Extraction.done]
        | ok value =>
          -- The entries behind are read from the same values both times.
          have behind := extractEntries_again context taken (extract context names entry).names
            others (Entries.set key value before) rest
          simp only [extractEntries, if_pos named, requiredAttribute, keyed, read]
          simp only [if_pos named', key', again, read, behind, Extraction.done, List.append_nil]
    · have behind := extractEntries_again context taken names others before rest
      simp only [extractEntries, if_neg named, behind, Extraction.done]

end

/--
Whether a way of reading settles what it reads: done again it has the same outcome, draws no name
and changes nothing, and its fault is told from what is read and for which bean.
-/
structure Settles {α : Type} (read : Context → Names → Element → Extraction α Element) : Prop where
  again : ∀ context taken names others node,
    read ⟨context.bean, taken⟩ others (read context names node).node =
      .done (read context names node).outcome (read context names node).node others
  fault : ∀ context taken names others node error,
    (read ⟨context.bean, taken⟩ others node).outcome = .error error ↔
      (read context names node).outcome = .error error

namespace Settles

variable {α β : Type} {read : Context → Names → Element → Extraction α Element}

/-- What is made of a reading that settles settles. -/
theorem map (settles : Settles read) (change : α → β) :
    Settles fun context names node => (read context names node).map change := by
  constructor
  case again =>
    intro context taken names others node
    have again := settles.again context taken names others node
    simp only [Extraction.map, again, Extraction.done]
  case fault =>
    intro context taken names others node error
    have fault := settles.fault context taken names others node error
    -- Only a value can be made into something else, and a fault cannot.
    have same : ∀ outcome : Except DefinitionError α,
        outcome.map change = .error error ↔ outcome = .error error := by
      intro outcome
      cases outcome <;> simp [Except.map]
    simp only [Extraction.map, same, fault]

end Settles

/-- Reading a value settles it. -/
theorem settles_extract : Settles extract := by
  refine ⟨extract_again, ?_⟩
  intro context taken names others node error
  rw [extract_error_iff, extract_error_iff]

/-- Reading a property settles it. -/
theorem settles_extractProperty : Settles extractProperty := by
  -- The name of a property is no id, and stands outside its children.
  have named : ∀ context names node,
      (extract context names node).node.attribute? "name" = node.attribute? "name" :=
    fun context names node => (extract_sameOutside context names node).attribute? "name"
  constructor
  case again =>
    intro context taken names others node
    cases name : node.attribute? "name" with
    | none => simp only [extractProperty, requiredAttribute, name, Extraction.done]
    | some given =>
      have again := (settles_extract.map fun value => (⟨given, value⟩ : Property)).again context
        taken names others node
      -- The name is looked for in the node as the first reading left it.
      have still := (named context names node).trans name
      simp only [extractProperty, requiredAttribute, name, Extraction.map] at again ⊢
      simp only [still, again]
  case fault =>
    intro context taken names others node error
    cases name : node.attribute? "name" with
    | none => simp only [extractProperty, requiredAttribute, name, Extraction.done]
    | some given =>
      have fault := (settles_extract.map fun value => (⟨given, value⟩ : Property)).fault context
        taken names others node error
      simpa only [extractProperty, requiredAttribute, name] using fault

/--
A node that was read, as a value, a property or an argument, well or with a fault, is read again
with the same outcome, the same ids among it, without any name being drawn and without any change;
and neither the names drawn before nor those to be avoided decide whether there is a fault, or
which.
-/
theorem reading_settles :
    Settles extract ∧ Settles extractProperty ∧ Settles extractArgument :=
  ⟨settles_extract, settles_extractProperty, settles_extract.map fun value => (⟨value⟩ : Argument)⟩

end BeanWiring
