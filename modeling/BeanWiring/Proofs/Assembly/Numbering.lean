import BeanWiring.Proofs.Assembly.Declaration
import BeanWiring.Proofs.Assembly.Selection
import BeanWiring.Proofs.Markup.Order

/-!
Which inline beans are named when a declaration is assembled, in which order, and by which numbers.

Main statement: names go to the inline beans without an id that are met up to the end or to the
first fault, in document order, and their numbers are the smallest ones behind those issued before
whose names are not declared.
-/

namespace BeanWiring

namespace Element

/--
Whether reading the value of a node gets to an inline bean without an id at a way: to the first
bean among its children, or to one in an entry of its array that has a key, as long as all entries
in front of it are sound.
-/
inductive ReachesNameless : Element → List Nat → Prop
  | inline {node bean : Element} {index : Nat} (marker : Marker.of? node = some .inlineBean)
      (first : (node.children.findIdx? fun child =>
        child.name == Marker.inlineBean.name) = some index)
      (stands : node.children[index]? = some bean) (nameless : bean.attribute? "id" = none) :
      ReachesNameless node [index]
  | entry {node array entry : Element} {index position : Nat} {path : List Nat}
      (marker : Marker.of? node = some .entries)
      (first : (node.children.findIdx? fun child =>
        child.name == Marker.entries.name) = some index)
      (stands : node.children[index]? = some array)
      (inArray : array.children[position]? = some entry) (named : entry.name = "entry")
      (keyed : (entry.attribute? "key").isSome)
      (sound : ∀ earlier other, earlier < position → array.children[earlier]? = some other →
        other.SoundEntry)
      (inside : ReachesNameless entry path) : ReachesNameless node (index :: position :: path)

/--
Whether a place is told of the element of a row that it is in, and every element in front of that
one can be passed.
-/
def FirstAmong (told : Element → List Nat → Prop) (passes : Element → Prop) (row : List Element)
    (place : Place) : Prop :=
  ∃ element, row[place.tree]? = some element ∧ told element place.path ∧
    ∀ earlier other, earlier < place.tree → row[earlier]? = some other → passes other

/-- A place in a row is told of its first element, or of the others if the first can be passed. -/
theorem firstAmong_cons (told : Element → List Nat → Prop) (passes : Element → Prop)
    (first : Element) (rest : List Element) (place : Place) :
    FirstAmong told passes (first :: rest) place ↔
      (∃ path, told first path ∧ place = .inFirst path) ∨
        ∃ before, (passes first ∧ FirstAmong told passes rest before) ∧ place = before.behind := by
  -- A place is in the first tree of a row or behind it.
  rcases place.inFirst_or_behind with ⟨path, rfl⟩ | ⟨before, rfl⟩
  · simp [FirstAmong, Place.inFirst, Place.behind]
  · simp only [Place.behind_ne_inFirst, Place.behind_inj, and_false, exists_false, false_or,
      exists_eq_right']
    simp only [FirstAmong, Place.behind, List.getElem?_cons_succ]
    -- In front of an element behind the first one stand the first and those in front in the rest.
    constructor
    · rintro ⟨element, stands, inside, sound⟩
      refine ⟨sound 0 first (Nat.succ_pos _) rfl, element, stands, inside, ?_⟩
      intro earlier other front there
      exact sound (earlier + 1) other (Nat.succ_lt_succ front) there
    · rintro ⟨here, element, stands, inside, sound⟩
      refine ⟨element, stands, inside, ?_⟩
      intro earlier other front there
      cases earlier with
      | zero => exact Option.some.inj there ▸ here
      | succ earlier => exact sound earlier other (Nat.lt_of_succ_lt_succ front) there

/-- Whether reading an entry of an array gets to an inline bean without an id at a way. -/
def EntryReaches (entry : Element) (path : List Nat) : Prop :=
  (entry.name = "entry" ∧ (entry.attribute? "key").isSome) ∧ entry.ReachesNameless path

/-- Without a marker for it a value gets to no inline bean. -/
theorem not_reachesNameless {node : Element} (plain : Marker.of? node ≠ some .inlineBean)
    (single : Marker.of? node ≠ some .entries) (path : List Nat) : ¬ node.ReachesNameless path := by
  -- Either way of getting to a bean starts with the marker for it.
  intro reaches
  cases reaches with
  | inline marker _ _ _ => exact plain marker
  | entry marker _ _ _ _ _ _ _ => exact single marker

/-- A node with an inline bean gets to the first one, if that has no id. -/
theorem reachesNameless_inline {node : Element} (marker : Marker.of? node = some .inlineBean)
    (path : List Nat) :
    node.ReachesNameless path ↔
      ∃ index bean, (node.children.findIdx? fun child =>
          child.name == Marker.inlineBean.name) = some index ∧
        node.children[index]? = some bean ∧ bean.attribute? "id" = none ∧ path = [index] := by
  -- The marker rules out an array.
  constructor
  · intro reaches
    cases reaches with
    | inline _ first stands nameless => exact ⟨_, _, first, stands, nameless, rfl⟩
    | entry entries _ _ _ _ _ _ _ =>
      rw [marker] at entries
      cases entries
  · rintro ⟨index, bean, first, stands, nameless, rfl⟩
    exact .inline marker first stands nameless

/-- A node with an array gets to what the entries of its first array get to. -/
theorem reachesNameless_entries {node : Element} (marker : Marker.of? node = some .entries)
    (path : List Nat) :
    node.ReachesNameless path ↔
      ∃ place, InFirstArray (FirstAmong EntryReaches SoundEntry) node.children place ∧
        path = place.fromParent := by
  -- The marker rules out an inline bean, and the first array is the same for both.
  constructor
  · intro reaches
    cases reaches with
    | inline inline _ _ _ =>
      rw [marker] at inline
      cases inline
    | @entry _ array entry index position rest _ first stands inArray named keyed sound inside =>
      exact ⟨⟨index, position :: rest⟩, ⟨index, array, ⟨position, rest⟩, first, stands,
        ⟨entry, inArray, ⟨⟨named, keyed⟩, inside⟩, sound⟩, rfl⟩, rfl⟩
  · rintro ⟨_, ⟨index, array, inside, first, stands,
      ⟨entry, inArray, ⟨⟨named, keyed⟩, reaches⟩, sound⟩, rfl⟩, rfl⟩
    exact .entry marker first stands inArray named keyed sound reaches

end Element

/-- A survey ends well exactly if the value of the node can be read. -/
theorem survey_ok_iff (bean : String) (node : Element) :
    (∃ draft, (survey bean node).outcome = .ok draft) ↔ node.Sound := by
  have read := (extract_ends ⟨bean, []⟩ {} node).outcome
  rw [← extract_ok_iff ⟨bean, []⟩ {} node, read]
  -- The outcome of reading is that of the survey, with the draft filled.
  cases (survey bean node).outcome with
  | error error => simp [Except.map]
  | ok draft => simp [Except.map]

/-- What can be told exactly of a success cannot be told of a failure. -/
theorem not_of_error {ε α : Type} {outcome : Except ε α} {told : Prop}
    (sound : (∃ result, outcome = .ok result) ↔ told) {error : ε}
    (ended : outcome = .error error) : ¬ told := by
  rw [← sound, ended]
  rintro ⟨result, same⟩
  cases same

/-- Of inline beans the survey of a node lists the first one, if it has no id. -/
theorem surveyInline_enumerates {node : Element}
    (marker : Marker.of? node = some .inlineBean) :
    Enumerates (· < ·) (surveyInline node).nameless node.ReachesNameless := by
  refine Enumerates.congr ?_ (Element.reachesNameless_inline marker)
  simp only [surveyInline]
  cases at? : node.children.findIdx? fun child => child.name == Marker.inlineBean.name with
  | none => exact .nil (by simp)
  | some index =>
    -- There is a child at the index, so whether it has an id decides what is listed.
    obtain ⟨inside, _, _⟩ := List.findIdx?_eq_some_iff_getElem.1 at?
    have stands : node.children[index]? = some node.children[index] :=
      List.getElem?_eq_getElem inside
    constructor
    · intro path
      simp only [stands, Option.bind_some, Option.isNone_iff_eq_none, List.mem_ite_nil_right,
        List.mem_singleton]
      constructor
      · rintro ⟨nameless, rfl⟩
        exact ⟨index, _, rfl, stands, nameless, rfl⟩
      · rintro ⟨_, bean, same, also, nameless, rfl⟩
        obtain rfl := Option.some.inj same
        obtain rfl := Option.some.inj (stands.symm.trans also)
        exact ⟨nameless, rfl⟩
    · dsimp only
      split
      · exact List.pairwise_singleton _ _
      · exact .nil

mutual

/-- The survey of a node lists what reading the node gets to. -/
theorem survey_enumerates (bean : String) : ∀ node : Element,
    Enumerates (· < ·) (survey bean node).nameless node.ReachesNameless
  | ⟨name, attributes, text, children⟩ => by
    simp only [survey]
    cases kind : Marker.of? ⟨name, attributes, text, children⟩ with
    | none => exact .nil (Element.not_reachesNameless (by simp [kind]) (by simp [kind]))
    | some marker =>
      cases marker with
      | inlineBean => exact surveyInline_enumerates kind
      | entries =>
        -- Inside an array the order of the entries is that of the places among the children.
        have inside : Enumerates (· < ·) ((surveyArray bean children).nameless.map
            Place.fromParent) _ :=
          (surveyArray_enumerates bean children).map fun _ _ ordered => ordered
        exact inside.congr (Element.reachesNameless_entries kind)
      | reference | nothing | no | yes | code =>
        exact .nil (Element.not_reachesNameless (by simp [kind]) (by simp [kind]))

/-- The survey of an array lists what reading its entries gets to. -/
theorem surveyArray_enumerates (bean : String) : ∀ children : List Element,
    Enumerates Place.Before (surveyArray bean children).nameless
      (Element.InFirstArray (Element.FirstAmong Element.EntryReaches Element.SoundEntry) children)
  | [] => .nil (by simp [Element.InFirstArray])
  | ⟨name, attributes, text, children⟩ :: rest => by
    simp only [surveyArray]
    split
    · next array =>
      -- The first array is the only one that is surveyed.
      have inside : Enumerates (· < ·) ((surveyEntries bean children).nameless.map
          Place.fromParent) _ :=
        (surveyEntries_enumerates bean children).map fun _ _ ordered => ordered
      apply (inside.map fun _ _ => Place.inFirst_before).congr
      intro place
      rw [Element.inFirstArray_cons _ array]
      constructor
      · rintro ⟨inner, reaches, rfl⟩
        exact ⟨inner.fromParent, ⟨inner, reaches, rfl⟩, rfl⟩
      · rintro ⟨_, ⟨inner, reaches, rfl⟩, rfl⟩
        exact ⟨inner, reaches, rfl⟩
    · next other =>
      have others := (surveyArray_enumerates bean rest).map fun _ _ => Place.behind_before
      exact others.congr (Element.inFirstArray_cons_other _ other rest)

/-- The survey of the entries of an array lists what reading them gets to. -/
theorem surveyEntries_enumerates (bean : String) : ∀ entries : List Element,
    Enumerates Place.Before (surveyEntries bean entries).nameless
      (Element.FirstAmong Element.EntryReaches Element.SoundEntry entries)
  | [] => .nil (by simp [Element.FirstAmong])
  | entry :: rest => by
    have first := survey_enumerates bean entry
    have others := surveyEntries_enumerates bean rest
    have either := Element.firstAmong_cons Element.EntryReaches Element.SoundEntry entry rest
    have sound := survey_ok_iff bean entry
    simp only [surveyEntries]
    split
    · next named =>
      have name : entry.name = "entry" := beq_iff_eq.1 named
      cases key : entry.attribute? "key" with
      | none =>
        -- Neither this entry nor any behind it is read.
        simp only [requiredAttribute, key]
        apply Enumerates.nil
        intro place reaches
        rcases (either place).1 reaches with ⟨_, ⟨⟨_, keyed⟩, _⟩, _⟩ | ⟨_, ⟨passes, _⟩, _⟩
        · simp [key] at keyed
        · simpa [key] using (passes name).1
      | some given =>
        simp only [requiredAttribute, key, Survey.map]
        cases ended : (survey bean entry).outcome with
        | error error =>
          -- The beans in front of the fault are listed, and no entry behind it is read.
          have unsound : ¬ entry.SoundEntry := fun passes =>
            not_of_error sound ended (passes name).2
          refine (first.map fun _ _ => Place.inFirst_before).congr fun place =>
            (either place).trans ?_
          simp [unsound, Element.EntryReaches, name, key]
        | ok draft =>
          -- A sound entry is passed, so what it lists is followed by what the others list.
          have passes : entry.SoundEntry := fun _ => ⟨by simp [key], sound.1 ⟨draft, ended⟩⟩
          refine (first.row others).congr fun place => (either place).trans ?_
          simp [passes, Element.EntryReaches, name, key]
    · next other =>
      -- An element that is no entry is passed over.
      have name : entry.name ≠ "entry" := fun named => other (beq_iff_eq.2 named)
      refine (others.map fun _ _ => Place.behind_before).congr fun place =>
        (either place).trans ?_
      simp [Element.EntryReaches, Element.SoundEntry, name]

end

/-- Whether reading a child of a declaration gets to an inline bean without an id at a way. -/
def Element.PartReaches (child : Element) (path : List Nat) : Prop :=
  (child.name = "property" ∧ (child.attribute? "name").isSome ∨ child.name = "constructor-arg") ∧
    child.ReachesNameless path

/-- The survey of a child of a declaration ends well exactly if the child is sound. -/
theorem surveyPart_ok_iff (bean : String) (child : Element) :
    (∃ part, (surveyPart bean child).outcome = .ok part) ↔ child.SoundPart bean := by
  have read := (extractPart_ends ⟨bean, []⟩ {} child).outcome
  -- A child is surveyed without a fault exactly if it is read without one.
  rw [← extractPart_ok_iff ⟨bean, []⟩ {} child, read]
  cases (surveyPart bean child).outcome with
  | error error => simp [Except.map]
  | ok part => simp [Except.map]

/-- The survey of a child of a declaration lists what reading the child gets to. -/
theorem surveyPart_enumerates (bean : String) (child : Element) :
    Enumerates (· < ·) (surveyPart bean child).nameless child.PartReaches := by
  have read := survey_enumerates bean child
  simp only [surveyPart]
  split
  · next property =>
    cases name : child.attribute? "name" with
    | none =>
      -- The value of a property without a name is not read.
      simp only [requiredAttribute, name]
      exact .nil fun path reaches => by simpa [property, name] using reaches.1
    | some given =>
      -- Naming the value of a property changes nothing about the beans in it.
      simp only [requiredAttribute, name, Survey.map, List.map_id]
      exact read.congr fun path => by simp [Element.PartReaches, property, name]
  · next other =>
    split
    · next argument =>
      simp only [Survey.map, List.map_id]
      exact read.congr fun path => by simp [Element.PartReaches, argument]
    · next neither =>
      -- Neither an aspect nor a child of another name has a value to read.
      have none : ∀ path, ¬ child.PartReaches path := by
        intro path reaches
        rcases reaches.1 with ⟨property, _⟩ | argument
        · exact other property
        · exact neither argument
      split
      · exact .nil none
      · exact .nil none

/-- The survey of the children of a declaration lists what reading them gets to. -/
theorem surveyParts_enumerates (bean : String) (children : List Element) :
    Enumerates Place.Before (surveyParts bean children).nameless
      (Element.FirstAmong Element.PartReaches (Element.SoundPart bean) children) := by
  -- The induction is on the children, whose lists are put one behind the other.
  induction children with
  | nil => exact .nil (by simp [Element.FirstAmong])
  | cons child rest ih =>
    have first := surveyPart_enumerates bean child
    have either := Element.firstAmong_cons Element.PartReaches (Element.SoundPart bean) child rest
    have sound := surveyPart_ok_iff bean child
    simp only [surveyParts, Survey.map]
    cases ended : (surveyPart bean child).outcome with
    | error error =>
      -- A child that is not sound hides those behind it, but not what was met in it before.
      have unsound : ¬ child.SoundPart bean := not_of_error sound ended
      exact (first.map fun _ _ => Place.inFirst_before).congr fun place =>
        (either place).trans (by simp [unsound])
    | ok part =>
      have passes : child.SoundPart bean := sound.1 ⟨part, ended⟩
      exact (first.row ih).congr fun place => (either place).trans (by simp [passes])

/--
Whether reading a declaration gets to an inline bean without an id at a way: the attributes are
sound, and so are the children in front of the one that the way leads through.
-/
structure Element.DeclarationReaches (bean : String) (declaration : Element) (path : List Nat) :
    Prop where
  attributes : declaration.SoundAttributes
  child : ∃ place, FirstAmong PartReaches (SoundPart bean) declaration.children place ∧
    path = place.fromParent

/-- The survey of a declaration lists what reading the declaration gets to. -/
theorem surveyAt_enumerates (bean : String) (seed : Option Definition) (declaration : Element) :
    Enumerates (· < ·) (surveyAt bean seed declaration).nameless
      (declaration.DeclarationReaches bean) := by
  simp only [surveyAt, surveyDeclaration]
  rcases applyAttributes_cases bean declaration with
    ⟨unsound, error, fault⟩ | ⟨className, scope, classed, ranged, dressed⟩
  · -- The children are not read at all.
    simp only [fault]
    exact .nil fun path reaches => unsound reaches.attributes
  · simp only [dressed, Survey.map]
    have sound : declaration.SoundAttributes := ⟨by simp [classed], by simp [ranged]⟩
    have inside : Enumerates (· < ·) ((surveyParts bean declaration.children).nameless.map
        Place.fromParent) _ :=
      (surveyParts_enumerates bean declaration.children).map fun _ _ ordered => ordered
    refine inside.congr fun path => ?_
    constructor
    · intro reaches
      exact reaches.child
    · intro child
      exact ⟨sound, child⟩

/--
How an assembly of a declared bean names the inline beans without an id that reading the
declaration gets to: in document order, which is the lexicographic one of their ways, they have the
smallest free numbers. The ids stand in what the reading leaves, and if it succeeds in the
documents.
-/
structure Assembly.NumbersInOrder (assembly : Assembly) (documents : DocumentSet) (issued : Nat)
    (bean : String) (place : Place) (declaration : Element)
    (reading : Extraction Definition Element) (reached : List (List Nat)) (numbers : List Nat) :
    Prop where
  finds : documents.Finds bean place
  stands : documents.element? place = some declaration
  order : Enumerates (· < ·) reached (declaration.DeclarationReaches bean)
  smallest : SmallestFree documents.declaredIds issued numbers
  length : numbers.length = reached.length
  issued : assembly.names.issued = numbers.getLast?.getD issued
  node : reading.node = declaration.giveIds (reached.zip (numbers.map anonymousName))
  named : ∀ (index : Nat) path number, reached[index]? = some path →
    numbers[index]? = some number →
    (declaration.at? path).map Element.label = some ("bean", none) ∧
      (reading.node.at? path).map Element.label = some ("bean", some (anonymousName number))
  written : ∀ answer, assembly.outcome = .ok answer →
    assembly.documents = documents.modifyAt (fun _ => reading.node) place

/--
Assembling names inline beans by numbers in order. The beans named are those without an id that
reading the declaration gets to up to its end or its first fault, in document order and those in
entries that are replaced among them; their numbers are the smallest ones behind those issued
before whose names no document declares; and the last of them is the number issued in the end,
whether the assembly succeeds or fails.
-/
theorem inline_beans_numbered_in_order {documents : DocumentSet} {bean : String}
    (declared : bean ∈ documents.declaredIds) (names : Names) (seed : Option Definition) :
    ∃ place declaration reached numbers,
      (assemble documents names bean seed).NumbersInOrder documents names.issued bean place
        declaration (extractDeclaration ⟨bean, documents.declaredIds⟩ names
          (seed.getD { name := bean }) declaration) reached numbers := by
  obtain ⟨_, known⟩ := (documents.mem_declaredIds_iff bean).1 declared
  obtain ⟨place, finds⟩ := known.exists_finds
  obtain ⟨declaration, there, drawn, ended⟩ := assemble_declared finds names seed
  -- The survey of the declaration lists the beans, and the names are drawn for its list.
  obtain ⟨numbers, smallest, length, names_drawn⟩ := names.drawFor_smallest documents.declaredIds
    (surveyAt bean seed declaration).nameless
  have read := extractDeclaration_ends ⟨bean, documents.declaredIds⟩ names
    (seed.getD { name := bean }) declaration
  have gifts : giftsAt documents names place (surveyAt bean seed declaration).nameless =
      ((surveyAt bean seed declaration).nameless.zip (numbers.map anonymousName)).map
        fun gift => (place.down gift.1, gift.2) := by
    rw [giftsAt, names_drawn]
  have node := read.node.trans (congrArg (declaration.giveIds ·.1) names_drawn)
  refine ⟨place, declaration, _, numbers, finds, there, surveyAt_enumerates bean seed declaration,
    smallest, length, by rw [drawn, names_drawn], node, ?_, ?_⟩
  · -- The number drawn for a bean stands in the list of ids where the bean does in its own.
    intro index path number listed numbered
    have fits := giftsAt_fits there names bean seed
    have member : (place.down path, anonymousName number) ∈
        giftsAt documents names place (surveyAt bean seed declaration).nameless := by
      rw [gifts]
      refine List.mem_map_of_mem (f := fun gift => (place.down gift.1, gift.2))
        (a := (path, anonymousName number)) ?_
      exact List.mem_of_getElem? (List.getElem?_zip_eq_some.2 ⟨listed, by simp [numbered]⟩)
    refine ⟨?_, ?_⟩
    · rw [← DocumentSet.labelAt?_down there]
      exact fits.nameless _ member
    · -- The id given in the documents is that of the element below the declaration.
      rw [node, ← DocumentSet.labelAt?_down (DocumentSet.element?_giveIds there _), ← gifts]
      exact fits.declaredAt member
  · -- What the reading leaves takes the place of the declaration only if nothing failed.
    intro answer sound
    cases found : (surveyAt bean seed declaration).outcome with
    | error error =>
      simp only [found] at ended
      rw [ended.1] at sound
      cases sound
    | ok draft =>
      simp only [found] at ended
      rw [ended.1, gifts, node, DocumentSet.modifyAt_giveIds there]

/--
A document with a bean whose first property holds a bean without an id, and whose second one holds
an array with another in an entry that is replaced; one more bean has the name of number two.
-/
def reservedDocuments : DocumentSet :=
  ⟨[⟨⟨"a.xml"⟩, ⟨"beans", [], "", [
    ⟨"bean", [("id", "svc"), ("class", "Svc"), ("scope", "singleton")], "", [
      ⟨"property", [("name", "inner")], "", [⟨"bean", [("class", "Inner")], "", []⟩]⟩,
      ⟨"property", [("name", "rows")], "", [⟨"array", [], "", [
        ⟨"entry", [("key", "a")], "", [⟨"bean", [("class", "Replaced")], "", []⟩]⟩,
        ⟨"entry", [("key", "a")], "last", []⟩]⟩]⟩]⟩,
    ⟨"bean", [("id", "anonymous-bean#2")], "", []⟩]⟩⟩]⟩

/-- The beans of a document are numbered around the name that it declares. -/
theorem inline_beans_numbered_around_declared :
    "svc" ∈ reservedDocuments.declaredIds ∧
      ∃ place declaration reached numbers,
        (assemble reservedDocuments {} "svc" none).NumbersInOrder reservedDocuments 0 "svc" place
          declaration (extractDeclaration ⟨"svc", reservedDocuments.declaredIds⟩ {}
            { name := "svc" } declaration) reached numbers := by
  have declared : "svc" ∈ reservedDocuments.declaredIds := by decide +kernel
  -- The second number is taken by a declared bean, and a replaced entry has its bean too.
  exact ⟨declared, inline_beans_numbered_in_order declared {} none⟩

end BeanWiring
