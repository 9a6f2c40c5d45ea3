import BeanWiring.Entries
import BeanWiring.Text.Blank

/-!
The element tree of a document: named nodes with attributes, text and children,
and the two ways to search it.
-/

namespace BeanWiring

/-- An element of a document, with its attributes in the order they were first set. -/
structure Element where
  name : String
  attributes : List (String × String) := []
  /-- The character data directly inside the element, as it was read. -/
  text : String := ""
  children : List Element := []
deriving Inhabited, Repr

namespace Element

/-- A property of all trees follows when each element has it as soon as its children do. -/
@[elab_as_elim]
theorem induction {motive : Element → Prop}
    (node : ∀ name attributes text children, (∀ child ∈ children, motive child) →
      motive ⟨name, attributes, text, children⟩) (element : Element) : motive element :=
  -- The generated principle speaks of lists of elements too, where the property is taken pointwise.
  Element.rec (motive_2 := fun children => ∀ child ∈ children, motive child)
    node (by simp) (fun _ _ first others => by simpa using ⟨first, others⟩) element

mutual

/-- Elements are compared field by field, down to the leaves. -/
def decideEq : (left right : Element) → Decidable (left = right)
  | ⟨name, attributes, text, children⟩, ⟨name', attributes', text', children'⟩ =>
    if flat : name = name' ∧ attributes = attributes' ∧ text = text' then
      match decideEqAll children children' with
      | .isTrue same => .isTrue (by rw [flat.1, flat.2.1, flat.2.2, same])
      | .isFalse differ => .isFalse fun equal => differ (Element.mk.inj equal).2.2.2
    else
      .isFalse fun equal =>
        flat ⟨(Element.mk.inj equal).1, (Element.mk.inj equal).2.1, (Element.mk.inj equal).2.2.1⟩

/-- Lists of elements are compared one by one. -/
def decideEqAll : (left right : List Element) → Decidable (left = right)
  | [], [] => .isTrue rfl
  | [], _ :: _ => .isFalse nofun
  | _ :: _, [] => .isFalse nofun
  -- The first elements are compared, and then the others.
  | first :: rest, first' :: rest' =>
    match decideEq first first', decideEqAll rest rest' with
    | .isTrue same, .isTrue others => .isTrue (by rw [same, others])
    | .isFalse differ, _ => .isFalse fun equal => differ (List.cons.inj equal).1
    | _, .isFalse differ => .isFalse fun equal => differ (List.cons.inj equal).2

end

instance : DecidableEq Element := decideEq

/-- The value of an attribute. -/
def attribute? (element : Element) (name : String) : Option String :=
  Entries.get? name element.attributes

/-- The element with an attribute set: a known name keeps its place, a new one goes to the end. -/
def setAttribute (element : Element) (name value : String) : Element :=
  { element with attributes := Entries.set name value element.attributes }

/-- The element with a child added at the end. -/
def addChild (element child : Element) : Element :=
  { element with children := element.children ++ [child] }

/-- The element with character data added at the end of its own. -/
def addText (element : Element) (piece : String) : Element :=
  { element with text := element.text ++ piece }

/-- The text of the element without the blanks at its ends. -/
def trimmedText (element : Element) : String :=
  trimBlanks element.text

/-- The first child of a name. -/
def child? (element : Element) (name : String) : Option Element :=
  element.children.find? fun child => child.name == name

/-- All children of a name, in document order. -/
def childrenNamed (element : Element) (name : String) : List Element :=
  element.children.filter fun child => child.name == name

/-- Changes the first child of a name, if there is one. -/
def updateChild? (element : Element) (name : String) (change : Element → Element) :
    Option Element :=
  (go element.children).map fun children => { element with children }
where
  /-- Changes the first of the elements that has the name. -/
  go : List Element → Option (List Element)
    | [] => none
    | child :: rest =>
      if child.name == name then some (change child :: rest) else (go rest).map (child :: ·)

mutual

/-- The number of elements of a tree. -/
def count : Element → Nat
  | ⟨_, _, _, children⟩ => countAll children + 1

/-- The number of elements of several trees. -/
def countAll : List Element → Nat
  | [] => 0
  | element :: rest => count element + countAll rest

end

/-- Trees in a row count together. -/
theorem countAll_append (left right : List Element) :
    countAll (left ++ right) = countAll left + countAll right := by
  induction left with
  | nil => simp [countAll]
  | cons first rest ih => simp [countAll, ih, Nat.add_assoc]

/--
The elements of the pending trees: each is given out before its children,
and these before what was pending.
-/
def sweep : List Element → List Element
  | [] => []
  | element :: pending => element :: sweep (element.children ++ pending)
termination_by pending => countAll pending
decreasing_by
  -- The children of an element count one less than the element does.
  cases element
  simp only [countAll, count, countAll_append]
  omega

/-- The element and all below it, in document order. -/
def descendants (element : Element) : List Element :=
  sweep [element]

mutual

/--
Changes the first element in document order that meets the condition,
the tree's own root included.
-/
def updateFirst? (meets : Element → Bool) (change : Element → Element) : Element → Option Element
  | ⟨name, attributes, text, children⟩ =>
    if meets ⟨name, attributes, text, children⟩ then
      some (change ⟨name, attributes, text, children⟩)
    else
      (updateFirstAmong? meets change children).map fun children =>
        ⟨name, attributes, text, children⟩

/-- Changes the first element in document order of several trees that meets the condition. -/
def updateFirstAmong? (meets : Element → Bool) (change : Element → Element) :
    List Element → Option (List Element)
  | [] => none
  | element :: rest =>
    -- The trees behind the first change stay as they are.
    match updateFirst? meets change element with
    | some changed => some (changed :: rest)
    | none => (updateFirstAmong? meets change rest).map (element :: ·)

end

/-- The element reached by going from child to child, each named by its index. -/
def at? (element : Element) : List Nat → Option Element
  | [] => some element
  | index :: path =>
    match element.children[index]? with
    | some child => child.at? path
    | none => none

/-- Changes the element at a place of the tree; a place outside it changes nothing. -/
def modifyAt (change : Element → Element) : List Nat → Element → Element
  | [], element => change element
  | index :: path, element =>
    { element with children := element.children.modify index (modifyAt change path) }

/-- A bean declaration with this id. -/
def declares (id : String) (element : Element) : Bool :=
  element.name == "bean" && element.attribute? "id" == some id

end Element

end BeanWiring
