import BeanWiring.Proofs.Markup.Outline
import BeanWiring.Proofs.Markup.Place

/-!
The tree in the making, element by element in document order.

The elements that have begun stand in rows, those of the finished root in front of those that are
still open. A finished element brings its rows to the end, and character data is added to the row
of the innermost open element.
-/

namespace BeanWiring

/-- An element of a tree as the outline has it, and the text stored in it. -/
abbrev ElementRow := Heading × String

namespace Element

/-- What the outline tells of an element around which so many are open. -/
def heading (depth : Nat) (element : Element) : Heading :=
  ⟨depth, element.name, element.attributes⟩

/-- The elements of a tree in document order, where so many are open around it. -/
def rows (depth : Nat) (element : Element) : List ElementRow :=
  (located element).map fun found => (found.2.heading (depth + found.1.length), found.2.text)

/-- The rows of the children of an element, from what stands in document order among them. -/
theorem rows_locatedAmong (depth : Nat) (trees : List Element) :
    (locatedAmong trees).map (fun found =>
        (found.2.heading (depth + found.1.path.length), found.2.text)) =
      trees.flatMap (rows depth) := by
  -- The place of a tree in the list does not show in the rows, only its depth does.
  induction trees with
  | nil => rfl
  | cons first rest ih =>
    simp [locatedAmong, rows, Function.comp_def, Place.inFirst, Place.behind, ← ih]

/-- An element's own row stands in front of those of its children. -/
theorem rows_eq (depth : Nat) (element : Element) :
    element.rows depth =
      (element.heading depth, element.text) :: element.children.flatMap (rows (depth + 1)) := by
  -- Seen from the parent, each element below stands one deeper.
  obtain ⟨name, attributes, text, children⟩ := element
  have below := rows_locatedAmong (depth + 1) children
  simp only [rows, located, List.map_cons, List.map_map, Function.comp_def, ← below]
  simp [Place.fromParent, Nat.add_assoc, Nat.add_comm 1]

/-- A child added at the end brings its rows to the end. -/
theorem rows_addChild (depth : Nat) (parent child : Element) :
    (parent.addChild child).rows depth = parent.rows depth ++ child.rows (depth + 1) := by
  -- The own row of the parent does not change, and the child is its last.
  obtain ⟨name, attributes, text, children⟩ := parent
  simp [rows_eq depth, addChild, heading]

end Element

/-- The row with character data added to its text. -/
def ElementRow.addText (piece : String) (row : ElementRow) : ElementRow :=
  (row.1, row.2 ++ piece)

/-- Character data added to an element is added to its own row, which is the first. -/
theorem Element.rows_addText (depth : Nat) (element : Element) (piece : String) :
    (element.addText piece).rows depth =
      (element.rows depth).modify 0 (ElementRow.addText piece) := by
  -- No row but the first is that of the element itself.
  obtain ⟨name, attributes, text, children⟩ := element
  simp [rows_eq depth, Element.addText, heading, ElementRow.addText]

/-- The rows of the open elements and of what is finished inside them, the outermost in front. -/
def rowsOfOpened : List Element → List ElementRow
  | [] => []
  | innermost :: others => rowsOfOpened others ++ innermost.rows others.length

/-- The numbers of the open elements, the innermost first, where so many rows are in front. -/
def numbersOfOpened (front : Nat) : List Element → List Nat
  | [] => []
  | _ :: others => (front + (rowsOfOpened others).length) :: numbersOfOpened front others

namespace Growth

/-- The rows of the root that is finished, if there is one. -/
def rowsOfRoot (growth : Growth) : List ElementRow :=
  growth.root.toList.flatMap (Element.rows 0)

/-- The rows of all elements that have begun, in order. -/
def rows (growth : Growth) : List ElementRow :=
  growth.rowsOfRoot ++ rowsOfOpened growth.opened

/-- The numbers of the open elements among all rows. -/
def numbers (growth : Growth) : List Nat :=
  numbersOfOpened growth.rowsOfRoot.length growth.opened

/-- The number of roots that are finished. -/
def roots (growth : Growth) : Nat :=
  growth.root.toList.length

/-- There is one root at most. -/
theorem roots_le_one (growth : Growth) : growth.roots ≤ 1 := by
  cases root : growth.root <;> simp [roots, root]

/-- Whether a tree in the making is where a document stands. -/
structure Counts (growth : Growth) (tally : Tally) : Prop where
  begun : tally.begun = growth.rows.length
  opened : tally.opened = growth.numbers

/-- There is a number for each open element. -/
theorem length_numbersOfOpened (front : Nat) (opened : List Element) :
    (numbersOfOpened front opened).length = opened.length := by
  -- Each open element has one number.
  induction opened with
  | nil => rfl
  | cons innermost others ih => simp [numbersOfOpened, ih]

/-- As many elements are open in the tree as in the document. -/
theorem Counts.length_opened {growth : Growth} {tally : Tally} (counts : growth.Counts tally) :
    tally.opened.length = growth.opened.length := by
  rw [counts.opened, numbers, length_numbersOfOpened]

/-- Nothing is open in the tree exactly if nothing is open in the document. -/
theorem Counts.opened_eq_nil_iff {growth : Growth} {tally : Tally}
    (counts : growth.Counts tally) : tally.opened = [] ↔ growth.opened = [] := by
  rw [← List.length_eq_zero_iff, counts.length_opened, List.length_eq_zero_iff]

end Growth

/-- The text stored in the row of a number. -/
def textOf (found : List ElementRow) (number : Nat) : List Char :=
  ((found[number]?).map fun row => row.2.toList).getD []

/-- Behind rows a row without text adds no text to any number. -/
theorem textOf_append_empty (found : List ElementRow) (heading : Heading) (number : Nat) :
    textOf (found ++ [(heading, "")]) number = textOf found number := by
  -- A number is that of a row in front, of the new row, or of none.
  simp only [textOf, List.getElem?_append]
  split
  · rfl
  · -- Past the rows there is the empty text on both sides.
    rename_i past
    rw [List.getElem?_eq_none (Nat.le_of_not_lt past)]
    cases number - found.length <;> simp

/-- Text added to a row changes nothing of the headings. -/
theorem headings_modify (found : List ElementRow) (place : Nat) (piece : String) :
    (found.modify place (ElementRow.addText piece)).map (·.1) = found.map (·.1) := by
  apply List.ext_getElem?
  intro index
  simp only [List.getElem?_map, List.getElem?_modify]
  -- Text added to a row leaves its heading.
  cases found[index]? with
  | none => rfl
  | some row => by_cases on : place = index <;> simp [on, ElementRow.addText]

/-- Text added to the row of a number is added to the text of that number. -/
theorem textOf_modify {found : List ElementRow} {place : Nat} (inside : place < found.length)
    (piece : String) (number : Nat) :
    textOf (found.modify place (ElementRow.addText piece)) number =
      textOf found number ++ if place = number then piece.toList else [] := by
  -- Only the row at the place is another one afterwards.
  simp only [textOf, List.getElem?_modify]
  by_cases on : place = number
  · subst on
    simp [List.getElem?_eq_getElem inside, ElementRow.addText]
  · simp [on]

namespace Growth

/-- A finished element leaves a defect exactly if it is a second root. -/
theorem attach_defects (element : Element) (growth : Growth) :
    ∃ more, (attach element growth).defects = growth.defects ++ more ∧
      (more = [] ↔ growth.roots + (if growth.opened = [] then 1 else 0) ≤ 1) := by
  -- Inside of an element there is always room, and outside only for one root.
  obtain ⟨opened, root, defects⟩ := growth
  cases opened with
  | cons parent others =>
    refine ⟨[], by simp [attach], ?_⟩
    cases root <;> simp [roots]
  | nil =>
    cases root with
    | none => exact ⟨[], by simp [attach], by simp [roots]⟩
    | some first => exact ⟨[.secondRoot element.name], by simp [attach], by simp [roots]⟩

section Attach

variable {growth : Growth} (element : Element)
  (room : growth.roots + (if growth.opened = [] then 1 else 0) ≤ 1)

include room

/-- A finished element brings its rows to the end. -/
theorem rows_attach :
    (attach element growth).rows = growth.rows ++ element.rows growth.opened.length := by
  -- The element becomes the last child of the innermost open one, or the root.
  obtain ⟨opened, root, defects⟩ := growth
  cases opened with
  | cons parent others =>
    simp [attach, rows, rowsOfRoot, rowsOfOpened, Element.rows_addChild]
  | nil =>
    -- Without any open element there is room only in front of the first root.
    cases root with
    | none => simp [attach, rows, rowsOfRoot, rowsOfOpened]
    | some first => simp [roots] at room

/-- A finished element does not change the numbers of the open ones. -/
theorem numbers_attach : (attach element growth).numbers = growth.numbers := by
  obtain ⟨opened, root, defects⟩ := growth
  cases opened with
  | cons parent others => rfl
  | nil =>
    cases root with
    | none => rfl
    -- There is room for a root, so a second one is excluded.
    | some first => simp [roots] at room

/-- A finished element is a root if no other is open. -/
theorem roots_attach :
    (attach element growth).roots = growth.roots + if growth.opened = [] then 1 else 0 := by
  obtain ⟨opened, root, defects⟩ := growth
  cases opened with
  | cons parent others => rfl
  | nil =>
    cases root with
    | none => rfl
    -- There is room for a root, so a second one is excluded.
    | some first => simp [roots] at room

end Attach

/-- The number of the innermost open element is that of a row, which is the first of its own. -/
theorem rows_addText (line : Nat) (piece : String) {growth : Growth} {innermost : Element}
    {others : List Element} (opened : growth.opened = innermost :: others) :
    ∃ number, growth.numbers.head? = some number ∧ number < growth.rows.length ∧
      (growth.addText line piece).rows = growth.rows.modify number (ElementRow.addText piece) := by
  obtain ⟨_, root, defects⟩ := growth
  obtain rfl := opened
  let front := rowsOfRoot ⟨innermost :: others, root, defects⟩ ++ rowsOfOpened others
  have split : rows ⟨innermost :: others, root, defects⟩ =
      front ++ innermost.rows others.length := by
    simp [front, rows, rowsOfOpened]
  refine ⟨front.length, by simp [front, numbers, numbersOfOpened], ?_, ?_⟩
  · rw [split, innermost.rows_eq]
    simp
  · -- Behind the rows in front the own row of the element is the first.
    have changed : (addText line piece ⟨innermost :: others, root, defects⟩).rows =
        front ++ (innermost.addText piece).rows others.length := by
      simp [front, addText, rows, rowsOfRoot, rowsOfOpened]
    rw [changed, split, Element.rows_addText, List.modify_eq_take_drop, List.modify_eq_take_drop]
    simp

end Growth

end BeanWiring
