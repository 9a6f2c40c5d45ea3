import BeanWiring.Proofs.Markup.Parsing
import BeanWiring.Proofs.Markup.Rendering

/-!
Element trees written out as markup and read again.

Main statement: any tree whose names can be written, and whose texts neither begin nor end with
white space, is what its written form is parsed as.
-/

namespace BeanWiring

mutual

/-- A tree written out as markup. -/
def Element.render : Element → List Char
  | ⟨name, attributes, text, children⟩ =>
    '<' :: ((openingOf name attributes).content ++ '>' :: (escape text.toList ++
      (Element.renderAll children ++ '<' :: '/' :: (name.toList ++ ['>']))))

/-- Several trees written out one behind the other. -/
def Element.renderAll : List Element → List Char
  | [] => []
  | first :: rest => first.render ++ Element.renderAll rest

end

/-- The character data of an element as it is read: there is none for an empty text. -/
def textEvents (text : String) : List Event :=
  if text.toList = [] then [] else [.text (escape text.toList)]

mutual

/-- What a tree is read as when it is written out. -/
def Element.events : Element → List Event
  | ⟨name, attributes, text, children⟩ =>
    .opened (openingOf name attributes) ::
      (textEvents text ++ (Element.eventsAll children ++ [.closed]))

/-- What several trees are read as when they are written out. -/
def Element.eventsAll : List Element → List Event
  | [] => []
  | first :: rest => first.events ++ Element.eventsAll rest

end

/-- Whether an element can be written out, its children apart. -/
structure Element.Writable (element : Element) : Prop where
  name : IsName element.name.toList
  keys : ∀ entry ∈ element.attributes, IsName entry.1.toList
  apart : (Entries.keys element.attributes).Nodup
  front : ∀ c ∈ element.text.toList.head?, isGap c = false
  behind : ∀ c ∈ element.text.toList.getLast?, isGap c = false

instance (element : Element) : Decidable element.Writable :=
  decidable_of_iff
    (IsName element.name.toList ∧ (∀ entry ∈ element.attributes, IsName entry.1.toList) ∧
      (Entries.keys element.attributes).Nodup ∧ element.text.toList.head?.any isGap = false ∧
      element.text.toList.getLast?.any isGap = false)
    ⟨fun ⟨name, keys, apart, front, behind⟩ => ⟨name, keys, apart,
        (Option.any_eq_false _ _).1 front, (Option.any_eq_false _ _).1 behind⟩,
      fun ⟨name, keys, apart, front, behind⟩ => ⟨name, keys, apart,
        (Option.any_eq_false _ _).2 front, (Option.any_eq_false _ _).2 behind⟩⟩

/-- Whether all elements of a tree can be written out. -/
def Element.Renderable (root : Element) : Prop :=
  ∀ element ∈ root.descendants, element.Writable

instance (root : Element) : Decidable root.Renderable :=
  inferInstanceAs (Decidable (∀ element ∈ root.descendants, element.Writable))

/-- A tree can be written out if its root can and the trees below it. -/
theorem Element.Renderable.cases {name : String} {attributes : List (String × String)}
    {text : String} {children : List Element}
    (renderable : Renderable ⟨name, attributes, text, children⟩) :
    Writable ⟨name, attributes, text, children⟩ ∧ ∀ child ∈ children, child.Renderable := by
  -- The elements of the tree are its root and those of each child in turn.
  have listed : (Element.mk name attributes text children).descendants =
      ⟨name, attributes, text, children⟩ :: children.flatMap Element.descendants := by
    have each : descendants = fun tree => (located tree).map (·.2) := funext descendants_eq
    rw [descendants_eq, located_map_snd, locatedAmong_map_snd, each]
  rw [Renderable, listed, List.forall_mem_cons] at renderable
  refine ⟨renderable.1, fun child member element among => renderable.2 element ?_⟩
  exact List.mem_flatMap.2 ⟨child, member, among⟩

/-- What is told with more events in front. -/
def inFront (events : List Event) (told : List Event × Option SyntaxFault) :
    List Event × Option SyntaxFault :=
  (events ++ told.1, told.2)

/-- Events in front of others are told as all of them in front. -/
theorem inFront_append (events others : List Event) (told : List Event × Option SyntaxFault) :
    inFront (events ++ others) told = inFront events (inFront others told) := by
  simp [inFront]

/-- What a cutting tells with a segment in front. -/
theorem Cutting.told_after (segment : Segment) (cutting : Cutting) :
    (cutting.after segment).told = inFront segment.events cutting.told := rfl

/-- Character data that is written in front of markup is read as it was written. -/
theorem told_cut_text {text : String}
    (front : ∀ c, text.toList.head? = some c → isGap c = false)
    (behind : ∀ c, text.toList.getLast? = some c → isGap c = false)
    (opened : List (List Char)) (rest : List Char) :
    (cut opened (escape text.toList ++ '<' :: rest)).told =
      inFront (textEvents text) (cut opened ('<' :: rest)).told := by
  by_cases empty : text.toList = []
  · rw [textEvents, if_pos empty, empty]
    rfl
  · have nonempty := escape_ne_nil empty
    have free : ∀ c ∈ escape text.toList, c ≠ '<' := fun c member bracket =>
      not_special_of_mem_escape member (by simp [bracket])
    -- Neither end of the run is white space, so nothing is taken off it.
    have whole : trimBoth isGap (escape text.toList) = escape text.toList :=
      within_eq_self (head_escape front) (last_escape behind)
    have visible : ¬ (escape text.toList).all isGap = true := by
      intro blank
      rw [trimBoth_eq_within, within_eq_nil (List.all_eq_true.1 blank)] at whole
      exact nonempty whole.symm
    rw [cut_run opened nonempty free (.inr ⟨rest, rfl⟩), Cutting.told_after, Segment.events,
      if_neg visible, whole, textEvents, if_neg empty]

/-- A tree is written with a bracket in front. -/
theorem Element.render_eq_cons (element : Element) :
    ∃ rest, element.render = '<' :: rest := by
  obtain ⟨name, attributes, text, children⟩ := element
  exact ⟨_, by rw [render]⟩

/-- Several trees and an end behind them are written with a bracket in front. -/
theorem Element.renderAll_append_eq_cons (trees : List Element) (rest : List Char) :
    ∃ others, renderAll trees ++ '<' :: rest = '<' :: others := by
  cases trees with
  | nil => exact ⟨rest, by rw [renderAll, List.nil_append]⟩
  | cons first others =>
    -- A tree is written from the bracket of its tag on.
    obtain ⟨inner, written⟩ := first.render_eq_cons
    exact ⟨_, by rw [renderAll, written, List.cons_append, List.cons_append]⟩

/-- Trees that are read one by one as they are written are read so one behind the other. -/
theorem told_cut_renderAll {opened : List (List Char)} {trees : List Element}
    (each : ∀ tree ∈ trees, ∀ rest, (cut opened (tree.render ++ rest)).told =
      inFront tree.events (cut opened rest).told) (rest : List Char) :
    (cut opened (Element.renderAll trees ++ rest)).told =
      inFront (Element.eventsAll trees) (cut opened rest).told := by
  -- Each tree is read in front of whatever those behind it are read as.
  induction trees with
  | nil => rfl
  | cons first others ih =>
    obtain ⟨here, behind⟩ := List.forall_mem_cons.1 each
    rw [Element.renderAll, Element.eventsAll, List.append_assoc, here, ih behind, inFront_append]

/-- A written tree is read as its start, its character data, its children and its end. -/
theorem told_cut_render (element : Element) (renderable : element.Renderable)
    (opened : List (List Char)) (rest : List Char) :
    (cut opened (element.render ++ rest)).told =
      inFront element.events (cut opened rest).told := by
  -- The induction is on the tree, for whatever is open around it and stands behind it.
  induction element using Element.induction generalizing opened rest with
  | node name attributes text children ih =>
    obtain ⟨writable, below⟩ := renderable.cases
    obtain ⟨named, _⟩ := @Tag.split_opening name attributes writable.name
    let behind := '/' :: (name.toList ++ '>' :: rest)
    obtain ⟨others, written⟩ := Element.renderAll_append_eq_cons children behind
    have whole : (Element.mk name attributes text children).render ++ rest =
        '<' :: ((openingOf name attributes).content ++ '>' :: (escape text.toList ++
          '<' :: others)) := by
      rw [← written]
      simp [Element.render, behind]
    have start := readMarkup_opening writable.name writable.keys opened
      (escape text.toList ++ '<' :: others)
    have ending := readMarkup_ending writable.name opened rest
    have inside := told_cut_renderAll
      (fun child member rest => ih child member (below child member) (name.toList :: opened) rest)
      ('<' :: behind)
    have closed : (cut (name.toList :: opened) ('<' :: behind)).told =
        inFront [.closed] (cut opened rest).told := by
      rw [cut_markup ending]
      rfl
    calc (cut opened ((Element.mk name attributes text children).render ++ rest)).told
        = inFront [.opened (openingOf name attributes)]
            (cut (name.toList :: opened) (escape text.toList ++ '<' :: others)).told := by
          rw [whole, cut_markup start, Cutting.told_after, Event.openAfter, named]
          rfl
      _ = inFront [.opened (openingOf name attributes)] (inFront (textEvents text)
            (inFront (Element.eventsAll children) (inFront [.closed] (cut opened rest).told))) := by
          rw [told_cut_text writable.front writable.behind, ← written, inside, closed]
      _ = inFront (Element.mk name attributes text children).events (cut opened rest).told := by
          simp only [Element.events, inFront, List.append_assoc, List.cons_append, List.nil_append]

/--
Events that make one tree out of another, whatever lines they are found on.
-/
def GrowsTo (events : List Event) (growth next : Growth) : Prop :=
  ∀ lineOf placed, placed.map (·.value) = events → growth.growAll lineOf placed = next

namespace GrowsTo

variable {growth middle next : Growth}

/-- Without events nothing changes. -/
theorem nil : GrowsTo [] growth growth := by
  intro lineOf placed none
  rw [List.map_eq_nil_iff.1 none]
  rfl

/-- One event makes what it makes on every line. -/
theorem single {event : Event} (grows : ∀ line, growth.grow line event = next) :
    GrowsTo [event] growth next := by
  intro lineOf placed one
  obtain ⟨found, rfl, rfl⟩ := List.map_eq_singleton_iff.1 one
  exact grows (lineOf found)

/-- Events one behind the other make what the later ones make of what the earlier ones made. -/
theorem append {events others : List Event} (first : GrowsTo events growth middle)
    (second : GrowsTo others middle next) : GrowsTo (events ++ others) growth next := by
  intro lineOf placed both
  obtain ⟨front, behind, rfl, inFront, isBehind⟩ := List.map_eq_append_iff.1 both
  -- The later events are met by what the earlier ones have left.
  rw [← second lineOf behind isBehind, ← first lineOf front inFront]
  exact List.foldl_append ..

end GrowsTo

/-- A written start opens an element with the name and the attributes that were written. -/
theorem growsTo_opening {name : String} {attributes : List (String × String)}
    (isName : IsName name.toList) (keys : ∀ entry ∈ attributes, IsName entry.1.toList)
    (apart : (Entries.keys attributes).Nodup) (growth : Growth) :
    GrowsTo [.opened (openingOf name attributes)] growth
      { growth with opened := ⟨name, attributes, "", []⟩ :: growth.opened } := by
  -- The tag is sound, so it makes its element and leaves no defect.
  refine .single fun line => ?_
  have element : (elementOf line (openingOf name attributes)).1 = ⟨name, attributes, "", []⟩ := by
    rw [elementOf_element, Tag.element_opening isName keys apart]
  have defects : (elementOf line (openingOf name attributes)).2 = [] :=
    (elementOf_defects line _).2 (Tag.sound_opening isName keys apart)
  simp only [Growth.grow, element, defects, List.append_nil]

/-- Written character data becomes the text of an element that has none yet. -/
theorem growsTo_text (name : String) (attributes : List (String × String)) (text : String)
    (others : List Element) (root : Option Element) (defects : List Defect) :
    GrowsTo (textEvents text) ⟨⟨name, attributes, "", []⟩ :: others, root, defects⟩
      ⟨⟨name, attributes, text, []⟩ :: others, root, defects⟩ := by
  -- There is no event for an empty text, and one that adds any other.
  by_cases empty : text.toList = []
  · obtain rfl : text = "" := String.toList_inj.1 empty
    exact .nil
  · rw [textEvents, if_neg empty]
    refine .single fun line => ?_
    simp [Growth.grow, unescape_escape, Growth.addText, Element.addText]

/-- Trees that are made one by one become the children of the innermost open element. -/
theorem growsTo_children {trees : List Element}
    (each : ∀ tree ∈ trees, ∀ growth, GrowsTo tree.events growth (growth.attach tree))
    (name : String) (attributes : List (String × String)) (text : String)
    (children others : List Element) (root : Option Element) (defects : List Defect) :
    GrowsTo (Element.eventsAll trees) ⟨⟨name, attributes, text, children⟩ :: others, root, defects⟩
      ⟨⟨name, attributes, text, children ++ trees⟩ :: others, root, defects⟩ := by
  -- Each child is attached behind those that the element has by then.
  induction trees generalizing children with
  | nil =>
    rw [List.append_nil]
    exact .nil
  | cons first rest ih =>
    obtain ⟨here, behind⟩ := List.forall_mem_cons.1 each
    have attached := here ⟨⟨name, attributes, text, children⟩ :: others, root, defects⟩
    have all := attached.append (ih behind (children ++ [first]))
    rwa [List.append_assoc] at all

/-- A written tree is attached to what there was. -/
theorem growsTo_render (element : Element) (renderable : element.Renderable) (growth : Growth) :
    GrowsTo element.events growth (growth.attach element) := by
  -- The induction is on the tree, for whatever it is attached to.
  induction element using Element.induction generalizing growth with
  | node name attributes text children ih =>
    obtain ⟨writable, below⟩ := renderable.cases
    have start := growsTo_opening writable.name writable.keys writable.apart growth
    have filled := growsTo_text name attributes text growth.opened growth.root growth.defects
    have parted := growsTo_children (fun child member => ih child member (below child member))
      name attributes text [] growth.opened growth.root growth.defects
    have ended : GrowsTo [.closed]
        ⟨⟨name, attributes, text, children⟩ :: growth.opened, growth.root, growth.defects⟩
        (growth.attach ⟨name, attributes, text, children⟩) := .single fun _ => rfl
    have whole := start.append (filled.append (parted.append ended))
    rw [Element.events]
    exact whole

/-- A text that begins with a bracket has no byte order mark in front of its markup. -/
theorem markupOf_render (element : Element) :
    markupOf (String.ofList element.render) = element.render := by
  -- The first character is a bracket.
  obtain ⟨rest, written⟩ := element.render_eq_cons
  have other : ¬ (String.ofList element.render).toList.head? = some '\ufeff' := by
    rw [String.toList_ofList, written]
    simp
  rw [markupOf, if_neg other, String.toList_ofList]

/-- Whatever can be written out is parsed as what it was, whole and under any path. -/
theorem Document.parse_render (path : Path) (root : Element) (renderable : root.Renderable) :
    Document.parse path (String.ofList root.render) = .ok ⟨path, root⟩ := by
  -- The markup is read as the events of the tree, and these make the tree out of nothing.
  have told := told_cut_markupOf (String.ofList root.render)
  have written := told_cut_render root renderable [] []
  have none : inFront root.events (cut [] []).told = (root.events, none) := by
    rw [cut]
    simp [Cutting.told, inFront]
  rw [markupOf_render] at told
  rw [List.append_nil, told, none] at written
  obtain ⟨events, fault⟩ := Prod.mk.inj written
  have grown : growthOf (String.ofList root.render) = Growth.attach root {} :=
    growsTo_render root renderable {} _ _ events
  rw [parse_eq_ok_iff]
  refine ⟨rfl, (readRoot_eq_ok_iff _ _).2 ?_⟩
  rw [grown]
  exact ⟨rfl, rfl, fault, rfl⟩

/-- A tree with all that has to be written by name, and white space that is kept inside a text. -/
def quotedTree : Element :=
  ⟨"beans", [("profile", "a < b & \"c\"")], "1 > 0", [⟨"import", [("resource", " ")], "", []⟩,
    ⟨"value", [("key", ""), ("x-y_z.1", "'")], "tab\there & there", []⟩]⟩

/-- The tree is written with references, and read back as it was. -/
theorem Document.parse_render_quotedTree :
    quotedTree.Renderable ∧
      Document.parse ⟨"doc.xml"⟩ (String.ofList quotedTree.render) =
        .ok ⟨⟨"doc.xml"⟩, quotedTree⟩ := by
  have renderable : quotedTree.Renderable := by decide +kernel
  exact ⟨renderable, Document.parse_render ⟨"doc.xml"⟩ quotedTree renderable⟩

end BeanWiring
