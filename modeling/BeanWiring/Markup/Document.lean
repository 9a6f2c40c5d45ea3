import BeanWiring.Error
import BeanWiring.Markup.Element
import BeanWiring.Markup.Event
import BeanWiring.Markup.Reference

/-!
Documents: the element tree that the events of a text make up, or all the defects of the text.

The tree grows along a stack of open elements; every defect met on the way is kept in order.
-/

namespace BeanWiring

/-- What is wrong with a document. -/
inductive Defect where
  | tagAttribute (line : Nat) (fault : AttributeFault)
  | attributeValue (line : Nat) (key : String) (fault : ReferenceFault)
  | characterData (line : Nat) (fault : ReferenceFault)
  | textOutsideRoot (line : Nat)
  | secondRoot (name : String)
  | unreadable (line : Nat) (fault : SyntaxFault)
  | unclosed (name : String)
  | missingRoot
deriving DecidableEq, Repr

/-- A defect found at a place of the text is told with its line. -/
def onLine (line : Nat) (message : String) : String :=
  s!"第 {line} 行: " ++ message

/-- The wording of a defect. -/
def Defect.message : Defect → String
  | .tagAttribute line fault => onLine line fault.message
  | .attributeValue line key fault => onLine line (s!"属性 {key} 无效: " ++ fault.message)
  | .characterData line fault => onLine line fault.message
  | .textOutsideRoot line => onLine line "根元素之外存在文本"
  | .secondRoot name => s!"存在多个根元素: <{name}>"
  | .unreadable line fault => onLine line fault.message
  | .unclosed name => s!"元素 <{name}> 未闭合"
  | .missingRoot => "文档缺少根元素"

/-- The line on which a defect is found, and what is said of it there. -/
inductive Defect.SaidOn : Defect → Nat → String → Prop
  | tagAttribute (line : Nat) (fault : AttributeFault) :
      SaidOn (.tagAttribute line fault) line fault.message
  | attributeValue (line : Nat) (key : String) (fault : ReferenceFault) :
      SaidOn (.attributeValue line key fault) line ("属性 " ++ key ++ " 无效: " ++ fault.message)
  | characterData (line : Nat) (fault : ReferenceFault) :
      SaidOn (.characterData line fault) line fault.message
  | textOutsideRoot (line : Nat) : SaidOn (.textOutsideRoot line) line "根元素之外存在文本"
  | unreadable (line : Nat) (fault : SyntaxFault) :
      SaidOn (.unreadable line fault) line fault.message

/--
The text by which a defect is told: with its line and what is said of it there, or, where it is
about whole elements, with the name of the element.
-/
inductive Defect.Reads : Defect → String → Prop
  | onLine {defect : Defect} {line : Nat} {said : String} (found : defect.SaidOn line said) :
      Reads defect ("第 " ++ toString line ++ " 行: " ++ said)
  | secondRoot (name : String) : Reads (.secondRoot name) ("存在多个根元素: <" ++ name ++ ">")
  | unclosed (name : String) : Reads (.unclosed name) ("元素 <" ++ name ++ "> 未闭合")
  | missingRoot : Reads .missingRoot "文档缺少根元素"

/-- A defect is told by its wording. -/
theorem Defect.reads_message : (defect : Defect) → defect.Reads defect.message
  | .tagAttribute line fault => .onLine (.tagAttribute line fault)
  | .attributeValue line key fault => .onLine (.attributeValue line key fault)
  | .characterData line fault => .onLine (.characterData line fault)
  | .textOutsideRoot line => .onLine (.textOutsideRoot line)
  | .secondRoot name => .secondRoot name
  | .unreadable line fault => .onLine (.unreadable line fault)
  | .unclosed name => .unclosed name
  | .missingRoot => .missingRoot

/-- A tree in the making. -/
structure Growth where
  /-- The elements still open, the innermost first. -/
  opened : List Element := []
  root : Option Element := none
  defects : List Defect := []
deriving DecidableEq, Repr

/-- Adds one attribute to an element, or tells why it cannot be added. -/
def addAttribute (line : Nat) (made : Element × List Defect) :
    Except AttributeFault RawAttribute → Element × List Defect
  | .error fault => (made.1, made.2 ++ [.tagAttribute line fault])
  | .ok raw =>
    -- An attribute whose value cannot be read is left out of the element.
    let key := String.ofList raw.key
    match unescape raw.value with
    | .ok value => (made.1.setAttribute key (String.ofList value), made.2)
    | .error fault => (made.1, made.2 ++ [.attributeValue line key fault])

/-- The element of a tag with all its sound attributes, and the defects of the others. -/
def elementOf (line : Nat) (tag : Tag) : Element × List Defect :=
  -- Attributes are added in order, so a defect does not hide those after it.
  tag.attributes.foldl (addAttribute line) (⟨String.ofList tag.name, [], "", []⟩, [])

namespace Growth

/--
A finished element goes to the innermost open one; without any it is the root,
of which there is one.
-/
def attach (element : Element) (growth : Growth) : Growth :=
  match growth.opened, growth.root with
  | parent :: others, _ => { growth with opened := parent.addChild element :: others }
  | [], none => { growth with root := some element }
  | [], some _ => { growth with defects := growth.defects ++ [.secondRoot element.name] }

/-- Character data goes to the innermost open element; outside the root only blanks may stand. -/
def addText (line : Nat) (text : String) (growth : Growth) : Growth :=
  match growth.opened with
  | innermost :: others => { growth with opened := innermost.addText text :: others }
  | [] =>
    if isAllBlank text then growth
    else { growth with defects := growth.defects ++ [.textOutsideRoot line] }

/-- One more event, found on a line. -/
def grow (line : Nat) (growth : Growth) : Event → Growth
  | .opened tag =>
    let (element, defects) := elementOf line tag
    { growth with opened := element :: growth.opened, defects := growth.defects ++ defects }
  | .empty tag =>
    let (element, defects) := elementOf line tag
    attach element { growth with defects := growth.defects ++ defects }
  -- An end tag without an open element is a fault of the markup, so none comes here.
  | .closed =>
    match growth.opened with
    | innermost :: others => attach innermost { growth with opened := others }
    | [] => growth
  | .text raw =>
    match unescape raw with
    | .ok text => growth.addText line (String.ofList text)
    | .error fault => { growth with defects := growth.defects ++ [.characterData line fault] }
  | .verbatim raw => growth.addText line (String.ofList raw)
  | .aside => growth

/--
The defects of a finished reading: those met on the way, the fault that ended it,
and the elements left open.
-/
def allDefects (growth : Growth) (fault : Option Defect) : List Defect :=
  growth.defects ++ fault.toList ++ growth.opened.map fun element => .unclosed element.name

end Growth

/-- Reads the root element of a document, or tells all that is wrong with it. -/
def readRoot (content : String) : Except (List Defect) Element :=
  let whole := content.toList
  -- A byte order mark is not part of the markup, but it is part of the text whose lines are
  -- counted.
  let reading := readEvents (if whole.head? = some '\ufeff' then whole.tail else whole)
  let growth : Growth := reading.events.foldl
    (fun growth placed => growth.grow (lineAt whole placed.offset) placed.value) {}
  let fault := reading.fault.map fun placed =>
    Defect.unreadable (lineAt whole placed.offset) placed.value
  match growth.root, growth.allDefects fault with
  | some root, [] => .ok root
  | none, [] => .error [.missingRoot]
  | _, defects => .error defects

/-- A document and the path it was read from. -/
structure Document where
  path : Path
  root : Element
deriving Inhabited, Repr

namespace Document

/-- The document that a text holds. -/
def parse (path : Path) (content : String) : Except ConfigError Document :=
  match readRoot content with
  | .ok root => .ok ⟨path, root⟩
  | .error defects => .error (.malformed path (defects.map Defect.message))

/-- Documents are the same if they hold the same tree under the same path. -/
def same (left right : Document) : Bool :=
  left.path.same right.path && left.root == right.root

/-- The bean declaration with an id, on whatever level it stands. -/
def findBean? (document : Document) (id : String) : Option Element :=
  document.root.descendants.find? (Element.declares id)

/-- Changes the bean declaration with an id, if there is one. -/
def updateBean? (document : Document) (id : String) (change : Element → Element) :
    Option Document :=
  (document.root.updateFirst? (Element.declares id) change).map fun root =>
    { document with root := root }

/-- The ids of all bean declarations that have one, in document order. -/
def beanIds (document : Document) : List String :=
  (document.root.descendants.filter fun element => element.name == "bean").filterMap
    fun element => element.attribute? "id"

/-- The resource of an import; a declaration without one is a fault of the document. -/
def resourceOf (document : Document) (declaration : Element) : Except ConfigError String :=
  match declaration.attribute? "resource" with
  | some resource => .ok resource
  | none => .error (.importWithoutResource document.path)

/-- The resources of all import declarations, wherever they stand in the document. -/
def imports (document : Document) : Except ConfigError (List String) :=
  (document.root.descendants.filter fun element => element.name == "import").mapM
    document.resourceOf

end Document

end BeanWiring
