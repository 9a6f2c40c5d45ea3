import BeanWiring.Error
import BeanWiring.Notice
import BeanWiring.Assembly.Names
import BeanWiring.Bean.Definition
import BeanWiring.Markup.Element

/-!
Reading the value of a node: a property, a constructor argument or an array entry.

The first marker of a fixed order decides the kind of the value.
A bean declared inside a node without an id is given one, which is written into the node.
-/

namespace BeanWiring

/-- The children that decide the kind of a value. -/
inductive Marker where
  | reference
  | nothing
  | no
  | yes
  | inlineBean
  | entries
  | code
deriving DecidableEq, Repr

/-- The name of a marker's element. -/
def Marker.name : Marker → String
  | .reference => "ref"
  | .nothing => "null"
  | .no => "false"
  | .yes => "true"
  | .inlineBean => "bean"
  | .entries => "array"
  | .code => "eval"

/-- The markers in order: one that stands earlier hides those after it. -/
def Marker.all : List Marker :=
  [.reference, .nothing, .no, .yes, .inlineBean, .entries, .code]

/-- The first marker that a node has a child for. -/
def Marker.of? (node : Element) : Option Marker :=
  Marker.all.find? fun marker => (node.child? marker.name).isSome

/-- For whom values are read: the bean that errors name, and the names not to be given. -/
structure Context where
  bean : String
  taken : List String := []
deriving DecidableEq, Repr, Inhabited

/--
What reading leaves behind, successful or not: the outcome, what was read with the ids given,
and the names.
-/
structure Extraction (α β : Type) where
  outcome : Except DefinitionError α
  node : β
  names : Names
  notices : List Notice := []

/-- Reading that ends with an outcome and changes nothing. -/
def Extraction.done {α β : Type} (outcome : Except DefinitionError α) (node : β) (names : Names) :
    Extraction α β :=
  ⟨outcome, node, names, []⟩

/-- Changes the result of reading that succeeded. -/
def Extraction.map {α γ β : Type} (change : α → γ) (extraction : Extraction α β) : Extraction γ β :=
  { extraction with outcome := extraction.outcome.map change }

/-- The value of an attribute that an element has to have. -/
def requiredAttribute (context : Context) (node : Element) (key : String) :
    Except DefinitionError String :=
  match node.attribute? key with
  | some value => .ok value
  | none => .error (.missingAttribute context.bean node.name key)

/-- The id in the reference of a node. -/
def referenceOf (context : Context) (node : Element) : Except DefinitionError Value :=
  match node.child? Marker.reference.name with
  | some reference => (requiredAttribute context reference "bean").map .beanRef
  | none => .ok (.ofText node.trimmedText)

/-- The expression in a node. -/
def codeOf (node : Element) : Value :=
  .code ((node.child? Marker.code.name).map Element.trimmedText |>.getD "")

/--
Without any marker the value is the text of the first value child, or else of the node itself.
-/
def plainValue (node : Element) : Value :=
  .ofText (((node.child? "value").getD node).trimmedText)

/-- A reference to the bean declared inside a node, which is given an id if it has none. -/
def extractInline (context : Context) (names : Names) (node : Element) : Extraction Value Element :=
  match node.child? Marker.inlineBean.name with
  | none => .done (.ok (plainValue node)) node names
  | some bean =>
    match bean.attribute? "id" with
    | some id => .done (.ok (.beanRef id)) node names
    | none =>
      -- The first inline bean is the one that the value refers to, so it alone is named.
      let (name, names) := names.nextFree context.taken
      let marked := node.updateChild? Marker.inlineBean.name fun bean => bean.setAttribute "id" name
      ⟨.ok (.beanRef name), marked.getD node, names, [.named context.bean name]⟩

mutual

/-- Reads the value of a node. -/
def extract (context : Context) (names : Names) : Element → Extraction Value Element
  | ⟨name, attributes, text, children⟩ =>
    let node : Element := ⟨name, attributes, text, children⟩
    match Marker.of? node with
    | some .reference => .done (referenceOf context node) node names
    | some .nothing => .done (.ok (.simple .null)) node names
    | some .no => .done (.ok (.simple (.bool false))) node names
    | some .yes => .done (.ok (.simple (.bool true))) node names
    | some .inlineBean => extractInline context names node
    | some .entries =>
      -- The first array among the children is read, and the node keeps what that changed.
      let array := extractArray context names children
      ⟨array.outcome.map .array, ⟨name, attributes, text, array.node⟩, array.names, array.notices⟩
    | some .code => .done (.ok (codeOf node)) node names
    | none => .done (.ok (plainValue node)) node names

/-- Reads the entries of the first array among the children of a node. -/
def extractArray (context : Context) (names : Names) :
    List Element → Extraction (List (String × Value)) (List Element)
  | [] => .done (.ok []) [] names
  | ⟨name, attributes, text, children⟩ :: rest =>
    if name == Marker.entries.name then
      let entries := extractEntries context names [] children
      { entries with node := ⟨name, attributes, text, entries.node⟩ :: rest }
    else
      -- Children before the first array stay as they are.
      let others := extractArray context names rest
      { others with node := ⟨name, attributes, text, children⟩ :: others.node }

/-- Reads the entries of an array in order: a later one replaces an earlier one with its key. -/
def extractEntries (context : Context) (names : Names) (entries : List (String × Value)) :
    List Element → Extraction (List (String × Value)) (List Element)
  | [] => .done (.ok entries) [] names
  | entry :: rest =>
    if entry.name == "entry" then
      match requiredAttribute context entry "key" with
      | .error error => .done (.error error) (entry :: rest) names
      | .ok key =>
        let first := extract context names entry
        match first.outcome with
        | .error error => ⟨.error error, first.node :: rest, first.names, first.notices⟩
        | .ok value =>
          -- A repeated key keeps its position and takes the later value.
          let others := extractEntries context first.names (Entries.set key value entries) rest
          ⟨others.outcome, first.node :: others.node, others.names,
            first.notices ++ others.notices⟩
    else
      let others := extractEntries context names entries rest
      { others with node := entry :: others.node }

end

/-- Reads a property: its name is looked for before its value. -/
def extractProperty (context : Context) (names : Names) (node : Element) :
    Extraction Property Element :=
  match requiredAttribute context node "name" with
  | .error error => .done (.error error) node names
  | .ok name => (extract context names node).map fun value => ⟨name, value⟩

/-- Reads a constructor argument. -/
def extractArgument (context : Context) (names : Names) (node : Element) :
    Extraction Argument Element :=
  (extract context names node).map fun value => ⟨value⟩

end BeanWiring
