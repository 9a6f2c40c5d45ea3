import BeanWiring.Json
import BeanWiring.Bean.Definition

/-! Definitions and values as plain data, in both directions. -/

namespace BeanWiring

/-- A literal as plain data is itself. -/
def Literal.toJson : Literal → Json
  | .null => .null
  | .bool value => .bool value
  | .text value => .text value

/-- The literal of plain data; numbers, lists and objects are none. -/
def Literal.ofJson? : Json → Option Literal
  | .null => some .null
  | .bool value => some (.bool value)
  | .text value => some (.text value)
  | _ => none

/-- A value of a kind carries the name of the kind beside its content. -/
def taggedJson (kind : ValueKind) (content : Json) : Json :=
  .object [("kind", .text kind.name), ("value", content)]

/-- The kind in plain data: a choice in an object, and a bare name at the front of a list. -/
def ValueKind.ofJson? (json kind : Json) : Option ValueKind :=
  -- Only a field of an object may hold a choice; the front of a list must be the name itself.
  match json with
  | .list _ => kind.text?.bind ofName?
  | _ => kind.choice?.bind ofName?

mutual

/-- A value as plain data. -/
def Value.toJson : Value → Json
  | .beanRef bean => taggedJson .beanRef (.text bean)
  | .simple literal => taggedJson .simple literal.toJson
  | .array entries => taggedJson .array (.object [("entries", .list (entriesToJson entries))])
  | .code expression => taggedJson .code (.text expression)

/-- Entries as plain data are pairs of a key and a value. -/
def entriesToJson : List (String × Value) → List Json
  | [] => []
  | (key, value) :: rest => .list [.text key, value.toJson] :: entriesToJson rest

end

mutual

/-- The value of plain data, if it is that of one. -/
def Value.ofJson? (json : Json) : Option Value :=
  match _record : json.record? ["kind", "value"] with
  | some [some kind, some content] =>
    -- What the content has to be depends on the kind.
    match ValueKind.ofJson? json kind with
    | some .beanRef => content.text?.map .beanRef
    | some .simple => (Literal.ofJson? content).map .simple
    | some .array =>
      match _entries : content.record? ["entries"] with
      | some [some (.list items)] => (entriesOfJson? items).map .array
      | _ => none
    | some .code => content.text?.map .code
    | none => none
  | _ => none
termination_by sizeOf json
decreasing_by
  -- The items lie inside the content, and the content inside the record.
  have outer := Json.sizeOf_record?_lt _record
    (show some content ∈ [some kind, some content] by simp)
  have inner := Json.sizeOf_record?_lt _entries
    (show some (Json.list items) ∈ [some (Json.list items)] by simp)
  simp only [Json.list.sizeOf_spec] at inner
  omega

/-- The entries of plain data: pairs of a key and a value, repeated keys included. -/
def entriesOfJson? : List Json → Option (List (String × Value))
  | [] => some []
  | .list [.text key, value] :: rest => do
    let value ← Value.ofJson? value
    let entries ← entriesOfJson? rest
    return (key, value) :: entries
  | _ => none
termination_by items => sizeOf items

end

/-- The entries of an array that stands alone as plain data. -/
def arrayOfJson? (json : Json) : Option (List (String × Value)) :=
  match json.record? ["entries"] with
  | some [some (.list items)] => entriesOfJson? items
  | _ => none

/-- The entries of an array that stands alone, as plain data. -/
def arrayToJson (entries : List (String × Value)) : Json :=
  .object [("entries", .list (entriesToJson entries))]

/-- A property as plain data. -/
def Property.toJson (property : Property) : Json :=
  .object [("name", .text property.name), ("value", property.value.toJson)]

/-- The property of plain data. -/
def Property.ofJson? (json : Json) : Option Property := do
  let [some name, some value] ← json.record? ["name", "value"] | none
  return ⟨← name.text?, ← Value.ofJson? value⟩

/-- An argument as plain data. -/
def Argument.toJson (argument : Argument) : Json :=
  .object [("value", argument.value.toJson)]

/-- The argument of plain data. -/
def Argument.ofJson? (json : Json) : Option Argument := do
  let [some value] ← json.record? ["value"] | none
  return ⟨← Value.ofJson? value⟩

/-- An aspect as plain data. -/
def Aspect.toJson (aspect : Aspect) : Json :=
  .object [("pointcut", .text aspect.pointcut), ("aspect_type", .text aspect.aspectType.name),
    ("bean", .text aspect.bean)]

/-- The aspect of plain data. -/
def Aspect.ofJson? (json : Json) : Option Aspect := do
  let [some pointcut, some aspectType, some bean] ←
    json.record? ["pointcut", "aspect_type", "bean"] | none
  return ⟨← pointcut.text?, ← aspectType.choice?.bind AspectType.ofName?, ← bean.text?⟩

/-- A text that may be absent is null then. -/
def optionalText : Option String → Json
  | none => .null
  | some text => .text text

/-- Reads a text that may be absent or null; anything else is refused. -/
def optionalText? : Option Json → Option (Option String)
  | none => some none
  | some .null => some none
  | some (.text text) => some (some text)
  | some _ => none

namespace Definition

/-- The names of the fields in plain data, in order. -/
def fieldNames : List String :=
  ["name", "class", "scope", "factory_method", "factory_bean", "init_method", "destroy_method",
    "depends_on", "properties", "arguments", "aspects"]

/-- A definition as plain data. -/
def toJson (definition : Definition) : Json :=
  .object (fieldNames.zip
    [.text definition.name, .text definition.className, .text definition.scope.name,
      optionalText definition.factoryMethod, optionalText definition.factoryBean,
      optionalText definition.initMethod, optionalText definition.destroyMethod,
      .list (definition.dependsOn.map .text), .list (definition.properties.map Property.toJson),
      .list (definition.arguments.map Argument.toJson),
      .list (definition.aspects.map Aspect.toJson)])

/-- The definition of plain data: all fields are required but the four texts that may be absent. -/
def ofJson? (json : Json) : Option Definition := do
  let [some name, some className, some scope, factoryMethod, factoryBean, initMethod,
    destroyMethod, some dependsOn, some properties, some arguments, some aspects] ←
      json.record? fieldNames | none
  -- The fields are read in this order; the first that is no sound one ends the reading.
  return {
    name := ← name.text?
    className := ← className.text?
    scope := ← scope.choice?.bind Scope.ofName?
    factoryMethod := ← optionalText? factoryMethod
    factoryBean := ← optionalText? factoryBean
    initMethod := ← optionalText? initMethod
    destroyMethod := ← optionalText? destroyMethod
    dependsOn := ← (← dependsOn.list?).mapM Json.text?
    properties := ← (← properties.list?).mapM Property.ofJson?
    arguments := ← (← arguments.list?).mapM Argument.ofJson?
    aspects := ← (← aspects.list?).mapM Aspect.ofJson? }

end Definition

end BeanWiring
