import BeanWiring.Bean.Json
import BeanWiring.Proofs.Bean.SameData
import BeanWiring.Proofs.Json

/-!
Definitions and values written as plain data are read back as they were,
in whatever order the fields of objects stand by then.

Nothing is confused on the way: different values have different data. The data holds no number, so
it can also be told from its written form.
-/

namespace BeanWiring

open Json (SameData)

/-- What is written as plain data is read back, also when fields were put into another order. -/
def ReadsBack {α : Type} (write : α → Json) (read : Json → Option α) : Prop :=
  ∀ item json, SameData (write item) json → read json = some item

/-- What is read back from data in any order is read back from the data as it was written. -/
theorem ReadsBack.written {α : Type} {write : α → Json} {read : Json → Option α}
    (back : ReadsBack write read) (item : α) : read (write item) = some item :=
  back item (write item) (.refl (write item))

/-- Things that are read back are the same if their data is the same. -/
theorem ReadsBack.sameData_iff {α : Type} {write : α → Json} {read : Json → Option α}
    (back : ReadsBack write read) (left right : α) :
    SameData (write left) (write right) ↔ left = right := by
  constructor
  · -- The data of the right one is read as the left one and as itself.
    intro same
    have crossed := back left (write right) same
    rw [back.written right] at crossed
    exact (Option.some.inj crossed).symm
  · intro same
    exact same ▸ .refl (write left)

/-- Items that are each read back are read back as a list. -/
theorem mapM_readBack {α : Type} {write : α → Json} {read : Json → Option α} {items : List α}
    {others : List Json} (back : ReadsBack write read)
    (same : List.Forall₂ SameData (items.map write) others) : others.mapM read = some items := by
  induction items generalizing others with
  | nil =>
    cases same
    rfl
  | cons item rest ih =>
    -- Data in another order still holds the items in theirs.
    obtain ⟨first, later, here, behind, rfl⟩ := List.forall₂_cons_left_iff.1 same
    rw [List.mapM_cons, back item first here, ih behind]
    rfl

/-- A list of items that are each read back stays a list, and is read back item by item. -/
theorem list_readBack {α : Type} {write : α → Json} {read : Json → Option α} {items : List α}
    {json : Json} (back : ReadsBack write read) (same : SameData (.list (items.map write)) json) :
    ∃ row, json.list? = some row ∧ row.mapM read = some items := by
  -- Only the fields of objects can be put into another order.
  cases same with
  | list row => exact ⟨_, rfl, mapM_readBack back row⟩

/-- A reading goes on with what was read first. -/
theorem bind_known {α β : Type} {first : Option α} {value : α} (known : first = some value)
    (next : α → Option β) : (first >>= next) = next value := by
  rw [known]
  rfl

/-- A text is read back. -/
theorem text_readsBack : ReadsBack Json.text Json.text? := by
  intro text json same
  cases same
  rfl

/-- A literal is read back, and no literal is taken for another. -/
theorem literal_readsBack : ReadsBack Literal.toJson Literal.ofJson? := by
  -- Data without objects has no fields to be put into another order.
  intro literal json same
  cases literal <;> (cases same; rfl)

/-- A text that may be absent is read back. -/
theorem optionalText_readsBack :
    ReadsBack optionalText fun json => optionalText? (some json) := by
  intro text json same
  cases text <;> (cases same; rfl)

/-- A case that is written by its name is read back from that name as a choice. -/
theorem choice_readsBack {α : Type} {name : α → String} {ofName? : String → Option α}
    (named : ∀ item, ofName? (name item) = some item) :
    ReadsBack (fun item => .text (name item)) fun json => json.choice?.bind ofName? := by
  intro item json same
  -- A bare name is a choice.
  cases same
  exact named item

/-- The name of a kind of values names this kind only. -/
theorem ValueKind.ofName?_name (kind : ValueKind) : ofName? kind.name = some kind := by
  cases kind <;> decide

/-- The name of a scope names this scope only. -/
theorem Scope.ofName?_name (scope : Scope) : ofName? scope.name = some scope := by
  cases scope <;> decide

/-- The name of an aspect type names this type only. -/
theorem AspectType.ofName?_name (aspectType : AspectType) :
    ofName? aspectType.name = some aspectType := by
  cases aspectType <;> decide

/-- The value of a kind that plain data is the content of. -/
def Value.ofContent? (content : Json) : ValueKind → Option Value
  | .beanRef => content.text?.map .beanRef
  | .simple => (Literal.ofJson? content).map .simple
  | .array => (arrayOfJson? content).map .array
  | .code => content.text?.map .code

/-- A value is read from its kind and its content. -/
theorem Value.ofJson?_of_record {json content name : Json} {kind : ValueKind}
    (record : json.record? ["kind", "value"] = some [some name, some content])
    (named : ValueKind.ofJson? json name = some kind) :
    Value.ofJson? json = Value.ofContent? content kind := by
  rw [Value.ofJson?]
  split
  · rename_i found
    rw [record] at found
    cases found
    rw [named]
    cases kind with
    | array =>
      -- Only here the content is read on, as the entries of an array are.
      simp only [Value.ofContent?, arrayOfJson?]
      split <;> simp_all
    | _ => rfl
  · rename_i other
    exact absurd record (other _ _)

/-- A value under its kind is read back as soon as its content is. -/
theorem tagged_readBack {kind : ValueKind} {content : Json} {value : Value}
    (inside : ∀ found, SameData content found → Value.ofContent? found kind = some value)
    {json : Json} (same : SameData (taggedJson kind content) json) :
    Value.ofJson? json = some value := by
  obtain ⟨_, read, agrees⟩ := same.record? (by simp [Entries.keys])
  obtain ⟨_, _, ⟨⟩, held, rfl⟩ := List.forall₂_cons_left_iff.1 agrees
  obtain ⟨found, _, here, ends, rfl⟩ := List.forall₂_cons_left_iff.1 held
  cases ends
  -- The data is still an object, so its kind is a choice, here by its bare name.
  have named : ValueKind.ofJson? json (.text kind.name) = some kind := by
    cases same
    exact kind.ofName?_name
  rw [Value.ofJson?_of_record read named]
  exact inside found here

/-- Entries are read back, repeated keys included, as soon as their values are. -/
theorem entries_readBack {entries : List (String × Value)} {others : List Json}
    (each : ∀ entry ∈ entries, ∀ json, SameData entry.2.toJson json →
      Value.ofJson? json = some entry.2)
    (same : List.Forall₂ SameData (entriesToJson entries) others) :
    entriesOfJson? others = some entries := by
  induction entries generalizing others with
  | nil =>
    cases same
    rw [entriesOfJson?]
  | cons entry rest ih =>
    obtain ⟨key, value⟩ := entry
    obtain ⟨_, later, here, behind, rfl⟩ := List.forall₂_cons_left_iff.1 same
    -- An entry is the pair of its key, which is a text, and its value.
    cases here with
    | list pair =>
      obtain ⟨_, _, ⟨⟩, held, rfl⟩ := List.forall₂_cons_left_iff.1 pair
      obtain ⟨content, _, here, ends, rfl⟩ := List.forall₂_cons_left_iff.1 held
      cases ends
      have others := ih (fun entry member => each entry (List.mem_cons_of_mem _ member)) behind
      rw [entriesOfJson?, each (key, value) List.mem_cons_self content here, others]
      rfl

/-- The entries of an array are read back as soon as the values of the entries are. -/
theorem array_readBack {entries : List (String × Value)} {json : Json}
    (each : ∀ entry ∈ entries, ∀ json, SameData entry.2.toJson json →
      Value.ofJson? json = some entry.2)
    (same : SameData (arrayToJson entries) json) : arrayOfJson? json = some entries := by
  obtain ⟨_, read, agrees⟩ := same.record? (by simp [Entries.keys])
  obtain ⟨_, _, here, ends, rfl⟩ := List.forall₂_cons_left_iff.1 agrees
  cases ends
  -- The list of entries is the only field, so it is found whatever the order.
  cases here with
  | list row =>
    have read : json.record? ["entries"] = some [some (.list _)] := read
    simp only [arrayOfJson?, read]
    exact entries_readBack each row

/-- A value of any depth is read back. -/
theorem value_readsBack : ReadsBack Value.toJson Value.ofJson? := by
  -- The induction is on the value: an array is read back once the values of its entries are.
  intro value
  induction value using Value.induction with
  | beanRef bean =>
    intro json
    apply tagged_readBack
    intro found here
    exact congrArg (Option.map Value.beanRef) (text_readsBack bean found here)
  | simple literal =>
    intro json
    apply tagged_readBack
    intro found here
    exact congrArg (Option.map Value.simple) (literal_readsBack literal found here)
  | array entries each =>
    intro json
    apply tagged_readBack
    intro found here
    exact congrArg (Option.map Value.array) (array_readBack each here)
  | code expression =>
    intro json
    apply tagged_readBack
    intro found here
    exact congrArg (Option.map Value.code) (text_readsBack expression found here)

/-- An array that stands alone is read back. -/
theorem array_readsBack : ReadsBack arrayToJson arrayOfJson? := by
  intro entries json same
  exact array_readBack (fun entry _ => value_readsBack entry.2) same

/-- A property is read back. -/
theorem property_readsBack : ReadsBack Property.toJson Property.ofJson? := by
  -- Each field is found under its name, with the data that it was written as.
  intro property json same
  obtain ⟨_, read, agrees⟩ := same.record? (by simp [Entries.keys])
  simp only [List.map_cons, List.map_nil, List.forall₂_cons_left_iff,
    List.forall₂_nil_left_iff] at agrees
  obtain ⟨name, _, named, ⟨value, _, given, rfl, rfl⟩, rfl⟩ := agrees
  have read : json.record? ["name", "value"] = some [some name, some value] := read
  simp [Property.ofJson?, read, text_readsBack _ name named, value_readsBack _ value given]

/-- An argument is read back. -/
theorem argument_readsBack : ReadsBack Argument.toJson Argument.ofJson? := by
  intro argument json same
  obtain ⟨_, read, agrees⟩ := same.record? (by simp [Entries.keys])
  simp only [List.map_cons, List.map_nil, List.forall₂_cons_left_iff,
    List.forall₂_nil_left_iff] at agrees
  -- The value is the only field of an argument.
  obtain ⟨value, _, given, rfl, rfl⟩ := agrees
  have read : json.record? ["value"] = some [some value] := read
  simp [Argument.ofJson?, read, value_readsBack _ value given]

/-- An aspect is read back. -/
theorem aspect_readsBack : ReadsBack Aspect.toJson Aspect.ofJson? := by
  -- Its type is a choice among names, the other two fields are texts.
  intro aspect json same
  obtain ⟨_, read, agrees⟩ := same.record? (by simp [Entries.keys])
  simp only [List.map_cons, List.map_nil, List.forall₂_cons_left_iff,
    List.forall₂_nil_left_iff] at agrees
  obtain ⟨pointcut, _, applied, ⟨aspectType, _, typed, ⟨bean, _, worked, rfl, rfl⟩, rfl⟩, rfl⟩ :=
    agrees
  have read : json.record? ["pointcut", "aspect_type", "bean"] =
      some [some pointcut, some aspectType, some bean] := read
  have typed := choice_readsBack AspectType.ofName?_name _ aspectType typed
  simp [Aspect.ofJson?, read, text_readsBack _ pointcut applied, typed,
    text_readsBack _ bean worked]

/-- A definition is read back. -/
theorem definition_readsBack : ReadsBack Definition.toJson Definition.ofJson? := by
  -- The eleven fields are found under their names, and then read in order.
  intro definition json same
  obtain ⟨_, read, agrees⟩ := same.record? (by simp [Entries.keys, Definition.fieldNames])
  simp only [Definition.fieldNames, List.zip_cons_cons, List.zip_nil_left, List.map_cons,
    List.map_nil, List.forall₂_cons_left_iff, List.forall₂_nil_left_iff] at agrees
  obtain ⟨name, _, named, ⟨className, _, classed, ⟨scope, _, shared, ⟨factoryMethod, _, made,
    ⟨factoryBean, _, maker, ⟨initMethod, _, begun, ⟨destroyMethod, _, ended, ⟨dependsOn, _, needed,
    ⟨properties, _, given, ⟨arguments, _, passed, ⟨aspects, _, crossed, rfl, rfl⟩, rfl⟩, rfl⟩,
    rfl⟩, rfl⟩, rfl⟩, rfl⟩, rfl⟩, rfl⟩, rfl⟩, rfl⟩ := agrees
  have read : json.record? Definition.fieldNames = some [some name, some className, some scope,
      some factoryMethod, some factoryBean, some initMethod, some destroyMethod, some dependsOn,
      some properties, some arguments, some aspects] := read
  -- The texts and the scope are read back one by one.
  have named := text_readsBack _ name named
  have classed := text_readsBack _ className classed
  have shared := choice_readsBack Scope.ofName?_name _ scope shared
  have made := optionalText_readsBack _ factoryMethod made
  have maker := optionalText_readsBack _ factoryBean maker
  have begun := optionalText_readsBack _ initMethod begun
  have ended := optionalText_readsBack _ destroyMethod ended
  -- The four lists stay lists, whose items are read back one by one.
  obtain ⟨_, needs, needed⟩ := list_readBack text_readsBack needed
  obtain ⟨_, gives, given⟩ := list_readBack property_readsBack given
  obtain ⟨_, passes, passed⟩ := list_readBack argument_readsBack passed
  obtain ⟨_, crosses, crossed⟩ := list_readBack aspect_readsBack crossed
  rw [Definition.ofJson?, read]
  show (name.text? >>= _) = _
  rw [bind_known named, bind_known classed, bind_known shared, bind_known made, bind_known maker,
    bind_known begun, bind_known ended, bind_known needs, bind_known needed, bind_known gives,
    bind_known given, bind_known passes, bind_known passed, bind_known crosses, bind_known crossed]
  rfl

/-- The data of a literal holds no number. -/
@[simp] theorem Literal.numberFree_toJson (literal : Literal) : literal.toJson.NumberFree := by
  cases literal <;> simp [toJson]

/-- Entries hold no number if their values hold none. -/
theorem numberFree_entriesToJson {entries : List (String × Value)}
    (each : ∀ entry ∈ entries, entry.2.toJson.NumberFree) :
    ∀ item ∈ entriesToJson entries, item.NumberFree := by
  induction entries with
  | nil => simp [entriesToJson]
  | cons entry rest ih =>
    obtain ⟨here, others⟩ := List.forall_mem_cons.1 each
    simp only [entriesToJson, List.forall_mem_cons]
    -- An entry is a list of a text and the data of its value.
    exact ⟨by simpa using here, ih others⟩

/-- The data of a value of any depth holds no number. -/
@[simp] theorem Value.numberFree_toJson (value : Value) : value.toJson.NumberFree := by
  induction value using Value.induction with
  | array entries each => simpa [toJson, taggedJson] using numberFree_entriesToJson each
  | _ => simp [toJson, taggedJson]

/-- The data of a definition holds no number. -/
theorem Definition.numberFree_toJson (definition : Definition) :
    definition.toJson.NumberFree := by
  -- A text that is absent is written as null.
  have optional : ∀ text : Option String, (optionalText text).NumberFree := by
    intro text
    cases text <;> simp [optionalText]
  simp [toJson, fieldNames, optional, Property.toJson, Argument.toJson, Aspect.toJson]

/--
Definitions, values and arrays that stand alone survive being written as plain data and read again,
also when the fields of objects were put into another order in between.

Two values have the same data only if they are the same value, so none is taken for another.
-/
theorem definitions_survive_plain_data :
    (∀ definition : Definition, Definition.ofJson? definition.toJson = some definition) ∧
    (∀ value : Value, Value.ofJson? value.toJson = some value) ∧
    (∀ entries, arrayOfJson? (arrayToJson entries) = some entries) ∧
    (ReadsBack Definition.toJson Definition.ofJson? ∧ ReadsBack Value.toJson Value.ofJson? ∧
      ReadsBack arrayToJson arrayOfJson?) ∧
    ∀ value other : Value, SameData value.toJson other.toJson ↔ value = other := by
  refine ⟨definition_readsBack.written, value_readsBack.written, array_readsBack.written, ?_, ?_⟩
  -- What is read back in any order is read back as written, and told apart by its data.
  · exact ⟨definition_readsBack, value_readsBack, array_readsBack⟩
  · exact value_readsBack.sameData_iff

end BeanWiring
