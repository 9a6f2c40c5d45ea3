import BeanWiring.Proofs.Bean.RoundTrip
import BeanWiring.Proofs.Entries

/-!
The keys of arrays, however an array comes into being.

Main statement: setting values keeps the keys of an array as different as they were, and reading
takes the keys as they are written. So the keys are all different exactly if the data that the
array was read from repeats none, and then each key has one value.
-/

namespace BeanWiring

namespace Json

/-- The items of an array that stands alone. -/
def arrayItems? (json : Json) : Option (List Json) :=
  match json.record? ["entries"] with
  | some [some (.list items)] => some items
  | _ => none

/-- The items of a value that is an array. -/
def items? (json : Json) : Option (List Json) :=
  match json.record? ["kind", "value"] with
  | some [some kind, some content] =>
    if ValueKind.ofJson? json kind = some .array then content.arrayItems? else none
  | _ => none

/-- The key of an item. -/
def itemKey? : Json → Option String
  | .list [.text key, _] => some key
  | _ => none

/-- The value of an item. -/
def itemValue? : Json → Option Json
  | .list [.text _, value] => some value
  | _ => none

/-- The value at a way down the arrays of a value, by the indices of their items. -/
def inside? : Json → List Nat → Option Json
  | json, [] => some json
  | json, index :: path =>
    ((json.items?.bind (·[index]?)).bind itemValue?).bind fun value => value.inside? path

/-- The keys that are written for the array at a way, in order and with repetitions. -/
def keysAt (json : Json) (path : List Nat) : List String :=
  (((json.inside? path).bind items?).getD []).filterMap itemKey?

/-- The value that a row of a definition gives; it is the last of the fields that the row has. -/
def rowValue? (fields : List String) (row : Json) : Option Json :=
  (row.record? fields).bind fun found => found.getLast?.join

/-- The rows of a field of a definition. -/
def rows? (field : String) (json : Json) : Option (List Json) :=
  (json.record? Definition.fieldNames).bind fun found =>
    (Entries.get? field (Definition.fieldNames.zip found)).join.bind list?

/-- The value of a property or an argument of a definition, or null if there is none. -/
def partValue (field : String) (fields : List String) (json : Json) (index : Nat) : Json :=
  (((json.rows? field).bind (·[index]?)).bind (rowValue? fields)).getD .null

end Json

/-- What stands at a way down the arrays of a value, by the indices of their entries. -/
def Value.inside? : Value → List Nat → Option Value
  | value, [] => some value
  | value, index :: path =>
    ((value.entries?.bind (·[index]?)).map (·.2)).bind fun value => value.inside? path

/-- How a value is read from data: by itself, as an array, or as a part of a definition. -/
inductive ValueRead : Json → Value → Prop
  | value {json : Json} {value : Value} (read : Value.ofJson? json = some value) :
      ValueRead json value
  | array {json : Json} {entries : List (String × Value)}
      (read : arrayOfJson? json = some entries) :
      ValueRead (taggedJson .array json) (.array entries)
  | property {json : Json} {definition : Definition} {index : Nat} {property : Property}
      (read : Definition.ofJson? json = some definition)
      (stands : definition.properties[index]? = some property) :
      ValueRead (json.partValue "properties" ["name", "value"] index) property.value
  | argument {json : Json} {definition : Definition} {index : Nat} {argument : Argument}
      (read : Definition.ofJson? json = some definition)
      (stands : definition.arguments[index]? = some argument) :
      ValueRead (json.partValue "arguments" ["value"] index) argument.value

/--
How an array comes into being, with the keys that were written for it: it is new, it was read at
any depth of a value, or a value was set in it.
-/
inductive ArrayMade : List String → List (String × Value) → Prop
  | new : ArrayMade [] []
  | read {json : Json} {value : Value} {path : List Nat} {entries : List (String × Value)}
      (origin : ValueRead json value) (stands : value.inside? path = some (.array entries)) :
      ArrayMade (json.keysAt path) entries
  | insert {written : List String} {entries : List (String × Value)}
      (made : ArrayMade written entries) (key : String) (value : Value) :
      ArrayMade written (Entries.insert key value entries).2

/-- Items are read one by one, each with its key and its value. -/
theorem entriesOfJson?_forall₂ {items : List Json} {entries : List (String × Value)}
    (read : entriesOfJson? items = some entries) :
    List.Forall₂ (fun item entry => item.itemKey? = some entry.1 ∧
      ∃ value, item.itemValue? = some value ∧ Value.ofJson? value = some entry.2)
        items entries := by
  induction items generalizing entries with
  | nil =>
    rw [entriesOfJson?] at read
    obtain rfl := Option.some.inj read
    exact .nil
  | cons item rest ih =>
    unfold entriesOfJson? at read
    split at read
    · rename_i same
      cases same
    · -- The item is the pair of a key and a value, and the others are read behind it.
      rename_i key value _ same
      cases same
      obtain ⟨inner, first, behind⟩ := Option.bind_eq_some_iff.1 read
      obtain ⟨others, later, same⟩ := Option.bind_eq_some_iff.1 behind
      obtain rfl := Option.some.inj same
      exact .cons ⟨rfl, value, rfl, first⟩ (ih later)
    · cases read

/-- Entries that are read have the keys of the items, in order. -/
theorem entriesOfJson?_keys {items : List Json} {entries : List (String × Value)}
    (read : entriesOfJson? items = some entries) :
    items.filterMap Json.itemKey? = Entries.keys entries := by
  have rows := entriesOfJson?_forall₂ read
  clear read
  induction rows with
  | nil => rfl
  | cons first _ ih =>
    -- An item that is read as an entry has the key of that entry.
    rw [List.filterMap_cons_some first.1, ih]
    rfl

/-- An array that stands alone is read from its items. -/
theorem arrayOfJson?_eq_some {json : Json} {entries : List (String × Value)}
    (read : arrayOfJson? json = some entries) :
    ∃ items, json.arrayItems? = some items ∧ entriesOfJson? items = some entries := by
  unfold arrayOfJson? at read
  split at read
  · rename_i items record
    -- Both functions look for the same list under the same key.
    refine ⟨items, ?_, read⟩
    rw [Json.arrayItems?, record]
  · cases read

/-- What is read as an array is written as one, and its entries are read from its items. -/
theorem ofJson?_eq_array {json : Json} {entries : List (String × Value)}
    (read : Value.ofJson? json = some (.array entries)) :
    ∃ items, json.items? = some items ∧ entriesOfJson? items = some entries := by
  have whole := read
  unfold Value.ofJson? at read
  split at read
  · rename_i kind content record
    cases named : ValueKind.ofJson? json kind with
    | none => simp [named] at read
    | some found =>
      rw [Value.ofJson?_of_record record named] at whole
      -- Of the four kinds only an array is read as one.
      cases found with
      | array =>
        obtain ⟨other, inside, same⟩ := Option.map_eq_some_iff.1 whole
        obtain rfl := Value.array.inj same
        obtain ⟨items, written, entries⟩ := arrayOfJson?_eq_some inside
        exact ⟨items, by simp [Json.items?, record, named, written], entries⟩
      | beanRef | simple | code =>
        obtain ⟨_, _, same⟩ := Option.map_eq_some_iff.1 whole
        cases same
  · cases read

/-- Of two rows that agree item by item, each item of the second has one of the first. -/
theorem forall₂_getElem? {α β : Type} {agree : α → β → Prop} {left : List α} {right : List β}
    (each : List.Forall₂ agree left right) {index : Nat} {item : β}
    (there : right[index]? = some item) :
    ∃ other, left[index]? = some other ∧ agree other item := by
  induction each generalizing index with
  | nil => cases there
  | cons first _ ih =>
    -- The pair at an index stands one further in front among the others.
    cases index with
    | zero =>
      obtain rfl := Option.some.inj there
      exact ⟨_, rfl, first⟩
    | succ index => exact ih there

/-- Items that are read as a row are read one by one. -/
theorem mapM_forall₂ {α β : Type} {read : α → Option β} {items : List α} {results : List β}
    (whole : items.mapM read = some results) :
    List.Forall₂ (fun item result => read item = some result) items results := by
  induction items generalizing results with
  | nil =>
    obtain rfl := Option.some.inj whole
    exact .nil
  | cons item rest ih =>
    rw [List.mapM_cons] at whole
    -- The first item is read, and then the others are.
    obtain ⟨first, here, behind⟩ := Option.bind_eq_some_iff.1 whole
    obtain ⟨others, later, same⟩ := Option.bind_eq_some_iff.1 behind
    obtain rfl := Option.some.inj same
    exact .cons here (ih later)

/-- What stands at a way down a value is read from what is written there. -/
theorem ofJson?_inside {json : Json} {value inner : Value} {path : List Nat}
    (read : Value.ofJson? json = some value) (stands : value.inside? path = some inner) :
    ∃ data, json.inside? path = some data ∧ Value.ofJson? data = some inner := by
  -- The induction is on the way, which leads through an item for each entry.
  induction path generalizing json value with
  | nil =>
    obtain rfl : value = inner := Option.some.inj stands
    exact ⟨json, rfl, read⟩
  | cons index path ih =>
    obtain ⟨next, entry, later⟩ := Option.bind_eq_some_iff.1 stands
    cases value with
    | array entries =>
      obtain ⟨items, written, each⟩ := ofJson?_eq_array read
      obtain ⟨there, listed, rfl⟩ := Option.map_eq_some_iff.1 entry
      obtain ⟨item, row, _, data, held, first⟩ :=
        forall₂_getElem? (entriesOfJson?_forall₂ each) listed
      obtain ⟨found, deeper, result⟩ := ih first later
      refine ⟨found, ?_, result⟩
      simp [Json.inside?, written, row, held, deeper]
    | beanRef | simple | code => cases entry

/-- The properties and the arguments of a definition are read from the rows of their fields. -/
theorem ofJson?_rows {json : Json} {definition : Definition}
    (read : Definition.ofJson? json = some definition) :
    (∃ rows, json.rows? "properties" = some rows ∧
        rows.mapM Property.ofJson? = some definition.properties) ∧
      ∃ rows, json.rows? "arguments" = some rows ∧
        rows.mapM Argument.ofJson? = some definition.arguments := by
  unfold Definition.ofJson? at read
  obtain ⟨fields, record, read⟩ := Option.bind_eq_some_iff.1 read
  split at read
  · -- The fields are read in order, the properties and the arguments behind eight others.
    iterate 9 obtain ⟨_, _, read⟩ := Option.bind_eq_some_iff.1 read
    obtain ⟨rows, properties, read⟩ := Option.bind_eq_some_iff.1 read
    obtain ⟨_, each, read⟩ := Option.bind_eq_some_iff.1 read
    obtain ⟨others, arguments, read⟩ := Option.bind_eq_some_iff.1 read
    obtain ⟨_, all, read⟩ := Option.bind_eq_some_iff.1 read
    iterate 2 obtain ⟨_, _, read⟩ := Option.bind_eq_some_iff.1 read
    obtain rfl := Option.some.inj read
    refine ⟨⟨rows, ?_, each⟩, others, ?_, all⟩
    · rw [Json.rows?, record]
      exact properties
    · rw [Json.rows?, record]
      exact arguments
  · cases read

/-- A value is read from its data in whatever way it comes. -/
theorem ValueRead.ofJson? {json : Json} {value : Value} (origin : ValueRead json value) :
    Value.ofJson? json = some value := by
  cases origin with
  | value read => exact read
  | @array json entries read =>
    -- The data of an array with its kind is that of a value.
    have named : ValueKind.ofJson? (taggedJson .array json) (.text ValueKind.array.name) =
        some .array := ValueKind.array.ofName?_name
    rw [Value.ofJson?_of_record rfl named, Value.ofContent?, read]
    rfl
  | @property json definition index property read stands =>
    -- The row of the property holds its name and then the data of its value.
    obtain ⟨⟨rows, listed, each⟩, _⟩ := ofJson?_rows read
    obtain ⟨row, there, given⟩ := forall₂_getElem? (mapM_forall₂ each) stands
    unfold Property.ofJson? at given
    obtain ⟨fields, record, given⟩ := Option.bind_eq_some_iff.1 given
    split at given
    · obtain ⟨_, _, given⟩ := Option.bind_eq_some_iff.1 given
      obtain ⟨_, inside, given⟩ := Option.bind_eq_some_iff.1 given
      obtain rfl := Option.some.inj given
      simpa [Json.partValue, listed, there, Json.rowValue?, record] using inside
    · cases given
  | @argument json definition index argument read stands =>
    obtain ⟨_, rows, listed, each⟩ := ofJson?_rows read
    obtain ⟨row, there, given⟩ := forall₂_getElem? (mapM_forall₂ each) stands
    unfold Argument.ofJson? at given
    obtain ⟨fields, record, given⟩ := Option.bind_eq_some_iff.1 given
    split at given
    · obtain ⟨_, inside, given⟩ := Option.bind_eq_some_iff.1 given
      obtain rfl := Option.some.inj given
      simpa [Json.partValue, listed, there, Json.rowValue?, record] using inside
    · cases given

/-- The keys of an array that is read are those that are written. -/
theorem keys_eq_keysAt {json : Json} {value : Value} {path : List Nat}
    {entries : List (String × Value)} (origin : ValueRead json value)
    (stands : value.inside? path = some (.array entries)) :
    Entries.keys entries = json.keysAt path := by
  -- At the end of the way stands the data of the array, whose items have the keys.
  obtain ⟨data, written, read⟩ := ofJson?_inside origin.ofJson? stands
  obtain ⟨items, array, each⟩ := ofJson?_eq_array read
  simp [Json.keysAt, written, array, entriesOfJson?_keys each]

/-- The keys of an array are as different as those that were written for it. -/
theorem ArrayMade.nodup_keys_iff {written : List String} {entries : List (String × Value)}
    (made : ArrayMade written entries) : (Entries.keys entries).Nodup ↔ written.Nodup := by
  -- Reading takes the keys as they are, and setting a value repeats none.
  induction made with
  | new => simp [Entries.keys]
  | read origin stands => rw [keys_eq_keysAt origin stands]
  | insert made key value ih =>
    rw [Entries.insert_eq]
    exact (Entries.nodup_keys_set_iff key value _).trans ih

/--
The keys of an array, however it came into being, are all different exactly if the data that it was
read from repeats none for it. What is found under a key is then the only value there. A value that
is set takes the place of the first one under its key, which is handed out, or else goes to the end;
all other entries stay as they are, and if no key is repeated it is the only value under its key.
-/
theorem array_keys_unique_iff_written_unique {written : List String}
    {entries : List (String × Value)} (made : ArrayMade written entries) :
    ((Entries.keys entries).Nodup ↔ written.Nodup) ∧
      (written.Nodup → ∀ key,
        Entries.valuesUnder key entries = (Entries.get? key entries).toList) ∧
      ∀ key value,
        let (replaced, after) := Entries.insert key value entries
        Entries.Inserted key value entries after replaced ∧
          (written.Nodup → Entries.valuesUnder key after = [value]) := by
  have unique := made.nodup_keys_iff
  -- Only what is told of single values under a key needs that no key is repeated.
  refine ⟨unique, fun distinct => Entries.nodup_keys_iff.1 (unique.2 distinct), ?_⟩
  intro key value
  have inserted := Entries.inserted_insert key value entries
  refine ⟨inserted, fun distinct => ?_⟩
  -- The array after the insertion is one that came into being with the same data.
  have after := (made.insert key value).nodup_keys_iff.2 distinct
  rw [Entries.nodup_keys_iff.1 after key, inserted.found]
  rfl

/-- A definition with an array inside the array of its property. -/
def nestedDefinition : Definition :=
  { name := "svc", properties := [⟨"rows", .array [("x", .array [("a", .ofText "1")])]⟩] }

/-- The inner array of a definition that was read, and in which a value was set, has unique keys. -/
theorem nested_array_keys_unique :
    ArrayMade ["a"] [("a", .ofText "1"), ("b", .ofText "2")] ∧
      (Entries.keys [("a", Value.ofText "1"), ("b", .ofText "2")]).Nodup ∧
      Entries.valuesUnder "a" (Entries.insert "a" (Value.ofText "3")
        [("a", Value.ofText "1"), ("b", Value.ofText "2")]).2 = [Value.ofText "3"] := by
  have origin : ValueRead _ (.array [("x", .array [("a", .ofText "1")])]) :=
    .property (definition_readsBack.written nestedDefinition) (show _[0]? = _ from rfl)
  have inner : ArrayMade ["a"] [("a", .ofText "1")] :=
    .read origin (show Value.inside? _ [0] = _ from rfl)
  -- The inner array is read from data and then gets a key that it did not have.
  have made := inner.insert "b" (.ofText "2")
  have unique := array_keys_unique_iff_written_unique made
  exact ⟨made, unique.1.2 (by decide), (unique.2.2 "a" (.ofText "3")).2 (by decide)⟩

/-- Two entries under one key. -/
def repeatedEntries : List (String × Value) :=
  [("a", .ofText "1"), ("a", .ofText "2")]

/-- An array that is read from data with a repeated key has two entries under it, for good. -/
theorem repeated_key_is_read_twice :
    arrayOfJson? (arrayToJson repeatedEntries) = some repeatedEntries ∧
      ArrayMade ["a", "a"] repeatedEntries ∧ ¬ (Entries.keys repeatedEntries).Nodup ∧
      Entries.insert "a" (.ofText "3") repeatedEntries =
        (some (.ofText "1"), [("a", .ofText "3"), ("a", .ofText "2")]) := by
  have read := array_readsBack.written repeatedEntries
  -- The data of an array holds its entries as they are, also those of one key.
  have made : ArrayMade ["a", "a"] repeatedEntries :=
    .read (.array read) (show Value.inside? _ [] = _ from rfl)
  exact ⟨read, made, by decide, by decide⟩

end BeanWiring
