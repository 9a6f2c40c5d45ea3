import BeanWiring.Markup.Document
import Mathlib.Data.List.Nodup

/-!
Tags read as elements: a sound tag makes an element with exactly the attributes written in it, in
their order, and any other tag leaves a defect.
-/

namespace BeanWiring

/-- What an attribute adds to an element: its key and its value with the references replaced. -/
def entryOf? : Except AttributeFault RawAttribute → Option (String × String)
  | .error _ => none
  | .ok raw =>
    match unescape raw.value with
    -- A value that cannot be read makes no entry.
    | .error _ => none
    | .ok value => some (String.ofList raw.key, String.ofList value)

namespace Tag

/-- Whether every attribute of a tag can be read, and the references in every value. -/
def Sound (tag : Tag) : Prop :=
  ∀ written ∈ tag.attributes, ∃ raw value, written = .ok raw ∧ unescape raw.value = .ok value

/-- The attributes written in a tag, in order. -/
def entries (tag : Tag) : List (String × String) :=
  tag.attributes.filterMap entryOf?

end Tag

/-- The keys of the attributes that were read, in order. -/
def keysRead (attributes : List (Except AttributeFault RawAttribute)) : List (List Char) :=
  attributes.filterMap fun written => written.toOption.map (·.key)

/-- A key that was not seen is not found among those seen. -/
theorem not_mem_of_seenAt?_eq_none {seen : List (List Char × Nat)} {key : List Char}
    (unseen : seenAt? seen key = none) : key ∉ seen.map (·.1) := by
  intro member
  obtain ⟨entry, stands, rfl⟩ := List.mem_map.1 member
  simp only [seenAt?, Option.map_eq_none_iff, List.find?_eq_none] at unseen
  -- An entry with the key would have been found.
  exact unseen entry stands (by simp)

/-- The keys seen stay seen. -/
theorem readValue_seen (seen : List (List Char × Nat)) (key : List Char) (position : Nat)
    (text : List Char) : (readValue seen key position text).seen = seen := by
  unfold readValue
  -- Whether or not the value is sound, no key is added.
  split
  · rfl
  · split
    · dsimp only
      split <;> rfl
    · rfl

/-- A value is read for the key it stands behind. -/
theorem readValue_key {seen : List (List Char × Nat)} {key : List Char} {position : Nat}
    {text : List Char} {raw : RawAttribute}
    (read : (readValue seen key position text).outcome = .ok raw) : raw.key = key := by
  -- Only a value in quotes is read, and it is kept together with the key.
  unfold readValue at read
  split at read
  · cases read
  · split at read
    · dsimp only at read
      split at read
      · cases read
      · cases read
        rfl
    · cases read

/-- After an attribute at most its key is seen in addition; one that was read had not been seen. -/
theorem readAttribute_seen (seen : List (List Char × Nat)) (start : Nat) (first : Char)
    (tail : List Char) :
    let step := readAttribute seen start first tail
    (∀ key ∈ seen.map (·.1), key ∈ step.seen.map (·.1)) ∧
      ∀ raw, step.outcome = .ok raw →
        raw.key ∉ seen.map (·.1) ∧ raw.key ∈ step.seen.map (·.1) := by
  -- Behind its equals sign a key is seen, before its value is looked at.
  simp only [readAttribute]
  split
  · rename_i afterSign sign
    split
    · -- A repeated key is refused.
      refine ⟨fun key known => known, ?_⟩
      intro raw read
      cases read
    · rename_i unseen
      simp only [readValue_seen, List.map_cons, List.mem_cons]
      refine ⟨fun key known => .inr known, ?_⟩
      intro raw read
      rw [readValue_key read]
      exact ⟨not_mem_of_seenAt?_eq_none unseen, .inl rfl⟩
  · refine ⟨fun key known => known, ?_⟩
    intro raw read
    cases read

/-- No key is read twice, nor one that was seen before. -/
theorem keysRead_attributesFrom (seen : List (List Char × Nat)) (position : Nat)
    (text : List Char) :
    (keysRead (attributesFrom seen position text)).Nodup ∧
      ∀ key ∈ keysRead (attributesFrom seen position text), key ∉ seen.map (·.1) := by
  -- What has been seen by then grows from attribute to attribute.
  fun_induction attributesFrom seen position text with
  | case1 => simp [keysRead]
  | case2 seen position text first tail front step ih =>
    obtain ⟨kept, fresh⟩ := readAttribute_seen seen (position + gapLength text) first tail
    obtain ⟨apart, later⟩ := ih
    have unseen : ∀ key ∈ keysRead (attributesFrom step.seen step.position step.rest),
        key ∉ seen.map (·.1) := fun key member known => later key member (kept key known)
    cases outcome : step.outcome with
    | error fault =>
      have passed : keysRead (.error fault :: attributesFrom step.seen step.position step.rest) =
          keysRead (attributesFrom step.seen step.position step.rest) := rfl
      rw [passed]
      exact ⟨apart, unseen⟩
    | ok raw =>
      obtain ⟨new, known⟩ := fresh raw outcome
      have read : keysRead (.ok raw :: attributesFrom step.seen step.position step.rest) =
          raw.key :: keysRead (attributesFrom step.seen step.position step.rest) := rfl
      rw [read]
      refine ⟨List.nodup_cons.2 ⟨fun again => later _ again known, apart⟩, ?_⟩
      intro key member
      rcases List.mem_cons.1 member with rfl | behind
      · exact new
      · exact unseen key behind

/-- The keys of the entries that attributes make are among those read. -/
theorem keys_entries_sublist (attributes : List (Except AttributeFault RawAttribute)) :
    (Entries.keys (attributes.filterMap entryOf?)).Sublist
      ((keysRead attributes).map String.ofList) := by
  -- An attribute that was read makes an entry under its key, or none if its value is refused.
  induction attributes with
  | nil => exact List.Sublist.refl _
  | cons written rest ih =>
    cases written with
    | error fault => exact ih
    | ok raw =>
      have read : keysRead (.ok raw :: rest) = raw.key :: keysRead rest := rfl
      -- An attribute whose value cannot be read is left out.
      cases value : unescape raw.value with
      | error fault =>
        have entry : entryOf? (.ok raw) = none := by simp [entryOf?, value]
        rw [List.filterMap_cons_none entry, read, List.map_cons]
        exact ih.cons _
      | ok text =>
        have entry : entryOf? (.ok raw) = some (String.ofList raw.key, String.ofList text) := by
          simp [entryOf?, value]
        rw [List.filterMap_cons_some entry, read, List.map_cons]
        exact ih.cons_cons _

/-- No key stands twice among the attributes of a tag. -/
theorem Tag.nodup_keys_entries (tag : Tag) : (Entries.keys tag.entries).Nodup := by
  -- The keys of the entries are some of those read, and these are distinct.
  have read := (keysRead_attributesFrom [] (byteLength tag.name)
    (tag.content.dropWhile fun c => !isGap c)).1
  have apart : ((keysRead tag.attributes).map String.ofList).Nodup :=
    read.map fun left right same => by simpa [String.ofList_inj] using same
  exact apart.sublist (keys_entries_sublist tag.attributes)

/-- An attribute that can be read is set under its key, and any other changes no element. -/
theorem addAttribute_element (line : Nat) (made : Element × List Defect)
    (written : Except AttributeFault RawAttribute) :
    (addAttribute line made written).1 =
      match entryOf? written with
      | some entry => made.1.setAttribute entry.1 entry.2
      | none => made.1 := by
  cases written with
  | error fault => rfl
  -- A value that cannot be read sets nothing.
  | ok raw => cases value : unescape raw.value <;> simp [addAttribute, entryOf?, value]

/-- The defect that an attribute leaves behind, told with a line, unless it is sound. -/
def attributeDefect? (line : Nat) : Except AttributeFault RawAttribute → Option Defect
  | .error fault => some (.tagAttribute line fault)
  | .ok raw =>
    match unescape raw.value with
    | .ok _ => none
    | .error fault => some (.attributeValue line (String.ofList raw.key) fault)

/-- The defects of the attributes of a tag, in order. -/
def Tag.defects (line : Nat) (tag : Tag) : List Defect :=
  tag.attributes.filterMap (attributeDefect? line)

/-- An attribute leaves no defect exactly if it can be read, and the references in its value. -/
theorem attributeDefect?_eq_none_iff (line : Nat) (written : Except AttributeFault RawAttribute) :
    attributeDefect? line written = none ↔
      ∃ raw value, written = .ok raw ∧ unescape raw.value = .ok value := by
  cases written with
  | error fault => simp [attributeDefect?]
  | ok raw => cases read : unescape raw.value <;> simp [attributeDefect?, read]

/-- Adding an attribute leaves its defect behind those that were there. -/
theorem addAttribute_defects (line : Nat) (made : Element × List Defect)
    (written : Except AttributeFault RawAttribute) :
    (addAttribute line made written).2 = made.2 ++ (attributeDefect? line written).toList := by
  cases written with
  | error fault => rfl
  | ok raw => cases read : unescape raw.value <;> simp [addAttribute, attributeDefect?, read]

/-- Adding attributes leaves the defect of each, in their order. -/
theorem addAttributes_defects (line : Nat)
    (attributes : List (Except AttributeFault RawAttribute)) (made : Element × List Defect) :
    (attributes.foldl (addAttribute line) made).2 =
      made.2 ++ attributes.filterMap (attributeDefect? line) := by
  -- The induction is on the attributes, for whatever was made before.
  induction attributes generalizing made with
  | nil => simp
  | cons written rest ih =>
    rw [List.foldl_cons, ih, addAttribute_defects, List.append_assoc]
    cases found : attributeDefect? line written <;> simp [found]

/-- Attributes under new keys are added in order. -/
theorem addAttributes_element (line : Nat)
    (attributes : List (Except AttributeFault RawAttribute)) (made : Element × List Defect)
    (apart : (Entries.keys (made.1.attributes ++ attributes.filterMap entryOf?)).Nodup) :
    (attributes.foldl (addAttribute line) made).1 =
      { made.1 with attributes := made.1.attributes ++ attributes.filterMap entryOf? } := by
  induction attributes generalizing made with
  | nil =>
    obtain ⟨⟨name, known, text, children⟩, defects⟩ := made
    simp
  | cons written rest ih =>
    have added := addAttribute_element line made written
    rw [List.foldl_cons]
    cases makes : entryOf? written with
    | some entry =>
      rw [List.filterMap_cons_some makes] at apart ⊢
      simp only [makes] at added
      -- The key of the entry is none of those before it.
      have unknown : entry.1 ∉ Entries.keys made.1.attributes := by
        simp only [Entries.keys, List.map_append, List.map_cons] at apart ⊢
        have disjoint := (List.nodup_append.1 apart).2.2
        exact fun known => disjoint _ known _ (List.mem_cons_self ..) rfl
      have set : (made.1.setAttribute entry.1 entry.2).attributes =
          made.1.attributes ++ [entry] := Entries.set_new _ unknown
      rw [ih _ (by simpa [added, set] using apart), added, set]
      simp [Element.setAttribute]
    | none =>
      rw [List.filterMap_cons_none makes] at apart ⊢
      simp only [makes] at added
      rw [ih _ (by rw [added]; exact apart), added]

/-- The element that a tag opens, before anything stands in it. -/
def Tag.element (tag : Tag) : Element :=
  ⟨String.ofList tag.name, tag.entries, "", []⟩

/-- A tag makes an element with its name and its attributes. -/
theorem elementOf_element (line : Nat) (tag : Tag) : (elementOf line tag).1 = tag.element := by
  -- The attributes are added to an element without any, so all their keys are new.
  have made := addAttributes_element line tag.attributes
    (⟨String.ofList tag.name, [], "", []⟩, []) (by simpa [Tag.entries] using tag.nodup_keys_entries)
  simpa [elementOf, Tag.element, Tag.entries] using made

/-- A tag leaves the defects of its attributes. -/
theorem elementOf_told (line : Nat) (tag : Tag) : (elementOf line tag).2 = tag.defects line := by
  rw [elementOf, addAttributes_defects, List.nil_append, Tag.defects]

/-- A tag leaves no defect exactly if it is sound. -/
theorem elementOf_defects (line : Nat) (tag : Tag) :
    (elementOf line tag).2 = [] ↔ tag.Sound := by
  -- Every attribute that is not sound leaves one.
  rw [elementOf_told, Tag.defects, List.filterMap_eq_nil_iff]
  simp only [attributeDefect?_eq_none_iff]
  rfl

end BeanWiring
