import BeanWiring.Entries
import Mathlib.Data.List.Nodup
import Mathlib.Data.List.Perm.Basic

/-!
Entries whose keys are all different, and entries set one after another: of several under one key
the first gives the place and the last the value.
-/

namespace BeanWiring

namespace Entries

variable {α β : Type}

/-- Under keys that are all different, a value is found exactly if its entry is there. -/
theorem get?_eq_some_iff {key : String} {value : α} {entries : List (String × α)}
    (distinct : (keys entries).Nodup) : get? key entries = some value ↔ (key, value) ∈ entries := by
  induction entries with
  | nil => simp [get?]
  | cons entry rest ih =>
    obtain ⟨known, first⟩ := entry
    have fresh : known ∉ keys rest := (List.nodup_cons.1 distinct).1
    simp only [get?, List.mem_cons, Prod.mk.injEq]
    split
    · -- The key stands in front, and so nowhere behind.
      rename_i same
      subst same
      have elsewhere : (known, value) ∉ rest := fun member =>
        fresh (List.mem_map_of_mem (f := (·.1)) member)
      simp [elsewhere, eq_comm]
    · rename_i differ
      simp [Ne.symm differ, ih (List.nodup_cons.1 distinct).2]

/-- The order of entries does not show in what is found, if their keys are all different. -/
theorem get?_perm {entries arranged : List (String × α)} (order : entries.Perm arranged)
    (distinct : (keys entries).Nodup) (key : String) :
    get? key entries = get? key arranged := by
  -- Both find the value of an entry that is in both.
  have arrangedDistinct : (keys arranged).Nodup := (order.map Prod.fst).nodup_iff.1 distinct
  apply Option.ext
  intro value
  rw [get?_eq_some_iff distinct, get?_eq_some_iff arrangedDistinct, order.mem_iff]

/-- Keys are different after a value was set if they were before. -/
theorem nodup_keys_set_iff (key : String) (value : α) (entries : List (String × α)) :
    (keys (set key value entries)).Nodup ↔ (keys entries).Nodup := by
  rw [keys_set]
  split
  · rfl
  · rename_i fresh
    -- The key that is added is none of those in front of it.
    have apart : ∀ other ∈ keys entries, ∀ last ∈ [key], other ≠ last := by
      intro other member last only same
      exact fresh (List.mem_singleton.1 only ▸ same ▸ member)
    rw [List.nodup_append]
    exact ⟨fun parts => parts.1, fun distinct => ⟨distinct, List.nodup_singleton key, apart⟩⟩

/-- Sets values in order, so that of several under one key the last one counts. -/
def setAll (entries given : List (String × α)) : List (String × α) :=
  given.foldl (fun entries entry => set entry.1 entry.2 entries) entries

/-- Setting values in order keeps the keys different. -/
theorem nodup_keys_setAll {entries : List (String × α)} (distinct : (keys entries).Nodup)
    (given : List (String × α)) : (keys (setAll entries given)).Nodup := by
  -- Each value is set in entries whose keys are different, and leaves such entries.
  induction given generalizing entries with
  | nil => exact distinct
  | cons entry rest ih => exact ih ((nodup_keys_set_iff _ _ _).2 distinct)

/-- The keys of values set in order are those that were there and those that were set. -/
theorem mem_keys_setAll {key : String} (entries given : List (String × α)) :
    key ∈ keys (setAll entries given) ↔ key ∈ keys entries ∨ key ∈ keys given := by
  induction given generalizing entries with
  | nil => simp [setAll, keys]
  | cons entry rest ih =>
    -- The first value adds its own key, if it is not there yet.
    have first : key ∈ keys (set entry.1 entry.2 entries) ↔ key ∈ keys entries ∨ key = entry.1 := by
      rw [keys_set]
      split
      · rename_i known
        exact ⟨.inl, fun either => either.elim id fun same => same ▸ known⟩
      · simp
    rw [setAll, List.foldl_cons]
    refine (ih (set entry.1 entry.2 entries)).trans ?_
    rw [first, or_assoc]
    simp [keys]

/-- Values set under other keys leave a key alone. -/
theorem get?_setAll_of_not_mem {key : String} (entries : List (String × α))
    {given : List (String × α)} (other : key ∉ keys given) :
    get? key (setAll entries given) = get? key entries := by
  induction given generalizing entries with
  | nil => rfl
  | cons entry rest ih =>
    obtain ⟨differs, later⟩ : key ≠ entry.1 ∧ key ∉ keys rest := by simpa [keys] using other
    -- No entry that is set has the key.
    exact (ih _ later).trans (get?_set_other differs entry.2 entries)

/-- Of values set in order the last one under a key is found. -/
theorem get?_setAll_last {key : String} {value : α} (entries front : List (String × α))
    {behind : List (String × α)} (last : key ∉ keys behind) :
    get? key (setAll entries (front ++ (key, value) :: behind)) = some value := by
  -- What is set behind it leaves the key alone.
  rw [setAll, List.foldl_append, List.foldl_cons]
  exact (get?_setAll_of_not_mem _ last).trans (get?_set_self key value _)

/-- The values of all entries with a key, in order. -/
def valuesUnder (key : String) (entries : List (String × α)) : List α :=
  (entries.filter fun entry => entry.1 == key).map (·.2)

/-- A key that no entry has is one without values. -/
theorem valuesUnder_eq_nil_iff {key : String} {entries : List (String × α)} :
    valuesUnder key entries = [] ↔ key ∉ keys entries := by
  simp only [valuesUnder, keys, List.map_eq_nil_iff, List.filter_eq_nil_iff, List.mem_map,
    beq_iff_eq, not_exists, not_and]

/-- An entry in front gives the values under its key a first one. -/
theorem valuesUnder_cons (key : String) (entry : String × α) (rest : List (String × α)) :
    valuesUnder key (entry :: rest) =
      if entry.1 = key then entry.2 :: valuesUnder key rest else valuesUnder key rest := by
  simp only [valuesUnder, List.filter_cons, beq_iff_eq]
  split <;> rfl

/-- Keys are all different exactly if the value that is found under each is the only one. -/
theorem nodup_keys_iff {entries : List (String × α)} :
    (keys entries).Nodup ↔ ∀ key, valuesUnder key entries = (get? key entries).toList := by
  induction entries with
  | nil => simp [keys, valuesUnder, get?]
  | cons entry rest ih =>
    have cut : (keys (entry :: rest)).Nodup ↔ entry.1 ∉ keys rest ∧ (keys rest).Nodup := by
      rw [keys, List.map_cons, List.nodup_cons]
      rfl
    simp only [cut, ih, valuesUnder_cons, get?]
    constructor
    · rintro ⟨fresh, others⟩ key
      split
      · rename_i same
        rw [valuesUnder_eq_nil_iff.2 (same ▸ fresh)]
        rfl
      · exact others key
    · intro single
      -- The entry in front is the only one with its key, so none behind it has the key.
      have fresh : entry.1 ∉ keys rest := by
        have alone := single entry.1
        rw [if_pos rfl, if_pos rfl] at alone
        exact valuesUnder_eq_nil_iff.1 (List.cons.inj alone).2
      refine ⟨fresh, fun key => ?_⟩
      by_cases same : entry.1 = key
      · rw [valuesUnder_eq_nil_iff.2 (same ▸ fresh), get?_eq_none_iff.2 (same ▸ fresh)]
        rfl
      · simpa [same] using single key

/-- A key that entries have is that of a first one among them, whose value is found. -/
theorem exists_first_entry {key : String} {value : α} {entries : List (String × α)}
    (found : get? key entries = some value) :
    ∃ front behind, entries = front ++ (key, value) :: behind ∧ key ∉ keys front := by
  induction entries with
  | nil => cases found
  | cons entry rest ih =>
    obtain ⟨known, first⟩ := entry
    simp only [get?] at found
    split at found
    · rename_i same
      obtain rfl := Option.some.inj found
      exact ⟨[], rest, by rw [same]; rfl, by simp [keys]⟩
    · rename_i differ
      -- The entry in front has another key, so the first one is behind it.
      obtain ⟨front, behind, rfl, fresh⟩ := ih found
      exact ⟨(known, first) :: front, behind, rfl, by simpa [keys, Ne.symm differ] using fresh⟩

/-- A value that is set under a key takes the place of the first one with the key. -/
theorem set_known {key : String} {old : α} {front : List (String × α)} (fresh : key ∉ keys front)
    (value : α) (behind : List (String × α)) :
    set key value (front ++ (key, old) :: behind) = front ++ (key, value) :: behind := by
  induction front with
  | nil => simp [set]
  | cons entry rest ih =>
    obtain ⟨other, later⟩ : entry.1 ≠ key ∧ key ∉ keys rest := by
      simpa [keys, eq_comm] using fresh
    -- The search passes over the entries in front, which have other keys.
    simp [set, other, ih later]

/--
Whether a value was set under a key and the one that was found there handed out: it stands where
that one stood, or at the end if the key is new, and all other entries are as they were.
-/
structure Inserted (key : String) (value : α) (before after : List (String × α))
    (replaced : Option α) : Prop where
  told : replaced = get? key before
  found : get? key after = some value
  placed : (∃ front old behind, key ∉ keys front ∧ replaced = some old ∧
      before = front ++ (key, old) :: behind ∧ after = front ++ (key, value) :: behind) ∨
    key ∉ keys before ∧ replaced = none ∧ after = before ++ [(key, value)]

/-- Setting a value puts it under its key and leaves all other entries alone. -/
theorem inserted_insert (key : String) (value : α) (entries : List (String × α)) :
    Inserted key value entries (insert key value entries).2 (insert key value entries).1 := by
  rw [insert_eq]
  refine ⟨rfl, get?_set_self key value entries, ?_⟩
  -- A known key keeps its position, and a fresh one goes to the end.
  cases found : get? key entries with
  | none =>
    have fresh := get?_eq_none_iff.1 found
    exact .inr ⟨fresh, rfl, set_new value fresh⟩
  | some old =>
    obtain ⟨front, behind, rfl, fresh⟩ := exists_first_entry found
    exact .inl ⟨front, old, behind, fresh, rfl, rfl, set_known fresh value behind⟩

/-- Changing all values changes the one that is found. -/
theorem get?_map (change : α → β) (key : String) (entries : List (String × α)) :
    get? key (entries.map fun entry => (entry.1, change entry.2)) =
      (get? key entries).map change := by
  induction entries with
  | nil => rfl
  | cons entry rest ih =>
    simp only [List.map_cons, get?, ih]
    -- The keys stay as they are, so the same entry is found.
    split <;> rfl

/-- Of values set in order each key stands where it first came. -/
theorem keys_setAll (entries given : List (String × α)) :
    keys (setAll entries given) =
      keys entries ++ ((keys given).removeAll (keys entries)).eraseDups := by
  -- The induction is on the values: each adds its key, or the key is there already.
  induction given generalizing entries with
  | nil => simp [setAll, keys, List.removeAll]
  | cons entry rest ih =>
    obtain ⟨key, value⟩ := entry
    have first := keys_set key value entries
    calc keys (setAll entries ((key, value) :: rest))
        = keys (set key value entries) ++
            ((keys rest).removeAll (keys (set key value entries))).eraseDups := ih _
      _ = keys entries ++ ((key :: keys rest).removeAll (keys entries)).eraseDups := by
          by_cases known : key ∈ keys entries
          · -- A known key is passed over among those that follow.
            rw [if_pos known] at first
            simp [first, List.removeAll, known]
          · -- A new key comes first, and is passed over from then on.
            rw [if_neg known] at first
            simp [first, List.removeAll, known, List.eraseDups_cons, List.filter_filter,
              beq_eq_decide, Bool.and_comm]

end Entries

end BeanWiring
