/-!
Entries under keys, in the order in which the keys first came.

A value set under a known key takes the place of the old one, and a new key goes to the end.
-/

namespace BeanWiring

namespace Entries

variable {α : Type}

/-- The value of the first entry with a key. -/
def get? (key : String) : List (String × α) → Option α
  | [] => none
  | (known, value) :: rest => if known = key then some value else get? key rest

/-- The keys in order. -/
def keys (entries : List (String × α)) : List String :=
  entries.map (·.1)

/-- Sets the value under a key. -/
def set (key : String) (value : α) : List (String × α) → List (String × α)
  | [] => [(key, value)]
  | (known, old) :: rest =>
    if known = key then (known, value) :: rest else (known, old) :: set key value rest

/-- Sets the value under a key and hands out the one that it takes the place of. -/
def insert (key : String) (value : α) :
    List (String × α) → Option α × List (String × α)
  | [] => (none, [(key, value)])
  | (known, old) :: rest =>
    if known = key then (some old, (known, value) :: rest)
    else
      let (replaced, others) := insert key value rest
      (replaced, (known, old) :: others)

/-- What is handed out is what was found under the key before. -/
theorem insert_eq (key : String) (value : α) (entries : List (String × α)) :
    insert key value entries = (get? key entries, set key value entries) := by
  induction entries with
  | nil => rfl
  | cons entry rest ih =>
    simp only [insert, get?, set]
    -- Both functions go down to the first entry of the key, or to the end.
    split
    · rfl
    · rw [ih]

/-- A value that was set is found under its key. -/
@[simp] theorem get?_set_self (key : String) (value : α) (entries : List (String × α)) :
    get? key (set key value entries) = some value := by
  induction entries with
  | nil => simp [set, get?]
  | cons entry rest ih =>
    -- The entry met first either has the key or is passed by both functions.
    simp only [set]
    split
    · simp [get?, *]
    · simp [get?, *]

/-- Setting one key leaves the values under all others alone. -/
theorem get?_set_other {key other : String} (distinct : other ≠ key) (value : α)
    (entries : List (String × α)) : get? other (set key value entries) = get? other entries := by
  induction entries with
  | nil => simp [set, get?, distinct.symm]
  | cons entry rest ih =>
    simp only [set]
    split
    · rename_i same
      -- The entry changed has the one key, so it is passed on the way to the other.
      have passed : entry.1 ≠ other := fun equal => distinct (equal.symm.trans same)
      simp [get?, passed]
    · simp only [get?, ih]

/-- A known key keeps its place when it is set, and a new one follows the others. -/
theorem keys_set (key : String) (value : α) (entries : List (String × α)) :
    keys (set key value entries) =
      if key ∈ keys entries then keys entries else keys entries ++ [key] := by
  induction entries with
  | nil => simp [set, keys]
  | cons entry rest ih =>
    simp only [set]
    split
    · rename_i same
      simp [keys, same]
    · rename_i differ
      -- The head has another key, so membership is decided in the rest.
      simp only [keys, List.map_cons, List.mem_cons, Ne.symm differ, false_or] at ih ⊢
      rw [ih]
      split <;> simp [*]

/-- The value that was set stands among the entries. -/
theorem mem_set_self (key : String) (value : α) (entries : List (String × α)) :
    (key, value) ∈ set key value entries := by
  induction entries with
  | nil => simp [set]
  | cons entry rest ih =>
    -- The entry in front has the key, or the value is set behind it.
    simp only [set]
    split
    · rename_i same
      simp [same]
    · exact List.mem_cons_of_mem _ ih

/-- Entries under other keys stay when a value is set. -/
theorem mem_set_of_mem {key : String} {entry : String × α} (other : entry.1 ≠ key) (value : α)
    {entries : List (String × α)} (member : entry ∈ entries) : entry ∈ set key value entries := by
  induction entries with
  | nil => cases member
  | cons first rest ih =>
    simp only [set]
    -- Setting changes an entry only if it is the first one of the key.
    split
    · rename_i same
      rcases List.mem_cons.1 member with rfl | later
      · exact absurd same other
      · exact List.mem_cons_of_mem _ later
    · rcases List.mem_cons.1 member with rfl | later
      · exact List.mem_cons_self
      · exact List.mem_cons_of_mem _ (ih later)

/-- A key without a value is none of the keys. -/
theorem get?_eq_none_iff {key : String} {entries : List (String × α)} :
    get? key entries = none ↔ key ∉ keys entries := by
  induction entries with
  | nil => simp [get?, keys]
  | cons entry rest ih =>
    -- The entry in front has the key, or the question is about the rest.
    simp only [get?, keys, List.map_cons, List.mem_cons, not_or]
    split
    · rename_i same
      simp [same]
    · rename_i differ
      simpa [keys, Ne.symm differ] using ih

/-- A key that is not there yet is set at the end. -/
theorem set_new {key : String} (value : α) {entries : List (String × α)}
    (unknown : key ∉ keys entries) : set key value entries = entries ++ [(key, value)] := by
  induction entries with
  | nil => rfl
  | cons entry rest ih =>
    -- The entry in front has another key, so the search goes on behind it.
    obtain ⟨other, later⟩ : entry.1 ≠ key ∧ key ∉ keys rest := by
      simpa [keys, eq_comm] using unknown
    simp [set, other, ih later]

end Entries

end BeanWiring
