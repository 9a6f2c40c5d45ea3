import BeanWiring.Json
import BeanWiring.Proofs.Entries
import Mathlib.Data.List.Forall2

/-!
Plain data that is the same but for the order of the fields in its objects.

A record is read by the names of its fields, so the order in which they stand does not show.
-/

namespace BeanWiring

namespace Json

/-- The same data, except that the fields of objects may stand in another order. -/
inductive SameData : Json → Json → Prop
  | null : SameData .null .null
  | bool (value : Bool) : SameData (.bool value) (.bool value)
  | number (literal : String) : SameData (.number literal) (.number literal)
  | text (value : String) : SameData (.text value) (.text value)
  | list {items others : List Json} (same : List.Forall₂ SameData items others) :
      SameData (.list items) (.list others)
  | object {fields others arranged : List (String × Json)}
      (names : Entries.keys fields = Entries.keys others)
      (values : List.Forall₂ SameData (fields.map (·.2)) (others.map (·.2)))
      (order : others.Perm arranged) : SameData (.object fields) (.object arranged)

mutual

/-- All data is the same as itself. -/
theorem SameData.refl : (json : Json) → SameData json json
  | .null => .null
  | .bool value => .bool value
  | .number literal => .number literal
  | .text value => .text value
  | .list items => .list (SameData.reflItems items)
  | .object fields => .object rfl (SameData.reflFields fields) (.refl fields)

/-- A row of data is the same as itself. -/
theorem SameData.reflItems : (items : List Json) → List.Forall₂ SameData items items
  | [] => .nil
  | item :: rest => .cons (SameData.refl item) (SameData.reflItems rest)

/-- The values of fields are the same as themselves. -/
theorem SameData.reflFields :
    (fields : List (String × Json)) →
      List.Forall₂ SameData (fields.map (·.2)) (fields.map (·.2))
  | [] => .nil
  | (_, value) :: rest => .cons (SameData.refl value) (SameData.reflFields rest)

end

/--
A record that is the same as an object with different keys has the same data under each of them.
-/
theorem SameData.record? {fields : List (String × Json)} {json : Json}
    (same : SameData (.object fields) json) (distinct : (Entries.keys fields).Nodup) :
    ∃ found, json.record? (Entries.keys fields) = some (found.map some) ∧
      List.Forall₂ SameData (fields.map (·.2)) found := by
  cases same with
  | @object _ others arranged names values order =>
    -- The fields were first changed one by one, and then put into another order.
    refine ⟨others.map (·.2), ?_, values⟩
    rw [names] at distinct ⊢
    simp only [Json.record?, Entries.keys, List.map_map, Option.some.injEq]
    apply List.map_congr_left
    intro field member
    show Entries.get? field.1 arranged = some field.2
    rw [← Entries.get?_perm order distinct]
    exact (Entries.get?_eq_some_iff distinct).2 member

end Json

end BeanWiring
