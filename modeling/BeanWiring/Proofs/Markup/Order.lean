import BeanWiring.Proofs.Markup.Place

/-!
The document order of places: an element comes before all below it, and these come before whatever
is behind it. It is the lexicographic order of ways, and trees are listed in it.
-/

namespace BeanWiring

/-- Whether a list holds exactly the places of which something is told, one before the other. -/
structure Enumerates {ρ : Type} (before : ρ → ρ → Prop) (listed : List ρ) (told : ρ → Prop) :
    Prop where
  mem : ∀ place, place ∈ listed ↔ told place
  sorted : listed.Pairwise before

namespace Enumerates

variable {ρ σ : Type} {before : ρ → ρ → Prop} {after : σ → σ → Prop} {listed more : List ρ}
  {told also : ρ → Prop}

/-- No place is listed where nothing is told of any. -/
theorem nil (nothing : ∀ place, ¬ told place) : Enumerates before [] told :=
  ⟨fun place => by simp [nothing place], .nil⟩

/-- The places that are listed can be told in other words. -/
theorem congr (listing : Enumerates before listed told)
    (same : ∀ place, also place ↔ told place) : Enumerates before listed also :=
  ⟨fun place => (listing.mem place).trans (same place).symm, listing.sorted⟩

/-- Under names that keep the order the same places are listed. -/
theorem map (listing : Enumerates before listed told) {anew : ρ → σ}
    (keeps : ∀ left right, before left right → after (anew left) (anew right)) :
    Enumerates after (listed.map anew) fun place =>
      ∃ earlier, told earlier ∧ place = anew earlier := by
  constructor
  · intro place
    simp only [List.mem_map, listing.mem, eq_comm]
  -- The new places are in order as the old ones are.
  · exact listing.sorted.map anew keeps

/-- One list and then another one hold what either of them does. -/
theorem append (first : Enumerates before listed told) (others : Enumerates before more also)
    (apart : ∀ left right, told left → also right → before left right) :
    Enumerates before (listed ++ more) fun place => told place ∨ also place := by
  constructor
  · intro place
    rw [List.mem_append, first.mem, others.mem]
  · -- In order are the places of each list, and those of the first one before the others.
    rw [List.pairwise_append]
    refine ⟨first.sorted, others.sorted, ?_⟩
    intro left here right there
    exact apart left right ((first.mem left).1 here) ((others.mem right).1 there)

end Enumerates

/-- Whether a place in a row of trees comes before another one in document order. -/
def Place.Before (place other : Place) : Prop :=
  place.fromParent < other.fromParent

namespace Place

/-- In the first tree of a row places are in the order of their ways. -/
theorem inFirst_before {left right : List Nat} (ordered : left < right) :
    (inFirst left).Before (inFirst right) :=
  List.cons_lt_cons_iff.2 (.inr ⟨rfl, ordered⟩)

/-- Behind the first tree of a row places are in the order that they have in the others. -/
theorem behind_before {left right : Place} (ordered : left.Before right) :
    left.behind.Before right.behind := by
  -- Both trees stand one further back, so they compare as they did.
  apply List.cons_lt_cons_iff.2
  rcases List.cons_lt_cons_iff.1 ordered with earlier | ⟨same, inside⟩
  · exact .inl (Nat.succ_lt_succ earlier)
  · exact .inr ⟨congrArg Nat.succ same, inside⟩

/-- A place in the first tree of a row comes before those behind it. -/
theorem inFirst_before_behind (path : List Nat) (place : Place) :
    (inFirst path).Before place.behind :=
  List.cons_lt_cons_iff.2 (.inl (Nat.succ_pos place.tree))

end Place

/-- Places listed in the first tree of a row are followed by those listed behind it. -/
theorem Enumerates.row {paths : List (List Nat)} {places : List Place} {told : List Nat → Prop}
    {also : Place → Prop} (first : Enumerates (· < ·) paths told)
    (others : Enumerates Place.Before places also) :
    Enumerates Place.Before (paths.map Place.inFirst ++ places.map Place.behind) fun place =>
      (∃ path, told path ∧ place = .inFirst path) ∨
        ∃ before, also before ∧ place = before.behind := by
  -- All places in the first tree are before all those in the others.
  apply (first.map fun _ _ => Place.inFirst_before).append (others.map fun _ _ =>
    Place.behind_before)
  rintro _ _ ⟨path, _, rfl⟩ ⟨before, _, rfl⟩
  exact Place.inFirst_before_behind path before

namespace Element

mutual

/-- The elements of a tree, in document order, are in the order of their ways. -/
theorem located_sorted : ∀ element : Element,
    ((located element).map (·.1)).Pairwise (· < ·)
  | ⟨name, attributes, text, children⟩ => by
    simp only [located, List.map_cons, List.map_map, List.pairwise_cons]
    constructor
    · -- The empty way is that of the element itself, which comes before all below it.
      intro path below
      obtain ⟨found, _, rfl⟩ := List.mem_map.1 below
      exact List.nil_lt_cons _ _
    · have among := locatedAmong_sorted children
      rw [List.pairwise_map] at among ⊢
      exact among

/-- The elements of several trees, in document order, are in the order of their places. -/
theorem locatedAmong_sorted : ∀ trees : List Element,
    ((locatedAmong trees).map (·.1)).Pairwise Place.Before
  | [] => .nil
  | first :: rest => by
    have front := located_sorted first
    have others := locatedAmong_sorted rest
    rw [List.pairwise_map] at front others
    simp only [locatedAmong, List.map_append, List.map_map, List.pairwise_append,
      List.pairwise_map]
    -- The first tree and the others are in order, and every place of the one is in front.
    refine ⟨front.imp Place.inFirst_before, others.imp Place.behind_before, ?_⟩
    intro place inside other behind
    obtain ⟨found, _, rfl⟩ := List.mem_map.1 inside
    obtain ⟨later, _, rfl⟩ := List.mem_map.1 behind
    exact Place.inFirst_before_behind found.1 later.1

end

end Element

end BeanWiring
