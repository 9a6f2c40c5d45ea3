import BeanWiring.Assembly.Names
import BeanWiring.Proofs.Markup.Ids
import BeanWiring.Proofs.Text.Numbers

/-!
Drawn names: each has a number of its own, later than all before, and none is among the names
to be avoided.
-/

namespace BeanWiring

/-- Given names differ as their numbers do. -/
@[simp] theorem anonymousName_inj {left right : Nat} :
    anonymousName left = anonymousName right ↔ left = right := by
  constructor
  · intro same
    -- What stands behind the common beginning are the digits of the number.
    have digits : Nat.toDigits 10 left = Nat.toDigits 10 right := by
      simpa [anonymousName, Nat.repr, String.ofList_inj] using same
    exact toDigits_inj digits
  · intro same
    rw [same]

/-- A free number comes after the one that the search starts from. -/
theorem lt_freeAfter (taken : List String) (number : Nat) : number < freeAfter taken number := by
  -- Every step of the search goes on to the next number.
  induction taken, number using freeAfter.induct with
  | case1 taken number held ih =>
    rw [freeAfter, dif_pos held]
    omega
  | case2 taken number free =>
    rw [freeAfter, dif_neg free]
    omega

/-- The name of a free number is not taken. -/
theorem freeAfter_not_taken (taken : List String) (number : Nat) :
    anonymousName (freeAfter taken number) ∉ taken := by
  induction taken, number using freeAfter.induct with
  | case1 taken number held ih =>
    rw [freeAfter, dif_pos held]
    -- The name taken off the list has a smaller number, so it is another one.
    have later := lt_freeAfter (taken.erase (anonymousName (number + 1))) (number + 1)
    have other : anonymousName (freeAfter (taken.erase (anonymousName (number + 1))) (number + 1)) ≠
        anonymousName (number + 1) := by
      rw [ne_eq, anonymousName_inj]
      omega
    intro stands
    exact ih ((List.mem_erase_of_ne other).2 stands)
  | case2 taken number free =>
    rw [freeAfter, dif_neg free]
    exact free

/-- The names that are passed over on the way to a free one are taken. -/
theorem taken_before_freeAfter {taken : List String} {number passed : Nat}
    (behind : number < passed) (before : passed < freeAfter taken number) :
    anonymousName passed ∈ taken := by
  induction taken, number using freeAfter.induct with
  | case1 taken number held ih =>
    rw [freeAfter, dif_pos held] at before
    -- The number passed is the next one, or it is passed in the rest of the search.
    by_cases next : passed = number + 1
    · exact next ▸ held
    · exact List.mem_of_mem_erase (ih (by omega) before)
  | case2 taken number free =>
    rw [freeAfter, dif_neg free] at before
    omega

/-- Whether numbers are the smallest ones behind a given one whose names are not taken, in order. -/
structure SmallestFree (taken : List String) (behind : Nat) (numbers : List Nat) : Prop where
  increasing : numbers.Pairwise (· < ·)
  later : ∀ number ∈ numbers, behind < number
  free : ∀ number ∈ numbers, anonymousName number ∉ taken
  smallest : ∀ other, behind < other → anonymousName other ∉ taken →
    other ∈ numbers ∨ ∀ number ∈ numbers, number < other

/-- The next free number goes in front of the smallest free ones behind it. -/
theorem SmallestFree.cons {taken : List String} {behind : Nat} {numbers : List Nat}
    (others : SmallestFree taken (freeAfter taken behind) numbers) :
    SmallestFree taken behind (freeAfter taken behind :: numbers) := by
  have next := lt_freeAfter taken behind
  constructor
  case increasing => exact List.pairwise_cons.2 ⟨others.later, others.increasing⟩
  case later =>
    -- The others are behind the next one, which is behind where the search started.
    intro number member
    rcases List.mem_cons.1 member with rfl | further
    · exact next
    · exact Nat.lt_trans next (others.later number further)
  case free =>
    intro number member
    rcases List.mem_cons.1 member with rfl | further
    · exact freeAfter_not_taken taken behind
    · exact others.free number further
  case smallest =>
    intro other later free
    -- A free number is not in front of the next one, where all names are taken.
    have reached : freeAfter taken behind ≤ other := by
      apply Nat.le_of_not_lt
      intro before
      exact free (taken_before_freeAfter later before)
    by_cases same : other = freeAfter taken behind
    · exact .inl (List.mem_cons.2 (.inl same))
    · have beyond : freeAfter taken behind < other := by omega
      rcases others.smallest other beyond free with member | all
      · exact .inl (List.mem_cons_of_mem _ member)
      · exact .inr (List.forall_mem_cons.2 ⟨beyond, all⟩)

/-- Ids given under numbers of a range, each under a number of its own. -/
structure Numbered {ρ : Type} (low high : Nat) (given : Given ρ) : Prop where
  range : ∀ gift ∈ given, ∃ number, low < number ∧ number ≤ high ∧ gift.2 = anonymousName number
  distinct : (given.map (·.2)).Nodup

namespace Numbered

variable {ρ σ : Type} {low middle high : Nat} {given more : Given ρ}

/-- No id is given under no number. -/
theorem nil : Numbered low high ([] : Given ρ) :=
  ⟨by simp, by simp⟩

/-- Numbers of a range are numbers of a wider one. -/
theorem widen {wideLow wideHigh : Nat} (numbered : Numbered low high given)
    (down : wideLow ≤ low) (up : high ≤ wideHigh) : Numbered wideLow wideHigh given := by
  refine ⟨?_, numbered.distinct⟩
  intro gift member
  -- A number in the narrow range is one in the wide range.
  obtain ⟨number, after, upto, named⟩ := numbered.range gift member
  exact ⟨number, by omega, by omega, named⟩

/-- Ids given under numbers of one range differ from those of a later range. -/
theorem disjoint {later : Given σ} (numbered : Numbered low middle given)
    (others : Numbered middle high later) {gift : ρ × String} (member : gift ∈ given)
    {other : σ × String} (behind : other ∈ later) : gift.2 ≠ other.2 := by
  -- The middle separates the two numbers.
  obtain ⟨number, _, upto, named⟩ := numbered.range gift member
  obtain ⟨further, after, _, renamed⟩ := others.range other behind
  rw [named, renamed, ne_eq, anonymousName_inj]
  omega

/-- Ids given under numbers of two ranges, one behind the other, are numbered together. -/
theorem append (numbered : Numbered low middle given) (others : Numbered middle high more)
    (down : low ≤ middle) (up : middle ≤ high) : Numbered low high (given ++ more) := by
  -- Two ids of one range differ, and so do two of different ranges.
  constructor
  · intro gift member
    rcases List.mem_append.1 member with earlier | later
    · exact (numbered.widen (Nat.le_refl low) up).range gift earlier
    · exact (others.widen down (Nat.le_refl high)).range gift later
  · rw [List.map_append, List.nodup_append]
    refine ⟨numbered.distinct, others.distinct, ?_⟩
    intro id earlier other later
    obtain ⟨gift, member, rfl⟩ := List.mem_map.1 earlier
    obtain ⟨behind, further, rfl⟩ := List.mem_map.1 later
    exact numbered.disjoint others member further

/-- Where the ids are given does not count. -/
theorem rename (numbered : Numbered low high given) (anew : ρ → σ) :
    Numbered low high (given.map fun gift => (anew gift.1, gift.2)) := by
  constructor
  · intro renamed member
    obtain ⟨gift, earlier, rfl⟩ := List.mem_map.1 member
    exact numbered.range gift earlier
  -- The numbers stay as they are, so they stay different.
  · simpa [Function.comp_def] using numbered.distinct

end Numbered

namespace Names

variable {ρ σ : Type}

/-- Draws a free name for each of several places. -/
def drawFor (taken : List String) (names : Names) : List ρ → Given ρ × Names
  | [] => ([], names)
  | place :: rest =>
    let (name, names) := names.nextFree taken
    let (given, names) := names.drawFor taken rest
    ((place, name) :: given, names)

/-- Names are drawn for some places and then, from what is left, for others. -/
theorem drawFor_append (taken : List String) (names : Names) (places others : List ρ) :
    names.drawFor taken (places ++ others) =
      ((names.drawFor taken places).1 ++
          ((names.drawFor taken places).2.drawFor taken others).1,
        ((names.drawFor taken places).2.drawFor taken others).2) := by
  -- What the first places leave of the supply is what the others draw from.
  induction places generalizing names with
  | nil => rfl
  | cons place rest ih => simp [drawFor, ih]

/-- Which name is drawn does not depend on the place it is for. -/
theorem drawFor_map (taken : List String) (names : Names) (anew : ρ → σ) (places : List ρ) :
    names.drawFor taken (places.map anew) =
      ((names.drawFor taken places).1.map fun gift => (anew gift.1, gift.2),
        (names.drawFor taken places).2) := by
  -- Names are drawn in the same order, whatever the places are called.
  induction places generalizing names with
  | nil => rfl
  | cons place rest ih => simp [drawFor, ih]

/-- There is a name for each place, in order. -/
@[simp] theorem drawFor_places (taken : List String) (names : Names) (places : List ρ) :
    (names.drawFor taken places).1.map (·.1) = places := by
  induction places generalizing names with
  | nil => rfl
  | cons place rest ih => simp [drawFor, ih]

/-- No name is put back. -/
theorem issued_le_drawFor (taken : List String) (names : Names) (places : List ρ) :
    names.issued ≤ (names.drawFor taken places).2.issued := by
  -- Each name has a greater number than all before it.
  induction places generalizing names with
  | nil => exact Nat.le_refl _
  | cons place rest ih =>
    have first : names.issued < (names.nextFree taken).2.issued := lt_freeAfter taken names.issued
    exact Nat.le_trans (Nat.le_of_lt first) (ih _)

/-- The names drawn have the numbers from there on. -/
theorem numbered_drawFor (taken : List String) (names : Names) (places : List ρ) :
    Numbered names.issued (names.drawFor taken places).2.issued
      (names.drawFor taken places).1 := by
  -- The first name is in a range of its own, in front of that of the others.
  induction places generalizing names with
  | nil => exact .nil
  | cons place rest ih =>
    have first : names.issued < (names.nextFree taken).2.issued := lt_freeAfter taken names.issued
    have one : Numbered names.issued (names.nextFree taken).2.issued
        [(place, (names.nextFree taken).1)] := by
      refine ⟨?_, by simp⟩
      intro gift member
      obtain rfl := List.mem_singleton.1 member
      exact ⟨freeAfter taken names.issued, first, Nat.le_refl _, rfl⟩
    exact one.append (ih _) (Nat.le_of_lt first) (issued_le_drawFor taken _ rest)

/-- No name drawn is taken. -/
theorem drawFor_not_taken {taken : List String} {names : Names} {places : List ρ}
    {gift : ρ × String} (member : gift ∈ (names.drawFor taken places).1) : gift.2 ∉ taken := by
  -- The names to be avoided stay the same from place to place.
  induction places generalizing names with
  | nil => cases member
  | cons place rest ih =>
    rcases List.mem_cons.1 member with rfl | later
    · exact freeAfter_not_taken taken names.issued
    · exact ih later

/-- Names are drawn under the smallest free numbers, and the last one is the number issued. -/
theorem drawFor_smallest (taken : List String) (names : Names) (places : List ρ) :
    ∃ numbers, SmallestFree taken names.issued numbers ∧ numbers.length = places.length ∧
      names.drawFor taken places =
        (places.zip (numbers.map anonymousName), ⟨numbers.getLast?.getD names.issued⟩) := by
  -- The induction is on the places, for every number that the search may start from.
  induction places generalizing names with
  | nil => exact ⟨[], ⟨.nil, by simp, by simp, by simp⟩, rfl, rfl⟩
  | cons place rest ih =>
    obtain ⟨numbers, smallest, length, drawn⟩ := ih (names.nextFree taken).2
    refine ⟨freeAfter taken names.issued :: numbers, smallest.cons, by simp [length], ?_⟩
    -- The last number of the others is the last of all, if there are others.
    simp only [drawFor, drawn]
    simp [nextFree, List.getLast?_cons]

-- A number whose name is taken is passed over, and counts as drawn.
example : drawFor ["anonymous-bean#2"] {} ["first", "second"] =
    ([("first", "anonymous-bean#1"), ("second", "anonymous-bean#3")], ⟨3⟩) := by
  decide +kernel

end Names

end BeanWiring
