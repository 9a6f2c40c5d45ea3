import BeanWiring.Text.Blank
import Mathlib.Data.List.TakeWhile

/-!
What trimming takes off a text and what it leaves, which is the part between the first and the
last character outside of a class, and where taking characters up to a class of others ends.
-/

namespace BeanWiring

variable {α β : Type}

/-- The part of a list between the first and the last item outside of a class, both included. -/
def within (inClass : α → Bool) (items : List α) : List α :=
  ((items.dropWhile inClass).reverse.dropWhile inClass).reverse

/-- Trimming leaves the part between the first and the last character outside of the class. -/
theorem trimBoth_eq_within (inClass : Char → Bool) (text : List Char) :
    trimBoth inClass text = within inClass text := rfl

/-- The part of an image is the image of a part. -/
theorem within_map (inClass : β → Bool) (image : α → β) (items : List α) :
    within inClass (items.map image) =
      (within (fun item => inClass (image item)) items).map image := by
  -- Dropping asks about the images what the other class asks about the items.
  simp [within, List.dropWhile_map, ← List.map_reverse, Function.comp_def]

/-- Dropping from the front and leaving out items of the class may change places. -/
theorem dropWhile_filter {inClass kept : α → Bool} {items : List α}
    (passed : ∀ item ∈ items, kept item = false → inClass item = true) :
    (items.filter kept).dropWhile inClass = (items.dropWhile inClass).filter kept := by
  -- The induction is on the items: the first one is dropped on both sides or kept on both.
  induction items with
  | nil => rfl
  | cons first rest ih =>
    obtain ⟨here, behind⟩ := List.forall_mem_cons.1 passed
    by_cases member : inClass first = true
    · -- An item of the class is dropped, whether or not it was left out before.
      by_cases keep : kept first = true <;> simp [member, keep, ih behind]
    · have keep : kept first = true := by
        by_contra out
        exact member (here (by simpa using out))
      simp [member, keep]

/-- Where only items of the class are left out, the part of the others is what is kept of a part. -/
theorem within_filter {inClass kept : α → Bool} {items : List α}
    (passed : ∀ item ∈ items, kept item = false → inClass item = true) :
    within inClass (items.filter kept) = (within inClass items).filter kept := by
  -- What holds of all items holds of those left after the front was dropped.
  have behind : ∀ item ∈ (items.dropWhile inClass).reverse,
      kept item = false → inClass item = true := by
    intro item member
    exact passed item ((List.dropWhile_sublist _).subset (List.mem_reverse.1 member))
  rw [within, dropWhile_filter passed, ← List.filter_reverse, dropWhile_filter behind,
    ← List.filter_reverse]
  rfl

/-- The items of a class at the end of a list, where others stand in front of them. -/
def behindLast (inClass : α → Bool) (items : List α) : List α :=
  ((items.dropWhile inClass).reverse.takeWhile inClass).reverse

/-- What is left behind the items of the class in front is the part within and those behind it. -/
theorem within_append_behindLast (inClass : α → Bool) (items : List α) :
    within inClass items ++ behindLast inClass items = items.dropWhile inClass := by
  rw [within, behindLast, ← List.reverse_append, List.takeWhile_append_dropWhile,
    List.reverse_reverse]

/-- A list is the items of the class in front, the part within, and those of the class behind. -/
theorem takeWhile_within_behindLast (inClass : α → Bool) (items : List α) :
    items.takeWhile inClass ++ (within inClass items ++ behindLast inClass items) = items := by
  -- Behind the front the list is cut once more from its end.
  rw [within_append_behindLast, List.takeWhile_append_dropWhile]

/-- The items behind the last one outside of the class are of the class. -/
theorem mem_behindLast {inClass : α → Bool} {items : List α} {item : α}
    (member : item ∈ behindLast inClass items) : inClass item = true :=
  List.mem_takeWhile_imp (List.mem_reverse.1 member)

/-- What dropping leaves begins outside of the class. -/
theorem head?_dropWhile {inClass : α → Bool} {items : List α} {item : α}
    (first : (items.dropWhile inClass).head? = some item) : inClass item = false := by
  have outside := List.head?_dropWhile_not inClass items
  rwa [first] at outside

/-- The part within begins outside of the class. -/
theorem head?_within {inClass : α → Bool} {items : List α} {item : α}
    (first : (within inClass items).head? = some item) : inClass item = false := by
  -- It is the beginning of what dropping from the front leaves.
  have dropped : (items.dropWhile inClass).head? = some item := by
    rw [← within_append_behindLast, List.head?_append, first, Option.some_or]
  exact head?_dropWhile dropped

/-- The part within ends outside of the class. -/
theorem getLast?_within {inClass : α → Bool} {items : List α} {item : α}
    (last : (within inClass items).getLast? = some item) : inClass item = false := by
  rw [within, List.getLast?_reverse] at last
  exact head?_dropWhile last

/-- Nothing is within a list of items of the class alone. -/
theorem within_eq_nil {inClass : α → Bool} {items : List α}
    (all : ∀ item ∈ items, inClass item = true) : within inClass items = [] := by
  simp [within, List.dropWhile_eq_nil_iff.2 all]

/-- Nothing is dropped from a list whose first item is outside of the class. -/
theorem dropWhile_eq_self {inClass : α → Bool} {items : List α}
    (first : ∀ item, items.head? = some item → inClass item = false) :
    items.dropWhile inClass = items := by
  -- The first item is outside the class, so nothing is dropped.
  cases items with
  | nil => rfl
  | cons item rest => exact List.dropWhile_cons_of_neg (by simp [first item rfl])

/-- A list whose first and last items are outside of the class is all within. -/
theorem within_eq_self {inClass : α → Bool} {items : List α}
    (first : ∀ item, items.head? = some item → inClass item = false)
    (last : ∀ item, items.getLast? = some item → inClass item = false) :
    within inClass items = items := by
  -- From the front nothing is dropped, and nothing from the back.
  rw [within, dropWhile_eq_self first, dropWhile_eq_self, List.reverse_reverse]
  simpa using last

/-- Between items of the class stands what has none of them at its ends. -/
theorem within_between {inClass : α → Bool} {front items behind : List α}
    (before : ∀ item ∈ front, inClass item = true) (after : ∀ item ∈ behind, inClass item = true)
    (first : ∀ item, items.head? = some item → inClass item = false)
    (last : ∀ item, items.getLast? = some item → inClass item = false) :
    within inClass (front ++ (items ++ behind)) = items := by
  by_cases nothing : items = []
  · subst nothing
    apply within_eq_nil
    intro item member
    exact (List.mem_append.1 member).elim (before item) (after item)
  · -- The front is dropped and then nothing more, and from the back likewise.
    have inner : (items ++ behind).dropWhile inClass = items ++ behind := by
      obtain ⟨item, rest, rfl⟩ := List.exists_cons_of_ne_nil nothing
      exact dropWhile_eq_self (by simpa using first)
    have back : items.reverse.dropWhile inClass = items.reverse := by
      apply dropWhile_eq_self
      rwa [List.head?_reverse]
    rw [within, List.dropWhile_append_of_pos before, inner, List.reverse_append,
      List.dropWhile_append_of_pos (by simpa using after), back, List.reverse_reverse]

/-- Items that do not stop are taken up to one that does, or to the end, and the rest is left. -/
theorem split_at_stop (stops : α → Bool) (front rest : List α)
    (passes : ∀ item ∈ front, stops item = false)
    (ends : ∀ item, rest.head? = some item → stops item = true) :
    (front ++ rest).takeWhile (fun item => !stops item) = front ∧
      (front ++ rest).dropWhile (fun item => !stops item) = rest := by
  -- All of the front is passed, and then either nothing is left or an item that stops.
  have passed : ∀ item ∈ front, (!stops item) = true := fun item member => by
    simp [passes item member]
  rw [List.takeWhile_append_of_pos passed, List.dropWhile_append_of_pos passed]
  cases rest with
  | nil => simp
  | cons item others => simp [ends item rfl]

end BeanWiring
