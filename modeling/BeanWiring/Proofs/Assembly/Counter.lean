import BeanWiring.Proofs.Assembly.Names
import Mathlib.Order.Interval.Finset.Nat

/-!
The supply of names on a counter of 64 bits, which goes up by one with each name drawn and begins
again at zero behind the last word.

Main statement: a search for a name that is not taken ends after at most one draw more than there
are taken names, at the least free number, as long as the words reach that far. As long as fewer
names are drawn than there are words, those that are answered have increasing numbers and so
differ, and all is as in a supply that counts without end.
-/

namespace BeanWiring

/-- The next free number is the least one behind a number whose name is not taken. -/
theorem isLeast_freeAfter (taken : List String) (number : Nat) :
    IsLeast {other | number < other ∧ anonymousName other ∉ taken} (freeAfter taken number) := by
  refine ⟨⟨lt_freeAfter taken number, freeAfter_not_taken taken number⟩, ?_⟩
  rintro other ⟨later, free⟩
  -- A free number further in front would have been passed over, so it would be taken.
  apply Nat.le_of_not_lt
  intro before
  exact free (taken_before_freeAfter later before)

/-- No more numbers are passed over on the way to a free one than there are taken names. -/
theorem freeAfter_le (taken : List String) (number : Nat) :
    freeAfter taken number ≤ number + (taken.toFinset.card + 1) := by
  -- The names passed over are as many as their numbers, and all are taken.
  have passed : (Finset.Ioo number (freeAfter taken number)).image anonymousName ⊆
      taken.toFinset := by
    intro name member
    obtain ⟨other, between, rfl⟩ := Finset.mem_image.1 member
    obtain ⟨behind, before⟩ := Finset.mem_Ioo.1 between
    exact List.mem_toFinset.2 (taken_before_freeAfter behind before)
  have few := Finset.card_le_card passed
  rw [Finset.card_image_of_injective _ fun _ _ => anonymousName_inj.1, Nat.card_Ioo] at few
  omega

/-- What is asked of a supply of names: the next one, or the next one that is not taken. -/
inductive NameRequest where
  | next
  | free (taken : List String)

namespace Names

/-- The name that a supply answers a request with, and what is left of it. -/
def answer (names : Names) : NameRequest → String × Names
  | .next => names.next
  | .free taken => names.nextFree taken

/-- The names that a supply answers requests with, one after the other. -/
def answerAll (names : Names) : List NameRequest → List String × Names
  | [] => ([], names)
  | request :: rest =>
    let first := names.answer request
    -- The next request is answered from what the one in front leaves.
    let others := first.2.answerAll rest
    (first.1 :: others.1, others.2)

/-- A supply never goes back. -/
theorem issued_le_answerAll (names : Names) (requests : List NameRequest) :
    names.issued ≤ (names.answerAll requests).2.issued := by
  induction requests generalizing names with
  | nil => exact Nat.le_refl _
  | cons request rest ih =>
    -- Either kind of request draws one number at least.
    have first : names.issued < (names.answer request).2.issued := by
      cases request with
      | next => exact Nat.lt_succ_self _
      | free taken => exact lt_freeAfter taken names.issued
    exact Nat.le_trans (Nat.le_of_lt first) (ih _)

end Names

/-- A counter of 64 bits, which tells the number of the last name drawn. -/
structure Counter where
  count : UInt64 := 0
deriving DecidableEq, Repr

namespace Counter

/-- Draws the next name: the counter goes up by one, from the last word to zero. -/
def draw (counter : Counter) : String × Counter :=
  (anonymousName (counter.count + 1).toNat, ⟨counter.count + 1⟩)

/-- The supply that has drawn as many names as a counter tells. -/
def supply (counter : Counter) : Names :=
  ⟨counter.count.toNat⟩

/--
Whether drawing names until one is not taken ends after some draws, with a name and a counter.
A search that never ends is not told of.
-/
inductive FindsFree (taken : List String) : Counter → Nat → String → Counter → Prop
  | free {counter : Counter} (free : counter.draw.1 ∉ taken) :
      FindsFree taken counter 1 counter.draw.1 counter.draw.2
  | passed {counter after : Counter} {draws : Nat} {name : String}
      (held : counter.draw.1 ∈ taken) (later : FindsFree taken counter.draw.2 draws name after) :
      FindsFree taken counter (draws + 1) name after

/-- Whether a request is served by some draws, with a name and a counter. -/
inductive Serves : Counter → NameRequest → Nat → String → Counter → Prop
  | next {counter : Counter} : Serves counter .next 1 counter.draw.1 counter.draw.2
  | free {counter after : Counter} {taken : List String} {draws : Nat} {name : String}
      (finds : counter.FindsFree taken draws name after) :
      Serves counter (.free taken) draws name after

/-- Whether requests are served one after the other by some draws in all. -/
inductive ServesAll : Counter → List NameRequest → Nat → List String → Counter → Prop
  | nil {counter : Counter} : ServesAll counter [] 0 [] counter
  | cons {counter middle after : Counter} {request : NameRequest} {rest : List NameRequest}
      {draws more : Nat} {name : String} {names : List String}
      (first : counter.Serves request draws name middle)
      (others : middle.ServesAll rest more names after) :
      ServesAll counter (request :: rest) (draws + more) (name :: names) after

variable {counter after : Counter} {taken : List String} {draws : Nat} {name : String}

/-- As long as words are left a draw counts on. -/
theorem draw_counts (counter : Counter) (room : counter.count.toNat + 1 < 2 ^ 64) :
    counter.draw.1 = anonymousName (counter.count.toNat + 1) ∧
      counter.draw.2.count.toNat = counter.count.toNat + 1 := by
  have sum : (counter.count + 1).toNat = counter.count.toNat + 1 := by
    -- The sum is taken modulo the number of words, which it does not reach.
    rw [UInt64.toNat_add]
    exact Nat.mod_eq_of_lt room
  exact ⟨congrArg anonymousName sum, sum⟩

/-- A search ends in one way only. -/
theorem FindsFree.unique {other : Counter} {more : Nat} {further : String}
    (finds : counter.FindsFree taken draws name after)
    (also : counter.FindsFree taken more further other) :
    more = draws ∧ further = name ∧ other = after := by
  induction finds generalizing more with
  -- At each number both searches ask the same question.
  | free free =>
    cases also with
    | free _ => exact ⟨rfl, rfl, rfl⟩
    | passed held _ => exact absurd held free
  | passed held later ih =>
    cases also with
    | free free => exact absurd held free
    | passed _ behind =>
      obtain ⟨rfl, same⟩ := ih behind
      exact ⟨rfl, same⟩

/-- A search that the words are enough for counts its draws, and passes taken names alone. -/
theorem FindsFree.counts (finds : counter.FindsFree taken draws name after)
    (room : counter.count.toNat + draws < 2 ^ 64) :
    0 < draws ∧ after.count.toNat = counter.count.toNat + draws ∧
      name = anonymousName (counter.count.toNat + draws) ∧ name ∉ taken ∧
      ∀ other, counter.count.toNat < other → other < counter.count.toNat + draws →
        anonymousName other ∈ taken := by
  -- Every draw but the last meets a taken name and leaves one word less.
  induction finds with
  | free free =>
    obtain ⟨named, counted⟩ := draw_counts _ room
    exact ⟨Nat.one_pos, counted, named, free, by omega⟩
  | @passed counter after draws name held later ih =>
    obtain ⟨named, counted⟩ := draw_counts counter (by omega)
    obtain ⟨_, total, last, free, between⟩ := ih (by omega)
    refine ⟨Nat.succ_pos draws, by omega, ?_, free, ?_⟩
    · rw [last, counted]
      congr 1
      omega
    · intro other behind before
      by_cases first : other = counter.count.toNat + 1
      · rw [first, ← named]
        exact held
      · exact between other (by omega) (by omega)

/-- A search that the words are enough for ends at the next free number. -/
theorem FindsFree.eq_freeAfter (finds : counter.FindsFree taken draws name after)
    (room : counter.count.toNat + draws < 2 ^ 64) :
    counter.count.toNat + draws = freeAfter taken counter.count.toNat := by
  obtain ⟨positive, _, named, free, between⟩ := finds.counts room
  -- Both are the least free number.
  refine ((isLeast_freeAfter taken _).unique ⟨⟨by omega, named ▸ free⟩, ?_⟩).symm
  rintro other ⟨later, untaken⟩
  apply Nat.le_of_not_lt
  intro before
  exact untaken (between other later before)

/-- A search ends if a free number is ahead that the words reach, and goes no further than that. -/
theorem exists_findsFree (counter : Counter) {number : Nat}
    (ahead : counter.count.toNat < number) (room : number < 2 ^ 64)
    (free : anonymousName number ∉ taken) :
    ∃ draws name after, counter.FindsFree taken draws name after ∧
      counter.count.toNat + draws ≤ number := by
  -- The induction is on how far the number is ahead, and every draw gets nearer to it.
  obtain ⟨gap, distance⟩ := Nat.exists_eq_add_of_lt ahead
  obtain ⟨named, counted⟩ := draw_counts counter (by omega)
  induction gap generalizing counter with
  | zero =>
    rw [distance] at free
    exact ⟨_, _, _, .free (named ▸ free), ahead⟩
  | succ gap ih =>
    by_cases held : counter.draw.1 ∈ taken
    · obtain ⟨again, further⟩ := draw_counts counter.draw.2 (by omega)
      obtain ⟨draws, name, after, later, near⟩ :=
        ih counter.draw.2 (by omega) (by omega) again further
      exact ⟨_, _, _, .passed held later, by omega⟩
    · exact ⟨_, _, _, .free held, ahead⟩

/-- A request that is served as long as there are words is answered as by the supply. -/
theorem Serves.answer {request : NameRequest} (serves : counter.Serves request draws name after)
    (room : counter.count.toNat + draws < 2 ^ 64) :
    0 < draws ∧ after.count.toNat = counter.count.toNat + draws ∧
      name = anonymousName after.count.toNat ∧
      counter.supply.answer request = (name, after.supply) := by
  -- One draw answers a request for the next name, a search one for a free name.
  cases serves with
  | next =>
    obtain ⟨named, counted⟩ := draw_counts counter room
    refine ⟨Nat.one_pos, counted, by rw [named, counted], ?_⟩
    simp only [Names.answer, Names.next, supply, named, counted]
  | free finds =>
    obtain ⟨positive, counted, named, _⟩ := finds.counts room
    refine ⟨positive, counted, by rw [named, counted], ?_⟩
    simp only [Names.answer, Names.nextFree, supply, named, counted, finds.eq_freeAfter room]

/-- Requests that are served as long as there are words are answered as by the supply. -/
theorem ServesAll.answerAll {requests : List NameRequest} {names : List String}
    (serves : counter.ServesAll requests draws names after)
    (room : counter.count.toNat + draws < 2 ^ 64) :
    after.count.toNat = counter.count.toNat + draws ∧
      counter.supply.answerAll requests = (names, after.supply) := by
  -- What the first request leaves of the counter is what the others are served from.
  induction serves with
  | nil => exact ⟨rfl, rfl⟩
  | cons first others ih =>
    obtain ⟨_, counted, _, answered⟩ := first.answer (by omega)
    obtain ⟨total, rest⟩ := ih (by omega)
    refine ⟨by omega, ?_⟩
    simp only [Names.answerAll, answered, rest]

/-- Names that are drawn as long as there are words have increasing numbers. -/
theorem ServesAll.increasing {requests : List NameRequest} {names : List String}
    (serves : counter.ServesAll requests draws names after)
    (room : counter.count.toNat + draws < 2 ^ 64) :
    ∃ numbers : List Nat, names = numbers.map anonymousName ∧ numbers.Pairwise (· < ·) ∧
      ∀ number ∈ numbers, counter.count.toNat < number ∧ number ≤ after.count.toNat := by
  induction serves with
  | nil => exact ⟨[], rfl, .nil, by simp⟩
  | @cons counter middle after _ _ _ _ _ _ first others ih =>
    obtain ⟨positive, counted, named, _⟩ := first.answer (by omega)
    obtain ⟨numbers, rfl, increasing, between⟩ := ih (by omega)
    have total := (others.answerAll (by omega)).1
    -- The numbers of the others are behind the one that the first request left.
    refine ⟨middle.count.toNat :: numbers, by rw [named, List.map_cons], ?_, ?_⟩
    · exact List.pairwise_cons.2 ⟨fun number member => (between number member).1, increasing⟩
    · refine List.forall_mem_cons.2 ⟨by omega, fun number member => ?_⟩
      have bounds := between number member
      omega

/-- Requests that the supply answers with numbers that are words are all served. -/
theorem exists_servesAll (counter : Counter) (requests : List NameRequest)
    (room : (counter.supply.answerAll requests).2.issued < 2 ^ 64) :
    ∃ draws names after, counter.ServesAll requests draws names after ∧
      counter.count.toNat + draws < 2 ^ 64 := by
  induction requests generalizing counter with
  | nil => exact ⟨0, [], counter, .nil, counter.count.toNat_lt⟩
  | cons request rest ih =>
    -- The number of the first name is not behind the last one issued, so it is a word.
    have reached := (counter.supply.answer request).2.issued_le_answerAll rest
    have within : (counter.supply.answer request).2.issued < 2 ^ 64 :=
      Nat.lt_of_le_of_lt reached room
    obtain ⟨draws, name, middle, first, enough⟩ : ∃ draws name middle,
        counter.Serves request draws name middle ∧ counter.count.toNat + draws < 2 ^ 64 := by
      cases request with
      | next => exact ⟨_, _, _, .next, within⟩
      | free taken =>
        obtain ⟨draws, name, middle, finds, near⟩ := counter.exists_findsFree
          (lt_freeAfter taken _) within (freeAfter_not_taken taken _)
        exact ⟨draws, name, middle, .free finds, Nat.lt_of_le_of_lt near within⟩
    obtain ⟨_, counted, _, answered⟩ := first.answer enough
    have others : (middle.supply.answerAll rest).2.issued < 2 ^ 64 := by
      simpa only [Names.answerAll, answered] using room
    obtain ⟨more, names, after, served, left⟩ := ih middle others
    exact ⟨_, _, _, .cons first served, by omega⟩

/--
Whether a search for a name that is not taken ends as it does in a supply: with the least free
number, after few draws.
-/
structure SearchEnds (counter : Counter) (taken : List String) (draws number : Nat)
    (after : Counter) : Prop where
  ends : counter.FindsFree taken draws (anonymousName number) after
  only : ∀ more name other, counter.FindsFree taken more name other →
    more = draws ∧ name = anonymousName number ∧ other = after
  few : draws ≤ taken.toFinset.card + 1
  least : IsLeast {other | counter.count.toNat < other ∧ anonymousName other ∉ taken} number
  issued : after.count.toNat = number
  supply : counter.supply.nextFree taken = (anonymousName number, after.supply)

/-- Whether requests are served with names of increasing numbers, as by a supply. -/
structure ServesInOrder (counter : Counter) (requests : List NameRequest) (draws : Nat)
    (names : List String) (after : Counter) : Prop where
  increasing : ∃ numbers : List Nat, names = numbers.map anonymousName ∧
    numbers.Pairwise (· < ·) ∧
    ∀ number ∈ numbers, counter.count.toNat < number ∧ number ≤ after.count.toNat
  distinct : names.Nodup
  /-- The counter never began again at zero. -/
  issued : after.count.toNat = counter.count.toNat + draws
  supply : counter.supply.answerAll requests = (names, after.supply)

/--
From any counter, as long as words are left for all taken names and one more, a search ends after
at most one draw more than there are taken names. It gives the name of the least number behind those
drawn before whose name is not taken, and the counter then tells this number. Whatever is asked of a
counter, if fewer names are drawn in all than there are words, the names that are answered are
those of increasing numbers, and no two are the same; and all is served that a supply would answer
with such numbers.
-/
theorem searches_end_and_numbers_increase (counter : Counter) :
    (∀ taken : List String, counter.count.toNat + taken.toFinset.card + 1 < 2 ^ 64 →
      ∃ draws number after, counter.SearchEnds taken draws number after) ∧
    (∀ requests draws names after, counter.ServesAll requests draws names after →
      counter.count.toNat + draws < 2 ^ 64 →
        counter.ServesInOrder requests draws names after) ∧
    ∀ requests, (counter.supply.answerAll requests).2.issued < 2 ^ 64 →
      ∃ draws names after, counter.ServesAll requests draws names after ∧
        counter.count.toNat + draws < 2 ^ 64 := by
  refine ⟨?_, ?_, counter.exists_servesAll⟩
  · intro taken room
    -- The next free number is a word, so the search gets there.
    have near := freeAfter_le taken counter.count.toNat
    obtain ⟨draws, name, after, finds, reached⟩ := counter.exists_findsFree
      (lt_freeAfter taken _) (by omega) (freeAfter_not_taken taken _)
    have enough : counter.count.toNat + draws < 2 ^ 64 := by omega
    obtain ⟨_, counted, rfl, _⟩ := finds.counts enough
    have free := finds.eq_freeAfter enough
    refine ⟨draws, counter.count.toNat + draws, after, finds, ?_, by omega, ?_, counted, ?_⟩
    · exact fun _ _ _ also => finds.unique also
    · rw [free]
      exact isLeast_freeAfter taken _
    · exact ((Serves.free finds).answer enough).2.2.2
  · intro requests draws names after serves room
    obtain ⟨counted, answered⟩ := serves.answerAll room
    obtain ⟨numbers, rfl, increasing, between⟩ := serves.increasing room
    have differ : numbers.Nodup := increasing.imp Nat.ne_of_lt
    exact ⟨⟨numbers, rfl, increasing, between⟩,
      differ.map fun _ _ => anonymousName_inj.1, counted, answered⟩

/-- A counter with three words left. -/
def nearlySpent : Counter := ⟨18446744073709551612⟩

/-- The name of the first of the words that are left. -/
def takenNearTheEnd : List String := ["anonymous-bean#18446744073709551613"]

/-- Near the last word a search passes a taken name, and the last word itself is drawn behind it. -/
theorem search_near_the_last_word :
    nearlySpent.count.toNat + takenNearTheEnd.toFinset.card + 1 < 2 ^ 64 ∧
      (∃ draws number after, nearlySpent.SearchEnds takenNearTheEnd draws number after) ∧
      (∃ names after, nearlySpent.ServesAll [.free takenNearTheEnd, .next] 3 names after ∧
        nearlySpent.count.toNat + 3 < 2 ^ 64 ∧
        nearlySpent.ServesInOrder [.free takenNearTheEnd, .next] 3 names after ∧
        names =
          ["anonymous-bean#18446744073709551614", "anonymous-bean#18446744073709551615"]) ∧
      (nearlySpent.supply.answerAll [.next, .free takenNearTheEnd]).2.issued < 2 ^ 64 ∧
      ∃ draws names after,
        nearlySpent.ServesAll [.next, .free takenNearTheEnd] draws names after ∧
          nearlySpent.count.toNat + draws < 2 ^ 64 := by
  obtain ⟨ends, inOrder, served⟩ := nearlySpent.searches_end_and_numbers_increase
  have room : nearlySpent.count.toNat + takenNearTheEnd.toFinset.card + 1 < 2 ^ 64 := by
    decide +kernel
  have reached : (nearlySpent.supply.answerAll [.next, .free takenNearTheEnd]).2.issued <
      2 ^ 64 := by
    decide +kernel
  -- One name is passed over, so three draws answer both requests.
  have serves : nearlySpent.ServesAll [.free takenNearTheEnd, .next] 3
      [nearlySpent.draw.2.draw.1, nearlySpent.draw.2.draw.2.draw.1]
      nearlySpent.draw.2.draw.2.draw.2 :=
    .cons (.free (.passed (by decide +kernel) (.free (by decide +kernel)))) (.cons .next .nil)
  refine ⟨room, ends _ room, ⟨_, _, serves, by decide +kernel, ?_, by decide +kernel⟩, reached,
    served _ reached⟩
  exact inOrder _ _ _ _ serves (by decide +kernel)

end Counter

end BeanWiring
