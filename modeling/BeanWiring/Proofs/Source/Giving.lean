import BeanWiring.Proofs.Source.Lookup

/-!
What ids given in a lookup do to the answers of a chain: the source that gave an id answers it
from then on, unless one in front of it does.
-/

namespace BeanWiring

/-- Whether a source gave an id to a bean that had none in the documents it went by. -/
def DocumentSource.Gives (held : DocumentSource) (files : Files) (before after : Store)
    (id : String) : Prop :=
  ∃ documents marked place, (held.load files before).outcome = .ok documents ∧
    after.loaded held.documents = some marked ∧ documents.NamelessAt place ∧
    marked.DeclaredAt id place

namespace Moves

variable {names : Nat} {sources : List Source} {files : Files} {store after : Store}
  {more : DocumentSource → Given Place} {held : DocumentSource}

/-- The ids that a source gives in a move are those that it puts at beans without one. -/
theorem gives_iff (moves : Moves names sources files store after more)
    (member : .documents held ∈ sources) (id : String) :
    held.Gives files store after id ↔ ∃ gift ∈ more held, gift.2 = id := by
  constructor
  · rintro ⟨documents, marked, place, viewed, kept, nameless, declared⟩
    rcases moves.held held member with ⟨same, _⟩ | ⟨known, found, viewed_by, kept_by, grown⟩
    · -- Documents that stayed as they were have no id where they had none.
      have loaded : store.loaded held.documents = some marked := same.symm.trans kept
      have viewed_so : (held.load files store).outcome = .ok marked :=
        DocumentSource.view_of_loaded loaded
      rw [viewed] at viewed_so
      obtain rfl : documents = marked := Except.ok.inj viewed_so
      exact absurd declared nameless.not_declaredAt
    · obtain rfl : known = documents := Except.ok.inj (viewed_by.symm.trans viewed)
      obtain rfl : found = marked := Option.some.inj (kept_by.symm.trans kept)
      exact ⟨(place, id), grown.mem_given nameless declared, rfl⟩
  · rintro ⟨gift, given, rfl⟩
    rcases moves.held held member with ⟨_, none⟩ | ⟨documents, marked, viewed, kept, grown⟩
    · rw [none] at given
      cases given
    · refine ⟨documents, marked, gift.1, viewed, kept, grown.fits.nameless gift given, ?_⟩
      rw [grown.documents]
      exact grown.fits.declaredAt given

/-- After a move a source of documents has to say what it had, and what it gave an id to. -/
theorem answers_iff (moves : Moves names sources files store after more)
    (member : .documents held ∈ sources) (id : String) :
    (Source.documents held).answers files after id = true ↔
      (Source.documents held).answers files store id = true ∨ held.Gives files store after id := by
  -- The documents declare in the end what they did before and what was given.
  rw [moves.gives_iff member]
  rcases moves.held held member with ⟨same, none⟩ | ⟨documents, marked, viewed, kept, grown⟩
  · simp [Source.answers, DocumentSource.view_congr same, none]
  · have known := grown.fits.mem_declaredIds id
    rw [← grown.documents, List.mem_map] at known
    simp [Source.answers, viewed, DocumentSource.view_of_loaded kept, known]

end Moves

/-- Lookups leave registered definitions alone. -/
theorem Chain.lookup_memory {chain : Chain} (apart : chain.sources.Pairwise Source.Apart)
    (files : Files) (store : Store) (bean : String) :
    (chain.lookup files store bean).store.memory = store.memory := by
  -- Neither the sources passed nor the one that answers touch what is in memory.
  rcases lookup_cases apart files store bean with
    ⟨_, _, passed⟩ | ⟨_, source, before, _, _, passed, _, left⟩
  · exact passed.memory
  · rw [left, source.find_memory, passed.memory]

/--
A condition that holds of one more member, and else of the same, is first met where it was, or
at that member if it comes before.
-/
theorem findIdx?_raise {α : Type} {left right : α → Bool} {members : List α} {index : Nat}
    {raised : α} (there : members[index]? = some raised) (holds : right raised = true)
    (same : ∀ position member, members[position]? = some member → position ≠ index →
      left member = right member) :
    members.findIdx? right =
      match members.findIdx? left with
      | some before => some (min before index)
      | none => some index := by
  -- In front of the raised member the conditions agree; at it the second one holds.
  induction members generalizing index with
  | nil => cases there
  | cons first rest ih =>
    rw [List.findIdx?_cons, List.findIdx?_cons]
    cases index with
    | zero =>
      obtain rfl : first = raised := Option.some.inj there
      cases (if left first = true then some 0 else (rest.findIdx? left).map (· + 1)) <;>
        simp [holds]
    | succ position =>
      have further := ih there fun other member inside differ =>
        same (other + 1) member inside (by omega)
      have head : left first = right first := same 0 first rfl (by omega)
      rw [head]
      cases right first with
      | true => simp
      | false =>
        rw [further]
        cases rest.findIdx? left <;> simp

/-- After a lookup a source has to say what it had, and what it gave an id to. -/
theorem Chain.answers_after {names : Nat} {chain : Chain} (sharing : Sharing names chain.sources)
    (files : Files) (store : Store) (bean id : String) {source : Source}
    (member : source ∈ chain.sources) :
    source.answers files (chain.lookup files store bean).store id = true ↔
      source.answers files store id = true ∨ ∃ held, source = .documents held ∧
        held.Gives files store (chain.lookup files store bean).store id := by
  obtain ⟨more, moves, _⟩ := lookup_moves sharing files store bean
  -- Only documents can answer for more than before.
  cases source with
  | memory cell => simp [Source.answers, chain.lookup_memory sharing.apart]
  | external name answer => simp [Source.answers]
  | documents held => simpa using moves.answers_iff member id

/-- Which source answers an id that no source gave stays as it was. -/
theorem Chain.answerer?_not_given {names : Nat} {chain : Chain}
    (sharing : Sharing names chain.sources) (files : Files) (store : Store) (bean : String)
    {id : String} (not_given : ∀ held, .documents held ∈ chain.sources →
      ¬ held.Gives files store (chain.lookup files store bean).store id) :
    chain.answerer? files (chain.lookup files store bean).store id =
      chain.answerer? files store id := by
  -- No source has more to say on the id than before.
  rw [answerer?, answererAmong?_eq sharing.apart, answerer?, answererAmong?_eq sharing.apart]
  apply findIdx?_congr
  intro source member
  rw [Bool.eq_iff_iff, chain.answers_after sharing files store bean id member]
  constructor
  · rintro (before | ⟨held, rfl, given⟩)
    · exact before
    · exact absurd given (not_given held member)
  · exact .inl

/-- The source that gave an id answers it, unless one in front of it did so before. -/
theorem Chain.answerer?_given {names : Nat} {chain : Chain}
    (sharing : Sharing names chain.sources) (files : Files) (store : Store) (bean : String)
    {id : String} {index : Nat} {held : DocumentSource}
    (there : chain.sources[index]? = some (.documents held))
    (given : held.Gives files store (chain.lookup files store bean).store id) :
    chain.answerer? files (chain.lookup files store bean).store id =
      match chain.answerer? files store id with
      | some before => some (min before index)
      | none => some index := by
  obtain ⟨more, moves, _⟩ := lookup_moves sharing files store bean
  have member := List.mem_of_getElem? there
  rw [answerer?, answererAmong?_eq sharing.apart, answerer?, answererAmong?_eq sharing.apart]
  apply findIdx?_raise there
  · exact (chain.answers_after sharing files store bean id member).2 (.inr ⟨held, rfl, given⟩)
  · intro position source inside differ
    have among := List.mem_of_getElem? inside
    rw [Bool.eq_iff_iff, chain.answers_after sharing files store bean id among]
    constructor
    · exact .inl
    · rintro (before | ⟨kept, rfl, also⟩)
      · exact before
      · -- Only one source gives ids in one lookup.
        obtain ⟨gift, first, _⟩ := (moves.gives_iff member id).1 given
        obtain ⟨other, second, _⟩ := (moves.gives_iff among id).1 also
        obtain rfl := moves.single kept held (List.ne_nil_of_mem second) (List.ne_nil_of_mem first)
        exact absurd (Source.index_of_cell sharing.apart inside there rfl) differ

end BeanWiring
