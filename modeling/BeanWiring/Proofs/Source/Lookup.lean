import BeanWiring.Proofs.Source.Asking

/-!
Lookups in a chain and what they leave behind: documents that are loaded by then, and ids given
in those of the one source that answers.
-/

namespace BeanWiring

namespace Source

variable {sources : List Source} {held kept : DocumentSource} {position : Nat}

/-- Of sources that are apart a cell belongs to the documents at one position. -/
theorem index_of_cell (apart : sources.Pairwise Apart) {other : Nat}
    (there : sources[position]? = some (.documents held))
    (also : sources[other]? = some (.documents kept)) (same : held.documents = kept.documents) :
    position = other := by
  -- Of two positions one would come first, and the cells would differ.
  obtain ⟨inside, stands⟩ := List.getElem?_eq_some_iff.1 there
  obtain ⟨within, follows⟩ := List.getElem?_eq_some_iff.1 also
  have differ := List.pairwise_iff_getElem.1 apart
  rcases Nat.lt_trichotomy position other with before | equal | behind
  · exact absurd same (differ position other inside within before held stands kept follows)
  · exact equal
  · exact absurd same.symm (differ other position within inside behind kept follows held stands)

/-- The documents of sources in front are in other cells. -/
theorem ne_of_before (apart : sources.Pairwise Apart)
    (there : sources[position]? = some (.documents held))
    (before : .documents kept ∈ sources.take position) : kept.documents ≠ held.documents := by
  obtain ⟨earlier, inside, stands⟩ := List.mem_take_iff_getElem.1 before
  intro same
  have also : sources[earlier]? = some (.documents kept) := by
    rw [List.getElem?_eq_getElem (by omega), stands]
  -- Two positions with one cell are the same, but the earlier one lies in front.
  have equal := index_of_cell apart also there same
  omega

end Source

namespace Chain

/-- What is left behind by sources that all have nothing to say: their documents are loaded. -/
structure Passed (files : Files) (store : Store) (sources : List Source) (after : Store) :
    Prop where
  memory : after.memory = store.memory
  names : after.names = store.names
  loaded : ∀ held, .documents held ∈ sources → ∃ documents,
    held.view files store = .ok documents ∧ after.loaded held.documents = some documents
  others : ∀ cell, (∀ held, .documents held ∈ sources → held.documents ≠ cell) →
    after.loaded cell = store.loaded cell

/-- Sources that all have nothing to say are passed one after the other. -/
theorem passed_passAll {files : Files} {store : Store} {bean : String} {sources : List Source}
    (apart : sources.Pairwise Source.Apart)
    (silent : ∀ source ∈ sources, source.answers files store bean = false) :
    Passed files store sources (passAll files bean store sources) := by
  -- What a source leaves behind the others find, and leave alone.
  induction sources generalizing store with
  | nil => exact ⟨rfl, rfl, by simp, fun _ _ => rfl⟩
  | cons source rest ih =>
    obtain ⟨first, further⟩ := List.pairwise_cons.1 apart
    have here := silent source List.mem_cons_self
    have others : ∀ other ∈ rest,
        other.answers files (source.find files store bean).store bean = false := by
      intro other member
      rw [(first other member).answers]
      exact silent other (List.mem_cons_of_mem source member)
    have later := ih further others
    constructor
    case memory => exact later.memory.trans (source.find_memory files store bean)
    case names => exact later.names.trans (Source.find_names here)
    case loaded =>
      intro held member
      rcases List.mem_cons.1 member with rfl | inside
      · -- The others keep their documents in other cells.
        obtain ⟨documents, viewed, kept⟩ := Source.find_loaded_self here
        refine ⟨documents, viewed, ?_⟩
        rw [← kept]
        exact later.others held.documents fun other there =>
          (first (.documents other) there held rfl other rfl).symm
      · obtain ⟨documents, viewed, kept⟩ := later.loaded held inside
        refine ⟨documents, ?_, kept⟩
        rw [← viewed]
        apply DocumentSource.view_congr
        exact (Source.find_loaded (fun other same => first (.documents held) inside other same
          held rfl) files store bean).symm
    case others =>
      intro cell elsewhere
      have behind := later.others cell fun held member =>
        elsewhere held (List.mem_cons_of_mem source member)
      refine behind.trans (Source.find_loaded ?_ files store bean)
      rintro held rfl
      exact elsewhere held List.mem_cons_self

/-- A lookup passes sources until one has something to say, which is its answer. -/
theorem lookup_cases {chain : Chain} (apart : chain.sources.Pairwise Source.Apart) (files : Files)
    (store : Store) (bean : String) :
    (chain.answerer? files store bean = none ∧
      (chain.lookup files store bean).outcome = .ok none ∧
      Passed files store chain.sources (chain.lookup files store bean).store) ∨
    ∃ index source before, chain.answerer? files store bean = some index ∧
      chain.sources[index]? = some source ∧
      Passed files store (chain.sources.take index) before ∧
      (chain.lookup files store bean).outcome = (source.find files before bean).outcome ∧
      (chain.lookup files store bean).store = (source.find files before bean).store := by
  -- The source that answers is the first one that would, whatever the others change.
  have position := answererAmong?_eq apart files store bean
  cases answered : answererAmong? files store bean chain.sources with
  | none =>
    obtain ⟨outcome, left⟩ := lookupAmong_unanswered answered
    refine .inl ⟨answered, outcome, ?_⟩
    rw [answered] at position
    rw [lookup, left]
    exact passed_passAll apart (by simpa using (List.findIdx?_eq_none_iff.1 position.symm))
  | some index =>
    obtain ⟨source, there, outcome, left⟩ := lookupAmong_answered answered
    refine .inr ⟨index, source, _, answered, there, ?_, outcome, left⟩
    rw [answered] at position
    obtain ⟨_, _, silent⟩ := List.findIdx?_eq_some_iff_getElem.1 position.symm
    apply passed_passAll (apart.sublist (List.take_sublist _ _))
    intro other member
    obtain ⟨earlier, inside, rfl⟩ := List.mem_take_iff_getElem.1 member
    simpa using silent earlier (by omega)

end Chain

/-- Whether a source is one of registered definitions, or of documents with a supply of names. -/
def Source.DrawsFrom (names : Nat) : Source → Prop
  | .memory _ => True
  | .documents held => held.names = names
  | .external _ _ => False

/-- Sources that share a supply of names and keep their documents in cells of their own. -/
structure Sharing (names : Nat) (sources : List Source) : Prop where
  kinds : ∀ source ∈ sources, source.DrawsFrom names
  apart : sources.Pairwise Source.Apart

namespace Sharing

variable {names : Nat} {sources : List Source}

/-- A cell belongs to one source of documents. -/
theorem eq_of_cell (sharing : Sharing names sources) {held kept : DocumentSource}
    (member : .documents held ∈ sources) (other : .documents kept ∈ sources)
    (same : held.documents = kept.documents) : held = kept := by
  obtain ⟨position, there⟩ := List.mem_iff_getElem?.1 member
  obtain ⟨further, also⟩ := List.mem_iff_getElem?.1 other
  -- Each cell belongs to one position.
  obtain rfl := Source.index_of_cell sharing.apart there also same
  simpa [there] using also

/-- The documents of earlier sources are in other cells. -/
theorem not_before (sharing : Sharing names sources) {held kept : DocumentSource}
    {position : Nat} (there : sources[position]? = some (.documents held))
    (before : .documents kept ∈ sources.take position) : kept.documents ≠ held.documents :=
  Source.ne_of_before sharing.apart there before

end Sharing

/--
What becomes of the sources of a chain between two stores: the documents of a source stay, or
they are those that it went by with more ids given; only one source gives any.
-/
structure Moves (names : Nat) (sources : List Source) (files : Files) (store after : Store)
    (more : DocumentSource → Given Place) : Prop where
  issued : (store.names names).issued ≤ (after.names names).issued
  held : ∀ held, .documents held ∈ sources →
    (after.loaded held.documents = store.loaded held.documents ∧ more held = []) ∨
    ∃ documents marked, held.view files store = .ok documents ∧
      after.loaded held.documents = some marked ∧
      Grown documents marked (store.names names).issued (after.names names).issued (more held)
  single : ∀ held kept, more held ≠ [] → more kept ≠ [] → held = kept

namespace Moves

variable {names : Nat} {sources : List Source} {files : Files} {store after : Store}
  {more : DocumentSource → Given Place} {held : DocumentSource}

/-- The ids that a source gives have the numbers of the names drawn on the way. -/
theorem numbered (moves : Moves names sources files store after more)
    (member : .documents held ∈ sources) :
    Numbered (store.names names).issued (after.names names).issued (more held) := by
  -- A source that is not touched gives nothing.
  rcases moves.held held member with ⟨_, none⟩ | ⟨_, _, _, _, grown⟩
  · rw [none]
    exact .nil
  · exact grown.numbered

/-- Loaded documents stay loaded, with the ids that their source gives. -/
theorem loaded (moves : Moves names sources files store after more)
    (member : .documents held ∈ sources) {documents : DocumentSet}
    (loaded : store.loaded held.documents = some documents) :
    ∃ marked, after.loaded held.documents = some marked ∧
      Grown documents marked (store.names names).issued (after.names names).issued
        (more held) := by
  rcases moves.held held member with ⟨same, none⟩ | ⟨known, marked, viewed, kept, grown⟩
  · refine ⟨documents, same.trans loaded, ?_⟩
    rw [none]
    exact .none _ _ _
  -- What is loaded is what the source views.
  · obtain rfl : documents = known := by
      rw [DocumentSource.view_of_loaded loaded] at viewed
      exact Except.ok.inj viewed
    exact ⟨marked, kept, grown⟩

end Moves

/-- Sources that were passed give no ids. -/
theorem Chain.Passed.moves {names : Nat} {sources asked : List Source} {files : Files}
    {store after : Store} (passed : Chain.Passed files store asked after)
    (among : ∀ source ∈ asked, source ∈ sources) (sharing : Sharing names sources) :
    Moves names sources files store after fun _ => [] := by
  -- A source that was not asked keeps its cell, since no other has it.
  refine ⟨by rw [passed.names], ?_, by simp⟩
  intro held member
  by_cases there : .documents held ∈ asked
  · obtain ⟨documents, viewed, kept⟩ := passed.loaded held there
    exact .inr ⟨documents, documents, viewed, kept, .none _ _ _⟩
  · refine .inl ⟨passed.others held.documents ?_, rfl⟩
    intro kept inside same
    obtain rfl := sharing.eq_of_cell (among _ inside) member same
    exact there inside

/-- A lookup in documents gives ids in them, under numbers of the supply of their source. -/
theorem DocumentSource.lookup_grown {held : DocumentSource} {files : Files} {store : Store}
    {documents : DocumentSet} (viewed : held.view files store = .ok documents) (bean : String)
    (seed : Option Definition) :
    let after := (held.lookup files store bean seed).store
    (store.names held.names).issued ≤ (after.names held.names).issued ∧
      ∃ marked given, after.loaded held.documents = some marked ∧
        Grown documents marked (store.names held.names).issued
          (after.names held.names).issued given := by
  -- The documents and the names of the assembly are what is kept.
  obtain ⟨drawn, given, grown⟩ := assemble_grown documents (store.names held.names) bean seed
  rw [(held.lookup_loaded viewed bean seed).2]
  refine ⟨?_, _, given, setCell_self _ _ _, ?_⟩
  · simpa [Store.setNames] using drawn
  · simpa [Store.setNames, Store.setDocuments] using grown

/--
What becomes of the sources of a chain in a lookup: only the one that answers gives any ids.
-/
theorem Chain.lookup_moves {names : Nat} {chain : Chain} (sharing : Sharing names chain.sources)
    (files : Files) (store : Store) (bean : String) :
    ∃ more, Moves names chain.sources files store (chain.lookup files store bean).store more ∧
      ∀ held, more held ≠ [] → ∃ index, chain.answerer? files store bean = some index ∧
        chain.sources[index]? = some (.documents held) := by
  -- The sources passed only load; the one that ends the lookup gives all the ids.
  rcases lookup_cases sharing.apart files store bean with
    ⟨_, _, passed⟩ | ⟨index, source, before, answered, there, passed, _, left⟩
  · exact ⟨_, passed.moves (fun _ member => member) sharing, by simp⟩
  · have moves := passed.moves (fun _ => List.mem_of_mem_take) sharing
    have member := List.mem_of_getElem? there
    rw [left]
    cases source with
    | memory cell => exact ⟨_, moves, by simp⟩
    | external name answer => exact (sharing.kinds _ member).elim
    | documents held =>
      cases viewed : held.view files before with
      | error error =>
        simp only [Source.find, (held.lookup_unloadable viewed bean none).2]
        exact ⟨_, moves, by simp⟩
      | ok documents =>
        obtain ⟨drawn, marked, given, kept, grown⟩ := held.lookup_grown viewed bean none
        have supply : held.names = names := sharing.kinds _ member
        have here : held.view files store = .ok documents := by
          rw [← viewed]
          apply DocumentSource.view_congr
          exact (passed.others held.documents fun kept => sharing.not_before there).symm
        rw [supply, passed.names] at drawn grown
        simp only [Source.find]
        refine ⟨fun other => if other = held then given else [], ⟨drawn, ?_, ?_⟩, ?_⟩
        · intro other among
          by_cases itself : other = held
          · subst itself
            exact .inr ⟨documents, marked, here, kept, by simpa using grown⟩
          · -- The others keep their documents in other cells.
            have elsewhere : ∀ source, Source.documents held = .documents source →
                source.documents ≠ other.documents := by
              rintro source ⟨rfl⟩ same
              exact itself (sharing.eq_of_cell among member same.symm)
            have unchanged := Source.find_loaded elsewhere files before bean
            simp only [itself, if_false]
            rcases moves.held other among with ⟨same, _⟩ | ⟨known, loaded, by_then, stays, still⟩
            · exact .inl ⟨unchanged.trans same, trivial⟩
            · exact .inr ⟨known, loaded, by_then, unchanged.trans stays,
                still.widen (Nat.le_refl _) (passed.names ▸ drawn)⟩
        · intro first second hasFirst hasSecond
          simp only [ne_eq, ite_eq_right_iff, not_forall] at hasFirst hasSecond
          obtain ⟨rfl, _⟩ := hasFirst
          obtain ⟨rfl, _⟩ := hasSecond
          rfl
        · intro other has
          simp only [ne_eq, ite_eq_right_iff, not_forall] at has
          obtain ⟨rfl, _⟩ := has
          exact ⟨index, answered, there⟩

end BeanWiring
