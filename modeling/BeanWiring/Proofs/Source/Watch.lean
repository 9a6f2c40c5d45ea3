import BeanWiring.Proofs.Source.Lookup

/-!
Chains in use: lookups in any order, and definitions registered and removed between them.

A watch keeps, beside the store, the documents of each source as they were loaded.
The ids given in them are new to the source, and no two sources give the same.
-/

namespace BeanWiring

/-- What is done with a chain in use; each lookup finds the files as they are then. -/
inductive Action where
  | lookup (files : Files) (bean : String)
  | register (cell : Nat) (definition : Definition)
  | unregister (cell : Nat) (bean : String)

/-- A store, and the documents of each source in it as they were loaded. -/
structure Watch where
  store : Store
  origin : DocumentSource → Option DocumentSet

namespace Watch

/-- A watch that begins with a store. -/
def start (store : Store) : Watch :=
  ⟨store, fun held => store.loaded held.documents⟩

/-- The documents as they were loaded, those among them that files held when a lookup began. -/
def originBy (watch : Watch) (files : Files) (after : Store) (held : DocumentSource) :
    Option DocumentSet :=
  match watch.store.loaded held.documents, after.loaded held.documents with
  -- Documents that were not there before are the ones just loaded.
  | none, some _ => (held.load files watch.store).outcome.toOption
  | _, _ => watch.origin held

/-- The watch after an action. -/
def see (chain : Chain) (watch : Watch) : Action → Watch
  | .lookup files bean =>
    let after := (chain.lookup files watch.store bean).store
    ⟨after, watch.originBy files after⟩
  -- Changes in memory load no documents.
  | .register cell definition =>
    { watch with store := (watch.store.register cell definition).value.2 }
  | .unregister cell bean => { watch with store := (watch.store.unregister cell bean).2 }

/-- The watch after actions in order. -/
def run (chain : Chain) (watch : Watch) (actions : List Action) : Watch :=
  actions.foldl (see chain) watch

/-- Whether a source has a bean of its own: registered, or declared in what was loaded. -/
def HasOwn (watch : Watch) (bean : String) : Source → Prop
  | .memory cell => ((watch.store.memory cell).find? bean).isSome
  | .documents held => ∃ origin, watch.origin held = some origin ∧ bean ∈ origin.declaredIds
  | .external _ answer => answer bean ≠ .ok none

/--
The documents of the sources of a chain came from those loaded by giving ids, under numbers of
the supply that they share; each id is given by one source.
-/
structure Sound (names : Nat) (sources : List Source) (watch : Watch)
    (gifts : DocumentSource → Given Place) : Prop where
  loaded : ∀ held, .documents held ∈ sources → ∀ documents,
    watch.store.loaded held.documents = some documents → ∃ origin,
      watch.origin held = some origin ∧
        Grown origin documents 0 (watch.store.names names).issued (gifts held)
  unloaded : ∀ held, .documents held ∈ sources → watch.store.loaded held.documents = none →
    gifts held = []
  numbered : ∀ held, .documents held ∈ sources →
    Numbered 0 (watch.store.names names).issued (gifts held)
  apart : ∀ held, .documents held ∈ sources → ∀ kept, .documents kept ∈ sources → held ≠ kept →
    ∀ gift ∈ gifts held, ∀ other ∈ gifts kept, gift.2 ≠ other.2

variable {names : Nat} {chain : Chain} {watch : Watch} {gifts : DocumentSource → Given Place}

/-- In the beginning no id was given. -/
theorem sound_start (names : Nat) (sources : List Source) (store : Store) :
    Sound names sources (start store) fun _ => [] := by
  -- Documents that are there already count as loaded.
  refine ⟨?_, fun _ _ _ => rfl, fun _ _ => .nil, by simp⟩
  intro held _ documents loaded
  exact ⟨documents, loaded, .none _ _ _⟩

/-- Ids given in a move are added to those given before. -/
theorem Sound.moves {sources : List Source} {files : Files} {after : Store}
    {more : DocumentSource → Given Place} (sound : Sound names sources watch gifts)
    (moves : Moves names sources files watch.store after more) :
    Sound names sources ⟨after, watch.originBy files after⟩
      fun held => gifts held ++ more held := by
  constructor
  case loaded =>
    intro held member documents loaded
    rcases moves.held held member with ⟨same, none⟩ | ⟨known, marked, viewed, kept, grown⟩
    · -- The documents stayed as they were.
      have before : watch.store.loaded held.documents = some documents := same.symm.trans loaded
      obtain ⟨origin, from_there, grown⟩ := sound.loaded held member documents before
      refine ⟨origin, ?_, ?_⟩
      · simpa [originBy, before] using from_there
      · simpa [none] using grown.widen (Nat.le_refl 0) moves.issued
    · obtain rfl : marked = documents := by
        rw [loaded] at kept
        exact (Option.some.inj kept).symm
      cases before : watch.store.loaded held.documents with
      | none =>
        -- The lookup loaded the documents before it gave any ids.
        refine ⟨known, ?_, ?_⟩
        · have loads : (held.load files watch.store).outcome = .ok known := viewed
          simp only [originBy, before, kept, loads]
          rfl
        · simpa [sound.unloaded held member before] using
            grown.widen (Nat.zero_le _) (Nat.le_refl _)
      | some documents =>
        obtain rfl : documents = known := by
          rw [DocumentSource.view_of_loaded before] at viewed
          exact Except.ok.inj viewed
        obtain ⟨origin, from_there, earlier⟩ := sound.loaded held member documents before
        refine ⟨origin, ?_, earlier.trans grown (Nat.zero_le _) moves.issued⟩
        simpa [originBy, before] using from_there
  case unloaded =>
    intro held member unloaded
    rcases moves.held held member with ⟨same, none⟩ | ⟨_, marked, _, kept, _⟩
    · simp [sound.unloaded held member (same.symm.trans unloaded), none]
    · rw [kept] at unloaded
      cases unloaded
  case numbered =>
    intro held member
    exact (sound.numbered held member).append (moves.numbered member) (Nat.zero_le _) moves.issued
  case apart =>
    intro held member kept also distinct gift given other otherGiven
    rcases List.mem_append.1 given with early | late
    · rcases List.mem_append.1 otherGiven with otherEarly | otherLate
      · exact sound.apart held member kept also distinct gift early other otherEarly
      · exact (sound.numbered held member).disjoint (moves.numbered also) early otherLate
    · rcases List.mem_append.1 otherGiven with otherEarly | otherLate
      · exact ((sound.numbered kept also).disjoint (moves.numbered member) otherEarly late).symm
      · -- Two sources never give ids in one move.
        have same := moves.single held kept (List.ne_nil_of_mem late) (List.ne_nil_of_mem otherLate)
        exact absurd same distinct

/-- Documents in use are those loaded with ids given, after each action as before. -/
theorem Sound.see (sharing : Sharing names chain.sources)
    (sound : Sound names chain.sources watch gifts) (action : Action) :
    ∃ given, Sound names chain.sources (watch.see chain action) given := by
  -- Only lookups give ids; registered definitions have nothing to do with documents.
  cases action with
  | lookup files bean =>
    obtain ⟨more, moves, _⟩ := Chain.lookup_moves sharing files watch.store bean
    exact ⟨_, sound.moves moves⟩
  | register cell definition =>
    exact ⟨gifts, sound.loaded, sound.unloaded, sound.numbered, sound.apart⟩
  | unregister cell bean =>
    exact ⟨gifts, sound.loaded, sound.unloaded, sound.numbered, sound.apart⟩

/-- Documents in use are those loaded with ids given, whatever was done. -/
theorem Sound.run (sharing : Sharing names chain.sources)
    (sound : Sound names chain.sources watch gifts) (actions : List Action) :
    ∃ given, Sound names chain.sources (watch.run chain actions) given := by
  induction actions generalizing watch gifts with
  | nil => exact ⟨gifts, sound⟩
  | cons action rest ih =>
    -- Each action adds the ids that its lookup gives.
    obtain ⟨given, later⟩ := sound.see sharing action
    exact ih later

/-- Loaded documents stay loaded through an action; only ids are given in them. -/
theorem see_loaded (sharing : Sharing names chain.sources) {held : DocumentSource}
    (member : .documents held ∈ chain.sources) {documents : DocumentSet}
    (loaded : watch.store.loaded held.documents = some documents) (action : Action) :
    let after := watch.see chain action
    (watch.store.names names).issued ≤ (after.store.names names).issued ∧
      after.origin held = watch.origin held ∧
      ∃ marked more, after.store.loaded held.documents = some marked ∧
        Grown documents marked (watch.store.names names).issued (after.store.names names).issued
          more := by
  -- Only a lookup can give ids, and it gives them in the documents that are loaded.
  cases action with
  | lookup files bean =>
    obtain ⟨more, moves, _⟩ := Chain.lookup_moves sharing files watch.store bean
    obtain ⟨marked, kept, grown⟩ := moves.loaded member loaded
    refine ⟨moves.issued, ?_, marked, _, kept, grown⟩
    simp [see, originBy, loaded]
  | register cell definition => exact ⟨Nat.le_refl _, rfl, documents, [], loaded, .none _ _ _⟩
  | unregister cell bean => exact ⟨Nat.le_refl _, rfl, documents, [], loaded, .none _ _ _⟩

/-- Loaded documents stay loaded, whatever is done; only ids are given in them. -/
theorem run_loaded (sharing : Sharing names chain.sources) {held : DocumentSource}
    (member : .documents held ∈ chain.sources) {documents : DocumentSet}
    (loaded : watch.store.loaded held.documents = some documents) (actions : List Action) :
    let reached := watch.run chain actions
    (watch.store.names names).issued ≤ (reached.store.names names).issued ∧
      reached.origin held = watch.origin held ∧
      ∃ marked more, reached.store.loaded held.documents = some marked ∧
        Grown documents marked (watch.store.names names).issued
          (reached.store.names names).issued more := by
  -- The ids of one action are followed by those of the others.
  induction actions generalizing watch documents with
  | nil => exact ⟨Nat.le_refl _, rfl, documents, [], loaded, .none _ _ _⟩
  | cons action rest ih =>
    obtain ⟨first, same, marked, more, kept, grown⟩ := see_loaded sharing member loaded action
    obtain ⟨others, still, reached, further, there, later⟩ := ih kept
    exact ⟨Nat.le_trans first others, still.trans same, reached, more ++ further, there,
      grown.trans later first others⟩

end Watch

end BeanWiring
