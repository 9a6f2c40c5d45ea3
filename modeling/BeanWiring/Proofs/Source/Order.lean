import BeanWiring.Proofs.Assembly.Faults
import BeanWiring.Proofs.Source.Answer

/-!
The order of a chain: the first source that does not decline a bean is the one whose answer or
fault a lookup ends with. Those in front of it are at most loaded by then, and those behind it are
left alone.

That no source has a bean is told by the chain and by none of its sources.
-/

namespace BeanWiring

namespace Source

/-- Whether a source has neither a definition of a bean nor a fault. -/
def Declines (source : Source) (files : Files) (store : Store) (bean : String) : Prop :=
  (source.find files store bean).outcome = .ok none

/-- Whether a source is one of the caller's own. -/
def IsExternal : Source → Prop
  | .external _ _ => True
  | _ => False

/-- What a source finds depends on definitions, names and its own documents alone. -/
theorem find_congr {source : Source} {store other : Store} (memory : other.memory = store.memory)
    (names : other.names = store.names)
    (loaded : ∀ held, source = .documents held →
      other.loaded held.documents = store.loaded held.documents) (files : Files) (bean : String) :
    (source.find files other bean).outcome = (source.find files store bean).outcome ∧
      (source.find files other bean).store.names = (source.find files store bean).store.names ∧
      ∀ held, source = .documents held →
        (source.find files other bean).store.loaded held.documents =
          (source.find files store bean).store.loaded held.documents := by
  -- Each kind of source looks at a part of the store of its own.
  cases source with
  | memory cell => exact ⟨by simp only [find, memory], names, by simp⟩
  | external name answer => exact ⟨rfl, names, by simp⟩
  | documents held =>
    have same : held.view files other = held.view files store :=
      DocumentSource.view_congr (loaded held rfl)
    simp only [find]
    cases viewed : held.view files store with
    | error error =>
      -- Nothing is loaded, and nothing is kept.
      obtain ⟨outcome, kept⟩ := held.lookup_unloadable viewed bean none
      obtain ⟨outcome', kept'⟩ := held.lookup_unloadable (same.trans viewed) bean none
      rw [outcome, kept, outcome', kept']
      refine ⟨rfl, names, ?_⟩
      rintro _ ⟨rfl⟩
      exact loaded held rfl
    | ok documents =>
      obtain ⟨outcome, kept⟩ := held.lookup_loaded viewed bean none
      obtain ⟨outcome', kept'⟩ := held.lookup_loaded (same.trans viewed) bean none
      rw [outcome, kept, outcome', kept', names]
      refine ⟨rfl, by simp only [Store.setNames, Store.setDocuments, names], ?_⟩
      rintro _ ⟨rfl⟩
      simp [Store.setNames, Store.setDocuments]

/-- A definition that is not one of the caller's own has the name of the bean. -/
theorem find_name {source : Source} {files : Files} {store : Store} {bean : String}
    {definition : Definition} (own : ¬ source.IsExternal)
    (found : (source.find files store bean).outcome = .ok (some definition)) :
    definition.name = bean := by
  -- A registered definition is found by its name, a declared one is made with it.
  cases source with
  | external name answer => exact absurd trivial own
  | memory cell =>
    have member : (store.memory cell).find? bean = some definition := Except.ok.inj found
    simpa using List.find?_some member
  | documents held =>
    simp only [find] at found
    cases viewed : held.view files store with
    | error error =>
      rw [(held.lookup_unloadable viewed bean none).1] at found
      cases found
    | ok documents =>
      rw [(held.lookup_loaded viewed bean none).1] at found
      -- Without a seed the definition is made from a declaration.
      rcases assemble_made (ok_of_mapError found) with ⟨_, seeded⟩ | ⟨place, draft, made⟩
      · cases seeded
      · exact made.name_eq

/-- That a bean is not to be found is told by the caller's own sources alone. -/
theorem find_ne_beanNotFound {source : Source} (own : ¬ source.IsExternal) (files : Files)
    (store : Store) (bean missing : String) :
    (source.find files store bean).outcome ≠ .error (.definition (.beanNotFound missing)) := by
  -- Documents tell of what cannot be loaded or of what is wrong with a declaration.
  intro told
  cases source with
  | external name answer => exact own trivial
  | memory cell => cases told
  | documents held =>
    simp only [find] at told
    cases viewed : held.view files store with
    | error error =>
      rw [(held.lookup_unloadable viewed bean none).1] at told
      cases told
    | ok documents =>
      rw [(held.lookup_loaded viewed bean none).1] at told
      have fails := assemble_fails documents (store.names held.names) bean none
      cases outcome : (assemble documents (store.names held.names) bean none).outcome with
      | ok answer =>
        rw [outcome] at told
        cases told
      | error error =>
        rw [outcome] at told
        cases told
        -- What is wrong with a declaration is told in other words.
        cases fails _ outcome

end Source

namespace Chain

/--
What a lookup ends with and leaves behind that a source answers after those in front declined.
-/
structure AnsweredBy (chain : Chain) (files : Files) (store : Store) (bean : String) (index : Nat)
    (source : Source) : Prop where
  outcome : (chain.lookup files store bean).outcome = (source.find files store bean).outcome
  memory : (chain.lookup files store bean).store.memory = store.memory
  names : (chain.lookup files store bean).store.names = (source.find files store bean).store.names
  own : ∀ held, source = .documents held →
    (chain.lookup files store bean).store.loaded held.documents =
      (source.find files store bean).store.loaded held.documents
  front : ∀ held, .documents held ∈ chain.sources.take index → ∃ documents,
    (held.load files store).outcome = .ok documents ∧
      (chain.lookup files store bean).store.loaded held.documents = some documents
  behind : ∀ held, .documents held ∈ chain.sources.drop (index + 1) →
    (chain.lookup files store bean).store.loaded held.documents = store.loaded held.documents

variable {chain : Chain} {files : Files} {store : Store} {bean : String} {index : Nat}
  {source : Source}

/-- The first source that does not decline a bean answers for the chain. -/
theorem answerer?_of_declines (apart : chain.sources.Pairwise Source.Apart)
    (there : chain.sources[index]? = some source)
    (front : ∀ other ∈ chain.sources.take index, other.Declines files store bean)
    (speaks : ¬ source.Declines files store bean) :
    chain.answerer? files store bean = some index := by
  -- A source declines exactly if it has nothing to say on the bean.
  obtain ⟨inside, stands⟩ := List.getElem?_eq_some_iff.1 there
  rw [answerer?, answererAmong?_eq apart, List.findIdx?_eq_some_iff_getElem]
  refine ⟨inside, ?_, ?_⟩
  · rw [stands]
    by_contra silent
    exact speaks ((source.find_eq_none_iff files store bean).2 (by simpa using silent))
  · intro position ahead
    have among : chain.sources[position] ∈ chain.sources.take index :=
      List.mem_take_iff_getElem.2 ⟨position, by omega, rfl⟩
    simpa using (Source.find_eq_none_iff _ files store bean).1 (front _ among)

/-- If all sources decline a bean, no source answers for the chain. -/
theorem answerer?_eq_none (apart : chain.sources.Pairwise Source.Apart)
    (all : ∀ source ∈ chain.sources, source.Declines files store bean) :
    chain.answerer? files store bean = none := by
  rw [answerer?, answererAmong?_eq apart, List.findIdx?_eq_none_iff]
  intro source member
  -- To decline is to find nothing.
  exact (source.find_eq_none_iff files store bean).1 (all source member)

/-- All sources decline a bean, or there is a first one that does not. -/
theorem all_decline_or_first (sources : List Source) (files : Files) (store : Store)
    (bean : String) :
    (∀ source ∈ sources, source.Declines files store bean) ∨
    ∃ index source, sources[index]? = some source ∧
      (∀ other ∈ sources.take index, other.Declines files store bean) ∧
      ¬ source.Declines files store bean := by
  -- The induction is on the sources; the first one speaks, or those behind it decide.
  induction sources with
  | nil => exact .inl (by simp)
  | cons first rest ih =>
    by_cases silent : first.Declines files store bean
    · rcases ih with all | ⟨index, source, there, front, speaks⟩
      · exact .inl (List.forall_mem_cons.2 ⟨silent, all⟩)
      · exact .inr ⟨index + 1, source, there, List.forall_mem_cons.2 ⟨silent, front⟩, speaks⟩
    · exact .inr ⟨0, first, rfl, by simp, silent⟩

/-- A lookup ends with the first source that does not decline, and leaves those behind it alone. -/
theorem answeredBy (apart : chain.sources.Pairwise Source.Apart)
    (there : chain.sources[index]? = some source)
    (front : ∀ other ∈ chain.sources.take index, other.Declines files store bean)
    (speaks : ¬ source.Declines files store bean) :
    chain.AnsweredBy files store bean index source := by
  have answered := answerer?_of_declines apart there front speaks
  rcases lookup_cases apart files store bean with
    ⟨unanswered, _⟩ | ⟨position, other, before, found, inside, passed, outcome, left⟩
  · rw [unanswered] at answered
    cases answered
  · obtain rfl : position = index := Option.some.inj (found.symm.trans answered)
    obtain rfl : other = source := Option.some.inj (inside.symm.trans there)
    -- What the sources in front leave behind is the same to the one that answers.
    obtain ⟨told, names, own⟩ := Source.find_congr passed.memory passed.names
      (fun held same => passed.others held.documents fun kept ahead =>
        Source.ne_of_before apart (same ▸ there) ahead) files bean
    constructor
    case outcome => exact outcome.trans told
    case memory => rw [left, other.find_memory, passed.memory]
    case names => rw [left, names]
    case own =>
      intro held same
      rw [left, own held same]
    case front =>
      intro held ahead
      obtain ⟨documents, viewed, kept⟩ := passed.loaded held ahead
      refine ⟨documents, viewed, ?_⟩
      rw [left, Source.find_loaded _ files before bean, kept]
      rintro mine rfl
      exact (Source.ne_of_before apart there ahead).symm
    case behind =>
      intro held later
      -- A source further behind has a position of its own, and so a cell of its own.
      obtain ⟨gap, stands⟩ := List.mem_iff_getElem?.1 later
      rw [List.getElem?_drop] at stands
      have further : position < position + 1 + gap := by omega
      rw [left, Source.find_loaded _ files before bean, passed.others]
      · intro kept ahead
        exact Source.ne_of_before apart stands
          (List.take_subset_take_left _ (Nat.le_of_lt further) ahead)
      · rintro mine rfl same
        have equal := Source.index_of_cell apart there stands same
        omega

/-- If all sources decline a bean, nothing is found, and all documents are loaded by then. -/
theorem declined (apart : chain.sources.Pairwise Source.Apart)
    (all : ∀ source ∈ chain.sources, source.Declines files store bean) :
    (chain.lookup files store bean).outcome = .ok none ∧
      Passed files store chain.sources (chain.lookup files store bean).store := by
  -- A source that answers would be one that does not decline.
  rcases lookup_cases apart files store bean with
    ⟨_, outcome, passed⟩ | ⟨index, _, _, found, _⟩
  · exact ⟨outcome, passed⟩
  · rw [answerer?_eq_none apart all] at found
    cases found

/--
That a required bean is not to be found is told exactly if all sources decline it, or if the first
that does not is one of the caller's own that tells so itself.
-/
theorem require_beanNotFound_iff (apart : chain.sources.Pairwise Source.Apart) :
    (chain.require files store bean).outcome = .error (.definition (.beanNotFound bean)) ↔
      (∀ source ∈ chain.sources, source.Declines files store bean) ∨
      ∃ index name answer, chain.sources[index]? = some (.external name answer) ∧
        (∀ other ∈ chain.sources.take index, other.Declines files store bean) ∧
        answer bean = .error (.definition (.beanNotFound bean)) := by
  -- A source that spoke first had the fault itself, and so is one of the caller's own.
  rw [require_outcome]
  constructor
  · intro told
    refine (all_decline_or_first chain.sources files store bean).imp id ?_
    rintro ⟨index, source, there, front, speaks⟩
    have answered := answeredBy apart there front speaks
    rw [answered.outcome] at told
    have said : (source.find files store bean).outcome =
        .error (.definition (.beanNotFound bean)) := by
      cases outcome : (source.find files store bean).outcome with
      | error error =>
        rw [outcome] at told
        exact congrArg Except.error (Except.error.inj told)
      | ok answer =>
        cases answer with
        | none => exact absurd outcome speaks
        | some definition =>
          rw [outcome] at told
          cases told
    cases source with
    | external name answer => exact ⟨index, name, answer, there, front, said⟩
    | memory cell => exact absurd said (Source.find_ne_beanNotFound id files store bean bean)
    | documents held => exact absurd said (Source.find_ne_beanNotFound id files store bean bean)
  · rintro (all | ⟨index, name, answer, there, front, said⟩)
    · rw [(declined apart all).1]
    · have speaks : ¬ (Source.external name answer).Declines files store bean := by
        intro silent
        cases said.symm.trans silent
      rw [(answeredBy apart there front speaks).outcome]
      simp only [Source.find, said]

/--
In a chain whose sources keep their documents in cells of their own, whatever they hold: a lookup
ends with what the first source says that does not decline the bean, if there is one, and with
nothing else. Registered definitions stay; documents of sources in front are loaded and stay what
they were; those behind are left alone; names are drawn by the source that answers alone.

A chain has a bean if a lookup finds one. That a required bean is not to be found is told exactly
if all sources decline it, unless a source of the caller's own tells so itself; registered
definitions and documents never do. The definitions that these give have the name of the bean.
-/
theorem lookup_in_order (apart : chain.sources.Pairwise Source.Apart) (files : Files)
    (store : Store) (bean : String) :
    (∀ index source, chain.sources[index]? = some source →
      (∀ other ∈ chain.sources.take index, other.Declines files store bean) →
      ¬ source.Declines files store bean →
      chain.AnsweredBy files store bean index source) ∧
    ((∀ source ∈ chain.sources, source.Declines files store bean) →
      (chain.lookup files store bean).outcome = .ok none ∧
        Passed files store chain.sources (chain.lookup files store bean).store) ∧
    ((chain.contains files store bean).outcome =
        (chain.lookup files store bean).outcome.map Option.isSome ∧
      (chain.contains files store bean).store = (chain.lookup files store bean).store) ∧
    ((chain.require files store bean).outcome = .error (.definition (.beanNotFound bean)) ↔
      (∀ source ∈ chain.sources, source.Declines files store bean) ∨
      ∃ index name answer, chain.sources[index]? = some (.external name answer) ∧
        (∀ other ∈ chain.sources.take index, other.Declines files store bean) ∧
        answer bean = .error (.definition (.beanNotFound bean))) ∧
    ((∀ name answer, .external name answer ∈ chain.sources →
        answer bean ≠ .error (.definition (.beanNotFound bean))) →
      ((chain.require files store bean).outcome = .error (.definition (.beanNotFound bean)) ↔
        ∀ source ∈ chain.sources, source.Declines files store bean)) ∧
    ∀ source ∈ chain.sources, ¬ source.IsExternal →
      (∀ missing, (source.find files store bean).outcome ≠
        .error (.definition (.beanNotFound missing))) ∧
      ∀ definition, (source.find files store bean).outcome = .ok (some definition) →
        definition.name = bean := by
  refine ⟨fun index source there front speaks => answeredBy apart there front speaks,
    declined apart, ⟨rfl, rfl⟩, require_beanNotFound_iff apart, ?_, ?_⟩
  · -- Without a source of the caller's own that tells so, all have to decline.
    intro fail
    rw [require_beanNotFound_iff apart]
    constructor
    · rintro (all | ⟨index, name, answer, there, _, said⟩)
      · exact all
      · exact absurd said (fail name answer (List.mem_of_getElem? there))
    · exact .inl
  · intro source _ own
    exact ⟨Source.find_ne_beanNotFound own files store bean,
      fun definition found => Source.find_name own found⟩

/-- A source behind the one that answers is not even loaded. -/
theorem declaring_source_is_left_alone :
    clashingChain.sources.Pairwise Source.Apart ∧
    (clashingChain.lookup clashingFiles clashingStore "svc").store.loaded
      declaringSource.documents = none := by
  have speaks : ¬ (Source.documents inliningSource).Declines clashingFiles clashingStore "svc" := by
    intro silent
    have declared : "svc" ∈ inliningDocuments.declaredIds := by decide +kernel
    have mute := (Source.find_eq_none_iff _ clashingFiles clashingStore "svc").1 silent
    rw [Source.answers_of_view view_inlining] at mute
    exact absurd declared (of_decide_eq_false mute)
  -- The first source answers, so the one behind it is not asked.
  have answered := (lookup_in_order clashing_apart clashingFiles clashingStore "svc").1 0
    (.documents inliningSource) rfl (by simp) speaks
  refine ⟨clashing_apart, ?_⟩
  rw [answered.behind declaringSource (by simp [clashing_sources])]
  rfl

end Chain

end BeanWiring
