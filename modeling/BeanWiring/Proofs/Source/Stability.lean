import BeanWiring.Proofs.Assembly.Stability
import BeanWiring.Proofs.Source.Answer

/-!
Asking again: what a source of documents answered once it answers from then on, whatever it and
others are asked on the way, and nothing is drawn or given for it any more.

A chain that was asked whether it has a bean gives it as if it had not been asked.
-/

namespace BeanWiring

/-- A lookup in a source of documents, which finds the files as they are then. -/
structure Query where
  source : DocumentSource
  files : Files
  bean : String
  seed : Option Definition := none

namespace Store

/-- Puts a query to its source. -/
def ask (store : Store) (query : Query) : Asked SourceError (Option Definition) :=
  query.source.lookup query.files store query.bean query.seed

/-- The store after queries in order, whether they succeed or fail. -/
def askAll (store : Store) (queries : List Query) : Store :=
  queries.foldl (fun store query => (store.ask query).store) store

end Store

namespace DocumentSource

variable {held : DocumentSource} {store : Store} {bean : String} {seed : Option Definition}
  {definition : Definition}

/-- Whether the documents of a source make a definition as they are, without any id to be given. -/
def Makes (held : DocumentSource) (store : Store) (bean : String) (seed : Option Definition)
    (definition : Definition) : Prop :=
  ∃ documents place draft, store.loaded held.documents = some documents ∧
    MadeFrom documents documents bean seed place draft definition

/-- A definition that documents make as they are is answered, and nothing changes. -/
theorem Makes.lookup (makes : held.Makes store bean seed definition) (files : Files) :
    (held.lookup files store bean seed).outcome = .ok (some definition) ∧
      (held.lookup files store bean seed).store = store := by
  obtain ⟨documents, place, draft, loaded, made⟩ := makes
  have viewed : held.view files store = .ok documents := view_of_loaded loaded
  obtain ⟨outcome, kept⟩ := held.lookup_loaded viewed bean seed
  obtain ⟨answer, same, undrawn⟩ := made.again (store.names held.names)
  rw [outcome, kept, answer, same, undrawn]
  -- What is put into the cells is what they hold.
  exact ⟨rfl, by rw [Store.setDocuments_same loaded, Store.setNames_same]⟩

/-- A source still makes a definition after any source was asked anything. -/
theorem Makes.ask (makes : held.Makes store bean seed definition) (query : Query) :
    held.Makes (store.ask query).store bean seed definition := by
  obtain ⟨documents, place, draft, loaded, made⟩ := makes
  by_cases same : query.source.documents = held.documents
  · -- The ids given in the documents leave those that the definition refers to alone.
    rw [← same] at loaded
    have viewed : query.source.view query.files store = .ok documents := view_of_loaded loaded
    obtain ⟨_, marked, given, kept, grown⟩ :=
      query.source.lookup_grown viewed query.bean query.seed
    rw [same] at kept
    exact ⟨marked, place, draft, kept, (made.grown grown).settle grown⟩
  · refine ⟨documents, place, draft, ?_, made⟩
    rw [← loaded]
    exact lookup_elsewhere same query.files store query.bean query.seed

/-- A source still makes a definition after any sources were asked anything. -/
theorem Makes.askAll (makes : held.Makes store bean seed definition) (queries : List Query) :
    held.Makes (store.askAll queries) bean seed definition := by
  -- Each query leaves the definition as it was made.
  induction queries generalizing store with
  | nil => exact makes
  | cons query rest ih => exact ih (makes.ask query)

/-- The definition of a declared bean that was answered is made from then on. -/
theorem makes_of_answer {files : Files} {documents : DocumentSet}
    (viewed : held.view files store = .ok documents) (declared : bean ∈ documents.declaredIds)
    (answer : (held.lookup files store bean seed).outcome = .ok (some definition)) :
    held.Makes (held.lookup files store bean seed).store bean seed definition := by
  -- A declared bean is answered from its declaration, never from the seed alone.
  obtain ⟨outcome, kept⟩ := held.lookup_loaded viewed bean seed
  obtain ⟨_, given, grown⟩ := assemble_grown documents (store.names held.names) bean seed
  rw [outcome] at answer
  rw [kept]
  rcases assemble_made (ok_of_mapError answer) with ⟨unknown, _⟩ | ⟨place, draft, made⟩
  · exact absurd declared ((documents.placeOf?_eq_none_iff bean).1 unknown)
  · exact ⟨_, place, draft, setCell_self _ _ _, made.settle grown⟩

end DocumentSource

namespace Source

variable {source : Source} {files : Files} {store : Store} {bean : String}

/-- Whether a source has nothing to say on a bean and has loaded all that it needs to know so. -/
def Idle (source : Source) (store : Store) (bean : String) : Prop :=
  match source with
  | .memory cell => (store.memory cell).find? bean = none
  | .documents held => ∃ documents, store.loaded held.documents = some documents ∧
      bean ∉ documents.declaredIds
  | .external _ answer => answer bean = .ok none

/-- An idle source answers nothing and changes nothing. -/
theorem Idle.find (idle : source.Idle store bean) (files : Files) :
    (source.find files store bean).outcome = .ok none ∧
      (source.find files store bean).store = store := by
  cases source with
  | memory cell => exact ⟨congrArg Except.ok idle, rfl⟩
  | external name answer => exact ⟨idle, rfl⟩
  | documents held =>
    -- The documents are loaded and do not declare the bean, so nothing is drawn.
    obtain ⟨documents, loaded, undeclared⟩ := idle
    have unknown := (documents.placeOf?_eq_none_iff bean).2 undeclared
    have viewed : held.view files store = .ok documents := DocumentSource.view_of_loaded loaded
    obtain ⟨outcome, kept⟩ := held.lookup_loaded viewed bean none
    rw [assemble_undeclared unknown] at outcome kept
    rw [Store.setDocuments_same loaded, Store.setNames_same] at kept
    exact ⟨outcome, kept⟩

/-- A source that answered nothing is idle from then on. -/
theorem idle_of_silent (silent : (source.find files store bean).outcome = .ok none) :
    source.Idle (source.find files store bean).store bean := by
  -- Documents that have nothing to say were loaded and do not declare the bean.
  have mute := (source.find_eq_none_iff files store bean).1 silent
  cases source with
  | memory cell => exact Except.ok.inj silent
  | external name answer => exact silent
  | documents held =>
    obtain ⟨documents, viewed, kept⟩ := find_loaded_self mute
    refine ⟨documents, kept, ?_⟩
    rw [answers_of_view viewed] at mute
    exact of_decide_eq_false mute

/-- A source stays idle on a bean that others are asked for. -/
theorem Idle.after (idle : source.Idle store bean) (other : Source) (files : Files) :
    source.Idle (other.find files store bean).store bean := by
  cases source with
  | memory cell =>
    simp only [Idle, other.find_memory]
    exact idle
  | external name answer => exact idle
  | documents held =>
    by_cases shared : ∃ kept, other = .documents kept ∧ kept.documents = held.documents
    · -- A source of the same documents is idle as well, so nothing happens.
      obtain ⟨kept, rfl, same⟩ := shared
      have also : (Source.documents kept).Idle store bean := by
        simp only [Idle, same]
        exact idle
      rwa [(also.find files).2]
    · obtain ⟨documents, loaded, undeclared⟩ := idle
      refine ⟨documents, ?_, undeclared⟩
      rw [← loaded]
      exact find_loaded (fun kept is same => shared ⟨kept, is, same⟩) files store bean

/-- A source that is asked again says the same. -/
theorem find_again (source : Source) (files : Files) (store : Store) (bean : String) :
    (source.find files (source.find files store bean).store bean).outcome =
      (source.find files store bean).outcome := by
  cases source with
  | memory cell => rfl
  | external name answer => rfl
  | documents held =>
    simp only [find]
    cases viewed : held.view files store with
    | error error => rw [(held.lookup_unloadable viewed bean none).2]
    | ok documents =>
      obtain ⟨outcome, kept⟩ := held.lookup_loaded viewed bean none
      -- The second time the documents are those that the first left behind.
      have loaded : (held.lookup files store bean none).store.loaded held.documents =
          some (assemble documents (store.names held.names) bean none).documents := by
        rw [kept]
        exact setCell_self _ _ _
      rw [(held.lookup_loaded (DocumentSource.view_of_loaded loaded) bean none).1, outcome,
        assemble_again]

end Source

namespace Chain

/-- A source stays idle on a bean that any number of others are asked for. -/
theorem idle_after_lookup {source : Source} {store : Store} {bean : String}
    (idle : source.Idle store bean) (files : Files) (sources : List Source) :
    source.Idle (lookupAmong files store bean sources).store bean := by
  -- The induction is on the sources that are asked, each of which leaves it idle.
  induction sources generalizing store with
  | nil => exact idle
  | cons other rest ih =>
    have after := idle.after other files
    simp only [lookupAmong, Asked.andThen]
    cases (other.find files store bean).outcome with
    | error error => exact after
    | ok answer =>
      cases answer with
      | none => exact ih after
      | some definition => exact after

/-- Sources that are asked again say the same. -/
theorem lookup_again (files : Files) (store : Store) (bean : String) (sources : List Source) :
    (lookupAmong files (lookupAmong files store bean sources).store bean sources).outcome =
      (lookupAmong files store bean sources).outcome := by
  -- The induction passes the first source, which is idle when it is asked again.
  induction sources generalizing store with
  | nil => rfl
  | cons source rest ih =>
    have again := source.find_again files store bean
    cases outcome : (source.find files store bean).outcome with
    | error error =>
      rw [outcome] at again
      simp only [lookupAmong, Asked.andThen, outcome, again]
    | ok answer =>
      cases answer with
      | some definition =>
        rw [outcome] at again
        simp only [lookupAmong, Asked.andThen, outcome, again]
      | none =>
        have idle := idle_after_lookup (Source.idle_of_silent outcome) files rest
        simp only [lookupAmong, Asked.andThen, outcome, (idle.find files).1, (idle.find files).2]
        exact ih _

end Chain

/--
A source of documents that answered a declared bean answers it the same from then on, whatever
it and others are asked on the way: with the same ids, and without any change to the store.

A chain that was asked whether it has a bean gives it, or the fault, as it would have done before.
-/
theorem DocumentSource.lookup_is_stable (held : DocumentSource) (files : Files) (store : Store)
    (bean : String) (seed : Option Definition) :
    (∀ documents definition, (held.load files store).outcome = .ok documents →
      bean ∈ documents.declaredIds →
      (held.lookup files store bean seed).outcome = .ok (some definition) →
      ∀ queries again,
        let reached := (held.lookup files store bean seed).store.askAll queries
        (held.lookup again reached bean seed).outcome = .ok (some definition) ∧
          (held.lookup again reached bean seed).store = reached) ∧
    ∀ chain : Chain,
      (chain.require files (chain.contains files store bean).store bean).outcome =
        (chain.require files store bean).outcome := by
  constructor
  · -- The documents make the definition once it was answered, and go on making it.
    intro documents definition viewed declared answer queries again reached
    have makes := (held.makes_of_answer viewed declared answer).askAll queries
    exact makes.lookup again
  · -- What is said of a required bean depends on what the lookup finds.
    intro chain
    rw [Chain.require_outcome, Chain.require_outcome]
    simp only [Chain.contains, Asked.map, Chain.lookup,
      Chain.lookup_again files store bean chain.sources]

/-- The bean with the inline bean is answered with the id given first, whatever is asked later. -/
theorem DocumentSource.inlining_lookup_is_stable :
    (inliningSource.load clashingFiles clashingStore).outcome = .ok inliningDocuments ∧
    "svc" ∈ inliningDocuments.declaredIds ∧
    (inliningSource.lookup clashingFiles clashingStore "svc" none).outcome =
      .ok (some inliningDefinition) ∧
    ∀ queries again, (inliningSource.lookup again
      ((inliningSource.lookup clashingFiles clashingStore "svc" none).store.askAll queries) "svc"
        none).outcome = .ok (some inliningDefinition) := by
  have declared : "svc" ∈ inliningDocuments.declaredIds := by decide +kernel
  have made : inliningAssembly.outcome.toOption = some (some inliningDefinition) := by
    decide +kernel
  have outcome : (inliningSource.lookup clashingFiles clashingStore "svc" none).outcome =
      inliningAssembly.outcome.mapError .definition :=
    (inliningSource.lookup_loaded view_inlining "svc" none).1
  -- The bean has an inline bean, whose new id is part of the definition.
  have answer : (inliningSource.lookup clashingFiles clashingStore "svc" none).outcome =
      .ok (some inliningDefinition) := by
    rw [outcome, ok_of_toOption made]
    rfl
  refine ⟨view_inlining, declared, answer, fun queries again => ?_⟩
  exact ((DocumentSource.lookup_is_stable inliningSource clashingFiles clashingStore "svc"
    none).1 inliningDocuments inliningDefinition view_inlining declared answer queries again).1

end BeanWiring
