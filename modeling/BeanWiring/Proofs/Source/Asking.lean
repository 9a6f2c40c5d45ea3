import BeanWiring.Proofs.Assembly.Session
import BeanWiring.Source.Chain

/-!
Asking sources: what a source answers depends on nothing but what it holds itself, and asking it
leaves what other sources hold alone.

So the first source that has a bean is the one that answers for the chain.
-/

namespace BeanWiring

/-- What is put into a cell last is what it holds. -/
@[simp] theorem setCell_setCell {α : Type} (cells : Nat → α) (cell : Nat) (first last : α) :
    setCell (setCell cells cell first) cell last = setCell cells cell last := by
  funext other
  simp only [setCell]
  split <;> rfl

/-- Putting into a cell what it holds changes nothing. -/
@[simp] theorem setCell_same {α : Type} (cells : Nat → α) (cell : Nat) :
    setCell cells cell (cells cell) = cells := by
  funext other
  simp only [setCell]
  split
  · next same => rw [same]
  · rfl

/-- Documents that are loaded already can be put where they are. -/
theorem Store.setDocuments_same {store : Store} {cell : Nat} {documents : DocumentSet}
    (loaded : store.loaded cell = some documents) : store.setDocuments cell documents = store := by
  rw [setDocuments, ← loaded, setCell_same]

/-- A supply of names that was not drawn from can be put back. -/
@[simp] theorem Store.setNames_same (store : Store) (cell : Nat) :
    store.setNames cell (store.names cell) = store := by
  rw [setNames, setCell_same]

/-- A success is the same in whatever words a fault would have been told. -/
theorem ok_of_mapError {ε δ α : Type} {change : ε → δ} {outcome : Except ε α} {value : α}
    (sound : outcome.mapError change = .ok value) : outcome = .ok value := by
  cases outcome with
  | error error => cases sound
  | ok result => exact congrArg Except.ok (Except.ok.inj sound)

namespace DocumentSource

/-- The documents that a lookup goes by: those that are loaded, or else those that files hold. -/
def view (source : DocumentSource) (files : Files) (store : Store) :
    Except ConfigError DocumentSet :=
  (source.load files store).outcome

variable {source : DocumentSource} {files : Files} {store : Store}

/-- Loaded documents are the ones that a lookup goes by. -/
theorem view_of_loaded {documents : DocumentSet}
    (loaded : store.loaded source.documents = some documents) :
    source.view files store = .ok documents := by
  simp [view, load, loaded]

/-- Without any documents a lookup goes by what files hold. -/
theorem view_of_unloaded (unloaded : store.loaded source.documents = none) :
    source.view files store =
      (resolve files source.options.importBase source.options.filename).value := by
  -- Without loaded documents the root is resolved.
  simp only [view, load, unloaded]
  cases (resolve files source.options.importBase source.options.filename).value <;> rfl

/-- What a lookup goes by depends on the documents of the source alone. -/
theorem view_congr {other : Store}
    (same : other.loaded source.documents = store.loaded source.documents) :
    source.view files other = source.view files store := by
  -- The cell decides whether documents are loaded, and which.
  cases loaded : store.loaded source.documents with
  | some documents => rw [view_of_loaded loaded, view_of_loaded (same.trans loaded)]
  | none => rw [view_of_unloaded loaded, view_of_unloaded (same.trans loaded)]

/-- Loading leaves the documents that a lookup goes by in the cell of the source. -/
theorem load_store {documents : DocumentSet} (viewed : source.view files store = .ok documents) :
    (source.load files store).store = store.setDocuments source.documents documents := by
  cases loaded : store.loaded source.documents with
  -- Documents that are loaded are put where they are already.
  | some known =>
    obtain rfl : known = documents := by
      rw [view_of_loaded loaded] at viewed
      exact Except.ok.inj viewed
    simp only [load, loaded]
    rw [Store.setDocuments_same loaded]
  | none =>
    rw [view_of_unloaded loaded] at viewed
    simp only [load, loaded, viewed]

/-- An attempt to load that fails leaves nothing behind. -/
theorem load_unloadable {error : ConfigError} (fault : source.view files store = .error error) :
    (source.load files store).store = store := by
  cases loaded : store.loaded source.documents with
  -- Loaded documents are at no fault any more.
  | some documents =>
    rw [view_of_loaded loaded] at fault
    cases fault
  | none =>
    rw [view_of_unloaded loaded] at fault
    simp only [load, loaded, fault]

/-- Documents that cannot be loaded are a fault of every lookup, which leaves nothing behind. -/
theorem lookup_unloadable {error : ConfigError} (fault : source.view files store = .error error)
    (bean : String) (seed : Option Definition) :
    (source.lookup files store bean seed).outcome = .error (.config error) ∧
      (source.lookup files store bean seed).store = store := by
  have kept := load_unloadable fault
  simp only [view] at fault
  -- Without documents no declaration is looked for.
  simp [lookup, Asked.andThen, Asked.mapError, fault, kept, Except.mapError]

/-- A lookup answers what is assembled from the documents and keeps them as they are then. -/
theorem lookup_loaded {documents : DocumentSet} (viewed : source.view files store = .ok documents)
    (bean : String) (seed : Option Definition) :
    let assembly := assemble documents (store.names source.names) bean seed
    (source.lookup files store bean seed).outcome = assembly.outcome.mapError .definition ∧
      (source.lookup files store bean seed).store =
        (store.setDocuments source.documents assembly.documents).setNames source.names
          assembly.names := by
  cases loaded : store.loaded source.documents with
  | some known =>
    obtain rfl : known = documents := by
      rw [view_of_loaded loaded] at viewed
      exact Except.ok.inj viewed
    simp [lookup, load, loaded, Asked.mapError, Except.mapError]
  | none =>
    rw [view_of_unloaded loaded] at viewed
    -- The documents are put into the cell as loaded, and then as assembled.
    simp [lookup, load, loaded, viewed, Asked.mapError, Except.mapError, Store.setDocuments,
      Store.setNames]

/-- A lookup in documents leaves registered definitions alone. -/
theorem lookup_memory (source : DocumentSource) (files : Files) (store : Store) (bean : String)
    (seed : Option Definition) :
    (source.lookup files store bean seed).store.memory = store.memory := by
  -- Documents and names change, but no definition in memory.
  cases viewed : source.view files store with
  | error error => rw [(source.lookup_unloadable viewed bean seed).2]
  | ok documents =>
    rw [(source.lookup_loaded viewed bean seed).2]
    rfl

/-- A lookup in documents leaves those in other cells alone. -/
theorem lookup_elsewhere {cell : Nat} (elsewhere : source.documents ≠ cell) (files : Files)
    (store : Store) (bean : String) (seed : Option Definition) :
    (source.lookup files store bean seed).store.loaded cell = store.loaded cell := by
  cases viewed : source.view files store with
  | error error => rw [(source.lookup_unloadable viewed bean seed).2]
  | ok documents =>
    rw [(source.lookup_loaded viewed bean seed).2]
    -- The documents go into the cell of the source itself.
    exact setCell_other elsewhere.symm _ _

end DocumentSource

namespace Source

/-- Whether a source has something to say on a bean: a definition, or a fault. -/
def answers (source : Source) (files : Files) (store : Store) (bean : String) : Bool :=
  match source with
  | .memory cell => ((store.memory cell).find? bean).isSome
  | .documents source =>
    match source.view files store with
    | .ok held => decide (bean ∈ held.declaredIds)
    -- A fault ends the search as an answer does.
    | .error _ => true
  | .external _ answer =>
    match answer bean with
    | .ok none => false
    | _ => true

/-- A source of documents answers the ids that the documents it goes by declare. -/
theorem answers_of_view {held : DocumentSource} {files : Files} {store : Store}
    {documents : DocumentSet} (viewed : held.view files store = .ok documents) (bean : String) :
    (Source.documents held).answers files store bean = decide (bean ∈ documents.declaredIds) := by
  simp only [answers, viewed]

/-- A source has nothing to say exactly if asking it gives no definition and no fault. -/
theorem find_eq_none_iff (source : Source) (files : Files) (store : Store) (bean : String) :
    (source.find files store bean).outcome = .ok none ↔
      source.answers files store bean = false := by
  -- A source of documents answers nothing exactly if no bean in them has the id.
  cases source with
  | memory cell => simp [find, answers]
  | external name answer =>
    simp only [find, answers]
    split <;> simp_all
  | documents source =>
    simp only [find, answers]
    cases viewed : source.view files store with
    | error error => simp [(source.lookup_unloadable viewed bean none).1]
    | ok held =>
      have assembled := assemble_eq_none_iff held (store.names source.names) bean
      rw [(source.lookup_loaded viewed bean none).1, decide_eq_false_iff_not, ← assembled]
      cases (assemble held (store.names source.names) bean none).outcome <;> simp [Except.mapError]

/-- Whether two sources keep their documents in different cells. -/
def Apart (source other : Source) : Prop :=
  ∀ held, source = .documents held → ∀ kept, other = .documents kept →
    held.documents ≠ kept.documents

/-- Asking a source leaves registered definitions alone. -/
theorem find_memory (source : Source) (files : Files) (store : Store) (bean : String) :
    (source.find files store bean).store.memory = store.memory := by
  -- To look something up registers nothing.
  cases source with
  | memory cell => rfl
  | external name answer => rfl
  | documents held => exact held.lookup_memory files store bean none

/-- Asking a source leaves the documents in other cells alone. -/
theorem find_loaded {source : Source} {cell : Nat}
    (elsewhere : ∀ held, source = .documents held → held.documents ≠ cell) (files : Files)
    (store : Store) (bean : String) :
    (source.find files store bean).store.loaded cell = store.loaded cell := by
  -- Only documents are ever put into a cell.
  cases source with
  | memory cell => rfl
  | external name answer => rfl
  | documents held =>
    exact DocumentSource.lookup_elsewhere (elsewhere held rfl) files store bean none

/-- A source that has nothing to say draws no names. -/
theorem find_names {source : Source} {files : Files} {store : Store} {bean : String}
    (silent : source.answers files store bean = false) :
    (source.find files store bean).store.names = store.names := by
  -- Documents that do not declare the bean are left without an assembly.
  cases source with
  | memory cell => rfl
  | external name answer => rfl
  | documents held =>
    simp only [find, answers] at silent ⊢
    cases viewed : held.view files store with
    | error error => simp [viewed] at silent
    | ok documents =>
      simp only [viewed, decide_eq_false_iff_not, ← documents.placeOf?_eq_none_iff] at silent
      rw [(held.lookup_loaded viewed bean none).2, assemble_undeclared silent]
      simp [Store.setNames, Store.setDocuments]

/-- A source of documents that has nothing to say keeps the documents that it went by. -/
theorem find_loaded_self {held : DocumentSource} {files : Files} {store : Store} {bean : String}
    (silent : (Source.documents held).answers files store bean = false) :
    ∃ documents, held.view files store = .ok documents ∧
      ((Source.documents held).find files store bean).store.loaded held.documents =
        some documents := by
  simp only [answers] at silent
  cases viewed : held.view files store with
  | error error => simp [viewed] at silent
  | ok documents =>
    simp only [viewed, decide_eq_false_iff_not, ← documents.placeOf?_eq_none_iff] at silent
    refine ⟨documents, rfl, ?_⟩
    simp only [find]
    -- Nothing is declared, so the documents are left as they were loaded.
    rw [(held.lookup_loaded viewed bean none).2, assemble_undeclared silent]
    simp [Store.setNames, Store.setDocuments]

/-- What a source has to say depends on what it holds itself. -/
theorem answers_congr {source : Source} {store other : Store}
    (memory : other.memory = store.memory)
    (loaded : ∀ held, source = .documents held →
      other.loaded held.documents = store.loaded held.documents) (files : Files) (bean : String) :
    source.answers files other bean = source.answers files store bean := by
  -- A source looks at its own cell only.
  cases source with
  | memory cell => simp only [answers, memory]
  | external name answer => rfl
  | documents held => simp only [answers, DocumentSource.view_congr (loaded held rfl)]

/-- Asking a source changes nothing in what another has to say. -/
theorem Apart.answers {source other : Source} (apart : source.Apart other) (files : Files)
    (store : Store) (bean key : String) (again : Files) :
    other.answers again (source.find files store bean).store key =
      other.answers again store key := by
  apply answers_congr (source.find_memory files store bean)
  -- A source apart from this one keeps its documents in another cell.
  rintro kept rfl
  exact find_loaded (fun held same => apart held same kept rfl) files store bean

end Source

namespace Chain

/-- The position of the source at which asking in order ends, with a definition or a fault. -/
def answererAmong? (files : Files) (store : Store) (bean : String) : List Source → Option Nat
  | [] => none
  | source :: rest =>
    match (source.find files store bean).outcome with
    | .ok none =>
      (answererAmong? files (source.find files store bean).store bean rest).map (· + 1)
    -- An answer or a fault ends the search here.
    | _ => some 0

/-- The position of the source that answers a lookup, with a definition or a fault. -/
def answerer? (chain : Chain) (files : Files) (store : Store) (bean : String) : Option Nat :=
  answererAmong? files store bean chain.sources

/-- Conditions that agree on the members of a list are met first at the same position. -/
theorem findIdx?_congr {α : Type} {left right : α → Bool} {members : List α}
    (same : ∀ member ∈ members, left member = right member) :
    members.findIdx? left = members.findIdx? right := by
  induction members with
  | nil => rfl
  | cons first rest ih =>
    -- The search goes past the first member with both conditions, or with neither.
    rw [List.findIdx?_cons, List.findIdx?_cons, same first List.mem_cons_self,
      ih fun member inside => same member (List.mem_cons_of_mem first inside)]

/-- The first source that has something to say is where asking in order ends. -/
theorem answererAmong?_eq {sources : List Source} (apart : sources.Pairwise Source.Apart)
    (files : Files) (store : Store) (bean : String) :
    answererAmong? files store bean sources =
      sources.findIdx? fun source => source.answers files store bean := by
  -- Asking a silent source changes nothing in what those behind it have to say.
  induction sources generalizing store with
  | nil => rfl
  | cons source rest ih =>
    obtain ⟨first, others⟩ := List.pairwise_cons.1 apart
    have silent := source.find_eq_none_iff files store bean
    rw [answererAmong?, List.findIdx?_cons]
    cases speaks : source.answers files store bean with
    | true =>
      have outcome : (source.find files store bean).outcome ≠ .ok none := by
        intro none
        rw [silent.1 none] at speaks
        cases speaks
      split
      · contradiction
      · rfl
    | false =>
      rw [silent.2 speaks, ih others]
      have same : (rest.findIdx? fun other =>
          other.answers files (source.find files store bean).store bean) =
          rest.findIdx? fun other => other.answers files store bean :=
        findIdx?_congr fun other member => (first other member).answers files store bean bean files
      simp only [same]
      rfl

/-- The store after sources were asked that all have nothing to say. -/
def passAll (files : Files) (bean : String) (store : Store) (sources : List Source) : Store :=
  sources.foldl (fun store source => (source.find files store bean).store) store

/-- A lookup that no source answers has asked all of them. -/
theorem lookupAmong_unanswered {files : Files} {store : Store} {bean : String}
    {sources : List Source} (unanswered : answererAmong? files store bean sources = none) :
    (lookupAmong files store bean sources).outcome = .ok none ∧
      (lookupAmong files store bean sources).store = passAll files bean store sources := by
  induction sources generalizing store with
  | nil => exact ⟨rfl, rfl⟩
  | cons source rest ih =>
    rw [answererAmong?] at unanswered
    split at unanswered
    · next silent =>
      -- The first source finds nothing, and the others are asked from what it leaves.
      have others := ih (Option.map_eq_none_iff.1 unanswered)
      simp only [lookupAmong, Asked.andThen, silent]
      exact others
    · cases unanswered

/-- A lookup ends with what the source says that answers it. -/
theorem lookupAmong_answered {files : Files} {store : Store} {bean : String}
    {sources : List Source} {index : Nat}
    (answered : answererAmong? files store bean sources = some index) :
    ∃ source, sources[index]? = some source ∧
      let before := passAll files bean store (sources.take index)
      (lookupAmong files store bean sources).outcome = (source.find files before bean).outcome ∧
        (lookupAmong files store bean sources).store = (source.find files before bean).store := by
  -- A silent source is passed as the search does, and the first other one ends it.
  induction sources generalizing store index with
  | nil => cases answered
  | cons source rest ih =>
    rw [answererAmong?] at answered
    split at answered
    · next silent =>
      obtain ⟨position, later, rfl⟩ := Option.map_eq_some_iff.1 answered
      obtain ⟨found, there, outcome, left⟩ := ih later
      refine ⟨found, there, ?_⟩
      simp only [lookupAmong, Asked.andThen, silent]
      exact ⟨outcome, left⟩
    · next speaks =>
      obtain rfl : 0 = index := Option.some.inj answered
      refine ⟨source, rfl, ?_⟩
      simp only [lookupAmong, Asked.andThen, List.take_zero, passAll, List.foldl_nil]
      cases outcome : (source.find files store bean).outcome with
      | error error => exact ⟨rfl, rfl⟩
      | ok answer =>
        cases answer with
        | none => exact absurd outcome speaks
        | some definition => exact ⟨rfl, rfl⟩

/-- What is told when a bean is required is what a lookup of it ends with. -/
theorem require_outcome (chain : Chain) (files : Files) (store : Store) (bean : String) :
    (chain.require files store bean).outcome =
      match (chain.lookup files store bean).outcome with
      | .ok (some definition) => .ok definition
      | .ok none => .error (.definition (.beanNotFound bean))
      | .error error => .error error := by
  simp only [require, Asked.andThen]
  -- Only the case that nothing is found is told in another way.
  cases (chain.lookup files store bean).outcome with
  | error error => rfl
  | ok answer => cases answer <;> rfl

end Chain

end BeanWiring
