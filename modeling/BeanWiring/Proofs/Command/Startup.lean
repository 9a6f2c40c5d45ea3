import BeanWiring.Command.Run
import BeanWiring.Proofs.Source.Order

/-!
The chain that arguments lead to, as long as nothing is said of a log.

Its sources are those of the configuration file in order and then the documents of the arguments,
each with its documents in a cell of its own, and all with one supply of names. Main statement: the
chain is made, or there is one of three reasons why it is not, which is what the tool reports.
-/

namespace BeanWiring

/-- Document sources for settings in a row, whose documents are in cells from a number on. -/
def documentSources (names cell : Nat) : List SourceOptions → List Source
  | [] => []
  | options :: rest =>
    .documents ⟨options, cell, names⟩ :: documentSources names (cell + 1) rest

/-- Settings in two rows make the sources of the one and then those of the other. -/
theorem documentSources_append (names cell : Nat) (front behind : List SourceOptions) :
    documentSources names cell (front ++ behind) =
      documentSources names cell front ++ documentSources names (cell + front.length) behind := by
  induction front generalizing cell with
  | nil => rfl
  | cons options rest ih =>
    -- The cells of the second row begin where those of the first one end.
    have next : cell + 1 + rest.length = cell + (rest.length + 1) := by omega
    simp only [List.cons_append, documentSources, ih, List.length_cons, next]

/-- The source at a position is that of the settings there, in the cell as far behind the first. -/
theorem getElem?_documentSources (names cell : Nat) (settings : List SourceOptions)
    (index : Nat) :
    (documentSources names cell settings)[index]? =
      settings[index]?.map fun options => .documents ⟨options, cell + index, names⟩ := by
  induction settings generalizing cell index with
  | nil => rfl
  | cons options rest ih =>
    cases index with
    | zero => rfl
    | succ index =>
      -- One position further stands the next cell.
      have next : cell + 1 + index = cell + (index + 1) := by omega
      simp only [documentSources, List.getElem?_cons_succ, ih, next]

/-- Document sources made for settings keep their documents in different cells. -/
theorem documentSources_apart (names cell : Nat) (settings : List SourceOptions) :
    (documentSources names cell settings).Pairwise Source.Apart := by
  rw [List.pairwise_iff_getElem]
  intro left right inLeft inRight before
  have first := getElem?_documentSources names cell settings left
  have second := getElem?_documentSources names cell settings right
  rw [List.getElem?_eq_getElem inLeft] at first
  rw [List.getElem?_eq_getElem inRight] at second
  obtain ⟨_, _, here⟩ := Option.map_eq_some_iff.1 first.symm
  obtain ⟨_, _, there⟩ := Option.map_eq_some_iff.1 second.symm
  rw [← here, ← there]
  -- Different positions have different cells.
  rintro _ ⟨rfl⟩ _ ⟨rfl⟩ same
  simp only at same
  omega

/-- The chain that a run makes for settings in a row; its first cell is that of the names. -/
def Chain.ofSettings (settings : List SourceOptions) : Chain :=
  ⟨documentSources 0 1 settings⟩

/-- The store of a run that has made the chain for settings and looked nothing up. -/
def Store.ofSettings (settings : List SourceOptions) : Store :=
  { fresh := settings.length + 1 }

namespace Asked

variable {ε α β : Type} {first : Asked ε α}

/-- After a success the outcome and the store are those of the next step. -/
theorem andThen_of_ok {value : α} (sound : first.outcome = .ok value)
    (next : α → Store → Asked ε β) :
    (first.andThen next).outcome = (next value first.store).outcome ∧
      (first.andThen next).store = (next value first.store).store := by
  simp only [andThen, sound, and_self]

/-- After a fault nothing more is done. -/
theorem andThen_of_error {error : ε} (failed : first.outcome = .error error)
    (next : α → Store → Asked ε β) :
    first.andThen next = ⟨.error error, first.store, first.notices⟩ := by
  simp only [andThen, failed]

/-- After a success only what is done with its value and its store counts. -/
theorem andThen_congr {value : α} (sound : first.outcome = .ok value)
    {next other : α → Store → Asked ε β}
    (same : next value first.store = other value first.store) :
    first.andThen next = first.andThen other := by
  simp only [andThen, sound, same]

/-- A success is told in the same words. -/
theorem mapError_of_ok {δ : Type} {value : α} (sound : first.outcome = .ok value)
    (change : ε → δ) : (first.mapError change).outcome = .ok value := by
  simp only [mapError, sound, Except.mapError]

end Asked

namespace ChainPlan

/-- A plan with document sources added for settings in a row. -/
def withDocuments (plan : ChainPlan) (store : Store) (settings : List SourceOptions) : ChainPlan :=
  { plan with sources := plan.sources ++ documentSources plan.names store.fresh settings }

/-- Document sources are added one by one, each with a cell of its own. -/
theorem addAllDocuments_value (plan : ChainPlan) (store : Store) (settings : List SourceOptions) :
    (plan.addAllDocuments store settings).value =
      (plan.withDocuments store settings,
        { store with fresh := store.fresh + settings.length }) := by
  induction settings generalizing plan store with
  | nil => simp [addAllDocuments, withDocuments, documentSources]
  | cons options rest ih =>
    -- Each source takes the next cell, so there are as many cells as sources.
    have next : store.fresh + 1 + rest.length = store.fresh + (rest.length + 1) := by omega
    simp [addAllDocuments, addDocuments, addSource, Store.newCell, ih, withDocuments,
      documentSources, next]

/-- Files that are there are added as document sources one by one. -/
theorem follow_files {files : Files} {paths : List Path}
    (present : ∀ path ∈ paths, files.pathExists path = true) (plan : ChainPlan) (store : Store) :
    (follow files plan store (paths.map .file)).outcome =
        .ok (plan.withDocuments store (paths.map fun path => ⟨path, .document⟩)) ∧
      (follow files plan store (paths.map .file)).store =
        { store with fresh := store.fresh + paths.length } := by
  induction paths generalizing plan store with
  | nil => simp [follow, withDocuments, documentSources]
  | cons path rest ih =>
    -- The first file is there, so its source takes the next cell.
    obtain ⟨here, others⟩ := List.forall_mem_cons.1 present
    obtain ⟨outcome, left⟩ := ih others
      (plan.addSource (.documents ⟨⟨path, .document⟩, store.fresh, plan.names⟩))
      { store with fresh := store.fresh + 1 }
    have next : store.fresh + 1 + rest.length = store.fresh + (rest.length + 1) := by omega
    simp only [List.map_cons, follow, PlanStep.take, addFile, here, if_true, Asked.ofNoted,
      Noted.after, addDocuments, Store.newCell, Asked.andThen_ok, outcome, left, next,
      List.length_cons, and_true]
    simp [withDocuments, addSource, documentSources]

/-- The first file that is not there is the one told. -/
theorem follow_missing {files : Files} {front : List Path} {path : Path}
    (present : ∀ other ∈ front, files.pathExists other = true)
    (missing : files.pathExists path = false) (plan : ChainPlan) (store : Store)
    (behind : List Path) :
    (follow files plan store ((front ++ path :: behind).map .file)).outcome =
      .error (.config (.fileNotFound path)) := by
  -- The files in front are added, and the one that is missing ends the plan.
  induction front generalizing plan store with
  | nil => simp [follow, PlanStep.take, addFile, missing]
  | cons first rest ih =>
    obtain ⟨here, others⟩ := List.forall_mem_cons.1 present
    simp only [List.cons_append, List.map_cons, follow, PlanStep.take, addFile, here, if_true,
      Asked.ofNoted, Noted.after, addDocuments, Store.newCell, Asked.andThen_ok]
    exact ih others _ _

/-- Without settings for a log the sources of a plan are put into a chain as they are. -/
theorem build_silent {plan : ChainPlan} (silent : plan.logging = none) (store : Store) :
    (plan.build store).outcome = .ok ⟨plan.sources⟩ ∧ (plan.build store).store = store := by
  have sources : (Chain.pushAll {} plan.sources).value = ⟨plan.sources⟩ := by
    -- Putting sources into an empty chain leaves just these, in their order.
    have among := Chain.sources_pushAll {} plan.sources
    cases built : (Chain.pushAll {} plan.sources).value with
    | mk sources =>
      rw [built] at among
      exact congrArg Chain.mk among
  simp [build, startLog, silent, sources]

/-- Files that are there are put behind the sources of a plan, and all of them into a chain. -/
theorem build_files {files : Files} (plan : ChainPlan) (silent : plan.logging = none)
    {paths : List Path} (present : ∀ path ∈ paths, files.pathExists path = true) (store : Store) :
    let built := (follow files plan store (paths.map .file)).andThen fun plan store =>
      plan.build store
    built.outcome = .ok ⟨plan.sources ++
        documentSources plan.names store.fresh (paths.map fun path => ⟨path, .document⟩)⟩ ∧
      built.store = { store with fresh := store.fresh + paths.length } := by
  obtain ⟨followed, drawn⟩ := follow_files present plan store
  obtain ⟨outcome, left⟩ := Asked.andThen_of_ok followed fun plan store => plan.build store
  -- Adding documents says nothing of a log.
  have still : (plan.withDocuments store (paths.map fun path => ⟨path, .document⟩)).logging =
      none := silent
  obtain ⟨chain, kept⟩ := build_silent still (follow files plan store (paths.map .file)).store
  exact ⟨outcome.trans chain, left.trans (kept.trans drawn)⟩

end ChainPlan

namespace Arguments

variable {arguments : Arguments} {files : Files}

/-- What the configuration file of arguments holds, or nothing without such a file. -/
def composition (arguments : Arguments) (files : Files) : Except ConfigError Composition :=
  match arguments.config with
  | some path => Composition.load files path
  | none => .ok {}

/-- The settings of all documents: those of a composition in order, and then those of arguments. -/
def settings (arguments : Arguments) (composition : Composition) : List SourceOptions :=
  composition.sources ++ arguments.beans.map fun path => ⟨path, .document⟩

/--
Whether arguments lead to a chain for settings: all that they name is there, and there is some.
-/
structure Ready (arguments : Arguments) (files : Files) (settings : List SourceOptions) :
    Prop where
  loaded : ∃ composition, arguments.composition files = .ok composition ∧
    settings = arguments.settings composition
  present : ∀ path ∈ arguments.beans, files.pathExists path = true
  nonempty : settings ≠ []

/-- Why arguments lead to no chain, as it is reported. -/
inductive Unready (arguments : Arguments) (files : Files) : Failure → Prop
  | configuration {path : Path} {error : ConfigError} (named : arguments.config = some path)
      (fault : Composition.load files path = .error error) :
      Unready arguments files (.doing ("读取组合配置失败: " ++ path.text) (.config error))
  | document {composition : Composition} {front behind : List Path} {path : Path}
      (loaded : arguments.composition files = .ok composition)
      (row : arguments.beans = front ++ path :: behind)
      (present : ∀ other ∈ front, files.pathExists other = true)
      (missing : files.pathExists path = false) :
      Unready arguments files (.ofSource (.config (.fileNotFound path)))
  | empty {composition : Composition} (loaded : arguments.composition files = .ok composition)
      (nothing : arguments.settings composition = []) :
      Unready arguments files ⟨"没有可用的定义源，请使用 --beans 或 --config 指定", []⟩

/-- The plan that a run begins with is that of the composition. -/
theorem startPlan_of_composition {composition : Composition}
    (loaded : arguments.composition files = .ok composition) :
    (arguments.startPlan files {}).outcome =
        .ok ⟨documentSources 0 1 composition.sources, composition.logging, 0⟩ ∧
      (arguments.startPlan files {}).store = { fresh := 1 + composition.sources.length } := by
  unfold Arguments.composition at loaded
  unfold startPlan
  cases named : arguments.config with
  | none =>
    -- Nothing is loaded, which is as if an empty composition were.
    simp only [named] at loaded ⊢
    cases loaded
    exact ⟨rfl, rfl⟩
  | some path =>
    simp only [named] at loaded ⊢
    simp [ChainPlan.ofFile, loaded, Asked.mapError, Asked.ofNoted, ChainPlan.ofComposition,
      ChainPlan.new, Store.newCell, ChainPlan.addAllDocuments_value, ChainPlan.withDocuments,
      Except.mapError]

/-- The sources of a composition and behind them those of files are the sources for the settings. -/
theorem ofSettings_settings (arguments : Arguments) (composition : Composition) :
    Chain.mk (documentSources 0 1 composition.sources ++
        documentSources 0 (1 + composition.sources.length)
          (arguments.beans.map fun path => ⟨path, .document⟩)) =
      .ofSettings (arguments.settings composition) := by
  -- The cell behind those of the composition is the first one of the files.
  rw [Chain.ofSettings, settings, documentSources_append]

/-- With all files there a chain for the settings is built, and it is refused if it is empty. -/
theorem chain_of_present (quiet : arguments.logLevel = none) {composition : Composition}
    (loaded : arguments.composition files = .ok composition) (silent : composition.logging = none)
    (present : ∀ path ∈ arguments.beans, files.pathExists path = true) :
    (arguments.chain files {}).outcome =
        (if arguments.settings composition = [] then
          .error ⟨"没有可用的定义源，请使用 --beans 或 --config 指定", []⟩
        else .ok (.ofSettings (arguments.settings composition))) ∧
      (arguments.chain files {}).store = .ofSettings (arguments.settings composition) := by
  obtain ⟨planned, kept⟩ := startPlan_of_composition loaded
  -- The sources of the files come behind those of the composition, in the next cells.
  obtain ⟨built, left⟩ := ChainPlan.build_files
    ⟨documentSources 0 1 composition.sources, composition.logging, 0⟩ silent present
    { fresh := 1 + composition.sources.length }
  have total : 1 + composition.sources.length + arguments.beans.length =
      (arguments.settings composition).length + 1 := by
    simp only [settings, List.length_append, List.length_map]
    omega
  have isEmpty : (Chain.ofSettings (arguments.settings composition)).isEmpty = true ↔
      arguments.settings composition = [] := by
    cases arguments.settings composition <;> simp [Chain.ofSettings, Chain.isEmpty, documentSources]
  simp only [ofSettings_settings] at built
  unfold chain
  simp only [quiet, Option.map_none, Option.toList_none, List.nil_append]
  rw [(Asked.andThen_of_ok planned _).1, (Asked.andThen_of_ok planned _).2, kept,
    (Asked.andThen_of_ok (Asked.mapError_of_ok built _) _).1,
    (Asked.andThen_of_ok (Asked.mapError_of_ok built _) _).2, Asked.mapError, left]
  simp only [isEmpty, total]
  split
  · exact ⟨rfl, rfl⟩
  · exact ⟨rfl, rfl⟩

/-- Arguments that are ready lead to the chain for their settings. -/
theorem chain_of_ready (quiet : arguments.logLevel = none)
    (silent : ∀ composition, arguments.composition files = .ok composition →
      composition.logging = none) {settings : List SourceOptions}
    (ready : arguments.Ready files settings) :
    (arguments.chain files {}).outcome = .ok (.ofSettings settings) ∧
      (arguments.chain files {}).store = .ofSettings settings := by
  obtain ⟨⟨composition, loaded, rfl⟩, present, nonempty⟩ := ready
  have made := chain_of_present quiet loaded (silent composition loaded) present
  -- There are settings, so the chain is not refused as empty.
  rw [if_neg nonempty] at made
  exact made

/-- What is told of arguments that are not ready is why they lead to no chain. -/
theorem chain_of_unready (quiet : arguments.logLevel = none)
    (silent : ∀ composition, arguments.composition files = .ok composition →
      composition.logging = none) {failure : Failure} (unready : arguments.Unready files failure) :
    (arguments.chain files {}).outcome = .error failure := by
  cases unready with
  | @configuration path error named fault =>
    -- Without a configuration no file is looked for.
    have planned : (arguments.startPlan files {}).outcome =
        .error (.doing ("读取组合配置失败: " ++ path.text) (.config error)) := by
      simp [startPlan, named, ChainPlan.ofFile, fault, Asked.mapError, Except.mapError]
    rw [chain, Asked.andThen_of_error planned]
  | @document composition front behind path loaded row present missing =>
    obtain ⟨planned, kept⟩ := startPlan_of_composition loaded
    unfold chain
    simp only [quiet, Option.map_none, Option.toList_none, List.nil_append]
    have followed := ChainPlan.follow_missing present missing
      ⟨documentSources 0 1 composition.sources, composition.logging, 0⟩
      (arguments.startPlan files {}).store behind
    rw [(Asked.andThen_of_ok planned _).1, row, Asked.andThen_of_error followed]
    rfl
  | @empty composition loaded nothing =>
    -- With no settings at all no file is named that could be missing.
    have none : arguments.beans = [] := by
      simpa using (List.append_eq_nil_iff.1 nothing).2
    have made := chain_of_present quiet loaded (silent composition loaded) (by simp [none])
    rw [if_pos nothing] at made
    exact made.1

/-- Arguments are ready, or there is a reason why they are not. -/
theorem ready_or_unready (arguments : Arguments) (files : Files) :
    (∃ settings, arguments.Ready files settings) ∨ ∃ failure, arguments.Unready files failure := by
  cases loaded : arguments.composition files with
  | error error =>
    have fault := loaded
    unfold Arguments.composition at fault
    cases named : arguments.config with
    | none =>
      -- Where no file is named there is none that could be at fault.
      simp only [named] at fault
      cases fault
    | some path =>
      simp only [named] at fault
      exact .inr ⟨_, .configuration named fault⟩
  | ok composition =>
    cases lost : arguments.beans.find? fun path => !files.pathExists path with
    | some path =>
      -- The first file that is missing is the one that is told.
      obtain ⟨missing, front, behind, row, present⟩ := List.find?_eq_some_iff_append.1 lost
      exact .inr ⟨_, .document loaded row (by simpa using present) (by simpa using missing)⟩
    | none =>
      have present : ∀ path ∈ arguments.beans, files.pathExists path = true := by
        simpa using lost
      by_cases nothing : arguments.settings composition = []
      · exact .inr ⟨_, .empty loaded nothing⟩
      · exact .inl ⟨_, ⟨composition, loaded, rfl⟩, present, nothing⟩

end Arguments

end BeanWiring
