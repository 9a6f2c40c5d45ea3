import BeanWiring.Source.Chain

/-!
Plans of chains: sources are gathered in order of lookup,
and all document sources of a plan share one supply of names.
-/

namespace BeanWiring

/-- A chain in the making. -/
structure ChainPlan where
  sources : List Source := []
  /-- The settings of the log, if it is to be started. -/
  logging : Option Logging := none
  /-- The cell of the supply of names. -/
  names : Nat

namespace ChainPlan

/-- A plan without sources, with a supply of names of its own. -/
def new (store : Store) : ChainPlan × Store :=
  let (names, store) := store.newCell
  (⟨[], none, names⟩, store)

/-- The plan with a source added. -/
def addSource (plan : ChainPlan) (source : Source) : ChainPlan :=
  { plan with sources := plan.sources ++ [source] }

/-- The plan with the log started by these settings. -/
def withLogging (plan : ChainPlan) (logging : Logging) : ChainPlan :=
  { plan with logging := some logging }

/-- The plan with the level of the log set; other settings of the log stay. -/
def withLevel (plan : ChainPlan) (level : String) : ChainPlan :=
  plan.withLogging { plan.logging.getD {} with level := level }

/-- The plan with a document source added; its documents are loaded at the first lookup. -/
def addDocuments (plan : ChainPlan) (options : SourceOptions) (store : Store) :
    Noted (ChainPlan × Store) :=
  let (cell, store) := store.newCell
  ⟨(plan.addSource (.documents ⟨options, cell, plan.names⟩), store),
    [.documentSourceMade options.filename]⟩

/-- The plan with a document source for a file that has to exist. -/
def addFile (plan : ChainPlan) (path : Path) (files : Files) (store : Store) :
    Asked SourceError ChainPlan :=
  if files.pathExists path then
    .ofNoted ((plan.addDocuments ⟨path, .document⟩ store).after [.documentChosen path])
  else ⟨.error (.config (.fileNotFound path)), store, []⟩

/-- The plan with a document source for each of the settings. -/
def addAllDocuments (plan : ChainPlan) (store : Store) :
    List SourceOptions → Noted (ChainPlan × Store)
  | [] => ⟨(plan, store), []⟩
  | options :: rest =>
    (plan.addDocuments options store).andThen fun (plan, store) => plan.addAllDocuments store rest

/-- The plan of a composition. -/
def ofComposition (composition : Composition) (store : Store) : Noted (ChainPlan × Store) :=
  -- A composition has a supply of names of its own.
  let (plan, store) := new store
  { plan with logging := composition.logging }.addAllDocuments store composition.sources

/-- The plan of the composition in a file. -/
def ofFile (path : Path) (files : Files) (store : Store) : Asked SourceError ChainPlan :=
  match Composition.load files path with
  | .error error => ⟨.error (.config error), store, []⟩
  | .ok composition => .ofNoted (ofComposition composition store)

/-- Starts the log if the plan asks for it. -/
def startLog (plan : ChainPlan) (store : Store) : Asked SourceError Unit :=
  match plan.logging with
  | none => ⟨.ok (), store, []⟩
  | some logging => store.startLog logging

/-- Starts the log if the plan asks for it, and puts the sources into a chain. -/
def build (plan : ChainPlan) (store : Store) : Asked SourceError Chain :=
  -- The log comes first, so a plan with wrong settings of it tells nothing of its sources.
  (plan.startLog store).andThen fun _ store =>
    let chain := Chain.pushAll {} plan.sources
    ⟨.ok chain.value, store, chain.notices ++ [.chainBuilt chain.value.sourceNames]⟩

end ChainPlan

/-- A step in the making of a plan. -/
inductive PlanStep where
  | source (given : Source)
  /-- A document source for a file that has to exist. -/
  | file (path : Path)
  | documents (settings : SourceOptions)
  /-- The composition in a text; it takes the place of the plan so far. -/
  | composition (content : String)
  /-- The composition in a file; it takes the place of the plan so far. -/
  | compositionFile (path : Path)
  | logging (settings : Logging)
  | level (name : String)

namespace PlanStep

/-- Takes a step. -/
def take (step : PlanStep) (plan : ChainPlan) (files : Files) (store : Store) :
    Asked SourceError ChainPlan :=
  match step with
  | .source given => ⟨.ok (plan.addSource given), store, []⟩
  | .file path => plan.addFile path files store
  | .documents settings => .ofNoted (plan.addDocuments settings store)
  -- A composition that cannot be read adds nothing to the plan.
  | .composition content =>
    match Composition.parse content with
    | .error error => ⟨.error (.config error), store, []⟩
    | .ok settings => .ofNoted (ChainPlan.ofComposition settings store)
  | .compositionFile path => ChainPlan.ofFile path files store
  | .logging settings => ⟨.ok (plan.withLogging settings), store, []⟩
  | .level name => ⟨.ok (plan.withLevel name), store, []⟩

end PlanStep

namespace ChainPlan

/-- Takes steps in order, as far as none of them fails. -/
def follow (files : Files) (plan : ChainPlan) (store : Store) :
    List PlanStep → Asked SourceError ChainPlan
  | [] => ⟨.ok plan, store, []⟩
  | step :: rest =>
    (step.take plan files store).andThen fun plan store => follow files plan store rest

end ChainPlan

/-- The chain that steps lead to. -/
def Chain.make (files : Files) (store : Store) (steps : List PlanStep) : Asked SourceError Chain :=
  let (plan, store) := ChainPlan.new store
  (ChainPlan.follow files plan store steps).andThen fun plan store => plan.build store

end BeanWiring
