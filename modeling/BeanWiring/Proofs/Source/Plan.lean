import BeanWiring.Proofs.Source.Lookup
import BeanWiring.Source.Plan

/-!
Chains made by plans: their sources share one supply of names, and each source of documents has
a cell of its own.
-/

namespace BeanWiring

/-- Whether a step adds no sources but those of registered definitions and of documents. -/
def PlanStep.IsOwn : PlanStep → Prop
  | .source (.memory _) => True
  | .source _ => False
  | _ => True

/-- A plan whose sources share its supply of names, in cells that are used already. -/
structure ChainPlan.Fits (plan : ChainPlan) (store : Store) : Prop where
  sharing : Sharing plan.names plan.sources
  used : ∀ held, .documents held ∈ plan.sources → held.documents < store.fresh

namespace ChainPlan

variable {plan : ChainPlan} {store : Store}

/-- A plan without sources fits. -/
theorem fits_new (store : Store) : (new store).1.Fits (new store).2 :=
  ⟨⟨by simp [new, Store.newCell], by simp [new, Store.newCell]⟩, by simp [new, Store.newCell]⟩

/-- A source of registered definitions fits in everywhere. -/
theorem Fits.addMemory (fits : plan.Fits store) (cell : Nat) :
    (plan.addSource (.memory cell)).Fits store := by
  -- The source at the end has no cell for documents.
  refine ⟨⟨?_, ?_⟩, ?_⟩
  · intro source member
    rcases List.mem_append.1 member with before | last
    · exact fits.sharing.kinds source before
    · obtain rfl := List.mem_singleton.1 last
      trivial
  · refine List.pairwise_append.2 ⟨fits.sharing.apart, List.pairwise_singleton _ _, ?_⟩
    intro source _ other last held _ kept same
    obtain rfl := List.mem_singleton.1 last
    cases same
  · intro held member
    rcases List.mem_append.1 member with before | last
    · exact fits.used held before
    · cases List.mem_singleton.1 last

/-- A source of documents fits in with a cell that was never used. -/
theorem Fits.addDocuments (fits : plan.Fits store) (options : SourceOptions) :
    (plan.addDocuments options store).value.1.Fits (plan.addDocuments options store).value.2 := by
  -- The cell of the source at the end comes behind all that are used.
  refine ⟨⟨?_, ?_⟩, ?_⟩
  · intro source member
    rcases List.mem_append.1 member with before | last
    · exact fits.sharing.kinds source before
    · obtain rfl := List.mem_singleton.1 last
      rfl
  · refine List.pairwise_append.2 ⟨fits.sharing.apart, List.pairwise_singleton _ _, ?_⟩
    rintro source before other last held rfl kept same
    obtain rfl := List.mem_singleton.1 last
    cases same
    exact Nat.ne_of_lt (fits.used held before)
  · intro held member
    rcases List.mem_append.1 member with before | last
    · exact Nat.lt_succ_of_lt (fits.used held before)
    · cases List.mem_singleton.1 last
      exact Nat.lt_succ_self _

/-- Any number of sources of documents fit in. -/
theorem Fits.addAllDocuments (fits : plan.Fits store) (settings : List SourceOptions) :
    (plan.addAllDocuments store settings).value.1.Fits
      (plan.addAllDocuments store settings).value.2 := by
  induction settings generalizing plan store with
  | nil => exact fits
  | cons options rest ih => exact ih (fits.addDocuments options)

/-- The plan of a composition fits. -/
theorem fits_ofComposition (composition : Composition) (store : Store) :
    (ofComposition composition store).value.1.Fits (ofComposition composition store).value.2 := by
  -- The settings of the log are nothing that the sources share.
  have fresh : ({ (new store).1 with logging := composition.logging } : ChainPlan).Fits
      (new store).2 := ⟨(fits_new store).sharing, (fits_new store).used⟩
  exact fresh.addAllDocuments composition.sources

/-- A step that adds none but own sources keeps a plan fitting. -/
theorem Fits.take (fits : plan.Fits store) {step : PlanStep} (own : step.IsOwn) {files : Files}
    {next : ChainPlan} (taken : (step.take plan files store).outcome = .ok next) :
    next.Fits (step.take plan files store).store := by
  -- Of the steps that add sources each takes new cells for them.
  cases step with
  | source given =>
    cases taken
    cases given with
    | memory cell => exact fits.addMemory cell
    | documents held => exact own.elim
    | external name answer => exact own.elim
  | file path =>
    simp only [PlanStep.take, addFile] at taken ⊢
    split at taken
    · next present =>
      cases taken
      simp only [present, if_true]
      exact fits.addDocuments _
    · cases taken
  | documents settings =>
    cases taken
    exact fits.addDocuments settings
  | composition content =>
    simp only [PlanStep.take] at taken ⊢
    split at taken
    · cases taken
    · cases taken
      exact fits_ofComposition _ store
  | compositionFile path =>
    simp only [PlanStep.take, ofFile] at taken ⊢
    split at taken
    · cases taken
    · cases taken
      exact fits_ofComposition _ store
  | logging settings =>
    cases taken
    exact ⟨fits.sharing, fits.used⟩
  | level name =>
    cases taken
    exact ⟨fits.sharing, fits.used⟩

/-- Steps that add none but own sources keep a plan fitting. -/
theorem Fits.follow (fits : plan.Fits store) {steps : List PlanStep}
    (own : ∀ step ∈ steps, step.IsOwn) {files : Files} {next : ChainPlan}
    (followed : (follow files plan store steps).outcome = .ok next) :
    next.Fits (follow files plan store steps).store := by
  -- A step that fails ends the plan, and the others keep it fitting.
  induction steps generalizing plan store with
  | nil =>
    cases followed
    exact fits
  | cons step rest ih =>
    simp only [ChainPlan.follow, Asked.andThen] at followed ⊢
    cases taken : (step.take plan files store).outcome with
    | error error =>
      simp only [taken] at followed
      cases followed
    | ok between =>
      simp only [taken] at followed ⊢
      have first := fits.take (own step List.mem_cons_self) taken
      exact ih first (fun other member => own other (List.mem_cons_of_mem step member)) followed

end ChainPlan

/-- Sources are put into a chain in order. -/
theorem Chain.sources_pushAll (chain : Chain) (sources : List Source) :
    (chain.pushAll sources).value.sources = chain.sources ++ sources := by
  -- Each source goes to the end.
  induction sources generalizing chain with
  | nil => simp [pushAll]
  | cons source rest ih => simp [pushAll, ih, push]

/-- The sources of a chain made by own steps share a supply of names. -/
theorem Chain.make_sharing {files : Files} {store : Store} {steps : List PlanStep}
    (own : ∀ step ∈ steps, step.IsOwn) {chain : Chain}
    (made : (Chain.make files store steps).outcome = .ok chain) :
    ∃ names, Sharing names chain.sources := by
  -- The chain has the sources of the plan that the steps end with.
  have fits := ChainPlan.fits_new store
  simp only [make, Asked.andThen] at made
  cases followed : (ChainPlan.follow files (ChainPlan.new store).1 (ChainPlan.new store).2
      steps).outcome with
  | error error =>
    simp only [followed] at made
    cases made
  | ok plan =>
    have last := fits.follow own followed
    simp only [followed, ChainPlan.build, Asked.andThen] at made
    split at made
    · cases made
    · cases made
      refine ⟨plan.names, ?_⟩
      rw [sources_pushAll]
      exact last.sharing

end BeanWiring
