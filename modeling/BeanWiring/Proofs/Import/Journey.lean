import BeanWiring.Proofs.Import.Encounter
import BeanWiring.Proofs.Import.Resolution
import Mathlib.Data.List.Perm.Subperm

/-!
Resolution taken step by step: every resolution comes to an end, whatever imports what,
and on its way no file is loaded twice.

A step is a single visit, or it leaves a document whose imports have all been visited. The visits
still to be made stand on a stack, one level for each open document.
-/

namespace BeanWiring

/-- The path of a file that is about to be loaded. -/
def Notice.loaded? : Notice → Option Path
  | .loading path => some path
  | _ => none

/-- The paths of the files that were loaded, as far as was told. -/
def loadedPaths (told : List Notice) : List Path :=
  told.filterMap Notice.loaded?

/-- A resolution on its way. -/
structure Journey where
  /-- The open documents, the innermost last. -/
  chain : List Location := []
  /-- The visits still to be made at each level, the innermost first. -/
  pending : List (List Visit)
  documents : DocumentSet := {}
  told : List Notice

/-- A step leads on, or it is the last one. -/
inductive Turn where
  | on (journey : Journey)
  | finished (result : Noted (Except ConfigError DocumentSet))

namespace Journey

/-- The beginning of a resolution. -/
def start (root : Path) : Journey where
  pending := [[⟨none, root⟩]]
  told := [.resolving root]

/-- A single step. -/
def step (files : Files) (base : ImportBase) (journey : Journey) : Turn :=
  match journey.pending with
  | [] => .finished ⟨.ok journey.documents, journey.told ++ [.resolved journey.documents.size]⟩
  | [] :: outer =>
    -- All imports of the innermost document have been visited, so it is left.
    .on { journey with chain := journey.chain.dropLast, pending := outer }
  | (visit :: rest) :: outer =>
    let encounter := visit.encounter files journey.chain journey.documents
    let told := journey.told ++ (visit.notices ++ encounter.notices)
    match encounter with
    | .fault error _ => .finished ⟨.error error, told⟩
    | .known _ => .on { journey with pending := rest :: outer, told := told }
    | .entered location document resources =>
      .on ⟨journey.chain ++ [location], importVisits base location resources :: rest :: outer,
        journey.documents.insert document, told⟩

/-- A step leads from one point of a journey to the next. -/
def Goes (files : Files) (base : ImportBase) (journey next : Journey) : Prop :=
  journey.step files base = .on next

/-- A journey comes to an end after finitely many steps, and with a result. -/
inductive Ends (files : Files) (base : ImportBase) :
    Journey → Noted (Except ConfigError DocumentSet) → Prop
  | finished {journey : Journey} {result : Noted (Except ConfigError DocumentSet)}
      (last : journey.step files base = .finished result) : Ends files base journey result
  | on {journey next : Journey} {result : Noted (Except ConfigError DocumentSet)}
      (goes : journey.Goes files base next) (later : Ends files base next result) :
      Ends files base journey result

variable {files : Files} {base : ImportBase}

/--
A walk is gone step by step, below any other levels: a fault of the walk is the end of the
journey, and else the journey ends as it does once the visits of the walk have been made.
-/
def Carries (files : Files) (base : ImportBase) (chain : List Location) (documents : DocumentSet)
    (visits : List Visit) : Prop :=
  ∀ outer told,
    -- A fault ends the journey at once; otherwise it goes on as if nothing had been pending.
    (∀ error, (visitAll files base chain documents visits).value = .error error →
      Ends files base ⟨chain, visits :: outer, documents, told⟩
        ⟨.error error, told ++ (visitAll files base chain documents visits).notices⟩) ∧
    ∀ loaded result, (visitAll files base chain documents visits).value = .ok loaded →
      Ends files base ⟨chain, [] :: outer, loaded,
        told ++ (visitAll files base chain documents visits).notices⟩ result →
      Ends files base ⟨chain, visits :: outer, documents, told⟩ result

section Carries

variable {chain : List Location} {documents : DocumentSet} {visit : Visit} {rest : List Visit}

/-- A walk without visits is gone without a step. -/
theorem carries_nil : Carries files base chain documents [] := by
  -- The journey stands already where it would stand after the walk.
  intro outer told
  constructor
  · intro error failed
    simp [visitAll] at failed
  · intro loaded result done ends
    have same : documents = loaded := by simpa [visitAll] using done
    subst same
    simpa [visitAll] using ends

/-- A visit that comes upon a fault ends the journey as it ends the walk. -/
theorem carries_fault {error : ConfigError} {tried : Option Location}
    (met : visit.encounter files chain documents = .fault error tried) :
    Carries files base chain documents (visit :: rest) := by
  -- The step looks at the same encounter as the walk, and tells the same of it.
  intro outer told
  rw [visitAll_cons, met]
  constructor
  · intro same failed
    cases failed
    apply Ends.finished
    simp [step, met, goOn]
  · intro loaded result done
    cases done

/-- A visit to a file loaded before is passed, and the walk goes on with the others. -/
theorem carries_known {location : Location}
    (met : visit.encounter files chain documents = .known location)
    (past : Carries files base chain documents rest) :
    Carries files base chain documents (visit :: rest) := by
  intro outer told
  rw [visitAll_cons, met]
  -- A known document is passed over in one step, which loads nothing.
  have passed : Goes files base ⟨chain, (visit :: rest) :: outer, documents, told⟩
      ⟨chain, rest :: outer, documents,
        told ++ (visit.notices ++ (Encounter.known location).notices)⟩ := by
    simp [Goes, step, met]
  obtain ⟨fails, goes⟩ := past outer
    (told ++ (visit.notices ++ (Encounter.known location).notices))
  constructor
  · intro error failed
    apply Ends.on passed
    simpa [goOn] using fails error failed
  · intro loaded result done ends
    apply Ends.on passed
    apply goes loaded result done
    simpa [goOn] using ends

/-- A file that is entered is opened, its imports are gone through, and it is left again. -/
theorem carries_entered {location : Location} {document : Document} {resources : List String}
    (met : visit.encounter files chain documents = .entered location document resources)
    (into : Carries files base (chain ++ [location]) (documents.insert document)
      (importVisits base location resources))
    (past : ∀ loaded, Carries files base chain loaded rest) :
    Carries files base chain documents (visit :: rest) := by
  -- The walk of the imports stands between two steps, into the document and out of it again.
  intro outer told
  rw [visitAll_cons, met]
  have opened : Goes files base ⟨chain, (visit :: rest) :: outer, documents, told⟩
      ⟨chain ++ [location], importVisits base location resources :: rest :: outer,
        documents.insert document,
        told ++ (visit.notices ++ (Encounter.entered location document resources).notices)⟩ := by
    simp [Goes, step, met]
  have left : ∀ loaded told, Goes files base
      ⟨chain ++ [location], [] :: rest :: outer, loaded, told⟩
      ⟨chain, rest :: outer, loaded, told⟩ := by
    intro loaded told
    simp [Goes, step]
  obtain ⟨fails, goes⟩ := into (rest :: outer)
    (told ++ (visit.notices ++ (Encounter.entered location document resources).notices))
  cases value : (visitAll files base (chain ++ [location]) (documents.insert document)
      (importVisits base location resources)).value with
  | error fault =>
    -- The fault of an import is the fault of the whole walk.
    constructor
    · intro error failed
      have same : fault = error := by simpa [goOn, value] using failed
      subst same
      apply Ends.on opened
      simpa [goOn, value] using fails fault value
    · intro loaded result done
      simp [goOn, value] at done
  | ok between =>
    -- The imports have added to the documents, and from there the others are visited.
    obtain ⟨laterFails, laterGoes⟩ := past between outer
      (told ++ (visit.notices ++ (Encounter.entered location document resources).notices) ++
        (visitAll files base (chain ++ [location]) (documents.insert document)
          (importVisits base location resources)).notices)
    constructor
    · intro error failed
      have failed : (visitAll files base chain between rest).value = .error error := by
        simpa [goOn, value] using failed
      apply Ends.on opened
      apply goes between _ value
      apply Ends.on (left between _)
      simpa [goOn, value] using laterFails error failed
    · intro loaded result done ends
      have done : (visitAll files base chain between rest).value = .ok loaded := by
        simpa [goOn, value] using done
      apply Ends.on opened
      apply goes between _ value
      apply Ends.on (left between _)
      apply laterGoes loaded result done
      simpa [goOn, value] using ends

/-- Every walk is gone step by step. -/
theorem carries (files : Files) (base : ImportBase) (chain : List Location)
    (documents : DocumentSet) (visits : List Visit) :
    Carries files base chain documents visits := by
  -- The induction is the one by which the walk ends: no open document is opened again.
  induction chain, documents, visits using visitAll.induct files base with
  | case1 chain documents => exact carries_nil
  | case2 chain documents visit rest again inside later =>
    cases met : visit.encounter files chain documents with
    | fault error tried => exact carries_fault met
    | known location => exact carries_known met again
    | entered location document resources =>
      have meets := visit.meets files chain documents
      rw [met] at meets
      obtain ⟨found, fresh, _, _, _⟩ := meets.of_entered
      exact carries_entered met (inside location found fresh document resources) later

end Carries

/-- Every resolution comes to an end, with the result of the walk and all that is told on it. -/
theorem start_ends (files : Files) (base : ImportBase) (root : Path) :
    Ends files base (start root) (resolve files base root) := by
  obtain ⟨fails, goes⟩ := carries files base [] {} [⟨none, root⟩] [] [.resolving root]
  cases value : (visitAll files base [] {} [⟨none, root⟩]).value with
  | error fault => simpa [start, resolve, Noted.after, Noted.andThen, value] using fails fault value
  | ok loaded =>
    -- Past the root no visits remain at any level.
    have left : ∀ told, Goes files base ⟨[], [[]], loaded, told⟩ ⟨[], [], loaded, told⟩ :=
      fun _ => rfl
    apply goes loaded _ value
    apply Ends.on (left _)
    apply Ends.finished
    simp [step, resolve, Noted.after, Noted.andThen, value]

/-- Files of a tree that are all different. -/
structure AllOnce (files : Files) (locations : List Location) : Prop where
  plain : ∀ location ∈ locations, location.isPlain
  listed : ∀ location ∈ locations, location ∈ files.locations
  distinct : locations.Nodup

/-- One more file, to which a path leads, can be added to files that it is none of. -/
theorem AllOnce.add {locations : List Location} (once : AllOnce files locations) {path : Path}
    {location : Location} (found : canonical files path = .ok location)
    (fresh : location ∉ locations) : AllOnce files (locations ++ [location]) := by
  constructor
  case plain =>
    intro other member
    -- What was there before is as it was, and the new location is a canonical one.
    rcases List.mem_append.1 member with old | new
    · exact once.plain other old
    · exact List.mem_singleton.1 new ▸ plain_of_canonical found
  case listed =>
    intro other member
    rcases List.mem_append.1 member with old | new
    · exact once.listed other old
    · exact List.mem_singleton.1 new ▸ Files.locate_mem (locate_of_canonical found)
  case distinct =>
    simpa [List.nodup_append] using ⟨once.distinct, fun other member same =>
      fresh (same ▸ member)⟩

/--
What holds at every point of a journey, for the files loaded so far: none was loaded twice, the
documents are theirs, every open document is among them, and none was opened twice.
-/
structure Tracks (files : Files) (visited : List Location) (journey : Journey) : Prop where
  once : AllOnce files visited
  paths : journey.documents.paths = visited.map Location.path
  loads : loadedPaths journey.told = visited.map Location.path
  opened : ∀ location ∈ journey.chain, location ∈ visited
  single : journey.chain.Nodup

/-- Visits tell of no loads. -/
theorem loadedPaths_notices (visit : Visit) : loadedPaths visit.notices = [] := by
  obtain ⟨importer, target⟩ := visit
  cases importer <;> rfl

/-- Of an encounter the one load is told that it makes, or tries to make. -/
theorem loadedPaths_encounter (encounter : Encounter) :
    loadedPaths encounter.notices = encounter.tried.toList.map Location.path := by
  -- A load is told before it can fail.
  cases encounter with
  | fault error tried => cases tried <;> rfl
  | known location => rfl
  | entered location document resources => rfl

/-- What is told of a visit adds to the loads the one that it makes, or tries to make. -/
theorem loadedPaths_visit (told : List Notice) (visit : Visit) (encounter : Encounter) :
    loadedPaths (told ++ (visit.notices ++ encounter.notices)) =
      loadedPaths told ++ encounter.tried.toList.map Location.path := by
  rw [← loadedPaths_encounter]
  simp only [loadedPaths, List.filterMap_append]
  -- A visit tells of an import, but not of a load.
  rw [show visit.notices.filterMap Notice.loaded? = [] from loadedPaths_notices visit]
  simp

/-- Nothing has been loaded when a resolution begins. -/
theorem tracks_start (files : Files) (root : Path) : Tracks files [] (start root) where
  -- Nothing was visited, so nothing has to hold.
  once := ⟨by simp, by simp, by simp⟩
  paths := rfl
  loads := rfl
  opened := by simp [start]
  single := by simp [start]

section Tracks

variable {visited : List Location} {journey next : Journey} {visit : Visit} {location : Location}

/-- A file that is to be loaded was not loaded before. -/
theorem Tracks.fresh (tracks : Tracks files visited journey)
    (found : canonical files visit.target = .ok location)
    (unknown : journey.documents.contains location.path = false) : location ∉ visited := by
  -- The documents are those of the files loaded so far, so it would be found among them.
  intro member
  have known := (contains_path_iff tracks.paths tracks.once.plain
    (plain_of_canonical found)).2 member
  simp [known] at unknown

/-- A file that is entered is one more of those loaded, and it is open then. -/
theorem Tracks.enter (tracks : Tracks files visited journey)
    (found : canonical files visit.target = .ok location) (shut : location ∉ journey.chain)
    (unknown : journey.documents.contains location.path = false) {document : Document}
    (parsed : ParsesTo files location document) {told : List Notice}
    (loads : loadedPaths told = loadedPaths journey.told ++ [location.path])
    (pending : List (List Visit)) :
    Tracks files (visited ++ [location])
      ⟨journey.chain ++ [location], pending, journey.documents.insert document, told⟩ := by
  -- A document is entered under the path that was not known.
  have absent : journey.documents.contains document.path = false := by
    rwa [parsed.path_eq]
  constructor
  case once => exact tracks.once.add found (tracks.fresh found unknown)
  case paths =>
    have known := tracks.paths
    simp only [DocumentSet.paths] at known
    simp [DocumentSet.paths, documents_insert absent, known, parsed.path_eq]
  case loads => simp [loads, tracks.loads]
  case opened =>
    intro other member
    rcases List.mem_append.1 member with old | new
    · exact List.mem_append_left _ (tracks.opened other old)
    · exact List.mem_append_right _ new
  -- A location already open would have been a cycle.
  case single =>
    simpa [List.nodup_append] using ⟨tracks.single, fun other member same =>
      shut (same ▸ member)⟩

/-- A step loads nothing and leaves the documents alone, or it loads one more file. -/
theorem Tracks.step (tracks : Tracks files visited journey) (goes : journey.Goes files base next) :
    (next.documents = journey.documents ∧ loadedPaths next.told = loadedPaths journey.told ∧
      Tracks files visited next) ∨
    ∃ location document, journey.documents.contains document.path = false ∧
      next.documents.documents = journey.documents.documents ++ [document] ∧
      loadedPaths next.told = loadedPaths journey.told ++ [document.path] ∧
      Tracks files (visited ++ [location]) next := by
  obtain ⟨chain, pending, documents, told⟩ := journey
  simp only [Goes, Journey.step] at goes
  split at goes
  · cases goes
  · -- A document is left, so there is one less to be open.
    cases goes
    refine .inl ⟨rfl, rfl, tracks.once, tracks.paths, tracks.loads, ?_, ?_⟩
    · exact fun other member => tracks.opened other (List.dropLast_subset _ member)
    · exact tracks.single.sublist (List.dropLast_sublist _)
  · rename_i visit rest outer
    have meets := visit.meets files chain documents
    cases met : visit.encounter files chain documents with
    | fault error tried => simp [met] at goes
    | known location =>
      -- A file loaded before is passed.
      simp only [met, Turn.on.injEq] at goes
      subst goes
      have same := loadedPaths_visit told visit (.known location)
      simp only [Encounter.tried, Option.toList_none, List.map_nil, List.append_nil] at same
      exact .inl ⟨rfl, same, tracks.once, tracks.paths, same.trans tracks.loads, tracks.opened,
        tracks.single⟩
    | entered location document resources =>
      -- A file is entered, and no other is loaded in this step.
      rw [met] at meets
      obtain ⟨found, shut, unknown, parsed, _⟩ := meets.of_entered
      simp only [met, Turn.on.injEq] at goes
      subst goes
      have more := loadedPaths_visit told visit (.entered location document resources)
      have absent : documents.contains document.path = false := by
        rwa [parsed.path_eq]
      refine .inr ⟨location, document, absent, documents_insert absent, ?_, ?_⟩
      · rw [parsed.path_eq]
        exact more
      · exact tracks.enter found shut unknown parsed more _

/-- The last step loads nothing, or it fails to load a file that was not loaded before. -/
theorem Tracks.finished (tracks : Tracks files visited journey)
    {result : Noted (Except ConfigError DocumentSet)}
    (last : journey.step files base = .finished result) :
    ∃ loaded, AllOnce files loaded ∧ loadedPaths result.notices = loaded.map Location.path := by
  obtain ⟨chain, pending, documents, told⟩ := journey
  have loads : loadedPaths told = visited.map Location.path := tracks.loads
  simp only [Journey.step] at last
  split at last
  · -- No visits remain at any level.
    cases last
    refine ⟨visited, tracks.once, ?_⟩
    rw [← loads]
    simp [loadedPaths, Notice.loaded?]
  · cases last
  · rename_i visit rest outer
    have meets := visit.meets files chain documents
    cases met : visit.encounter files chain documents with
    | known location => simp [met] at last
    | entered location document resources => simp [met] at last
    | fault error tried =>
      rw [met] at meets
      simp only [met, Turn.finished.injEq] at last
      subst last
      cases tried with
      | none =>
        -- The fault came before it was tried to load anything.
        refine ⟨visited, tracks.once, ?_⟩
        simp [loadedPaths_visit, loads, Encounter.tried]
      | some location =>
        -- A file that cannot be loaded was still tried, for the first time.
        obtain ⟨found, unknown⟩ := meets.of_tried
        refine ⟨visited ++ [location], tracks.once.add found (tracks.fresh found unknown), ?_⟩
        simp [loadedPaths_visit, loads, Encounter.tried]

/-- At every point that is reached the files loaded so far are all different. -/
theorem tracks_of_reached {root : Path}
    (reached : Relation.ReflTransGen (Goes files base) (start root) journey) :
    ∃ visited, Tracks files visited journey := by
  -- Every step keeps what holds, with one more file if it loads one.
  induction reached with
  | refl => exact ⟨[], tracks_start files root⟩
  | tail _ goes ih =>
    obtain ⟨visited, tracks⟩ := ih
    rcases tracks.step goes with ⟨-, -, same⟩ | ⟨location, -, -, -, -, more⟩
    · exact ⟨visited, same⟩
    · exact ⟨visited ++ [location], more⟩

/-- All the loads of a journey, until its end, are of different files. -/
theorem Tracks.ends (tracks : Tracks files visited journey)
    {result : Noted (Except ConfigError DocumentSet)} (ends : Ends files base journey result) :
    ∃ loaded, AllOnce files loaded ∧ loadedPaths result.notices = loaded.map Location.path := by
  -- The induction is on the steps that are still to be taken.
  induction ends generalizing visited with
  | finished last => exact tracks.finished last
  | on goes _ ih =>
    rcases tracks.step goes with ⟨-, -, same⟩ | ⟨location, -, -, -, -, more⟩
    · exact ih same
    · exact ih more

end Tracks

end Journey

/--
Resolution always comes to an end, after finitely many steps, whatever imports what.

At every point on the way the open documents are all different and have been loaded, the files
loaded are those of the documents, and a step either loads nothing or adds one document under a
new path. In the end no file was loaded twice, so there were no more loads than files.
-/
theorem resolution_ends_and_loads_once (files : Files) (base : ImportBase) (root : Path) :
    Journey.Ends files base (Journey.start root) (resolve files base root) ∧
    (∀ journey, Relation.ReflTransGen (Journey.Goes files base) (Journey.start root) journey →
      ((journey.chain.map Location.path).Pairwise fun left right => ¬ left.same right) ∧
      (∀ location ∈ journey.chain, journey.documents.contains location.path) ∧
      loadedPaths journey.told = journey.documents.paths ∧
      ∀ next, journey.Goes files base next →
        (next.documents = journey.documents ∧
          loadedPaths next.told = loadedPaths journey.told) ∨
        ∃ document, journey.documents.contains document.path = false ∧
          next.documents.documents = journey.documents.documents ++ [document] ∧
          loadedPaths next.told = loadedPaths journey.told ++ [document.path]) ∧
    ((loadedPaths (resolve files base root).notices).Pairwise fun left right =>
      ¬ left.same right) ∧
    (loadedPaths (resolve files base root).notices).length ≤ files.locations.length := by
  obtain ⟨loaded, once, loads⟩ :=
    (Journey.tracks_start files root).ends (Journey.start_ends files base root)
  refine ⟨Journey.start_ends files base root, ?_, ?_, ?_⟩
  · intro journey reached
    obtain ⟨visited, tracks⟩ := Journey.tracks_of_reached reached
    have plain : ∀ location ∈ journey.chain, location.isPlain :=
      fun location member => tracks.once.plain location (tracks.opened location member)
    refine ⟨pairwise_not_same tracks.single plain, ?_, tracks.loads.trans tracks.paths.symm, ?_⟩
    · intro location member
      apply (contains_path_iff tracks.paths tracks.once.plain (plain location member)).2
      exact tracks.opened location member
    · intro next goes
      rcases tracks.step goes with ⟨same, loads, -⟩ | ⟨location, document, absent, more, loads, -⟩
      · exact .inl ⟨same, loads⟩
      · exact .inr ⟨document, absent, more, loads⟩
  · rw [loads]
    exact pairwise_not_same once.distinct once.plain
  · -- Different files of the tree are no more than it has.
    rw [loads, List.length_map]
    exact (List.subperm_of_subset once.distinct once.listed).length_le

end BeanWiring
