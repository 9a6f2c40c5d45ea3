import BeanWiring.Proofs.Import.Resolution
import BeanWiring.Proofs.Source.Asking

/-!
A source of documents among files that change: as long as nothing could be loaded, each call finds
the files as they are then, and a call that fails leaves no trace.

From the first call that can load them on, the documents are kept. The source replies as a workspace
over them would, which has no files at all.
-/

namespace BeanWiring

/-- A call of a source of documents. -/
inductive Call where
  | lookup (request : Request)
  | find (bean : String)
  /-- Asks for the documents as they are. -/
  | documents

/-- The reply to a call. -/
inductive Reply where
  | definition (outcome : Except SourceError (Option Definition))
  | documents (outcome : Except ConfigError DocumentSet)

/-- The reply to a call for which the documents cannot be loaded. -/
def Call.failing (error : ConfigError) : Call → Reply
  -- Only where definitions are asked for can there be faults of other kinds.
  | .lookup _ | .find _ => .definition (.error (.config error))
  | .documents => .documents (.error error)

namespace Workspace

/-- The reply of a workspace to a call, and the workspace after it. -/
def answer (workspace : Workspace) : Call → Reply × Workspace
  | .lookup request =>
    (.definition ((workspace.assemble request).outcome.mapError .definition),
      workspace.serve request)
  | .find bean =>
    (.definition ((workspace.assemble ⟨bean, none⟩).outcome.mapError .definition),
      workspace.serve ⟨bean, none⟩)
  -- Looking at the documents changes nothing.
  | .documents => (.documents (.ok workspace.documents), workspace)

/-- The replies of a workspace to calls in order. -/
def replies (workspace : Workspace) : List Call → List Reply
  | [] => []
  | call :: rest => (workspace.answer call).1 :: (workspace.answer call).2.replies rest

end Workspace

namespace DocumentSource

/-- The documents that the files of a source hold. -/
def resolution (source : DocumentSource) (files : Files) : Except ConfigError DocumentSet :=
  (resolve files source.options.importBase source.options.filename).value

/-- The reply of a source to a call, and the store after it. -/
def reply (source : DocumentSource) (files : Files) (store : Store) : Call → Reply × Store
  | .lookup request =>
    let asked := source.lookup files store request.bean request.seed
    (.definition asked.outcome, asked.store)
  | .find bean =>
    let asked := (Source.documents source).find files store bean
    (.definition asked.outcome, asked.store)
  | .documents =>
    -- To look at the documents is to load them.
    let asked := source.load files store
    (.documents asked.outcome, asked.store)

/-- Whether a source has loaded the documents of a workspace, and draws the names of it. -/
structure Holds (source : DocumentSource) (store : Store) (workspace : Workspace) : Prop where
  documents : store.loaded source.documents = some workspace.documents
  names : store.names source.names = workspace.names

variable {source : DocumentSource} {files : Files} {store : Store} {workspace : Workspace}

/-- A source that holds a workspace is loaded. -/
theorem Holds.isLoaded (holds : source.Holds store workspace) : source.isLoaded store = true := by
  simp [DocumentSource.isLoaded, holds.documents]

/-- A source that is not loaded goes by the files. -/
theorem view_eq_resolution (unloaded : source.isLoaded store = false) (files : Files) :
    source.view files store = source.resolution files := by
  apply view_of_unloaded
  simpa [DocumentSource.isLoaded] using unloaded

/-- Documents that cannot be loaded are the fault of every call, which leaves nothing behind. -/
theorem reply_unloadable {error : ConfigError} (fault : source.view files store = .error error)
    (call : Call) : source.reply files store call = (call.failing error, store) := by
  -- Lookups fail as loading does, and only put the fault into words of their own.
  cases call with
  | lookup request =>
    obtain ⟨outcome, kept⟩ := lookup_unloadable fault request.bean request.seed
    simp only [reply, Call.failing, outcome, kept]
  | find bean =>
    obtain ⟨outcome, kept⟩ := lookup_unloadable fault bean none
    simp only [reply, Source.find, Call.failing, outcome, kept]
  | documents =>
    have kept := load_unloadable fault
    simp only [view] at fault
    simp only [reply, Call.failing, fault, kept]

/-- A call replies as the workspace over the documents that the source goes by. -/
theorem reply_loaded {documents : DocumentSet} (viewed : source.view files store = .ok documents)
    (call : Call) :
    (source.reply files store call).1 =
        (Workspace.answer ⟨documents, store.names source.names⟩ call).1 ∧
      source.Holds (source.reply files store call).2
        (Workspace.answer ⟨documents, store.names source.names⟩ call).2 := by
  -- Both kinds of lookup assemble from the documents and keep what the assembly leaves.
  have looked (bean : String) (seed : Option Definition) :
      let assembly := assemble documents (store.names source.names) bean seed
      (source.lookup files store bean seed).outcome = assembly.outcome.mapError .definition ∧
        source.Holds (source.lookup files store bean seed).store
          ⟨assembly.documents, assembly.names⟩ := by
    obtain ⟨outcome, kept⟩ := lookup_loaded viewed bean seed
    refine ⟨outcome, ?_, ?_⟩ <;> simp [kept, Store.setDocuments, Store.setNames]
  cases call with
  | lookup request =>
    obtain ⟨outcome, holds⟩ := looked request.bean request.seed
    exact ⟨congrArg Reply.definition outcome, holds⟩
  | find bean =>
    obtain ⟨outcome, holds⟩ := looked bean none
    exact ⟨congrArg Reply.definition outcome, holds⟩
  | documents =>
    refine ⟨congrArg Reply.documents viewed, ?_, ?_⟩
    · simp [reply, Workspace.answer, load_store viewed, Store.setDocuments]
    · simp [reply, Workspace.answer, load_store viewed, Store.setDocuments]

/-- A source that holds a workspace replies as that does, whatever the files are. -/
theorem Holds.reply (holds : source.Holds store workspace) (files : Files) (call : Call) :
    (source.reply files store call).1 = (workspace.answer call).1 ∧
      source.Holds (source.reply files store call).2 (workspace.answer call).2 := by
  -- The documents are loaded, so the files are not looked at any more.
  have viewed : source.view files store = .ok workspace.documents :=
    view_of_loaded holds.documents
  have same := reply_loaded viewed call
  rwa [holds.names] at same

end DocumentSource

/-- What happens around a source. -/
inductive Happening where
  /-- A file, or something else, is put where a path leads. -/
  | write (path : Path) (entry : Entry)
  | remove (path : Path)
  | call (call : Call)

/-- The call that happens, if it is one. -/
def Happening.call? : Happening → Option Call
  | .call given => some given
  | _ => none

/-- A file tree, and the store of a source that reads it. -/
structure Scene where
  files : Files
  store : Store

namespace Scene

/-- The scene after something happened. -/
def step (source : DocumentSource) (scene : Scene) : Happening → Scene
  | .write path entry => { scene with files := scene.files.write path entry }
  -- Where there is nothing to be removed, everything stays.
  | .remove path => { scene with files := (scene.files.remove? path).getD scene.files }
  | .call call => { scene with store := (source.reply scene.files scene.store call).2 }

/-- The scene after everything happened in order. -/
def run (source : DocumentSource) (scene : Scene) (happenings : List Happening) : Scene :=
  happenings.foldl (step source) scene

/-- The replies to the calls among what happens in order. -/
def replies (source : DocumentSource) (scene : Scene) : List Happening → List Reply
  | [] => []
  | .call call :: rest =>
    (source.reply scene.files scene.store call).1 ::
      (scene.step source (.call call)).replies source rest
  | happening :: rest => (scene.step source happening).replies source rest

variable {source : DocumentSource} {scene : Scene} {workspace : Workspace}

/-- Things happen in two goes, one after the other. -/
theorem run_append (scene : Scene) (earlier later : List Happening) :
    scene.run source (earlier ++ later) = (scene.run source earlier).run source later := by
  simp [run]

/-- A source goes on to hold a workspace, and replies as that does, whatever happens. -/
theorem run_held (holds : source.Holds scene.store workspace) (happenings : List Happening) :
    source.isLoaded (scene.run source happenings).store = true ∧
      scene.replies source happenings =
        workspace.replies (happenings.filterMap Happening.call?) := by
  -- Only calls concern the store; each leads on to the workspace after it.
  induction happenings generalizing scene workspace with
  | nil => exact ⟨holds.isLoaded, rfl⟩
  | cons happening rest ih =>
    cases happening with
    | write path entry =>
      have kept : source.Holds (scene.step source (.write path entry)).store workspace := holds
      exact ih kept
    | remove path =>
      have kept : source.Holds (scene.step source (.remove path)).store workspace := holds
      exact ih kept
    | call call =>
      obtain ⟨same, holds⟩ := holds.reply scene.files call
      have kept : source.Holds (scene.step source (.call call)).store (workspace.answer call).2 :=
        holds
      obtain ⟨loaded, later⟩ := ih kept
      refine ⟨loaded, ?_⟩
      show _ :: _ = _ :: _
      rw [same, later]

/-- A call that can load the documents makes the source a workspace over them, for good. -/
theorem run_loads {documents : DocumentSet} (unloaded : source.isLoaded scene.store = false)
    (loads : source.resolution scene.files = .ok documents) (call : Call)
    (later : List Happening) :
    source.isLoaded (scene.run source (.call call :: later)).store = true ∧
      scene.replies source (.call call :: later) =
        Workspace.replies ⟨documents, scene.store.names source.names⟩
          (call :: later.filterMap Happening.call?) := by
  -- The call goes by what the files hold, and from then on the source holds the workspace.
  have viewed := (DocumentSource.view_eq_resolution unloaded scene.files).trans loads
  obtain ⟨same, holds⟩ := DocumentSource.reply_loaded viewed call
  have kept : source.Holds (scene.step source (.call call)).store
      (Workspace.answer ⟨documents, scene.store.names source.names⟩ call).2 := holds
  obtain ⟨loaded, others⟩ := run_held kept later
  refine ⟨loaded, ?_⟩
  -- The reply to the call stands in front of those to come.
  show _ :: _ = _ :: _
  rw [same, others]

/-- Whether a call happens at which the files hold documents that can be loaded. -/
def Loads (source : DocumentSource) (scene : Scene) (happenings : List Happening) : Prop :=
  ∃ earlier call later documents, happenings = earlier ++ .call call :: later ∧
    source.resolution (scene.run source earlier).files = .ok documents

/-- One thing that happens loads the documents or leaves the store as it was. -/
theorem step_unloaded (unloaded : source.isLoaded scene.store = false) (happening : Happening) :
    (scene.step source happening).store = scene.store ∨
      ∃ call documents, happening = .call call ∧ source.resolution scene.files = .ok documents := by
  -- Only a call looks at the store, and it changes it only if the documents can be loaded.
  cases happening with
  | write path entry => exact .inl rfl
  | remove path => exact .inl rfl
  | call call =>
    cases loads : source.resolution scene.files with
    | ok documents => exact .inr ⟨call, documents, rfl, rfl⟩
    | error error =>
      have viewed := (DocumentSource.view_eq_resolution unloaded scene.files).trans loads
      exact .inl (congrArg Prod.snd (DocumentSource.reply_unloadable viewed call))

/-- As long as nothing could be loaded the store stays as it was. -/
theorem run_unloaded (unloaded : source.isLoaded scene.store = false)
    (happenings : List Happening) :
    (scene.run source happenings).store = scene.store ∨ Loads source scene happenings := by
  -- A store that stays as it was is one without loaded documents, so the next thing meets the same.
  induction happenings generalizing scene with
  | nil => exact .inl rfl
  | cons happening rest ih =>
    rcases step_unloaded unloaded happening with same | ⟨call, documents, rfl, loads⟩
    · rcases ih (same ▸ unloaded) with still | ⟨earlier, call, later, documents, rfl, loads⟩
      · exact .inl (still.trans same)
      · exact .inr ⟨happening :: earlier, call, later, documents, rfl, loads⟩
    · exact .inr ⟨[], call, rest, documents, rfl, loads⟩

/-- A source is loaded exactly if a call could load the documents. -/
theorem isLoaded_run_iff (unloaded : source.isLoaded scene.store = false)
    (happenings : List Happening) :
    source.isLoaded (scene.run source happenings).store = true ↔
      Loads source scene happenings := by
  constructor
  · intro loaded
    rcases run_unloaded unloaded happenings with same | loads
    · rw [same, unloaded] at loaded
      cases loaded
    · exact loads
  · intro loads
    obtain ⟨earlier, call, later, documents, rfl, loads⟩ := loads
    rw [run_append]
    -- An earlier call may have loaded other documents already.
    cases before : source.isLoaded (scene.run source earlier).store with
    | false => exact (run_loads before loads call later).1
    | true =>
      obtain ⟨known, there⟩ := Option.isSome_iff_exists.1 before
      have holds : source.Holds (scene.run source earlier).store ⟨known, _⟩ := ⟨there, rfl⟩
      exact (run_held holds _).1

end Scene

/--
A source works on the documents of its first successful load.

As long as no call could load them, each call goes by the files as they are then. If these cannot be
loaded, that is the reply, and everything stays as it was. If they can, the source replies to this
call and to all later ones as a workspace over them, whatever becomes of the files.
-/
theorem DocumentSource.first_load_is_kept (source : DocumentSource) (start : Scene)
    (unloaded : source.isLoaded start.store = false) (happenings : List Happening) :
    let scene := start.run source happenings
    (source.isLoaded scene.store = true ↔ start.Loads source happenings) ∧
    (source.isLoaded scene.store = false →
      scene.store = start.store ∧
      (∀ error, source.resolution scene.files = .error error → ∀ call,
        source.reply scene.files scene.store call = (call.failing error, scene.store)) ∧
      ∀ documents, source.resolution scene.files = .ok documents → ∀ call later,
        source.isLoaded (scene.run source (.call call :: later)).store = true ∧
          scene.replies source (.call call :: later) =
            Workspace.replies ⟨documents, start.store.names source.names⟩
              (call :: later.filterMap Happening.call?)) := by
  intro scene
  have loads_iff := Scene.isLoaded_run_iff unloaded happenings
  refine ⟨loads_iff, ?_⟩
  intro waiting
  have same : scene.store = start.store := by
    rcases Scene.run_unloaded unloaded happenings with same | loads
    · exact same
    · -- The source would be loaded by now.
      rw [loads_iff.2 loads] at waiting
      cases waiting
  -- A source that is not loaded goes by the files, which can be loaded or not.
  refine ⟨same, ?_, ?_⟩
  · intro error fault call
    apply reply_unloadable
    exact (view_eq_resolution waiting scene.files).trans fault
  · intro documents loads call later
    rw [← same]
    exact Scene.run_loads waiting loads call later

/-- A document with one bean. -/
def lateText : String :=
  "<beans><bean id=\"svc\" class=\"Svc\" scope=\"singleton\"/></beans>"

/-- The tree of the document. -/
def lateTree : Element :=
  ⟨"beans", [], "", [⟨"bean", [("id", "svc"), ("class", "Svc"), ("scope", "singleton")], "", []⟩]⟩

/-- A source of the document. -/
def lateSource : DocumentSource :=
  ⟨⟨⟨"/b.xml"⟩, .document⟩, 0, 0⟩

/-- What the document holds. -/
def lateDocuments : DocumentSet :=
  ⟨[⟨⟨"/b.xml"⟩, lateTree⟩]⟩

/-- The document is found by the source once it is written. -/
theorem resolution_late :
    lateSource.resolution {} = .error (.fileNotFound ⟨"/b.xml"⟩) ∧
    lateSource.resolution (({} : Files).write ⟨"/b.xml"⟩ (.file lateText.toUTF8)) =
      .ok lateDocuments := by
  have parts : (Path.mk "/b.xml").parts = ["", "b.xml"] := by decide
  have fits : (Path.mk "/b.xml").fits := by decide
  -- The path leads right below the root, where nothing stands before it is written.
  constructor
  · apply resolve_missing
    simp [Files.locate, fits, parts, lateSource, Files.start, Path.isAbsolute, Files.walk,
      Files.isDirectory, Files.at?, Path.isIdle, Location.below]
  · have put : (({} : Files).write ⟨"/b.xml"⟩ (.file lateText.toUTF8)).entries =
        [(⟨["b.xml"]⟩, .file lateText.toUTF8)] := by
      simp [Files.write, fits, parts, Files.makeParents, Files.start, Path.isAbsolute, Files.walk,
        Files.isDirectory, Files.at?, Path.isIdle, Location.below, Files.put]
    have there : (({} : Files).write ⟨"/b.xml"⟩ (.file lateText.toUTF8)).at? ⟨["b.xml"]⟩ =
        some (.file lateText.toUTF8) := by
      simp only [Files.at?, put]
      rfl
    exact resolve_top (by decide +kernel) (by decide +kernel) there (by decide +kernel)
      (by decide +kernel) .document

/-- What is written after a failed call is found by the next one, and kept when it is removed. -/
theorem DocumentSource.late_document_is_kept :
    lateSource.isLoaded {} = false ∧
    Scene.replies lateSource ⟨{}, {}⟩
      [.call (.find "svc"), .write ⟨"/b.xml"⟩ (.file lateText.toUTF8), .call .documents,
        .remove ⟨"/b.xml"⟩, .call (.find "svc")] =
      [.definition (.error (.config (.fileNotFound ⟨"/b.xml"⟩))), .documents (.ok lateDocuments),
        .definition (.ok (some { name := "svc", className := "Svc" }))] := by
  obtain ⟨missing, written⟩ := resolution_late
  have unloaded : lateSource.isLoaded ({} : Store) = false := rfl
  -- Nothing is there at the first call, which leaves the store as it was.
  have failed : lateSource.reply {} {} (.find "svc") =
      (.definition (.error (.config (.fileNotFound ⟨"/b.xml"⟩))), {}) :=
    ((lateSource.first_load_is_kept ⟨{}, {}⟩ unloaded []).2 rfl).2.1 _ missing (.find "svc")
  let earlier : List Happening :=
    [.call (.find "svc"), .write ⟨"/b.xml"⟩ (.file lateText.toUTF8)]
  have waiting : lateSource.isLoaded (Scene.run lateSource ⟨{}, {}⟩ earlier).store = false := by
    show lateSource.isLoaded (lateSource.reply {} {} (.find "svc")).2 = false
    rw [failed, unloaded]
  -- From here on the replies are those of the workspace, also when the file is gone.
  have found := ((lateSource.first_load_is_kept ⟨{}, {}⟩ unloaded earlier).2 waiting).2.2
    lateDocuments written .documents [.remove ⟨"/b.xml"⟩, .call (.find "svc")]
  have made : (assemble lateDocuments {} "svc" none).outcome.toOption =
      some (some { name := "svc", className := "Svc" }) := by decide +kernel
  refine ⟨unloaded, ?_⟩
  show (lateSource.reply {} {} (.find "svc")).1 ::
    (Scene.run lateSource ⟨{}, {}⟩ earlier).replies lateSource _ = _
  rw [failed, found.2]
  show [_, _, Reply.definition ((assemble lateDocuments {} "svc" none).outcome.mapError _)] = _
  rw [ok_of_toOption made]
  rfl

end BeanWiring
