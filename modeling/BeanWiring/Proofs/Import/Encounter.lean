import BeanWiring.Proofs.Files.Location
import BeanWiring.Proofs.Import.Graph

/-!
What a single visit comes upon, told apart from where the walk goes on from there.

Two walks that come upon the same at every visit are the same walk.
-/

namespace BeanWiring

/-- What a visit comes upon. -/
inductive Encounter where
  /-- A fault, after it was tried to load the file at a location or before. -/
  | fault (error : ConfigError) (tried : Option Location)
  /-- A file that was loaded before. -/
  | known (location : Location)
  /-- A file that is loaded now, with the resources that its document imports. -/
  | entered (location : Location) (document : Document) (resources : List String)

namespace Encounter

/-- The file that is loaded, or that it is tried to load. -/
def tried : Encounter → Option Location
  | .fault _ tried => tried
  | .known _ => none
  | .entered location _ _ => some location

/-- What is told of an encounter. -/
def notices : Encounter → List Notice
  | .known location => [.alreadyLoaded location.path]
  | encounter => encounter.tried.toList.map fun location => .loading location.path

end Encounter

/-- What a visit comes upon, inside a chain of open documents and after others were loaded. -/
def Visit.encounter (files : Files) (chain : List Location) (documents : DocumentSet)
    (visit : Visit) : Encounter :=
  match canonical files visit.target with
  | .error error => .fault error none
  | .ok location =>
    -- The chain is asked before the set, since what is open is not yet done.
    if location ∈ chain then
      .fault (.cyclicImport ((chain ++ [location]).map Location.path)) none
    else if documents.contains location.path then .known location
    else
      match (Document.load files location.path).value with
      | .error error => .fault error (some location)
      | .ok document =>
        match document.imports with
        | .error error => .fault error (some location)
        | .ok resources => .entered location document resources

/-- The visits that a document asks for by its imports. -/
def importVisits (base : ImportBase) (importer : Location) (resources : List String) :
    List Visit :=
  resources.map fun resource => ⟨some importer, importTarget base importer resource⟩

variable {files : Files} {base : ImportBase} {chain : List Location} {documents : DocumentSet}
  {visit : Visit}

/-- The location of a file that is visited is plain. -/
theorem plain_of_canonical {path : Path} {location : Location}
    (found : canonical files path = .ok location) : location.isPlain :=
  Files.locate_isPlain (locate_of_canonical found)

/-- That a file is loaded is told whether or not it succeeds. -/
theorem notices_load (files : Files) (path : Path) :
    (Document.load files path).notices = [.loading path] := by
  unfold Document.load
  split <;> rfl

/-- The walk after what the first of its visits comes upon. -/
def goOn (files : Files) (base : ImportBase) (chain : List Location) (documents : DocumentSet)
    (rest : List Visit) : Encounter → Noted (Except ConfigError DocumentSet)
  | .fault error _ => ⟨.error error, []⟩
  | .known _ => visitAll files base chain documents rest
  | .entered location document resources =>
    -- What the document imports is gone through before what stands behind it.
    (visitAll files base (chain ++ [location]) (documents.insert document)
      (importVisits base location resources)).andThen fun
      | .error error => ⟨.error error, []⟩
      | .ok documents => visitAll files base chain documents rest

/-- A walk goes on from what its first visit comes upon. -/
theorem visitAll_cons (files : Files) (base : ImportBase) (chain : List Location)
    (documents : DocumentSet) (visit : Visit) (rest : List Visit) :
    visitAll files base chain documents (visit :: rest) =
      (goOn files base chain documents rest (visit.encounter files chain documents)).after
        (visit.notices ++ (visit.encounter files chain documents).notices) := by
  -- Both sides look at the same things in the same order.
  rw [visitAll, Visit.encounter]
  split
  · rename_i error missing
    simp [missing, goOn, Noted.after, Encounter.notices, Encounter.tried]
  · rename_i location found
    simp only [found]
    split
    · simp [goOn, Noted.after, Encounter.notices, Encounter.tried]
    · split
      · simp [goOn, Noted.after, Encounter.notices]
      · rw [Noted.andThen, notices_load]
        cases loaded : (Document.load files location.path).value with
        | error error => simp [goOn, Noted.after, Encounter.notices, Encounter.tried]
        | ok document =>
          cases declared : document.imports with
          | error error => simp [declared, goOn, Noted.after, Encounter.notices, Encounter.tried]
          | ok resources =>
            simp only [declared, goOn]
            exact Noted.after_after visit.notices [.loading location.path] _

/-- All that a visit can come upon, and what is known of the file then. -/
inductive Meets (files : Files) (chain : List Location) (documents : DocumentSet)
    (visit : Visit) : Encounter → Prop
  | missing {error : ConfigError} (missing : canonical files visit.target = .error error) :
      Meets files chain documents visit (.fault error none)
  | cycle {location : Location} (found : canonical files visit.target = .ok location)
      (opened : location ∈ chain) :
      Meets files chain documents visit
        (.fault (.cyclicImport ((chain ++ [location]).map Location.path)) none)
  | known {location : Location} (found : canonical files visit.target = .ok location)
      (shut : location ∉ chain) (known : documents.contains location.path) :
      Meets files chain documents visit (.known location)
  | unread {location : Location} {error : ConfigError}
      (found : canonical files visit.target = .ok location) (shut : location ∉ chain)
      (unknown : documents.contains location.path = false)
      (unread : (Document.load files location.path).value = .error error) :
      Meets files chain documents visit (.fault error (some location))
  | undeclared {location : Location} {document : Document} {error : ConfigError}
      (found : canonical files visit.target = .ok location) (shut : location ∉ chain)
      (unknown : documents.contains location.path = false)
      (parsed : ParsesTo files location document) (undeclared : document.imports = .error error) :
      Meets files chain documents visit (.fault error (some location))
  | entered {location : Location} {document : Document} {resources : List String}
      (found : canonical files visit.target = .ok location) (shut : location ∉ chain)
      (unknown : documents.contains location.path = false)
      (parsed : ParsesTo files location document) (asks : document.AsksFor resources) :
      Meets files chain documents visit (.entered location document resources)

/-- A visit comes upon one of these. -/
theorem Visit.meets (files : Files) (chain : List Location) (documents : DocumentSet)
    (visit : Visit) :
    Meets files chain documents visit (visit.encounter files chain documents) := by
  unfold Visit.encounter
  split
  · rename_i error missing
    exact .missing missing
  · rename_i location found
    split
    · rename_i opened
      exact .cycle found opened
    · rename_i shut
      split
      · rename_i known
        exact .known found shut known
      · -- From here on it is tried to load the file.
        rename_i unknown
        have unknown : documents.contains location.path = false := by simpa using unknown
        split
        · rename_i error unread
          exact .unread found shut unknown unread
        · rename_i document loaded
          have parsed := (parsesTo_iff (plain_of_canonical found)).2 loaded
          split
          · rename_i error undeclared
            exact .undeclared found shut unknown parsed undeclared
          · rename_i resources declared
            exact .entered found shut unknown parsed (Document.imports_eq_ok_iff.1 declared)

/-- A file that is passed over is no longer open, and was loaded before. -/
theorem Meets.of_known {location : Location}
    (meets : Meets files chain documents visit (.known location)) :
    canonical files visit.target = .ok location ∧ location ∉ chain ∧
      documents.contains location.path = true := by
  cases meets with
  | known found shut known => exact ⟨found, shut, known⟩

/-- A file that is entered is parsed for the first time, and it is known what it asks for. -/
theorem Meets.of_entered {location : Location} {document : Document} {resources : List String}
    (meets : Meets files chain documents visit (.entered location document resources)) :
    canonical files visit.target = .ok location ∧ location ∉ chain ∧
      documents.contains location.path = false ∧ ParsesTo files location document ∧
      document.AsksFor resources := by
  cases meets with
  | entered found shut unknown parsed asks => exact ⟨found, shut, unknown, parsed, asks⟩

/-- A file that it is tried to load is there, and was not loaded before. -/
theorem Meets.of_tried {error : ConfigError} {location : Location}
    (meets : Meets files chain documents visit (.fault error (some location))) :
    canonical files visit.target = .ok location ∧ documents.contains location.path = false := by
  -- A location is told only where loading it was tried.
  cases meets with
  | unread found _ unknown _ => exact ⟨found, unknown⟩
  | undeclared found _ unknown _ _ => exact ⟨found, unknown⟩

end BeanWiring
