import BeanWiring.Notice
import BeanWiring.Files.Tree
import BeanWiring.Import.DocumentSet

/-!
Loading a document together with all that it imports.

The walk goes into every import before the next one, keeps the chain of open documents,
and refuses an import that leads back into that chain.
A document met again elsewhere is not loaded twice.
-/

namespace BeanWiring

/-- What a relative import is relative to. -/
inductive ImportBase where
  /-- The directory of the document that declares the import. -/
  | document
  | workingDirectory
deriving DecidableEq, Repr, Inhabited

/-- Reads and parses the file at a location, which is told under a path. -/
def Document.loadAt (files : Files) (location : Location) (path : Path) :
    Except ConfigError Document :=
  match files.readText location with
  | .error reason => .error (.unreadable path reason)
  | .ok text => Document.parse path text

/-- Reads and parses the file that a path leads to. -/
def Document.load (files : Files) (path : Path) : Noted (Except ConfigError Document) :=
  match files.locate path with
  | none => ⟨.error (.fileNotFound path), [.loading path]⟩
  | some location => ⟨Document.loadAt files location path, [.loading path]⟩

/-- The location of a file that is to be visited, as it is named from the root. -/
def canonical (files : Files) (path : Path) : Except ConfigError Location :=
  if !files.pathExists path then .error (.fileNotFound path)
  else
    match files.canonicalize? path with
    | none => .error (.unreadable path "File name too long (os error 36)")
    | some location => .ok location

/-- A file is visited exactly where its path can be named from the root. -/
theorem canonical_eq_ok_iff {files : Files} {path : Path} {location : Location} :
    canonical files path = .ok location ↔ files.canonicalize? path = some location := by
  unfold canonical
  constructor
  · intro found
    split at found
    · cases found
    · split at found
      · cases found
      · rename_i there named
        -- A file that is visited is told by the place that was named.
        obtain rfl : there = location := Except.ok.inj found
        exact named
  · intro named
    simp [Files.pathExists, Files.locate_of_canonicalize? named, named]

/-- A path to a file that is to be visited leads there. -/
theorem locate_of_canonical {files : Files} {path : Path} {location : Location}
    (found : canonical files path = .ok location) : files.locate path = some location :=
  Files.locate_of_canonicalize? (canonical_eq_ok_iff.1 found)

/-- One file to be visited, and the document that imports it, if any does. -/
structure Visit where
  importer : Option Location := none
  target : Path
deriving DecidableEq, Repr

/-- The path that an import leads to; an absolute one is taken as it is. -/
def importTarget (base : ImportBase) (importer : Location) (resource : String) : Path :=
  match base with
  | .workingDirectory => ⟨resource⟩
  | .document =>
    match importer.path.parent? with
    | some directory => directory.join ⟨resource⟩
    | none => ⟨resource⟩

/-- What is told when a visit begins. -/
def Visit.notices (visit : Visit) : List Notice :=
  match visit.importer with
  | some importer => [.importing importer.path visit.target]
  | none => []

/-- The locations of the tree that no open document has. -/
def unopened (files : Files) (chain : List Location) : List Location :=
  files.locations.filter fun location => location ∉ chain

/-- Opening a document leaves fewer locations unopened. -/
theorem unopened_shrinks {files : Files} {chain : List Location} {location : Location}
    (member : location ∈ files.locations) (fresh : location ∉ chain) :
    (unopened files (chain ++ [location])).length < (unopened files chain).length := by
  -- The smaller list is the larger one filtered once more, and the location itself is dropped.
  have smaller : unopened files (chain ++ [location]) =
      (unopened files chain).filter fun other => other ≠ location := by
    simp only [unopened, List.filter_filter, List.mem_append, List.mem_singleton, not_or]
    congr 1
    funext other
    simp [and_comm]
  rw [smaller, List.length_filter_lt_length_iff_exists]
  exact ⟨location, by simp [unopened, member, fresh], by simp⟩

/--
Visits files in order, inside the chain of open documents, and adds what they load to the documents.

A location in the chain is a cycle, and one loaded before is passed over.
-/
def visitAll (files : Files) (base : ImportBase) (chain : List Location)
    (documents : DocumentSet) (visits : List Visit) : Noted (Except ConfigError DocumentSet) :=
  match visits with
  | [] => ⟨.ok documents, []⟩
  | visit :: rest =>
    Noted.after visit.notices <|
      match _found : canonical files visit.target with
      | .error error => ⟨.error error, []⟩
      | .ok location =>
        -- A cycle is seen before a repetition: every open document has been loaded.
        if _fresh : location ∈ chain then
          ⟨.error (.cyclicImport ((chain ++ [location]).map Location.path)), []⟩
        else if documents.contains location.path then
          (visitAll files base chain documents rest).after [.alreadyLoaded location.path]
        else
          (Document.load files location.path).andThen fun
            | .error error => ⟨.error error, []⟩
            | .ok document =>
              match document.imports with
              | .error error => ⟨.error error, []⟩
              | .ok resources =>
                let imported := resources.map fun resource =>
                  (⟨some location, importTarget base location resource⟩ : Visit)
                (visitAll files base (chain ++ [location]) (documents.insert document)
                  imported).andThen fun
                  | .error error => ⟨.error error, []⟩
                  | .ok documents => visitAll files base chain documents rest
termination_by ((unopened files chain).length, visits.length)
decreasing_by
  · exact Prod.Lex.right _ (by simp)
  · have known := Files.locate_mem (locate_of_canonical _found)
    exact Prod.Lex.left _ _ (unopened_shrinks known _fresh)
  · exact Prod.Lex.right _ (by simp)

/-- Loads a root document and all that it imports, directly or through others. -/
def resolve (files : Files) (base : ImportBase) (root : Path) :
    Noted (Except ConfigError DocumentSet) :=
  Noted.after [.resolving root] <|
    (visitAll files base [] {} [⟨none, root⟩]).andThen fun
      | .error error => ⟨.error error, []⟩
      | .ok documents => ⟨.ok documents, [.resolved documents.size]⟩

end BeanWiring
