import BeanWiring.Import.Resolution
import BeanWiring.Settings.Logging
import BeanWiring.Toml.Reader

/-! Settings of document sources, and of a whole composition of them, as text and as files. -/

namespace BeanWiring

/-- The settings of a document source: its root document, and what imports are relative to. -/
structure SourceOptions where
  filename : Path
  importBase : ImportBase := .document
deriving DecidableEq, Repr, Inhabited

/--
The settings of a composition: the log, if it is to be started,
and the documents in order of lookup.
-/
structure Composition where
  logging : Option Logging := none
  sources : List SourceOptions := []
deriving DecidableEq, Repr, Inhabited

/-- The name of an import base in settings. -/
def ImportBase.name : ImportBase → String
  | .document => "document"
  | .workingDirectory => "working_directory"

/-- The import base of a name in settings. -/
def ImportBase.ofName? (name : String) : Option ImportBase :=
  [ImportBase.document, .workingDirectory].find? fun base => base.name == name

/-- Whether a value holds nothing. -/
def Toml.isVoid : Toml → Bool
  | .list items => items.isEmpty
  | .table _ entries => entries.isEmpty
  | .tables items => items.isEmpty
  | _ => false

/-- The import base of a value: a name, or a table of that name alone with nothing under it. -/
def ImportBase.ofToml? : Toml → Option ImportBase
  | .string name => ofName? name
  | .table _ [(name, value)] => if value.isVoid then ofName? name else none
  | _ => none

/-- A fault of settings that cannot be read. -/
def invalidSettings : ConfigError :=
  .invalidOptions "invalid settings"

/-- The text of the file of settings that a path leads to. -/
def readSettings (files : Files) (path : Path) : Except ConfigError String :=
  match files.locate path with
  | none => .error (.fileNotFound path)
  | some location => (files.readText location).mapError (.unreadable path)

namespace SourceOptions

/-- The settings given as two values, the second of which may be absent. -/
def build (filename importBase : Option Toml) : Option SourceOptions :=
  match filename, importBase with
  | some (.string filename), none => some ⟨⟨filename⟩, .document⟩
  | some (.string filename), some base =>
    (ImportBase.ofToml? base).map fun base => ⟨⟨filename⟩, base⟩
  | _, _ => none

/--
The settings of a value: a table, whose other keys are ignored, or a list of settings in order.
-/
def ofToml? : Toml → Option SourceOptions
  | .table _ entries => build (Entries.get? "filename" entries) (Entries.get? "import_base" entries)
  | .list items => build items[0]? items[1]?
  | _ => none

/-- The settings that a text holds. -/
def parse (content : String) : Except ConfigError SourceOptions :=
  match (Toml.parse? content).bind fun table => ofToml? table.toValue with
  | some options => .ok options
  | none => .error invalidSettings

/-- The settings that a file holds. -/
def load (files : Files) (path : Path) : Except ConfigError SourceOptions := do
  parse (← readSettings files path)

end SourceOptions

/-- The settings of the log that a text holds. -/
def Logging.parse (content : String) : Except ConfigError Logging :=
  match (Toml.parse? content).bind fun table => Logging.ofToml? table.toValue with
  | some logging => .ok logging
  | none => .error invalidSettings

namespace Composition

/-- The settings of document sources in a list of them. -/
def sourcesOfToml? : Toml → Option (List SourceOptions)
  | .list items => items.mapM SourceOptions.ofToml?
  | .tables items => items.mapM fun entries => SourceOptions.ofToml? (.table .headed entries)
  | _ => none

/-- The settings of a table, whose other keys are ignored; both parts may be absent. -/
def ofTable? (table : TomlTable) : Option Composition := do
  let logging ← match Entries.get? "logging" table.entries with
    | none => some none
    | some value => (Logging.ofToml? value).map some
  let sources ← match Entries.get? "xml" table.entries with
    | none => some []
    | some value => sourcesOfToml? value
  return ⟨logging, sources⟩

/-- The settings that a text holds. -/
def parse (content : String) : Except ConfigError Composition :=
  match (Toml.parse? content).bind ofTable? with
  | some composition => .ok composition
  | none => .error invalidSettings

/-- The settings with relative documents under a directory. -/
def relativeTo (directory : Path) (composition : Composition) : Composition :=
  { composition with sources := composition.sources.map fun options =>
      { options with filename := directory.join options.filename } }

/-- The settings that a file holds; its relative documents stand beside it. -/
def load (files : Files) (path : Path) : Except ConfigError Composition := do
  let composition ← parse (← readSettings files path)
  -- Joining leaves absolute documents alone.
  return match path.parent? with
    | some directory => composition.relativeTo directory
    | none => composition

end Composition

end BeanWiring
