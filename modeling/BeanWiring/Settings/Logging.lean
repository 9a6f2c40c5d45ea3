import BeanWiring.Error
import BeanWiring.Notice
import BeanWiring.Markup.Reference
import BeanWiring.Toml.Value

/-! Settings of the log: its level, and what is shown beside each notice. -/

namespace BeanWiring

/-- The settings of the log; the level is kept as written until the log is started. -/
structure Logging where
  level : String := "info"
  showTarget : Bool := true
  showThreadIds : Bool := false
  showFile : Bool := false
  showLineNumber : Bool := false
  jsonFormat : Bool := false
deriving DecidableEq, Repr, Inhabited

/-- The number of a text of decimal digits, which may have a plus sign before it. -/
def decimalOf? (text : String) : Option Nat :=
  let digits :=
    match text.toList with
    | '+' :: rest => rest
    | others => others
  if digits.isEmpty then none
  else
    (digits.mapM (digitValue? 10)).map fun values =>
      values.foldl (fun number digit => number * 10 + digit) 0

/-- The level of a number: one for errors alone, up to five for everything. -/
def Level.ofNumber? (number : Nat) : Option Level :=
  if number = 0 then none else Level.all.reverse[number - 1]?

/-- The level of a text: a number, or a name in letters of either case. -/
def Level.ofText? (text : String) : Option Level :=
  match (decimalOf? text).bind Level.ofNumber? with
  | some level => some level
  | none => Level.all.find? fun level => text.toList.map Char.toUpper == level.name.toList

namespace Logging

/-- Settings for development: more is told, and more is shown with it. -/
def development : Logging :=
  { level := "debug", showThreadIds := true, showFile := true, showLineNumber := true }

/-- Settings for production: for machines to read. -/
def production : Logging :=
  { showTarget := false, jsonFormat := true }

/-- The level that the settings name. -/
def maxLevel (logging : Logging) : Except SourceError Level :=
  -- The text of the level is told as it was written.
  match Level.ofText? logging.level with
  | some level => .ok level
  | none => .error (.startup ("无效的日志级别: " ++ logging.level))

/-- Starts the log, which can be done once; the level is looked at first. -/
def start (started : Bool) (logging : Logging) : Except SourceError Unit :=
  -- A wrong level is told even if the log runs already.
  match logging.maxLevel with
  | .error error => .error error
  | .ok _ =>
    if started then
      .error (.startup "日志初始化失败: a global default trace dispatcher has already been set")
    else .ok ()

/--
The settings of a value: a table, whose other keys are ignored, or a list of settings in order.
A moment in time leaves every setting out.
-/
def ofToml? (value : Toml) : Option Logging :=
  match value with
  | .table _ entries => build fun _ key => Entries.get? key entries
  | .list items => build fun index _ => items[index]?
  | .moment => some {}
  | _ => none
where
  /-- A text that has a default. -/
  textOr (default : String) : Option Toml → Option String
    | none => some default
    | some (.string text) => some text
    | some _ => none
  /-- A truth value that has a default. -/
  boolOr (default : Bool) : Option Toml → Option Bool
    | none => some default
    | some (.bool value) => some value
    | some _ => none
  /-- The settings, each looked up by its place and by its key. -/
  build (get? : Nat → String → Option Toml) : Option Logging := do
    let standard : Logging := {}
    return {
      level := ← textOr standard.level (get? 0 "level")
      showTarget := ← boolOr standard.showTarget (get? 1 "show_target")
      showThreadIds := ← boolOr standard.showThreadIds (get? 2 "show_thread_ids")
      showFile := ← boolOr standard.showFile (get? 3 "show_file")
      showLineNumber := ← boolOr standard.showLineNumber (get? 4 "show_line_number")
      jsonFormat := ← boolOr standard.jsonFormat (get? 5 "json_format") }

end Logging

end BeanWiring
