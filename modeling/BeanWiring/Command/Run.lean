import BeanWiring.Bean.Json
import BeanWiring.Command.Arguments
import BeanWiring.Source.Plan

/-!
The command line tool: it looks up beans and prints their definitions, all of them or none.
-/

namespace BeanWiring

/-- What a run leaves: the exit status, the texts written to the two outputs, and what was told. -/
structure RunResult where
  exit : Nat
  output : String := ""
  errors : String := ""
  notices : List Notice := []
deriving DecidableEq, Repr, Inhabited

/-- A failed run says what it was doing and what caused it, the nearest cause first. -/
structure Failure where
  message : String
  causes : List String := []
deriving DecidableEq, Repr, Inhabited

namespace Failure

/-- A failure that a source fault is all there is to say about. -/
def ofSource (error : SourceError) : Failure :=
  ⟨error.message, error.causes⟩

/-- A source fault that came up while something was done. -/
def doing (message : String) (error : SourceError) : Failure :=
  ⟨message, error.message :: error.causes⟩

/-- A text whose further lines are indented. -/
def indent (blanks : Nat) (text : String) : String :=
  (String.ofList ('\n' :: List.replicate blanks ' ')).intercalate (splitText '\n' text)

/-- The causes on lines of their own, numbered if there are several. -/
def causeLines : List String → List String
  | [] => []
  | [cause] => ["    " ++ indent 4 cause]
  | causes => causes.zipIdx.map fun (cause, number) => s!"    {number}: " ++ indent 7 cause

/-- The report of a failure. -/
def report (failure : Failure) : String :=
  let causes :=
    if failure.causes.isEmpty then ""
    else "\n\nCaused by:\n" ++ "\n".intercalate (causeLines failure.causes)
  "Error: " ++ failure.message ++ causes ++ "\n"

end Failure

/-- The help text. -/
def helpText : String :=
  "\n".intercalate
    ["Ding bean 定义查看工具",
      "",
      "Usage: example-app [OPTIONS] <BEAN_IDS>...",
      "",
      "Arguments:",
      "  <BEAN_IDS>...  要查看的 bean id",
      "",
      "Options:",
      "  -b, --beans <BEANS>          XML 定义文档，可重复，按顺序查找",
      "  -c, --config <CONFIG>        组合配置文件 (TOML)",
      "      --log-level <LOG_LEVEL>  日志级别，只覆盖组合配置中的级别，其余日志设置保留",
      "  -h, --help                   Print help",
      -- The empty line at the end gives the text its last line break.
      ""]

namespace Arguments

/-- The plan that the configuration file gives, or an empty one without such a file. -/
def startPlan (arguments : Arguments) (files : Files) (store : Store) : Asked Failure ChainPlan :=
  match arguments.config with
  | some path =>
    (ChainPlan.ofFile path files store).mapError (.doing ("读取组合配置失败: " ++ path.text))
  | none =>
    let (plan, store) := ChainPlan.new store
    ⟨.ok plan, store, []⟩

/-- The chain that the arguments ask for; a chain without sources is of no use. -/
def chain (arguments : Arguments) (files : Files) (store : Store) : Asked Failure Chain :=
  (arguments.startPlan files store).andThen fun plan store =>
    -- The level of the arguments goes before that of the configuration file.
    let steps := (arguments.logLevel.map .level).toList ++ arguments.beans.map .file
    let built := (ChainPlan.follow files plan store steps).andThen fun plan store =>
      plan.build store
    (built.mapError .ofSource).andThen fun chain store =>
      if chain.isEmpty then
        ⟨.error ⟨"没有可用的定义源，请使用 --beans 或 --config 指定", []⟩, store, []⟩
      else ⟨.ok chain, store, []⟩

/-- The definitions of beans under their ids; the first that cannot be looked up ends the search. -/
def requireAll (files : Files) (chain : Chain) (store : Store)
    (found : List (String × Definition)) : List String → Asked Failure (List (String × Definition))
  | [] => ⟨.ok found, store, []⟩
  | id :: rest =>
    -- The beans after one that fails are not asked for.
    ((chain.require files store id).mapError (.doing ("查找 bean 失败: " ++ id))).andThen
      fun definition store =>
        let others := requireAll files chain store (Entries.set id definition found) rest
        { others with notices := .found id definition.className :: others.notices }

/-- The definitions of all beans asked for. -/
def definitions (arguments : Arguments) (files : Files) :
    Asked Failure (List (String × Definition)) :=
  (arguments.chain files {}).andThen fun chain store =>
    requireAll files chain store [] arguments.ids

end Arguments

/-- Definitions as one object, under their ids in the order of characters. -/
def definitionsJson (definitions : List (String × Definition)) : Json :=
  .object ((definitions.mergeSort fun left right => left.1 ≤ right.1).map fun (id, definition) =>
    (id, definition.toJson))

/-- Runs the tool. -/
def run (files : Files) (arguments : List String) : RunResult :=
  match Arguments.parse arguments with
  | .error .help => { exit := 0, output := helpText }
  | .error .wrong => { exit := 2 }
  -- The arguments are in order, so the tool looks up all beans before it prints anything.
  | .ok arguments =>
    let asked := arguments.definitions files
    match asked.outcome with
    | .error failure => { exit := 1, errors := failure.report, notices := asked.notices }
    | .ok definitions =>
      { exit := 0, output := (definitionsJson definitions).render 0 ++ "\n",
        notices := asked.notices }

end BeanWiring
