import BeanWiring.Files.Path

/-! Notices: what is told about the work while it is done, each with its level and its wording. -/

namespace BeanWiring

/-- The levels of notices, the most talkative first. -/
inductive Level where
  | trace
  | debug
  | info
  | warn
  | error
deriving DecidableEq, Repr, Inhabited

/-- The levels in order. -/
def Level.all : List Level :=
  [.trace, .debug, .info, .warn, .error]

/-- The name of a level. -/
def Level.name : Level → String
  | .trace => "TRACE"
  | .debug => "DEBUG"
  | .info => "INFO"
  | .warn => "WARN"
  | .error => "ERROR"

/-- What can be told about the work. -/
inductive Notice where
  | resolving (root : Path)
  | resolved (count : Nat)
  | loading (path : Path)
  | alreadyLoaded (path : Path)
  | importing (importer target : Path)
  | firstLookup (filename : Path)
  | undeclared (bean : String)
  | declared (bean : String) (path : Path)
  /-- An inline bean inside another one was given a name. -/
  | named (bean name : String)
  /-- Of several pointcuts of an aspect only the last is kept. -/
  | pointcutsDropped (bean aspect : String) (count : Nat)
  | sourceAdded (name : String)
  | provided (source bean : String)
  | registered (bean : String)
  | documentChosen (path : Path)
  | documentSourceMade (filename : Path)
  | logStarted
  | chainBuilt (sources : List String)
  | found (bean className : String)
deriving DecidableEq, Repr

/-- Names in a list, each in quotes. -/
def quotedList (names : List String) : String :=
  "[" ++ ", ".intercalate (names.map fun name => "\"" ++ name ++ "\"") ++ "]"

namespace Notice

/-- The level of a notice. -/
def level : Notice → Level
  | .resolving _ | .resolved _ | .documentChosen _ => .info
  | .logStarted | .chainBuilt _ | .found _ _ => .info
  | .pointcutsDropped _ _ _ => .warn
  | _ => .debug

/-- The wording of a notice. -/
def message : Notice → String
  | .resolving root => "解析配置文档: " ++ root.text
  | .resolved count => s!"配置文档解析完成，共 {count} 个文档"
  | .loading path => "加载配置文档: " ++ path.text
  | .alreadyLoaded path => "跳过重复导入: " ++ path.text
  | .importing importer target => importer.text ++ " 导入 " ++ target.text
  | .firstLookup filename => "首次查找，解析 " ++ filename.text
  | .undeclared bean => "未找到 bean 声明: " ++ bean
  | .declared bean path => "在 " ++ path.text ++ " 中找到 bean " ++ bean
  | .named bean name => s!"为 {bean} 中的内联 bean 生成标识: {name}"
  -- This is a warning; all others tell of progress.
  | .pointcutsDropped bean aspect count =>
    s!"bean {bean} 的切面 {aspect} 声明了 {count} 个切点，只保留最后一个"
  | .sourceAdded name => "添加定义源: " ++ name
  | .provided source bean => s!"定义源 {source} 提供了 bean {bean}"
  | .registered bean => "注册内存定义: " ++ bean
  | .documentChosen path => "添加 XML 定义文档: " ++ path.text
  | .documentSourceMade filename => "添加 XML 定义驱动: " ++ filename.text
  | .logStarted => "日志系统初始化完成"
  | .chainBuilt sources => "定义源链构建完成: " ++ quotedList sources
  | .found bean className => s!"找到 bean {bean} ({className})"

/-- The path that is followed after a notice. -/
def followed? : Notice → Option Path
  | .importing _ target => some target
  | .firstLookup filename => some filename
  | _ => none

end Notice

/-- A result together with what was told on the way to it. -/
structure Noted (α : Type) where
  value : α
  notices : List Notice := []

namespace Noted

/-- A result on whose way something was told before. -/
def after {α : Type} (notices : List Notice) (result : Noted α) : Noted α :=
  ⟨result.value, notices ++ result.notices⟩

/-- Goes on with a result; what is told later follows. -/
def andThen {α β : Type} (first : Noted α) (next : α → Noted β) : Noted β :=
  (next first.value).after first.notices

/-- Changes a result and not what was told. -/
def map {α β : Type} (change : α → β) (result : Noted α) : Noted β :=
  ⟨change result.value, result.notices⟩

/-- What is told changes no result. -/
@[simp] theorem value_after {α : Type} (notices : List Notice) (result : Noted α) :
    (result.after notices).value = result.value := rfl

/-- The result of two steps is that of the second on the result of the first. -/
@[simp] theorem value_andThen {α β : Type} (first : Noted α) (next : α → Noted β) :
    (first.andThen next).value = (next first.value).value := rfl

/-- What was told before comes first. -/
@[simp] theorem notices_after {α : Type} (notices : List Notice) (result : Noted α) :
    (result.after notices).notices = notices ++ result.notices := rfl

/-- Two steps tell what the first tells and then what the second does. -/
@[simp] theorem notices_andThen {α β : Type} (first : Noted α) (next : α → Noted β) :
    (first.andThen next).notices = first.notices ++ (next first.value).notices := rfl

/-- What is told in two goes before a result is told in one. -/
theorem after_after {α : Type} (earlier later : List Notice) (result : Noted α) :
    (result.after later).after earlier = result.after (earlier ++ later) := by
  simp only [after, List.append_assoc]

/-- A changed result is the change of the result. -/
@[simp] theorem value_map {α β : Type} (change : α → β) (result : Noted α) :
    (result.map change).value = change result.value := rfl

end Noted

end BeanWiring
