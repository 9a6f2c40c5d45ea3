import BeanWiring.Files.Path

/-! The causes for which configuration, a definition or a lookup fails, and the wording of each. -/

namespace BeanWiring

/-- The causes for which configuration documents cannot be loaded. -/
inductive ConfigError where
  | fileNotFound (path : Path)
  | unreadable (path : Path) (reason : String)
  | malformed (path : Path) (diagnostics : List String)
  | importWithoutResource (path : Path)
  /-- The documents of a cycle in the order of their imports, the first one again at the end. -/
  | cyclicImport (chain : List Path)
  | invalidOptions (reason : String)
deriving DecidableEq, Repr

/-- The causes for which a bean declaration gives no definition. -/
inductive DefinitionError where
  | invalidScope (bean scope : String)
  | invalidAspectType (bean aspectType : String)
  | missingAttribute (bean element key : String)
  | missingElement (bean element : String)
  | beanNotFound (bean : String)
deriving DecidableEq, Repr

/-- The causes for which a source of definitions fails. -/
inductive SourceError where
  | config (cause : ConfigError)
  | definition (cause : DefinitionError)
  | startup (reason : String)
deriving DecidableEq, Repr

/-- The wording of a configuration fault. -/
def ConfigError.message : ConfigError → String
  | .fileNotFound path => "配置文件不存在: " ++ path.text
  | .unreadable path reason => "配置文件读取失败: " ++ path.text ++ ", 原因: " ++ reason
  | .malformed path diagnostics =>
    "配置解析失败: " ++ path.text ++ ": " ++ "; ".intercalate diagnostics
  | .importWithoutResource path => "导入声明缺少 resource 属性: " ++ path.text
  | .cyclicImport chain => "检测到循环导入: " ++ " -> ".intercalate (chain.map Path.text)
  | .invalidOptions reason => "配置选项无效: " ++ reason

/-- The wording of a definition fault. -/
def DefinitionError.message : DefinitionError → String
  | .invalidScope bean scope => s!"无效的 bean 作用域: {scope} (bean: {bean})"
  | .invalidAspectType bean aspectType => s!"无效的切面类型: {aspectType} (bean: {bean})"
  | .missingAttribute bean element key =>
    s!"缺少必需属性: <{element}> 的 {key} (bean: {bean})"
  | .missingElement bean element => s!"缺少必需元素: <{element}> (bean: {bean})"
  | .beanNotFound bean => "bean 定义不存在: " ++ bean

/-- The wording of a source fault names its kind and then its cause. -/
def SourceError.message : SourceError → String
  | .config cause => "配置错误: " ++ cause.message
  | .definition cause => "定义错误: " ++ cause.message
  | .startup reason => "基础设施启动失败: " ++ reason

/-- The bean that no source knows is told apart from every other fault. -/
def SourceError.isBeanNotFound : SourceError → Bool
  | .definition (.beanNotFound _) => true
  | _ => false

/-- The wordings of the causes behind a configuration fault, the nearest first. -/
def ConfigError.causes : ConfigError → List String
  | .unreadable _ reason => [reason]
  | _ => []

/-- The wordings of the causes behind a source fault, the nearest first. -/
def SourceError.causes : SourceError → List String
  | .config cause => cause.message :: cause.causes
  | .definition cause => [cause.message]
  | .startup _ => []

end BeanWiring
