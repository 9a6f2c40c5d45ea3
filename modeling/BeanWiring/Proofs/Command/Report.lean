import BeanWiring.Command.Run

/-!
What a failed run reports, told without the functions that write it.

A report names what was being done and then the causes, each with all its lines, of which the later
ones stand behind blanks; the causes of a source fault are named by their wordings, the nearest
first.
-/

namespace BeanWiring

/-- Whether texts without a line break are the lines of a text. -/
structure LinesOf (text : String) (lines : List String) : Prop where
  whole : text = "\n".intercalate lines
  unbroken : ∀ line ∈ lines, '\n' ∉ line.toList

/-- The pieces between the line breaks of a text are its lines. -/
theorem linesOf_splitText (text : String) : LinesOf text (splitText '\n' text) := by
  constructor
  case whole =>
    -- Cutting a text and joining the pieces gives the text again.
    have joined := intercalate_pieces '\n' text.toList
    have lists : String.toList ∘ String.ofList = id := funext fun chars => String.toList_ofList
    simp [← String.toList_inj, splitText, String.toList_intercalate, lists, joined]
  case unbroken =>
    intro line member
    obtain ⟨piece, known, rfl⟩ := List.mem_map.1 member
    simpa using not_mem_of_mem_pieces known

/-- A margin behind every separator is a margin in front of every text but the first. -/
theorem intercalate_margin (separator margin first : String) (others : List String) :
    (separator ++ margin).intercalate (first :: others) =
      separator.intercalate (first :: others.map (margin ++ ·)) := by
  -- The margin behind a separator stands in front of the next text.
  induction others generalizing first with
  | nil => simp
  | cons second rest ih => simp [ih, String.append_assoc]

/-- Whether a text holds the lines of another, the later ones behind blanks. -/
inductive Hangs (blanks : Nat) : String → String → Prop
  | lines {text hung first : String} {others : List String}
      (lines : LinesOf text (first :: others))
      (written : LinesOf hung
        (first :: others.map (String.ofList (List.replicate blanks ' ') ++ ·))) :
      Hangs blanks text hung

namespace Failure

/-- Indenting puts the later lines behind blanks. -/
theorem hangs_indent (blanks : Nat) (text : String) : Hangs blanks text (indent blanks text) := by
  have lines := linesOf_splitText text
  unfold indent
  cases cut : splitText '\n' text with
  | nil => exact absurd (List.map_eq_nil_iff.1 cut) (pieces_ne_nil '\n' text.toList)
  | cons first others =>
    rw [cut] at lines
    have margin : String.ofList ('\n' :: List.replicate blanks ' ') =
        "\n" ++ String.ofList (List.replicate blanks ' ') := by
      simp
    refine .lines lines ⟨by rw [margin, intercalate_margin], ?_⟩
    -- Blanks in front bring no line break into a line.
    intro line member
    rcases List.mem_cons.1 member with rfl | later
    · exact lines.unbroken line (by simp)
    · obtain ⟨other, known, rfl⟩ := List.mem_map.1 later
      simpa using lines.unbroken other (by simp [known])

/-- Whether texts tell causes: a single one behind blanks, and several each behind its number. -/
inductive TellsCauses : List String → List String → Prop
  | one {cause hung : String} (hangs : Hangs 4 cause hung) : TellsCauses [cause] ["    " ++ hung]
  | several {causes told : List String} (many : 1 < causes.length)
      (length : told.length = causes.length)
      (each : ∀ (number : Nat) (cause : String), causes[number]? = some cause →
        ∃ hung, Hangs 7 cause hung ∧ told[number]? =
          some ("    " ++ toString number ++ ": " ++ hung)) : TellsCauses causes told

/-- The lines of causes tell them. -/
theorem tellsCauses_causeLines {causes : List String} (nonempty : causes ≠ []) :
    TellsCauses causes (causeLines causes) := by
  match causes with
  | [] => exact absurd rfl nonempty
  | [cause] => exact .one (hangs_indent 4 cause)
  | first :: second :: rest =>
    refine .several (by simp) (by simp [causeLines]) ?_
    -- Each cause is numbered by its position.
    intro number cause known
    refine ⟨indent 7 cause, hangs_indent 7 cause, ?_⟩
    simp only [causeLines, List.getElem?_map, List.getElem?_zipIdx, known, Option.map_some]
    simp [toString]

/-- The report of a failure: what was being done, and the causes if there are any. -/
inductive Reports : Failure → String → Prop
  | alone (message : String) : Reports ⟨message, []⟩ ("Error: " ++ message ++ "\n")
  | caused {message : String} {causes told : List String} (tells : TellsCauses causes told) :
      Reports ⟨message, causes⟩
        ("Error: " ++ message ++ "\n\nCaused by:\n" ++ "\n".intercalate told ++ "\n")

/-- A failure is reported with its message and all its causes. -/
theorem reports_report (failure : Failure) : failure.Reports failure.report := by
  obtain ⟨message, causes⟩ := failure
  -- Without causes the report ends behind the message.
  cases causes with
  | nil => simpa [report] using Reports.alone message
  | cons first rest =>
    simpa [report, String.append_assoc] using
      Reports.caused (tellsCauses_causeLines (List.cons_ne_nil first rest))

end Failure

/-- The text by which a configuration fault is told: its kind, the files, and what is amiss. -/
inductive ConfigError.Reads : ConfigError → String → Prop
  | fileNotFound (path : Path) : Reads (.fileNotFound path) ("配置文件不存在: " ++ path.text)
  | unreadable (path : Path) (reason : String) :
      Reads (.unreadable path reason)
        ("配置文件读取失败: " ++ path.text ++ ", 原因: " ++ reason)
  | malformed (path : Path) (diagnostics : List String) :
      Reads (.malformed path diagnostics)
        ("配置解析失败: " ++ path.text ++ ": " ++ "; ".intercalate diagnostics)
  | importWithoutResource (path : Path) :
      Reads (.importWithoutResource path) ("导入声明缺少 resource 属性: " ++ path.text)
  | cyclicImport (chain : List Path) :
      Reads (.cyclicImport chain)
        ("检测到循环导入: " ++ " -> ".intercalate (chain.map Path.text))
  | invalidOptions (reason : String) :
      Reads (.invalidOptions reason) ("配置选项无效: " ++ reason)

/-- The text by which a definition fault is told: its kind, what is amiss, and the bean. -/
inductive DefinitionError.Reads : DefinitionError → String → Prop
  | invalidScope (bean scope : String) :
      Reads (.invalidScope bean scope)
        ("无效的 bean 作用域: " ++ scope ++ " (bean: " ++ bean ++ ")")
  | invalidAspectType (bean aspectType : String) :
      Reads (.invalidAspectType bean aspectType)
        ("无效的切面类型: " ++ aspectType ++ " (bean: " ++ bean ++ ")")
  | missingAttribute (bean element key : String) :
      Reads (.missingAttribute bean element key)
        ("缺少必需属性: <" ++ element ++ "> 的 " ++ key ++ " (bean: " ++ bean ++ ")")
  | missingElement (bean element : String) :
      Reads (.missingElement bean element)
        ("缺少必需元素: <" ++ element ++ "> (bean: " ++ bean ++ ")")
  | beanNotFound (bean : String) : Reads (.beanNotFound bean) ("bean 定义不存在: " ++ bean)

/-- A configuration fault is told by its wording. -/
theorem ConfigError.reads_message (error : ConfigError) : error.Reads error.message := by
  cases error <;> constructor

/-- A definition fault is told by its wording. -/
theorem DefinitionError.reads_message (error : DefinitionError) : error.Reads error.message := by
  cases error <;> constructor

/-- The texts by which a source fault is told, each one the cause of the one in front of it. -/
inductive SourceError.ToldBy : SourceError → List String → Prop
  | unreadable {path : Path} {reason wording : String}
      (reads : ConfigError.Reads (.unreadable path reason) wording) :
      ToldBy (.config (.unreadable path reason)) ["配置错误: " ++ wording, wording, reason]
  | config {cause : ConfigError} {wording : String}
      (other : ∀ path reason, cause ≠ .unreadable path reason) (reads : cause.Reads wording) :
      ToldBy (.config cause) ["配置错误: " ++ wording, wording]
  | definition {cause : DefinitionError} {wording : String} (reads : cause.Reads wording) :
      ToldBy (.definition cause) ["定义错误: " ++ wording, wording]
  | startup (reason : String) : ToldBy (.startup reason) ["基础设施启动失败: " ++ reason]

/-- A source fault is told by its wording and those of its causes. -/
theorem SourceError.toldBy_causes (error : SourceError) :
    error.ToldBy (error.message :: error.causes) := by
  cases error with
  | config cause =>
    -- Only a file that cannot be read has a cause of its own.
    cases cause with
    | unreadable path reason => exact .unreadable (ConfigError.reads_message _)
    | _ => exact .config (by simp) (ConfigError.reads_message _)
  | definition cause => exact .definition cause.reads_message
  | startup reason => exact .startup reason

end BeanWiring
