import BeanWiring.Files.Path

/-! The arguments of the command line tool: options in any order among the ids of beans. -/

namespace BeanWiring

/-- What the tool is asked to do. -/
structure Arguments where
  /-- Documents, in the order in which they are asked. -/
  beans : List Path := []
  config : Option Path := none
  logLevel : Option String := none
  ids : List String := []
deriving DecidableEq, Repr, Inhabited

/-- Why there is nothing to do: help was asked for, or the arguments cannot be used. -/
inductive Usage where
  | help
  | wrong
deriving DecidableEq, Repr

/-- The options, each of which takes a value. -/
inductive Switch where
  | beans
  | config
  | logLevel
deriving DecidableEq, Repr

/-- The option of a long name. -/
def Switch.ofName? (name : String) : Option Switch :=
  if name = "beans" then some .beans
  else if name = "config" then some .config
  else if name = "log-level" then some .logLevel
  else none

/-- The option of a letter. -/
def Switch.ofLetter? (letter : Char) : Option Switch :=
  if letter = 'b' then some .beans else if letter = 'c' then some .config else none

/-- Whether an argument looks like an option; a single dash does not. -/
def looksLikeOption (argument : String) : Bool :=
  argument.toList.head? == some '-' && argument != "-"

namespace Arguments

/-- Sets an option: documents add up, the others are given once, and no path is empty. -/
def set (known : Arguments) (switch : Switch) (value : String) : Except Usage Arguments :=
  match switch with
  | .beans =>
    if value = "" then .error .wrong else .ok { known with beans := known.beans ++ [⟨value⟩] }
  -- Only documents may be named several times.
  | .config =>
    if value = "" ∨ known.config.isSome then .error .wrong
    else .ok { known with config := some ⟨value⟩ }
  | .logLevel =>
    if known.logLevel.isSome then .error .wrong else .ok { known with logLevel := some value }

/-- The arguments with ids added. -/
def addIds (known : Arguments) (ids : List String) : Arguments :=
  { known with ids := known.ids ++ ids }

/-- What one argument says. -/
inductive Token where
  /-- An option, with its value if it is attached. -/
  | switch (named : Switch) (attached : Option String)
  | id (id : String)
  /-- All that follows are ids. -/
  | onlyIds
  | help
  | unknown
deriving DecidableEq, Repr

/-- Reads a long option behind its two dashes; its value may follow an equals sign. -/
def Token.ofLong (text : List Char) : Token :=
  let name := String.ofList (text.takeWhile (· != '='))
  match text.dropWhile (· != '=') with
  | [] =>
    if name = "help" then .help
    else ((Switch.ofName? name).map fun named => .switch named none).getD .unknown
  | _ :: value =>
    let attached := some (String.ofList value)
    ((Switch.ofName? name).map fun named => .switch named attached).getD .unknown

/-- Reads a letter with what is attached to it; an equals sign may stand between. -/
def Token.ofLetter (letter : Char) (attached : List Char) : Token :=
  if letter = 'h' then .help
  else
    match Switch.ofLetter? letter with
    | none => .unknown
    | some named =>
      match attached with
      | [] => .switch named none
      -- An equals sign in front of the value is not part of it.
      | '=' :: value => .switch named (some (String.ofList value))
      | value => .switch named (some (String.ofList value))

/-- Reads one argument. -/
def Token.of (argument : String) : Token :=
  match argument.toList with
  | ['-', '-'] => .onlyIds
  | '-' :: '-' :: text => .ofLong text
  | '-' :: letter :: attached => .ofLetter letter attached
  | _ => .id argument

/-- Reads arguments in order; the first that cannot be used, or that asks for help, decides. -/
def read (known : Arguments) : List String → Except Usage Arguments
  | [] => .ok known
  | argument :: rest =>
    match Token.of argument with
    | .help => .error .help
    | .unknown => .error .wrong
    | .onlyIds => .ok (known.addIds rest)
    | .id id => (known.addIds [id]).read rest
    | .switch named (some value) => do (← known.set named value).read rest
    | .switch named none =>
      -- The value is the next argument, which must not look like an option itself.
      match rest with
      | [] => .error .wrong
      | value :: rest =>
        if looksLikeOption value then .error .wrong else do (← known.set named value).read rest

/-- Reads all arguments; at least one id has to be among them. -/
def parse (arguments : List String) : Except Usage Arguments := do
  let read ← read {} arguments
  if read.ids.isEmpty then .error .wrong else .ok read

end Arguments

end BeanWiring
