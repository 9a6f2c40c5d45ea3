import BeanWiring.Source.Documents

/-! Chains of sources: the first source that has a definition of a bean answers for all of them. -/

namespace BeanWiring

/-- A source of definitions. -/
inductive Source where
  /-- Definitions registered in a cell. -/
  | memory (cell : Nat)
  | documents (source : DocumentSource)
  /-- A source of the caller's own, with a name and an answer for each bean. -/
  | external (name : String) (answer : String → Except SourceError (Option Definition))

namespace Source

/-- The name of a source. -/
def name : Source → String
  | .memory _ => "memory"
  | .documents _ => "xml"
  | .external name _ => name

/-- Asks a source for the definition of a bean, which it need not have. -/
def find (source : Source) (files : Files) (store : Store) (bean : String) :
    Asked SourceError (Option Definition) :=
  match source with
  | .memory cell => ⟨.ok ((store.memory cell).find? bean), store, []⟩
  | .documents source => source.lookup files store bean none
  | .external _ answer => ⟨answer bean, store, []⟩

end Source

/-- Sources in the order in which they are asked. -/
structure Chain where
  sources : List Source := []

namespace Chain

/-- The chain with a source added at its end. -/
def push (chain : Chain) (source : Source) : Noted Chain :=
  ⟨⟨chain.sources ++ [source]⟩, [.sourceAdded source.name]⟩

/-- The chain with sources added in order. -/
def pushAll (chain : Chain) : List Source → Noted Chain
  | [] => ⟨chain, []⟩
  | source :: rest => (chain.push source).andThen fun chain => chain.pushAll rest

/-- Asks sources in order until one answers or fails. -/
def lookupAmong (files : Files) (store : Store) (bean : String) :
    List Source → Asked SourceError (Option Definition)
  | [] => ⟨.ok none, store, []⟩
  | source :: rest =>
    -- A fault ends the search as an answer does.
    (source.find files store bean).andThen fun answer store =>
      match answer with
      | some definition => ⟨.ok (some definition), store, [.provided source.name bean]⟩
      | none => lookupAmong files store bean rest

/-- The definition of a bean, if a source has one. -/
def lookup (chain : Chain) (files : Files) (store : Store) (bean : String) :
    Asked SourceError (Option Definition) :=
  lookupAmong files store bean chain.sources

/-- The definition of a bean; it is a fault that no source has one. -/
def require (chain : Chain) (files : Files) (store : Store) (bean : String) :
    Asked SourceError Definition :=
  (chain.lookup files store bean).andThen fun answer store =>
    match answer with
    | some definition => ⟨.ok definition, store, []⟩
    | none => ⟨.error (.definition (.beanNotFound bean)), store, []⟩

/-- Whether a source has a definition of a bean. -/
def contains (chain : Chain) (files : Files) (store : Store) (bean : String) :
    Asked SourceError Bool :=
  (chain.lookup files store bean).map Option.isSome

/-- The names of the sources in order. -/
def sourceNames (chain : Chain) : List String :=
  chain.sources.map Source.name

/-- The number of sources. -/
def size (chain : Chain) : Nat :=
  chain.sources.length

/-- Whether there is no source. -/
def isEmpty (chain : Chain) : Bool :=
  chain.sources.isEmpty

/-- The chain in words, for display. -/
def describe (chain : Chain) : String :=
  "DefinitionSourceChain \x7b sources: " ++ quotedList chain.sourceNames ++ " \x7d"

end Chain

end BeanWiring
