import BeanWiring.Assembly.Bean
import BeanWiring.Settings.Logging

/-!
What sources of definitions share and change: supplies of names,
loaded documents and registered definitions.

Each is kept in a cell under a number. A cell not used yet is empty,
and new ones have numbers never used.
-/

namespace BeanWiring

/-- Definitions registered under their names, one for each name. -/
structure MemorySource where
  definitions : List Definition := []
deriving DecidableEq, Repr, Inhabited

namespace MemorySource

/-- The definition of a bean. -/
def find? (source : MemorySource) (bean : String) : Option Definition :=
  source.definitions.find? fun definition => definition.name == bean

/-- The source without the definition of a bean. -/
def remove (source : MemorySource) (bean : String) : MemorySource :=
  ⟨source.definitions.filter fun definition => definition.name != bean⟩

/-- The source with a definition in place of the one that its bean had. -/
def register (source : MemorySource) (definition : Definition) : MemorySource :=
  ⟨definition :: (source.remove definition.name).definitions⟩

/-- The number of definitions. -/
def size (source : MemorySource) : Nat :=
  source.definitions.length

/-- Whether there is no definition. -/
def isEmpty (source : MemorySource) : Bool :=
  source.definitions.isEmpty

/-- A removed bean has no definition. -/
@[simp] theorem find?_remove_self (source : MemorySource) (bean : String) :
    (source.remove bean).find? bean = none := by
  simp [find?, remove]

/-- Other beans keep their definitions when one is removed. -/
theorem find?_remove_other {bean other : String} (distinct : other ≠ bean)
    (source : MemorySource) : (source.remove bean).find? other = source.find? other := by
  -- A definition of the other bean passes the filter, so the first one stays the first.
  simp only [find?, remove, List.find?_filter]
  congr 1
  funext definition
  by_cases same : definition.name = other <;> simp_all

/-- A registered definition is found under its name. -/
@[simp] theorem find?_register_self (source : MemorySource) (definition : Definition) :
    (source.register definition).find? definition.name = some definition := by
  simp [find?, register]

/-- Other beans keep their definitions when one is registered. -/
theorem find?_register_other {definition : Definition} {other : String}
    (distinct : other ≠ definition.name) (source : MemorySource) :
    (source.register definition).find? other = source.find? other := by
  rw [← find?_remove_other distinct source]
  -- The definition at the front is passed by.
  simp [find?, register, distinct.symm]

end MemorySource

/-- The cells that sources refer to. -/
structure Store where
  /-- The first number that no cell has yet. -/
  fresh : Nat := 0
  names : Nat → Names := fun _ => {}
  /-- The documents of a source, once they are loaded. -/
  loaded : Nat → Option DocumentSet := fun _ => none
  memory : Nat → MemorySource := fun _ => {}
  /-- Whether the log of the process has been started. -/
  logging : Bool := false

/-- The contents of cells after one of them was set. -/
def setCell {α : Type} (cells : Nat → α) (cell : Nat) (content : α) : Nat → α :=
  fun other => if other = cell then content else cells other

/-- A cell holds what was put into it. -/
@[simp] theorem setCell_self {α : Type} (cells : Nat → α) (cell : Nat) (content : α) :
    setCell cells cell content cell = content := by
  simp [setCell]

/-- Other cells keep what they hold. -/
theorem setCell_other {α : Type} {cell other : Nat} (distinct : other ≠ cell) (cells : Nat → α)
    (content : α) : setCell cells cell content other = cells other := by
  simp [setCell, distinct]

namespace Store

/-- A cell never used before. -/
def newCell (store : Store) : Nat × Store :=
  (store.fresh, { store with fresh := store.fresh + 1 })

/-- The store with a supply of names set. -/
def setNames (store : Store) (cell : Nat) (names : Names) : Store :=
  { store with names := setCell store.names cell names }

/-- The store with the documents of a source set. -/
def setDocuments (store : Store) (cell : Nat) (documents : DocumentSet) : Store :=
  { store with loaded := setCell store.loaded cell (some documents) }

/-- The store with the definitions of a source set. -/
def setMemory (store : Store) (cell : Nat) (source : MemorySource) : Store :=
  { store with memory := setCell store.memory cell source }

/-- Registers a definition; the answer is the one it replaces. -/
def register (store : Store) (cell : Nat) (definition : Definition) :
    Noted (Option Definition × Store) :=
  let source := store.memory cell
  ⟨(source.find? definition.name, store.setMemory cell (source.register definition)),
    [.registered definition.name]⟩

/-- Removes the definition of a bean; the answer is the one removed. -/
def unregister (store : Store) (cell : Nat) (bean : String) : Option Definition × Store :=
  let source := store.memory cell
  (source.find? bean, store.setMemory cell (source.remove bean))

end Store

/-- What asking a source leaves behind: the outcome, the store, and what was told. -/
structure Asked (ε α : Type) where
  outcome : Except ε α
  store : Store
  notices : List Notice := []

namespace Asked

/-- A step that cannot fail. -/
def ofNoted {ε α : Type} (result : Noted (α × Store)) : Asked ε α :=
  ⟨.ok result.value.1, result.value.2, result.notices⟩

/-- Goes on with a successful outcome; a fault stays. -/
def andThen {ε α β : Type} (first : Asked ε α) (next : α → Store → Asked ε β) : Asked ε β :=
  match first.outcome with
  | .error error => ⟨.error error, first.store, first.notices⟩
  | .ok value =>
    let second := next value first.store
    { second with notices := first.notices ++ second.notices }

/-- After a fault nothing more is asked. -/
@[simp] theorem andThen_error {ε α β : Type} (error : ε) (store : Store) (notices : List Notice)
    (next : α → Store → Asked ε β) :
    andThen ⟨.error error, store, notices⟩ next = ⟨.error error, store, notices⟩ := rfl

/-- After a success the next step is taken on the store left behind. -/
@[simp] theorem andThen_ok {ε α β : Type} (value : α) (store : Store) (notices : List Notice)
    (next : α → Store → Asked ε β) :
    andThen ⟨.ok value, store, notices⟩ next =
      { next value store with notices := notices ++ (next value store).notices } := rfl

/-- Tells a fault in the words of the caller. -/
def mapError {ε δ α : Type} (change : ε → δ) (asked : Asked ε α) : Asked δ α :=
  { asked with outcome := asked.outcome.mapError change }

/-- Changes a successful outcome. -/
def map {ε α β : Type} (change : α → β) (asked : Asked ε α) : Asked ε β :=
  { asked with outcome := asked.outcome.map change }

end Asked

/-- Starts the log, which can be done once. -/
def Store.startLog (store : Store) (logging : Logging) : Asked SourceError Unit :=
  match logging.start store.logging with
  | .error error => ⟨.error error, store, []⟩
  | .ok () => ⟨.ok (), { store with logging := true }, [.logStarted]⟩

end BeanWiring
