import BeanWiring.Markup.Document

/-! Sets of documents in the order in which they were loaded, one for each path. -/

namespace BeanWiring

/-- Documents whose paths are pairwise different; the first loaded stands first. -/
structure DocumentSet where
  documents : List Document := []
deriving Inhabited, Repr

namespace DocumentSet

/-- The document under a path. -/
def get? (set : DocumentSet) (path : Path) : Option Document :=
  set.documents.find? fun document => document.path.same path

/-- Whether a document stands under a path. -/
def contains (set : DocumentSet) (path : Path) : Bool :=
  (set.get? path).isSome

/-- The set with a document added at the end, unless its path is there already. -/
def insert (set : DocumentSet) (document : Document) : DocumentSet :=
  if set.contains document.path then set else ⟨set.documents ++ [document]⟩

/-- Inserts a document and tells whether it was added. -/
def add (set : DocumentSet) (document : Document) : Bool × DocumentSet :=
  if set.contains document.path then (false, set) else (true, ⟨set.documents ++ [document]⟩)

/-- A document is inserted in one way, whether or not one asks if it was added. -/
theorem add_snd (set : DocumentSet) (document : Document) :
    (set.add document).2 = set.insert document := by
  rw [add, insert]
  split <;> rfl

/-- The paths in order. -/
def paths (set : DocumentSet) : List Path :=
  set.documents.map (·.path)

/-- The number of documents. -/
def size (set : DocumentSet) : Nat :=
  set.documents.length

/-- Whether there is no document. -/
def isEmpty (set : DocumentSet) : Bool :=
  set.documents.isEmpty

/--
The bean declaration with an id and the path of its document;
the first document that has one wins.
-/
def findBean? (set : DocumentSet) (id : String) : Option (Path × Element) :=
  set.documents.findSome? fun document =>
    (document.findBean? id).map fun declaration => (document.path, declaration)

/-- The ids that the documents declare, in order and with repetitions. -/
def declaredIds (set : DocumentSet) : List String :=
  set.documents.flatMap Document.beanIds

/-- The ids that the documents declare, each once, in the order of their characters. -/
def sortedIds (set : DocumentSet) : List String :=
  set.declaredIds.eraseDups.mergeSort fun left right => left ≤ right

/-- Changes the bean declaration with an id in the first of the documents that has one. -/
def updateAmong? (id : String) (change : Element → Element) :
    List Document → Option (List Document)
  | [] => none
  | document :: rest =>
    -- The documents behind the first change stay as they are.
    match document.updateBean? id change with
    | some changed => some (changed :: rest)
    | none => (updateAmong? id change rest).map (document :: ·)

/-- Changes the bean declaration with an id, if there is one. -/
def updateBean? (set : DocumentSet) (id : String) (change : Element → Element) :
    Option DocumentSet :=
  (updateAmong? id change set.documents).map fun documents => ⟨documents⟩

end DocumentSet

end BeanWiring
