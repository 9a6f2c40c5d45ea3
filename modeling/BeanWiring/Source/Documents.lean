import BeanWiring.Settings.Composition
import BeanWiring.Source.Store

/-!
Sources that read definitions from documents.

The documents are loaded at the first lookup that finds them sound, and are kept from then on.
-/

namespace BeanWiring

/--
A document source: its settings, the cell of its documents, and the cell of its supply of names.
-/
structure DocumentSource where
  options : SourceOptions
  documents : Nat
  names : Nat
deriving DecidableEq, Repr, Inhabited

namespace DocumentSource

/-- Whether the documents have been loaded. -/
def isLoaded (source : DocumentSource) (store : Store) : Bool :=
  (store.loaded source.documents).isSome

/-- The documents of the source, which are loaded if they have not been yet. -/
def load (source : DocumentSource) (files : Files) (store : Store) :
    Asked ConfigError DocumentSet :=
  match store.loaded source.documents with
  | some documents => ⟨.ok documents, store, []⟩
  | none =>
    let resolution := resolve files source.options.importBase source.options.filename
    let notices := .firstLookup source.options.filename :: resolution.notices
    match resolution.value with
    -- A failed attempt leaves nothing behind, so the next lookup tries again.
    | .error error => ⟨.error error, store, notices⟩
    | .ok documents => ⟨.ok documents, store.setDocuments source.documents documents, notices⟩

/--
Assembles the definition of a bean over a seed,
and keeps the documents and names as they are then.
-/
def lookup (source : DocumentSource) (files : Files) (store : Store) (bean : String)
    (seed : Option Definition) : Asked SourceError (Option Definition) :=
  ((source.load files store).mapError .config).andThen fun documents store =>
    -- Names drawn by a failed assembly stay drawn, though no document holds them.
    let assembly := assemble documents (store.names source.names) bean seed
    ⟨assembly.outcome.mapError .definition,
      (store.setDocuments source.documents assembly.documents).setNames source.names assembly.names,
      assembly.notices⟩

end DocumentSource

end BeanWiring
