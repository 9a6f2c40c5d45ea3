import BeanWiring.Proofs.Assembly.References
import BeanWiring.Proofs.Assembly.Session
import BeanWiring.Proofs.Import.Frame

/-!
What assembling does to documents: it gives ids to the inline beans that the declaration refers
to, and only if all of the declaration is sound.

Whatever a run of assemblies gave can be taken away again.
-/

namespace BeanWiring

/-- Documents that came from others by ids being given are marked with these ids. -/
theorem Grown.markedWith {origin documents : DocumentSet} {low high : Nat} {given : Given Place}
    (grown : Grown origin documents low high given) : documents.MarkedWith origin given := by
  obtain ⟨rfl, fits, _⟩ := grown
  exact fits.markedWith

/--
What the assembly of a declaration gives: an id to each inline bean without one that the
declaration refers to, and to no other. The definition refers to the bean by this id, unless the
entry of the bean was replaced.
-/
structure Assembly.GivesFor (assembly : Assembly) (documents : DocumentSet) (place : Place)
    (declaration : Element) (definition : Definition) (given : Given Place) : Prop where
  marked : assembly.documents.MarkedWith documents given
  places : ∀ other, other ∈ given.map (·.1) ↔
    documents.NamelessAt other ∧ ∃ path, other = place.down path ∧ declaration.RefersTo path
  used : ∀ gift ∈ given, ∃ path, gift.1 = place.down path ∧
    (gift.2 ∈ definition.references ∨ declaration.Drops path)

section Survey

variable {documents : DocumentSet} {bean : String} {seed : Option Definition} {place : Place}
  {declaration : Element} {draft : DefinitionDraft (List Nat)}

/-- Ids go to the beans without one that the declaration refers to. -/
theorem giftsAt_places_iff (there : documents.element? place = some declaration) (names : Names)
    (found : (surveyAt bean seed declaration).outcome = .ok draft) (other : Place) :
    other ∈ (giftsAt documents names place
        (surveyAt bean seed declaration).nameless).map (·.1) ↔
      documents.NamelessAt other ∧ ∃ path, other = place.down path ∧ declaration.RefersTo path := by
  rw [giftsAt_places, List.mem_map]
  -- The inline beans that a survey lists are just those that a value refers to.
  constructor
  · rintro ⟨path, member, rfl⟩
    obtain ⟨nameless, refers⟩ := (mem_nameless_iff there found path).1 member
    exact ⟨nameless, path, rfl, refers⟩
  · rintro ⟨nameless, path, rfl, refers⟩
    exact ⟨path, (mem_nameless_iff there found path).2 ⟨nameless, refers⟩, rfl⟩

/-- The definition refers to a bean by the id given to it, unless its entry was replaced. -/
theorem giftsAt_used (there : documents.element? place = some declaration) (names : Names)
    (found : (surveyAt bean seed declaration).outcome = .ok draft) {gift : Place × String}
    (member : gift ∈ giftsAt documents names place (surveyAt bean seed declaration).nameless) :
    let marked := documents.giveIds
      (giftsAt documents names place (surveyAt bean seed declaration).nameless)
    ∃ path, gift.1 = place.down path ∧
      (gift.2 ∈ (draft.fill fun path => marked.idAt (place.down path)).references ∨
        declaration.Drops path) := by
  obtain ⟨_, path, same, refers⟩ :=
    (giftsAt_places_iff there names found gift.1).1 (List.mem_map_of_mem member)
  -- The id that the definition reads in the end is the one that was given.
  have held := ((giftsAt_fits there names bean seed).declaredAt member).idAt
  rw [same] at held
  refine ⟨path, same, ?_⟩
  rw [← held]
  exact (surveyAt_references found _ refers).symm

end Survey

/-- An assembly of a declared bean that succeeds gives what its declaration calls for. -/
theorem assemble_givesFor {documents : DocumentSet} {names : Names} {bean : String}
    {seed : Option Definition} {answer : Option Definition}
    (sound : (assemble documents names bean seed).outcome = .ok answer)
    (declared : bean ∈ documents.declaredIds) :
    ∃ definition place declaration draft given, answer = some definition ∧
      documents.element? place = some declaration ∧
      MadeFrom documents (assemble documents names bean seed).documents bean seed place draft
        definition ∧
      Numbered names.issued (assemble documents names bean seed).names.issued given ∧
      (assemble documents names bean seed).GivesFor documents place declaration definition
        given := by
  -- The survey of the declaration tells which beans are named and where their ids go.
  obtain ⟨_, known⟩ := (documents.mem_declaredIds_iff bean).1 declared
  obtain ⟨place, finds⟩ := known.exists_finds
  obtain ⟨declaration, there, drawn, ended⟩ := assemble_declared finds names seed
  cases found : (surveyAt bean seed declaration).outcome with
  | error error =>
    simp only [found] at ended
    rw [ended.1] at sound
    cases sound
  | ok draft =>
    simp only [found] at ended
    obtain ⟨documents_after, outcome⟩ := ended
    rw [outcome] at sound
    cases sound
    -- The definition is made from the very declaration that was surveyed.
    obtain ⟨other, drafted, made⟩ := (assemble_made outcome).resolve_left
      fun undeclared => by cases undeclared.1.symm.trans finds
    obtain rfl : place = other := Option.some.inj (finds.symm.trans made.finds)
    refine ⟨_, place, declaration, drafted, _, rfl, there, made,
      by rw [drawn]; exact giftsAt_numbered documents names place _, ?_⟩
    constructor
    case marked =>
      rw [documents_after]
      exact (giftsAt_fits there names bean seed).markedWith
    case places => exact giftsAt_places_iff there names found
    case used =>
      intro gift member
      rw [documents_after]
      exact giftsAt_used there names found member

/--
Assembling leaves documents as they are if it fails, or if the bean is not declared. If it
succeeds, they are marked with the ids of the inline beans without one that the declaration refers
to. After any run of assemblies the documents are those from the beginning as soon as the ids given
to beans that had none are taken away.
-/
theorem assemble_only_gives_ids (documents : DocumentSet) (names : Names) :
    (∀ bean seed,
      let assembly := assemble documents names bean seed
      (∀ error, assembly.outcome = .error error → assembly.documents = documents) ∧
      (bean ∉ documents.declaredIds → assembly.documents = documents) ∧
      ∀ answer, assembly.outcome = .ok answer → bean ∈ documents.declaredIds →
        ∃ definition place declaration draft given, answer = some definition ∧
          documents.element? place = some declaration ∧
          MadeFrom documents assembly.documents bean seed place draft definition ∧
          Numbered names.issued assembly.names.issued given ∧
          assembly.GivesFor documents place declaration definition given) ∧
    ∀ requests,
      let reached := Workspace.run ⟨documents, names⟩ requests
      ∃ given, reached.documents.MarkedWith documents given ∧
        ∀ place id, (place, id) ∈ given ↔
          documents.NamelessAt place ∧ reached.documents.DeclaredAt id place := by
  refine ⟨?_, ?_⟩
  · intro bean seed assembly
    refine ⟨?_, ?_, fun answer sound declared => assemble_givesFor sound declared⟩
    · -- A fault is told by the survey, which comes before anything is given.
      intro error failed
      cases search : documents.placeOf? bean with
      | none => simp only [assembly, assemble_undeclared search]
      | some place =>
        obtain ⟨declaration, _, _, ended⟩ := assemble_declared search names seed
        cases found : (surveyAt bean seed declaration).outcome with
        | error fault =>
          simp only [found] at ended
          exact ended.2
        | ok draft =>
          simp only [found] at ended
          rw [ended.2] at failed
          cases failed
    · intro undeclared
      have search := (documents.placeOf?_eq_none_iff bean).2 undeclared
      simp only [assembly, assemble_undeclared search]
  · -- All that a run gave fits the documents as one, so it is taken away as one.
    intro requests reached
    obtain ⟨_, given, grown⟩ := Workspace.run_grown ⟨documents, names⟩ requests
    refine ⟨given, grown.markedWith, ?_⟩
    have documents : reached.documents = documents.giveIds given := grown.documents
    rw [documents]
    exact grown.fits.mem_iff

end BeanWiring
