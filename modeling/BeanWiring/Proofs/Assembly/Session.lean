import BeanWiring.Proofs.Assembly.Bean

/-!
Sessions: definitions assembled one after another from the same documents.

The ids given on the way are new, each leads to the bean that it was given to, and whatever an
id led to before it still leads to.
-/

namespace BeanWiring

/--
Documents that came from others by ids being given, each new and under a number of a range.
-/
structure Grown (origin documents : DocumentSet) (low high : Nat) (given : Given Place) :
    Prop where
  documents : documents = origin.giveIds given
  fits : origin.Fits given
  numbered : Numbered low high given

namespace Grown

variable {origin documents further : DocumentSet} {low middle high : Nat}
  {given more : Given Place}

/-- Documents grow out of themselves without any id. -/
theorem none (origin : DocumentSet) (low high : Nat) : Grown origin origin low high [] :=
  ⟨rfl, ⟨by simp, by simp, by simp, by simp⟩, .nil⟩

/-- Numbers of a range are numbers of a wider one. -/
theorem widen {wideLow wideHigh : Nat} (grown : Grown origin documents low high given)
    (down : wideLow ≤ low) (up : high ≤ wideHigh) :
    Grown origin documents wideLow wideHigh given :=
  ⟨grown.documents, grown.fits, grown.numbered.widen down up⟩

/-- Growing twice is growing by all the ids given. -/
theorem trans (grown : Grown origin documents low middle given)
    (later : Grown documents further middle high more) (down : low ≤ middle)
    (up : middle ≤ high) : Grown origin further low high (given ++ more) := by
  obtain ⟨rfl, fits, numbered⟩ := grown
  -- Ids given later are given behind those given before, with higher numbers.
  obtain ⟨rfl, others, renumbered⟩ := later
  exact ⟨(DocumentSet.giveIds_append given more origin).symm, fits.append others,
    numbered.append renumbered down up⟩

/-- A bean that has an id keeps it. -/
theorem declaredAt (grown : Grown origin documents low high given) {id : String} {place : Place}
    (declared : origin.DeclaredAt id place) : documents.DeclaredAt id place := by
  obtain ⟨rfl, fits, _⟩ := grown
  rw [DocumentSet.DeclaredAt, DocumentSet.Fits.labelAt?_elsewhere given origin]
  · exact declared
  · intro named
    -- Ids are given only where there was none.
    obtain ⟨gift, member, rfl⟩ := List.mem_map.1 named
    exact (fits.nameless gift member).not_declaredAt declared

/-- An id at a bean that had none was given to it. -/
theorem mem_given (grown : Grown origin documents low high given) {id : String} {place : Place}
    (nameless : origin.NamelessAt place) (declared : documents.DeclaredAt id place) :
    (place, id) ∈ given := by
  -- The set has grown by just what was given.
  rw [grown.documents] at declared
  exact (grown.fits.mem_iff place id).2 ⟨nameless, declared⟩

/-- What an id led to it still leads to. -/
theorem finds (grown : Grown origin documents low high given) {id : String} {place : Place}
    (finds : origin.Finds id place) : documents.Finds id place := by
  -- An id that led somewhere was declared, so it is none of those given.
  obtain ⟨rfl, fits, _⟩ := grown
  have known := (origin.mem_declaredIds_iff id).2 ⟨place, finds.declaredAt⟩
  rw [DocumentSet.Finds, fits.placeOf?_giveIds]
  · exact finds
  · intro named
    obtain ⟨gift, member, rfl⟩ := List.mem_map.1 named
    exact fits.fresh gift member known

end Grown

/-- The id of a bean that has one is the id at its place. -/
theorem DocumentSet.DeclaredAt.idAt {set : DocumentSet} {id : String} {place : Place}
    (declared : set.DeclaredAt id place) : set.idAt place = id := by
  obtain ⟨element, there, label⟩ := Option.map_eq_some_iff.1 declared
  -- The label of an element holds its id.
  have named : element.attribute? "id" = some id := (Prod.mk.inj label).2
  rw [element?] at there
  simp [DocumentSet.idAt, Element.idAmong, there, named]

/--
A definition that was assembled from the declaration of a bean, with the references in it as they
stand in documents that are there since.
-/
structure MadeFrom (documents reached : DocumentSet) (bean : String) (seed : Option Definition)
    (place : Place) (draft : DefinitionDraft (List Nat)) (definition : Definition) : Prop where
  finds : documents.Finds bean place
  surveyed : ∃ declaration, documents.element? place = some declaration ∧
    (surveyAt bean seed declaration).outcome = .ok draft
  filled : definition = draft.fill fun path => reached.idAt (place.down path)
  declared : ∀ path ∈ draft.places,
    reached.DeclaredAt (reached.idAt (place.down path)) (place.down path)

/-- The references in a definition stay right while ids are given. -/
theorem MadeFrom.grown {documents reached further : DocumentSet} {bean : String}
    {seed : Option Definition} {place : Place} {draft : DefinitionDraft (List Nat)}
    {definition : Definition} {low high : Nat} {given : Given Place}
    (made : MadeFrom documents reached bean seed place draft definition)
    (grown : Grown reached further low high given) :
    MadeFrom documents further bean seed place draft definition := by
  -- The beans keep the ids that the definition refers to them by.
  have same : ∀ path ∈ draft.places,
      reached.idAt (place.down path) = further.idAt (place.down path) := by
    intro path member
    exact (grown.declaredAt (made.declared path member)).idAt.symm
  refine ⟨made.finds, made.surveyed, ?_, ?_⟩
  · rw [made.filled]
    exact DefinitionDraft.fill_congr same
  · intro path member
    rw [← same path member]
    exact grown.declaredAt (made.declared path member)

/-- Assembling gives ids, under the numbers of the names that it draws. -/
theorem assemble_grown (documents : DocumentSet) (names : Names) (bean : String)
    (seed : Option Definition) :
    let assembly := assemble documents names bean seed
    names.issued ≤ assembly.names.issued ∧
      ∃ given, Grown documents assembly.documents names.issued assembly.names.issued given := by
  cases search : documents.placeOf? bean with
  | none =>
    -- Without a declaration nothing is drawn.
    rw [assemble_undeclared search]
    exact ⟨Nat.le_refl _, [], .none documents _ _⟩
  | some place =>
    obtain ⟨declaration, there, drawn, ended⟩ := assemble_declared search names seed
    refine ⟨?_, ?_⟩
    · rw [drawn]
      exact Names.issued_le_drawFor _ _ _
    · split at ended
      · -- Names drawn in vain leave the documents alone.
        refine ⟨[], ?_⟩
        rw [ended.2]
        exact .none documents _ _
      · refine ⟨_, ended.1, giftsAt_fits there names bean seed, ?_⟩
        rw [drawn]
        exact giftsAt_numbered documents names place _

/-- A definition is the seed of a bean without a declaration, or made from the declaration. -/
theorem assemble_made {documents : DocumentSet} {names : Names} {bean : String}
    {seed : Option Definition} {definition : Definition}
    (answer : (assemble documents names bean seed).outcome = .ok (some definition)) :
    (documents.placeOf? bean = none ∧ seed = some definition) ∨
      ∃ place draft, MadeFrom documents (assemble documents names bean seed).documents bean seed
        place draft definition := by
  cases search : documents.placeOf? bean with
  | none =>
    rw [assemble_undeclared search] at answer
    exact .inl ⟨rfl, Except.ok.inj answer⟩
  | some place =>
    obtain ⟨declaration, there, drawn, ended⟩ := assemble_declared search names seed
    have fits := giftsAt_fits there names bean seed
    have sound : (surveyAt bean seed declaration).Sound declaration.at? DefinitionDraft.places :=
      surveyDeclaration_sound bean (seed.getD { name := bean }) declaration
    cases found : (surveyAt bean seed declaration).outcome with
    | error error =>
      simp only [found] at ended
      rw [ended.1] at answer
      cases answer
    | ok draft =>
      simp only [found] at ended
      rw [ended.2] at answer
      refine .inr ⟨place, draft, search, ⟨declaration, there, found⟩, ?_, ?_⟩
      · exact (Option.some.inj (Except.ok.inj answer)).symm
      · intro path member
        rw [ended.1]
        -- An inline bean has the id that it had, or the one that was drawn for it.
        have declared : ∃ id, (documents.giveIds (giftsAt documents names place
            (surveyAt bean seed declaration).nameless)).DeclaredAt id (place.down path) := by
          rcases sound.complete draft found path member with nameless | ⟨id, before⟩
          · rw [← Names.drawFor_places documents.declaredIds names
              (surveyAt bean seed declaration).nameless] at nameless
            obtain ⟨gift, drew, rfl⟩ := List.mem_map.1 nameless
            exact ⟨gift.2, fits.declaredAt (List.mem_map_of_mem
              (f := fun gift => (place.down gift.1, gift.2)) drew)⟩
          · have grown : Grown documents _ names.issued _ _ :=
              ⟨rfl, fits, giftsAt_numbered documents names place _⟩
            refine ⟨id, grown.declaredAt ?_⟩
            rwa [DocumentSet.DeclaredAt, DocumentSet.labelAt?_down there]
        obtain ⟨id, held⟩ := declared
        rwa [held.idAt]

/-- Without a seed nothing is answered exactly for a bean that is not declared. -/
theorem assemble_eq_none_iff (documents : DocumentSet) (names : Names) (bean : String) :
    (assemble documents names bean none).outcome = .ok none ↔ bean ∉ documents.declaredIds := by
  rw [← documents.placeOf?_eq_none_iff]
  cases search : documents.placeOf? bean with
  | none => simp [assemble_undeclared search]
  | some place =>
    obtain ⟨declaration, _, _, ended⟩ := assemble_declared search names none
    -- A declared bean gives a definition or a fault, but never nothing.
    split at ended
    · simp [ended.1]
    · simp [ended.2]

/-- A request for the definition of a bean over a seed. -/
structure Request where
  bean : String
  seed : Option Definition := none
deriving DecidableEq, Repr, Inhabited

/-- Documents in use, and the names that are left for them. -/
structure Workspace where
  documents : DocumentSet
  names : Names
deriving Inhabited, Repr

namespace Workspace

/-- What assembling leaves behind on a request. -/
def assemble (workspace : Workspace) (request : Request) : Assembly :=
  BeanWiring.assemble workspace.documents workspace.names request.bean request.seed

/-- Serves a request. -/
def serve (workspace : Workspace) (request : Request) : Workspace :=
  ⟨(workspace.assemble request).documents, (workspace.assemble request).names⟩

/-- Serves requests in order, whether they succeed or fail. -/
def run (workspace : Workspace) (requests : List Request) : Workspace :=
  requests.foldl serve workspace

/-- Requests are served in two goes, one after the other. -/
theorem run_append (workspace : Workspace) (earlier later : List Request) :
    workspace.run (earlier ++ later) = (workspace.run earlier).run later := by
  simp [run]

/-- Over a whole run ids are given under the numbers of the names drawn in it. -/
theorem run_grown (workspace : Workspace) (requests : List Request) :
    workspace.names.issued ≤ (workspace.run requests).names.issued ∧
      ∃ given, Grown workspace.documents (workspace.run requests).documents
        workspace.names.issued (workspace.run requests).names.issued given := by
  induction requests generalizing workspace with
  | nil => exact ⟨Nat.le_refl _, [], .none _ _ _⟩
  | cons request rest ih =>
    -- The ids of one request are followed by those of the others.
    obtain ⟨first, given, grown⟩ :=
      assemble_grown workspace.documents workspace.names request.bean request.seed
    obtain ⟨others, more, further⟩ := ih (workspace.serve request)
    exact ⟨Nat.le_trans first others, given ++ more, grown.trans further first others⟩

/-- A definition that was answered in a run keeps its references to the end of it. -/
theorem run_made {workspace : Workspace} {request : Request} {definition : Definition}
    (answer : (workspace.assemble request).outcome = .ok (some definition))
    (later : List Request) :
    (workspace.documents.placeOf? request.bean = none ∧ request.seed = some definition) ∨
      ∃ place draft, MadeFrom workspace.documents (workspace.run (request :: later)).documents
        request.bean request.seed place draft definition := by
  -- Whatever follows the answer only gives ids.
  rcases assemble_made answer with seeded | ⟨place, draft, made⟩
  · exact .inl seeded
  · obtain ⟨_, given, grown⟩ := (workspace.serve request).run_grown later
    exact .inr ⟨place, draft, made.grown grown⟩

/--
All that a run changes in the documents are the ids that it gives to beans without one.

Each of them is under a number drawn in the run, stands at one bean of all the documents, and a
search for it ends there. Every definition answered on the way is either the seed of a bean
without a declaration, or holds, for each inline bean that its declaration refers to, the id that
this bean still has; if it had none in the beginning, this id is one of those given. What an id
led to in the beginning it still leads to.
-/
theorem run_designates (origin : DocumentSet) (names : Names) (requests : List Request) :
    let reached := Workspace.run ⟨origin, names⟩ requests
    ∃ given : Given Place,
      reached.documents = origin.giveIds given ∧
      Numbered names.issued reached.names.issued given ∧
      (∀ gift ∈ given, origin.NamelessAt gift.1 ∧
        (∀ place, reached.documents.DeclaredAt gift.2 place ↔ place = gift.1) ∧
        reached.documents.Finds gift.2 gift.1 ∧
        reached.documents.findBean? gift.2 = reached.documents.pathAndElement? gift.1) ∧
      (∀ earlier request later definition, requests = earlier ++ request :: later →
        let before := Workspace.run ⟨origin, names⟩ earlier
        (before.assemble request).outcome = .ok (some definition) →
          (before.documents.placeOf? request.bean = none ∧ request.seed = some definition) ∨
          ∃ place draft, MadeFrom before.documents reached.documents request.bean request.seed
              place draft definition ∧
            ∀ path ∈ draft.places, origin.NamelessAt (place.down path) →
              (place.down path, reached.documents.idAt (place.down path)) ∈ given) ∧
      ∀ id ∈ origin.declaredIds, ∃ place, origin.Finds id place ∧
        reached.documents.Finds id place ∧
        reached.documents.findBean? id = reached.documents.pathAndElement? place := by
  intro reached
  obtain ⟨_, given, grown⟩ := Workspace.run_grown ⟨origin, names⟩ requests
  have fits := grown.fits
  have documents : reached.documents = origin.giveIds given := grown.documents
  refine ⟨given, documents, grown.numbered, ?_, ?_, ?_⟩
  · intro gift member
    have finds : reached.documents.Finds gift.2 gift.1 := by
      rw [documents]
      exact fits.finds member
    refine ⟨fits.nameless gift member, ?_, finds, finds.findBean?_eq⟩
    intro place
    constructor
    · intro declared
      rw [documents] at declared
      exact fits.alone member declared
    · rintro rfl
      exact finds.declaredAt
  · intro earlier request later definition split before answer
    have rest : reached = before.run (request :: later) := by
      rw [← run_append, ← split]
    rcases before.run_made answer later with seeded | ⟨place, draft, made⟩
    · exact .inl seeded
    · rw [← rest] at made
      refine .inr ⟨place, draft, made, ?_⟩
      intro path member nameless
      -- The id at the place was given, since there was none in the beginning.
      exact grown.mem_given nameless (made.declared path member)
  · intro id declared
    obtain ⟨place, known⟩ := (origin.mem_declaredIds_iff id).1 declared
    obtain ⟨first, finds⟩ := known.exists_finds
    have still : reached.documents.Finds id first := grown.finds finds
    exact ⟨first, finds, still, still.findBean?_eq⟩

end Workspace

end BeanWiring
