import BeanWiring.Proofs.Source.Interleaving
import BeanWiring.Proofs.Source.Stability

/-!
Sources that share a supply of names: no two beans ever get the same id, however the lookups in
them are interleaved.

A lookup that nothing comes between is the one that a source of documents serves.
-/

namespace BeanWiring

namespace Traffic

variable {traffic : Traffic} {held : DocumentSource} {flight : Flight} {documents : DocumentSet}

/-- Moves are made in two goes, one after the other. -/
theorem run_append (traffic : Traffic) (earlier later : List Move) :
    traffic.run (earlier ++ later) = (traffic.run earlier).run later := by
  simp [run]

/-- Of a lookup that went on twice the last state counts. -/
theorem advance_advance (traffic : Traffic) (held : DocumentSource) (first last : Flight)
    (names others : Names) :
    (traffic.advance held first names).advance held last others =
      traffic.advance held last others := by
  simp [advance, Store.setNames]

/-- The lookup that went on is where it was left. -/
theorem advance_flying (traffic : Traffic) (held : DocumentSource) (flight : Flight)
    (names : Names) : (traffic.advance held flight names).flights held.documents = some flight :=
  setCell_self _ _ _

/-- The names that a lookup left are those that it finds when it goes on. -/
theorem advance_names (traffic : Traffic) (held : DocumentSource) (flight : Flight)
    (names : Names) : (traffic.advance held flight names).store.names held.names = names :=
  setCell_self _ _ _

/-- A lookup that nothing comes between draws names until one is free. -/
theorem draws_name {path : List Nat} {rest : List (List Nat)} {number gap : Nat}
    (reach : number = (traffic.store.names held.names).issued + gap + 1)
    (flying : traffic.flights held.documents = some flight)
    (loaded : traffic.store.loaded held.documents = some documents)
    (pending : flight.pending = path :: rest)
    (free : anonymousName number ∉ documents.declaredIds)
    (taken : ∀ passed, (traffic.store.names held.names).issued < passed → passed < number →
      anonymousName passed ∈ documents.declaredIds) :
    ∃ moves drawn, (∀ move ∈ moves, move.source = held) ∧
      traffic.run moves = traffic.advance held
        { flight with
          pending := rest
          named := flight.named ++ [(flight.place.down path, anonymousName number)]
          drawn := drawn } ⟨number⟩ ∧
      (∀ earlier ∈ flight.drawn, earlier ∈ drawn) ∧
      ∀ between, (traffic.store.names held.names).issued < between → between ≤ number →
        between ∈ drawn := by
  -- The induction is on how many names are passed over.
  induction gap generalizing traffic flight with
  | zero =>
    obtain rfl : number = (traffic.store.names held.names).issued + 1 := reach
    refine ⟨[.draw held], ((traffic.store.names held.names).issued + 1) :: flight.drawn,
      by simp [Move.source], ?_, ?_, ?_⟩
    · have step := draw_flying flying loaded pending
      rw [Flight.draw, if_neg free] at step
      exact step
    · exact fun earlier member => List.mem_cons_of_mem _ member
    · intro between behind upto
      obtain rfl : between = (traffic.store.names held.names).issued + 1 := by omega
      exact List.mem_cons_self
  | succ gap ih =>
    have step := draw_flying flying loaded pending
    rw [Flight.draw, if_pos (taken _ (Nat.lt_succ_self _) (by omega))] at step
    have goes_on := advance_flying traffic held
      { flight with drawn := ((traffic.store.names held.names).issued + 1) :: flight.drawn }
      ⟨(traffic.store.names held.names).issued + 1⟩
    obtain ⟨moves, drawn, own, ran, kept, covers⟩ := ih
      (by simp only [advance_names]; omega) goes_on loaded pending
      (by
        intro passed behind before
        simp only [advance_names] at behind
        exact taken passed (by omega) before)
    refine ⟨.draw held :: moves, drawn, ?_, ?_, ?_, ?_⟩
    · intro move member
      rcases List.mem_cons.1 member with rfl | later
      · rfl
      · exact own move later
    · calc traffic.run (.draw held :: moves) = (traffic.draw held).run moves := rfl
        _ = _ := by rw [step, ran, advance_advance]
    · exact fun earlier member => kept earlier (List.mem_cons_of_mem _ member)
    · intro between behind upto
      simp only [advance_names] at covers
      by_cases next : between = (traffic.store.names held.names).issued + 1
      · exact kept between (next ▸ List.mem_cons_self)
      · exact covers between (by omega) upto

/-- A lookup that nothing comes between names all its beans as they are named in one go. -/
theorem draws_names {pending : List (List Nat)}
    (flying : traffic.flights held.documents = some flight)
    (loaded : traffic.store.loaded held.documents = some documents)
    (still : flight.pending = pending) :
    let all := (traffic.store.names held.names).drawFor documents.declaredIds pending
    ∃ moves drawn, (∀ move ∈ moves, move.source = held) ∧
      traffic.run moves = traffic.advance held
        { flight with
          pending := []
          named := flight.named ++ all.1.map fun gift => (flight.place.down gift.1, gift.2)
          drawn := drawn } all.2 ∧
      (∀ earlier ∈ flight.drawn, earlier ∈ drawn) ∧
      ∀ between, (traffic.store.names held.names).issued < between → between ≤ all.2.issued →
        between ∈ drawn := by
  -- The induction is on the beans that are still to be named.
  induction pending generalizing traffic flight with
  | nil =>
    refine ⟨[], flight.drawn, by simp, ?_, fun _ member => member, ?_⟩
    · simp only [run, List.foldl_nil, Names.drawFor, List.map_nil, List.append_nil, advance,
        Store.setNames, setCell_same]
      rw [← still]
      simp only [← flying, setCell_same]
    · intro between behind upto
      simp only [Names.drawFor] at upto
      omega
  | cons path rest ih =>
    have later := lt_freeAfter documents.declaredIds (traffic.store.names held.names).issued
    obtain ⟨gap, reach⟩ := Nat.exists_eq_add_of_lt later
    obtain ⟨moves, drawn, own, ran, kept, covers⟩ := draws_name reach flying loaded still
      (freeAfter_not_taken _ _) fun passed => taken_before_freeAfter
    -- The others are named from the supply that the first one left.
    have goes_on := advance_flying traffic held
      { flight with
        pending := rest
        named := flight.named ++ [(flight.place.down path, anonymousName (freeAfter
          documents.declaredIds (traffic.store.names held.names).issued))]
        drawn := drawn }
      ⟨freeAfter documents.declaredIds (traffic.store.names held.names).issued⟩
    obtain ⟨others, all, also, went, stay, cover⟩ := ih goes_on loaded rfl
    simp only [advance_names, advance_advance] at went cover
    refine ⟨moves ++ others, all, ?_, ?_, fun earlier member => stay _ (kept _ member), ?_⟩
    · intro move member
      rcases List.mem_append.1 member with first | second
      · exact own move first
      · exact also move second
    · rw [run_append, ran, went]
      simp [Names.drawFor, Names.nextFree]
    · intro between behind upto
      by_cases early : between ≤ freeAfter documents.declaredIds
          (traffic.store.names held.names).issued
      · exact stay between (covers between behind early)
      · exact cover between (by omega) upto

/-- Numbers that were lost stay so. -/
theorem lost_take (traffic : Traffic) (move : Move) :
    ∀ number ∈ traffic.lost, number ∈ (traffic.take move).lost := by
  -- A failed lookup adds its numbers, and no move takes any away.
  intro number member
  cases move with
  | search held files bean seed =>
    simp only [take]
    rcases traffic.search_cases held files bean seed with same | ⟨documents, free, viewed⟩
    · rwa [same]
    · rwa [search_free free viewed]
  | draw held =>
    simp only [take]
    rcases traffic.draw_cases held with
      same | ⟨flight, documents, path, rest, flying, loaded, pending⟩
    · rwa [same]
    · rwa [draw_flying flying loaded pending]
  | finish held =>
    simp only [take]
    rcases traffic.finish_cases held with same | ⟨flight, documents, flying, loaded, done⟩
    · rwa [same]
    · rw [finish_flying flying loaded done]
      cases flight.outcome with
      | error error => exact List.mem_append_right _ member
      | ok draft => exact member

/-- Numbers that were lost stay so, whatever moves come. -/
theorem lost_run (traffic : Traffic) (moves : List Move) :
    ∀ number ∈ traffic.lost, number ∈ (traffic.run moves).lost := by
  -- What is lost stays lost with each move.
  induction moves generalizing traffic with
  | nil => exact fun _ member => member
  | cons move rest ih =>
    exact fun number member => ih _ number (traffic.lost_take move number member)

/--
Moves that come down to a query served in one go: they leave what its source leaves, and if it
fails, all names drawn for it are lost.
-/
structure Serves (traffic : Traffic) (query : Query) (moves : List Move) : Prop where
  own : ∀ move ∈ moves, move.source = query.source
  store : (traffic.run moves).store = (traffic.store.ask query).store
  flights : (traffic.run moves).flights = traffic.flights
  lost : ∀ error, (traffic.store.ask query).outcome = .error error → ∀ number,
    (traffic.store.names query.source.names).issued < number →
    number ≤ ((traffic.store.ask query).store.names query.source.names).issued →
    number ∈ (traffic.run moves).lost

/-- A lookup of a bean that documents declare begins with the survey of its declaration. -/
theorem begun_of_finds {bean : String} {place : Place} {declaration : Element}
    (finds : documents.Finds bean place) (there : documents.element? place = some declaration)
    (seed : Option Definition) :
    Flight.begun? documents bean seed =
      some (Flight.ofSurvey place (surveyAt bean seed declaration)) := by
  -- The search begins at the place that is found.
  rw [DocumentSet.Finds] at finds
  simp [Flight.begun?, finds, there]

/-- A lookup that nothing comes between finds its declaration and names all its beans. -/
theorem reaches_end {files : Files} {bean : String} {place : Place} {declaration : Element}
    (free : traffic.flights held.documents = none)
    (viewed : held.view files traffic.store = .ok documents)
    (finds : documents.Finds bean place) (there : documents.element? place = some declaration)
    (seed : Option Definition) :
    let found := surveyAt bean seed declaration
    let supply := traffic.store.names held.names
    let left := (supply.drawFor documents.declaredIds found.nameless).2
    ∃ moves drawn, (∀ move ∈ moves, move.source = held) ∧
      traffic.run moves =
        { traffic with
          store := (traffic.store.setDocuments held.documents documents).setNames held.names left
          flights := setCell traffic.flights held.documents (some
            { place := place
              outcome := found.outcome
              pending := []
              named := giftsAt documents supply place found.nameless
              drawn := drawn })
          origin := setCell traffic.origin held.documents
            ((traffic.origin held.documents).or (some documents)) } ∧
      ∀ number, supply.issued < number → number ≤ left.issued → number ∈ drawn := by
  have began := search_free free viewed bean seed
  rw [begun_of_finds finds there] at began
  have flying : (traffic.search held files bean seed).flights held.documents =
      some (Flight.ofSurvey place (surveyAt bean seed declaration)) := by
    rw [began]
    exact setCell_self _ _ _
  have loaded : (traffic.search held files bean seed).store.loaded held.documents =
      some documents := by
    rw [began]
    exact setCell_self _ _ _
  -- No name is drawn until the declaration is found.
  have names : (traffic.search held files bean seed).store.names = traffic.store.names := by
    rw [began]
    rfl
  obtain ⟨moves, drawn, own, ran, _, covers⟩ := draws_names flying loaded rfl
  rw [names] at ran covers
  refine ⟨.search held files bean seed :: moves, drawn, ?_, ?_, covers⟩
  · intro move member
    rcases List.mem_cons.1 member with rfl | drawing
    · rfl
    · exact own move drawing
  · calc traffic.run (.search held files bean seed :: moves)
        = (traffic.search held files bean seed).run moves := rfl
      _ = _ := by
        rw [ran, began]
        simp only [advance, Flight.ofSurvey, setCell_setCell, List.nil_append, giftsAt]

/-- A query for a bean that documents declare is served by moves that nothing comes between. -/
theorem serves_declared {query : Query} {place : Place}
    (free : traffic.flights query.source.documents = none)
    (viewed : query.source.view query.files traffic.store = .ok documents)
    (finds : documents.Finds query.bean place) : ∃ moves, traffic.Serves query moves := by
  obtain ⟨held, files, bean, seed⟩ := query
  simp only at free viewed finds
  obtain ⟨outcome, kept⟩ := held.lookup_loaded viewed bean seed
  obtain ⟨declaration, there, left, ended⟩ :=
    assemble_declared finds (traffic.store.names held.names) seed
  obtain ⟨moves, drawn, own, ran, covers⟩ := reaches_end free viewed finds there seed
  have left_behind : (traffic.store.ask ⟨held, files, bean, seed⟩).store.names held.names =
      ((traffic.store.names held.names).drawFor documents.declaredIds
        (surveyAt bean seed declaration).nameless).2 := by
    rw [Store.ask, kept, ← left]
    exact setCell_self _ _ _
  -- All beans are named by then, so the lookup ends with the last move.
  have whole : traffic.run (moves ++ [.finish held]) = (traffic.run moves).finish held :=
    run_append traffic moves [.finish held]
  rw [ran, finish_flying (setCell_self _ _ _) (setCell_self _ _ _) rfl] at whole
  have mine : ∀ move ∈ moves ++ [.finish held], move.source = held := by
    intro move member
    rcases List.mem_append.1 member with first | last
    · exact own move first
    · rw [List.mem_singleton.1 last]
      rfl
  refine ⟨moves ++ [.finish held], ?_⟩
  cases sound : (surveyAt bean seed declaration).outcome with
  | error error =>
    simp only [sound] at ended whole
    constructor
    case own => exact mine
    case store => simp only [whole, Store.ask, kept, ended.2, left]
    case flights => simp only [whole, setCell_setCell, ← free, setCell_same]
    case lost =>
      intro _ _ number behind upto
      rw [left_behind] at upto
      rw [whole]
      exact List.mem_append_left _ (covers number behind upto)
  | ok draft =>
    simp only [sound] at ended whole
    constructor
    case own => exact mine
    case store =>
      simp only [whole, Store.ask, kept, ended.1, left, Store.setDocuments, Store.setNames,
        setCell_setCell]
    case flights => simp only [whole, setCell_setCell, ← free, setCell_same]
    case lost =>
      intro error fault
      rw [Store.ask, outcome, ended.2] at fault
      cases fault

/-- A query is served by moves that nothing comes between. -/
theorem exists_serves (traffic : Traffic) (query : Query)
    (free : traffic.flights query.source.documents = none) :
    ∃ moves, traffic.Serves query moves := by
  cases viewed : query.source.view query.files traffic.store with
  | error fault =>
    -- Documents that cannot be loaded end the lookup before it draws anything.
    obtain ⟨_, same⟩ := query.source.lookup_unloadable viewed query.bean query.seed
    refine ⟨[], by simp, same.symm, rfl, ?_⟩
    intro error _ number behind upto
    rw [Store.ask, same] at upto
    omega
  | ok documents =>
    cases search : documents.placeOf? query.bean with
    | some place => exact serves_declared free viewed search
    | none =>
      obtain ⟨outcome, kept⟩ := query.source.lookup_loaded viewed query.bean query.seed
      have began := search_free free viewed query.bean query.seed
      have none : Flight.begun? documents query.bean query.seed = none := by
        simp [Flight.begun?, search]
      rw [assemble_undeclared search] at outcome kept
      refine ⟨[.search query.source query.files query.bean query.seed], ?_, ?_, ?_, ?_⟩
      · simp [Move.source]
      · simp only [run, List.foldl_cons, List.foldl_nil, take, began, Store.ask, kept,
          Store.setNames, Store.setDocuments, setCell_same]
      · simp only [run, List.foldl_cons, List.foldl_nil, take, began, none, ← free, setCell_same]
      · intro error fault
        rw [Store.ask, outcome] at fault
        cases fault

/-- Queries served one after the other are served by moves of their sources. -/
theorem exists_servesAll (traffic : Traffic) (queries : List Query)
    (free : ∀ cell, traffic.flights cell = none) :
    ∃ moves, (∀ move ∈ moves, ∃ query ∈ queries, move.source = query.source) ∧
      (traffic.run moves).store = traffic.store.askAll queries ∧
      ∀ earlier query later error, queries = earlier ++ query :: later →
        ((traffic.store.askAll earlier).ask query).outcome = .error error → ∀ number,
        ((traffic.store.askAll earlier).names query.source.names).issued < number →
        number ≤ (((traffic.store.askAll earlier).ask query).store.names
          query.source.names).issued →
        number ∈ (traffic.run moves).lost := by
  -- The induction is on the queries; nothing is under way between two of them.
  induction queries generalizing traffic with
  | nil => exact ⟨[], by simp, rfl, by simp⟩
  | cons first rest ih =>
    obtain ⟨moves, serves⟩ := traffic.exists_serves first (free _)
    obtain ⟨others, own, left, failed⟩ := ih (traffic.run moves) (by simpa [serves.flights])
    rw [serves.store] at left failed
    refine ⟨moves ++ others, ?_, ?_, ?_⟩
    · intro move member
      rcases List.mem_append.1 member with early | late
      · exact ⟨first, List.mem_cons_self, serves.own move early⟩
      · obtain ⟨query, among, same⟩ := own move late
        exact ⟨query, List.mem_cons_of_mem first among, same⟩
    · rw [run_append, left]
      rfl
    · intro earlier query later error split fault number behind upto
      rw [run_append]
      -- The query that failed is the first one, or it is one of the others.
      cases earlier with
      | nil =>
        obtain ⟨rfl, rfl⟩ := List.cons.inj split
        exact lost_run _ _ number (serves.lost error fault number behind upto)
      | cons before between =>
        obtain ⟨rfl, further⟩ := List.cons.inj split
        exact failed between query later error further fault number behind upto

section Orderly

variable {names low : Nat} {gifts : Nat → Given Place} {fate : Nat → Fate}

/-- The ids that were written in documents are those given in them. -/
theorem Orderly.mem_gifts_iff
    (orderly : Orderly names low traffic gifts fate) (cell : Nat) (place : Place) (id : String) :
    (place, id) ∈ gifts cell ↔ traffic.Written cell place id := by
  -- What was given is what the documents have and those loaded do not.
  cases loaded : traffic.store.loaded cell with
  | none => simp [(orderly.unloaded cell loaded).2, Written, loaded]
  | some documents =>
    obtain ⟨origin, from_there, same, fits⟩ := orderly.loaded cell documents loaded
    rw [fits.mem_iff, ← same]
    simp [Written, loaded, from_there]

/-- An id that was written has a number drawn since the beginning, which knows where it stands. -/
theorem Orderly.number_of_written
    (orderly : Orderly names low traffic gifts fate) {cell : Nat} {place : Place} {id : String}
    (written : traffic.Written cell place id) :
    ∃ number, low < number ∧ number ≤ (traffic.store.names names).issued ∧
      id = anonymousName number ∧ fate number = .written cell place :=
  orderly.given cell _ ((orderly.mem_gifts_iff cell place id).2 written)

end Orderly

end Traffic

/--
However lookups in sources with one supply of names are interleaved: an id that is written is
under a number drawn since the beginning, no id is written at two places, be they in the documents
of one source or of two, and no id is written that a lookup drew that failed. But for the ids
written the documents are those that were loaded.

Queries served one after the other are one way to interleave them.
-/
theorem Traffic.each_id_is_written_once (names : Nat) (store : Store) :
    (∀ moves : List Move, (∀ move ∈ moves, move.source.names = names) →
      let reached := (still store).run moves
      (∀ cell place id, reached.Written cell place id → ∃ number,
        (store.names names).issued < number ∧ number ≤ (reached.store.names names).issued ∧
          id = anonymousName number) ∧
      (∀ cell other place spot id, reached.Written cell place id →
        reached.Written other spot id → cell = other ∧ place = spot) ∧
      (∀ earlier later, moves = earlier ++ later → ∀ number ∈ ((still store).run earlier).lost,
        ∀ cell place, ¬ reached.Written cell place (anonymousName number)) ∧
      ∀ cell documents, reached.store.loaded cell = some documents → ∃ origin given,
        reached.origin cell = some origin ∧ documents.MarkedWith origin given ∧
          ∀ place id, (place, id) ∈ given ↔ reached.Written cell place id) ∧
    ∀ queries : List Query, (∀ query ∈ queries, query.source.names = names) → ∃ moves : List Move,
      (∀ move ∈ moves, move.source.names = names) ∧
      ((still store).run moves).store = store.askAll queries ∧
      ∀ earlier query later error, queries = earlier ++ query :: later →
        ((store.askAll earlier).ask query).outcome = .error error → ∀ number,
        ((store.askAll earlier).names names).issued < number →
        number ≤ (((store.askAll earlier).ask query).store.names names).issued →
        number ∈ ((still store).run moves).lost := by
  refine ⟨?_, ?_⟩
  · -- Each number drawn has one fate, and only one that is written stands at a place.
    intro moves supply reached
    obtain ⟨gifts, fate, orderly⟩ := (orderly_still names store).run supply
    refine ⟨?_, ?_, ?_, ?_⟩
    · intro cell place id written
      obtain ⟨number, behind, upto, named, _⟩ := orderly.number_of_written written
      exact ⟨number, behind, upto, named⟩
    · intro cell other place spot id written again
      obtain ⟨number, _, _, named, here⟩ := orderly.number_of_written written
      obtain ⟨further, _, _, renamed, there⟩ := orderly.number_of_written again
      obtain rfl : number = further := anonymousName_inj.1 (named.symm.trans renamed)
      simpa using here.symm.trans there
    · intro earlier later split number lost cell place written
      have still_lost : number ∈ reached.lost := by
        simp only [reached, split, run_append]
        exact lost_run _ later number lost
      obtain ⟨drawn, _, _, named, here⟩ := orderly.number_of_written written
      obtain rfl : number = drawn := anonymousName_inj.1 named
      cases here.symm.trans (orderly.lost number still_lost).2
    · intro cell documents loaded
      obtain ⟨origin, from_there, rfl, fits⟩ := orderly.loaded cell documents loaded
      exact ⟨origin, gifts cell, from_there, fits.markedWith, orderly.mem_gifts_iff cell⟩
  · -- Queries served in order are moves of one lookup after the other.
    intro queries supply
    obtain ⟨moves, own, left, failed⟩ := (still store).exists_servesAll queries fun _ => rfl
    refine ⟨moves, ?_, left, ?_⟩
    · intro move member
      obtain ⟨query, among, same⟩ := own move member
      rw [same]
      exact supply query among
    · intro earlier query later error split fault number behind upto
      have shared : query.source.names = names :=
        supply query (by rw [split]; exact List.mem_append_right _ List.mem_cons_self)
      rw [← shared] at behind upto
      exact failed earlier query later error split fault number behind upto

/-- A document with a declaration that is not sound, behind an inline bean that has no id. -/
def brokenDocuments : DocumentSet :=
  ⟨[⟨declaringSource.options.filename, ⟨"beans", [], "",
    [⟨"bean", [("id", "broken"), ("class", "Broken"), ("scope", "singleton")], "",
      [⟨"property", [("name", "inner")], "",
        [⟨"bean", [("class", "Inner"), ("scope", "prototype")], "", []⟩]⟩,
      ⟨"property", [], "", []⟩]⟩]⟩⟩]⟩

/-- A store with the documents of two sources, one of which has a declaration that is not sound. -/
def brokenStore : Store :=
  (({} : Store).setDocuments inliningSource.documents inliningDocuments).setDocuments
    declaringSource.documents brokenDocuments

/-- A lookup that fails and one that succeeds, each of which draws a name before the other ends. -/
def brokenMoves : List Move :=
  [.search declaringSource clashingFiles "broken" none,
    .search inliningSource clashingFiles "svc" none,
    .draw declaringSource, .draw inliningSource, .finish declaringSource, .finish inliningSource]

/-- The name drawn first is written nowhere, since its lookup fails, and the second one is. -/
theorem Traffic.name_of_failed_lookup_is_lost :
    let reached := (still brokenStore).run brokenMoves
    reached.Written inliningSource.documents ⟨0, [0, 0, 0]⟩ "anonymous-bean#2" ∧
      ∀ cell place, ¬ reached.Written cell place "anonymous-bean#1" := by
  intro reached
  have supply : ∀ move ∈ brokenMoves, move.source.names = 0 := by
    simp [brokenMoves, Move.source, declaringSource, inliningSource]
  -- The first name was drawn for an inline bean behind which a fault came up.
  have lost : reached.lost = [1] := by decide +kernel
  have loaded_as : (reached.origin inliningSource.documents).bind
      (fun origin => origin.labelAt? ⟨0, [0, 0, 0]⟩) = some ("bean", none) := by decide +kernel
  have left : (reached.store.loaded inliningSource.documents).bind
      (fun documents => documents.labelAt? ⟨0, [0, 0, 0]⟩) =
        some ("bean", some "anonymous-bean#2") := by decide +kernel
  obtain ⟨origin, from_there, nameless⟩ := Option.bind_eq_some_iff.1 loaded_as
  obtain ⟨documents, loaded, declared⟩ := Option.bind_eq_some_iff.1 left
  refine ⟨⟨origin, documents, from_there, loaded, nameless, declared⟩, ?_⟩
  have never := ((Traffic.each_id_is_written_once 0 brokenStore).1 brokenMoves supply).2.2.1
    brokenMoves [] (List.append_nil _).symm 1 (by rw [lost]; exact List.mem_singleton.2 rfl)
  exact never

end BeanWiring
