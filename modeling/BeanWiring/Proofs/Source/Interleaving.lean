import BeanWiring.Proofs.Assembly.Effect
import BeanWiring.Proofs.Source.Asking

/-!
Lookups of several sources at the same time, all with one supply of names.

From the moment a lookup has found its declaration until it ends it has the documents of its
source to itself. The names it draws are those that the supply has left at this very moment, so
lookups in other documents may draw in between.
-/

namespace BeanWiring

/-- A lookup under way: its declaration was found, and inline beans of it are named one by one. -/
structure Flight where
  /-- Where the declaration stands. -/
  place : Place
  /-- What the declaration was found to be, whatever its inline beans are named. -/
  outcome : Except DefinitionError (DefinitionDraft (List Nat))
  /-- The inline beans that are still to be named. -/
  pending : List (List Nat)
  /-- The places of those that were named, with their names. -/
  named : Given Place := []
  /-- The numbers of all names drawn, those that were not free among them. -/
  drawn : List Nat := []

namespace Flight

/-- A lookup that has found its declaration and drawn nothing yet. -/
def ofSurvey (place : Place) (found : Survey (DefinitionDraft (List Nat)) (List Nat)) : Flight :=
  { place := place, outcome := found.outcome, pending := found.nameless }

/-- The lookup of a bean that documents declare, before any name is drawn. -/
def begun? (documents : DocumentSet) (bean : String) (seed : Option Definition) : Option Flight :=
  (documents.placeOf? bean).bind fun place =>
    (documents.element? place).map fun declaration =>
      ofSurvey place (surveyAt bean seed declaration)

/-- The lookup after a name was drawn for the first of its beans; a taken one is passed over. -/
def draw (flight : Flight) (path : List Nat) (rest : List (List Nat)) (taken : List String)
    (number : Nat) : Flight :=
  -- A name that is taken is used up, and the place stays pending.
  if anonymousName number ∈ taken then { flight with drawn := number :: flight.drawn }
  else
    { flight with
      pending := rest
      named := flight.named ++ [(flight.place.down path, anonymousName number)]
      drawn := number :: flight.drawn }

end Flight

/-- What can happen next: a lookup begins, it draws a name, or it ends. -/
inductive Move where
  | search (source : DocumentSource) (files : Files) (bean : String) (seed : Option Definition)
  | draw (source : DocumentSource)
  | finish (source : DocumentSource)

/-- The source of the lookup that a move belongs to. -/
def Move.source : Move → DocumentSource
  | .search source _ _ _ | .draw source | .finish source => source

/-- A store, and the lookups under way in it. -/
structure Traffic where
  store : Store
  /-- The lookup that has the documents in a cell to itself. -/
  flights : Nat → Option Flight := fun _ => none
  /-- The documents in each cell as they were loaded. -/
  origin : Nat → Option DocumentSet
  /-- The numbers of the names drawn by lookups that failed. -/
  lost : List Nat := []

namespace Traffic

/-- A store in which nothing is under way; what is there already counts as loaded. -/
def still (store : Store) : Traffic :=
  { store := store, origin := store.loaded }

/-- A lookup loads its documents and finds its declaration, unless it has to wait for another. -/
def search (traffic : Traffic) (held : DocumentSource) (files : Files) (bean : String)
    (seed : Option Definition) : Traffic :=
  match traffic.flights held.documents with
  | some _ => traffic
  | none =>
    -- Only a source without a lookup under way can begin one.
    match (held.load files traffic.store).outcome with
    | .error _ => traffic
    | .ok documents =>
      { traffic with
        store := (held.load files traffic.store).store
        flights := setCell traffic.flights held.documents (Flight.begun? documents bean seed)
        origin := setCell traffic.origin held.documents
          ((traffic.origin held.documents).or (some documents)) }

/-- The lookups after one of them went on and left these names. -/
def advance (traffic : Traffic) (held : DocumentSource) (flight : Flight) (names : Names) :
    Traffic :=
  { traffic with
    store := traffic.store.setNames held.names names
    flights := setCell traffic.flights held.documents (some flight) }

/-- A lookup draws the next name of the supply, as long as it has a bean to name. -/
def draw (traffic : Traffic) (held : DocumentSource) : Traffic :=
  match traffic.flights held.documents, traffic.store.loaded held.documents with
  | some flight, some documents =>
    -- Each move draws one number from the supply that others share.
    match flight.pending with
    | [] => traffic
    | path :: rest =>
      let names := (traffic.store.names held.names).next.2
      traffic.advance held (flight.draw path rest documents.declaredIds names.issued) names
  | _, _ => traffic

/-- A lookup that has named all its beans ends; the names are written if it succeeded. -/
def finish (traffic : Traffic) (held : DocumentSource) : Traffic :=
  match traffic.flights held.documents, traffic.store.loaded held.documents with
  | some flight, some documents =>
    match flight.pending with
    | _ :: _ => traffic
    | [] =>
      let ended := { traffic with flights := setCell traffic.flights held.documents none }
      match flight.outcome with
      -- Names drawn for a lookup that fails are written nowhere.
      | .error _ => { ended with lost := flight.drawn ++ traffic.lost }
      | .ok _ =>
        { ended with
          store := traffic.store.setDocuments held.documents (documents.giveIds flight.named) }
  | _, _ => traffic

/-- What becomes of lookups in a move. -/
def take (traffic : Traffic) : Move → Traffic
  | .search held files bean seed => traffic.search held files bean seed
  | .draw held => traffic.draw held
  | .finish held => traffic.finish held

/-- What becomes of lookups in moves, in whatever order those of different lookups come. -/
def run (traffic : Traffic) (moves : List Move) : Traffic :=
  moves.foldl take traffic

/-- Whether an id was written at a bean that had none in what was loaded. -/
def Written (traffic : Traffic) (cell : Nat) (place : Place) (id : String) : Prop :=
  ∃ origin documents, traffic.origin cell = some origin ∧
    traffic.store.loaded cell = some documents ∧ origin.NamelessAt place ∧
    documents.DeclaredAt id place

end Traffic

namespace Flight

/-- A lookup whose beans have no id in the documents, and whose names are new to them. -/
structure Fair (flight : Flight) (documents : DocumentSet) : Prop where
  apart : (flight.named.map (·.1) ++ flight.pending.map flight.place.down).Nodup
  nameless : ∀ place ∈ flight.named.map (·.1) ++ flight.pending.map flight.place.down,
    documents.NamelessAt place
  fresh : ∀ gift ∈ flight.named, gift.2 ∉ documents.declaredIds
  numbered : ∀ gift ∈ flight.named, ∃ number ∈ flight.drawn, gift.2 = anonymousName number
  distinct : (flight.named.map (·.2)).Nodup

/-- The number of a name drawn is kept, whether or not the name is free. -/
theorem draw_drawn (flight : Flight) (path : List Nat) (rest : List (List Nat))
    (taken : List String) (number : Nat) :
    (flight.draw path rest taken number).drawn = number :: flight.drawn := by
  unfold draw
  split <;> rfl

variable {flight : Flight} {documents : DocumentSet}

/-- A lookup that begins is fair and has drawn nothing. -/
theorem fair_of_begun {bean : String} {seed : Option Definition}
    (begun : begun? documents bean seed = some flight) :
    flight.Fair documents ∧ flight.drawn = [] := by
  -- The survey met each bean once, and put down only those without an id.
  obtain ⟨place, finds, found⟩ := Option.bind_eq_some_iff.1 begun
  obtain ⟨declaration, there, rfl⟩ := Option.map_eq_some_iff.1 found
  have sound : (surveyAt bean seed declaration).Sound declaration.at? DefinitionDraft.places :=
    surveyDeclaration_sound bean (seed.getD { name := bean }) declaration
  unfold ofSurvey
  refine ⟨⟨?_, ?_, by simp, by simp, by simp⟩, rfl⟩
  · exact sound.distinct.map fun left right same => by simpa [Place.down] using same
  · intro other member
    obtain ⟨path, met, rfl⟩ := List.mem_map.1 member
    rw [DocumentSet.NamelessAt, DocumentSet.labelAt?_down there]
    exact sound.nameless path met

/-- A lookup stays fair when it draws a name that none of its beans has. -/
theorem Fair.draw (fair : flight.Fair documents) {path : List Nat} {rest : List (List Nat)}
    (pending : flight.pending = path :: rest) {number : Nat}
    (new : ∀ earlier ∈ flight.drawn, earlier < number) :
    (flight.draw path rest documents.declaredIds number).Fair documents := by
  unfold Flight.draw
  split
  · -- A name that is taken is drawn in vain.
    refine ⟨fair.apart, fair.nameless, fair.fresh, ?_, fair.distinct⟩
    intro gift member
    obtain ⟨earlier, drawn, named⟩ := fair.numbered gift member
    exact ⟨earlier, List.mem_cons_of_mem number drawn, named⟩
  · next free =>
    -- The place of the bean goes over from those to be named to those that are.
    have places : (flight.named ++ [(flight.place.down path, anonymousName number)]).map (·.1) ++
        rest.map flight.place.down =
          flight.named.map (·.1) ++ flight.pending.map flight.place.down := by
      simp [pending]
    constructor
    case apart => exact places ▸ fair.apart
    case nameless =>
      intro place member
      rw [places] at member
      exact fair.nameless place member
    case fresh =>
      intro gift member
      rcases List.mem_append.1 member with earlier | last
      · exact fair.fresh gift earlier
      · obtain rfl := List.mem_singleton.1 last
        exact free
    case numbered =>
      intro gift member
      rcases List.mem_append.1 member with earlier | last
      · obtain ⟨before, drawn, named⟩ := fair.numbered gift earlier
        exact ⟨before, List.mem_cons_of_mem number drawn, named⟩
      · obtain rfl := List.mem_singleton.1 last
        exact ⟨number, List.mem_cons_self, rfl⟩
    case distinct =>
      rw [List.map_append, List.nodup_append]
      refine ⟨fair.distinct, by simp, ?_⟩
      rintro id earlier _ last rfl
      obtain ⟨gift, member, rfl⟩ := List.mem_map.1 earlier
      obtain ⟨before, drawn, named⟩ := fair.numbered gift member
      have same : anonymousName before = anonymousName number := by
        rw [← named]
        simpa using last
      have later := new before drawn
      rw [anonymousName_inj] at same
      omega

/-- The names of a lookup that has no more beans to name fit its documents. -/
theorem Fair.fits (fair : flight.Fair documents) (done : flight.pending = []) :
    documents.Fits flight.named := by
  -- With nothing pending the named places are all there are.
  have places : flight.named.map (·.1) ++ flight.pending.map flight.place.down =
      flight.named.map (·.1) := by
    simp [done]
  refine ⟨places ▸ fair.apart, ?_, fair.distinct, fair.fresh⟩
  intro gift member
  apply fair.nameless
  rw [places]
  exact List.mem_map_of_mem member

end Flight

namespace Traffic

variable {traffic : Traffic} {held : DocumentSource}

/-- A lookup that begins goes by the documents that its source has or loads. -/
theorem search_free {files : Files} {documents : DocumentSet}
    (free : traffic.flights held.documents = none)
    (viewed : held.view files traffic.store = .ok documents) (bean : String)
    (seed : Option Definition) :
    traffic.search held files bean seed =
      { traffic with
        store := traffic.store.setDocuments held.documents documents
        flights := setCell traffic.flights held.documents (Flight.begun? documents bean seed)
        origin := setCell traffic.origin held.documents
          ((traffic.origin held.documents).or (some documents)) } := by
  -- The documents viewed are those that a search loads.
  have sound : (held.load files traffic.store).outcome = .ok documents := viewed
  simp only [search, free, sound, DocumentSource.load_store viewed]

/-- A lookup begins in documents that no other has to itself, or nothing happens. -/
theorem search_cases (traffic : Traffic) (held : DocumentSource) (files : Files) (bean : String)
    (seed : Option Definition) :
    traffic.search held files bean seed = traffic ∨
    ∃ documents, traffic.flights held.documents = none ∧
      held.view files traffic.store = .ok documents := by
  -- A lookup begins unless it has to wait or has no documents to search in.
  cases flying : traffic.flights held.documents with
  | some flight => exact .inl (by simp only [search, flying])
  | none =>
    cases viewed : held.view files traffic.store with
    | error error =>
      have fault : (held.load files traffic.store).outcome = .error error := viewed
      exact .inl (by simp only [search, flying, fault])
    | ok documents => exact .inr ⟨documents, rfl, rfl⟩

/-- A name is drawn for the first bean to be named. -/
theorem draw_flying {flight : Flight} {documents : DocumentSet} {path : List Nat}
    {rest : List (List Nat)} (flying : traffic.flights held.documents = some flight)
    (loaded : traffic.store.loaded held.documents = some documents)
    (pending : flight.pending = path :: rest) :
    traffic.draw held =
      traffic.advance held
        (flight.draw path rest documents.declaredIds
          ((traffic.store.names held.names).issued + 1))
        ⟨(traffic.store.names held.names).issued + 1⟩ := by
  -- The documents that are loaded tell which names are taken.
  simp only [draw, flying, loaded, pending, Names.next]

/-- A name is drawn for a bean of a lookup under way, or nothing happens. -/
theorem draw_cases (traffic : Traffic) (held : DocumentSource) :
    traffic.draw held = traffic ∨
    ∃ flight documents path rest, traffic.flights held.documents = some flight ∧
      traffic.store.loaded held.documents = some documents ∧ flight.pending = path :: rest := by
  -- Without a lookup under way, documents and a bean to name there is nothing to draw for.
  cases flying : traffic.flights held.documents with
  | none => exact .inl (by simp only [draw, flying])
  | some flight =>
    cases loaded : traffic.store.loaded held.documents with
    | none => exact .inl (by simp only [draw, flying, loaded])
    | some documents =>
      cases pending : flight.pending with
      | nil => exact .inl (by simp only [draw, flying, loaded, pending])
      | cons path rest => exact .inr ⟨flight, documents, path, rest, rfl, rfl, pending⟩

/-- A lookup that ends gives the documents free; if it succeeded, its names are written. -/
theorem finish_flying {flight : Flight} {documents : DocumentSet}
    (flying : traffic.flights held.documents = some flight)
    (loaded : traffic.store.loaded held.documents = some documents)
    (done : flight.pending = []) :
    traffic.finish held =
      match flight.outcome with
      | .error _ =>
        { traffic with
          flights := setCell traffic.flights held.documents none
          lost := flight.drawn ++ traffic.lost }
      | .ok _ =>
        { traffic with
          flights := setCell traffic.flights held.documents none
          store :=
            traffic.store.setDocuments held.documents (documents.giveIds flight.named) } := by
  -- Nothing is pending, so the lookup ends here in one way or the other.
  simp only [finish, flying, loaded, done]

/-- A lookup that has named all its beans ends, or nothing happens. -/
theorem finish_cases (traffic : Traffic) (held : DocumentSource) :
    traffic.finish held = traffic ∨
    ∃ flight documents, traffic.flights held.documents = some flight ∧
      traffic.store.loaded held.documents = some documents ∧ flight.pending = [] := by
  -- A lookup that still has a bean to name does not end.
  cases flying : traffic.flights held.documents with
  | none => exact .inl (by simp only [finish, flying])
  | some flight =>
    cases loaded : traffic.store.loaded held.documents with
    | none => exact .inl (by simp only [finish, flying, loaded])
    | some documents =>
      cases pending : flight.pending with
      | cons path rest => exact .inl (by simp only [finish, flying, loaded, pending])
      | nil => exact .inr ⟨flight, documents, rfl, rfl, pending⟩

end Traffic

/-- What becomes of a number of the supply. -/
inductive Fate where
  /-- Its name was drawn by the lookup that has the documents in a cell. -/
  | drawn (cell : Nat)
  | written (cell : Nat) (place : Place)
  /-- Nobody has any use for it. -/
  | lost

/--
Lookups that share a supply of names: each number has one fate, so that no two of them hold the
same name, in whatever documents it is or will be written.
-/
structure Traffic.Orderly (names low : Nat) (traffic : Traffic) (gifts : Nat → Given Place)
    (fate : Nat → Fate) : Prop where
  issued : low ≤ (traffic.store.names names).issued
  loaded : ∀ cell documents, traffic.store.loaded cell = some documents → ∃ origin,
    traffic.origin cell = some origin ∧ documents = origin.giveIds (gifts cell) ∧
      origin.Fits (gifts cell)
  unloaded : ∀ cell, traffic.store.loaded cell = none →
    traffic.origin cell = none ∧ gifts cell = []
  given : ∀ cell, ∀ gift ∈ gifts cell, ∃ number, low < number ∧
    number ≤ (traffic.store.names names).issued ∧ gift.2 = anonymousName number ∧
      fate number = .written cell gift.1
  flying : ∀ cell flight, traffic.flights cell = some flight → ∃ documents,
    traffic.store.loaded cell = some documents ∧ flight.Fair documents ∧
      ∀ number ∈ flight.drawn, low < number ∧ number ≤ (traffic.store.names names).issued ∧
        fate number = .drawn cell
  lost : ∀ number ∈ traffic.lost, number ≤ (traffic.store.names names).issued ∧
    fate number = .lost

namespace Flight

/-- What becomes of numbers when the names of a lookup in a cell are written. -/
def spend (flight : Flight) (cell : Nat) (fate : Nat → Fate) (number : Nat) : Fate :=
  match flight.named.find? fun gift => gift.2 = anonymousName number with
  | some gift => .written cell gift.1
  | none => fate number

variable {flight : Flight} {documents : DocumentSet} {number : Nat}

/-- The number of a name that is written is that of one place. -/
theorem Fair.spend_named (fair : flight.Fair documents) (cell : Nat) (fate : Nat → Fate)
    {gift : Place × String} (member : gift ∈ flight.named)
    (named : gift.2 = anonymousName number) :
    flight.spend cell fate number = .written cell gift.1 := by
  unfold spend
  cases found : flight.named.find? fun gift => gift.2 = anonymousName number with
  | none => exact absurd named (by simpa using List.find?_eq_none.1 found gift member)
  | some other =>
    -- No other place has the same name.
    have same : other.2 = anonymousName number := by simpa using List.find?_some found
    have among := List.mem_of_find?_eq_some found
    rw [List.inj_on_of_nodup_map fair.distinct among member (same.trans named.symm)]

/-- Numbers that a lookup did not draw stay what they are. -/
theorem Fair.spend_other (fair : flight.Fair documents) (cell : Nat) (fate : Nat → Fate)
    (undrawn : number ∉ flight.drawn) : flight.spend cell fate number = fate number := by
  unfold spend
  cases found : flight.named.find? fun gift => gift.2 = anonymousName number with
  | none => rfl
  -- A gift of that name was made from a number that was drawn.
  | some other =>
    have same : other.2 = anonymousName number := by simpa using List.find?_some found
    obtain ⟨drawn, member, named⟩ := fair.numbered other (List.mem_of_find?_eq_some found)
    obtain rfl : drawn = number := anonymousName_inj.1 (named.symm.trans same)
    exact absurd member undrawn

end Flight

namespace Traffic

variable {names low : Nat} {traffic : Traffic} {gifts : Nat → Given Place} {fate : Nat → Fate}
  {held : DocumentSource}

/-- Where nothing is under way no number has been used. -/
theorem orderly_still (names : Nat) (store : Store) :
    Orderly names (store.names names).issued (still store) (fun _ => []) fun _ => .lost := by
  -- What is there counts as loaded, so nothing was given in it.
  refine ⟨Nat.le_refl _, ?_, ?_, by simp, by simp [still], by simp [still]⟩
  · intro cell documents loaded
    exact ⟨documents, loaded, rfl, (Grown.none documents 0 0).fits⟩
  · intro cell unloaded
    exact ⟨unloaded, rfl⟩

/-- Lookups stay orderly when one more begins. -/
theorem Orderly.search (orderly : Orderly names low traffic gifts fate) (held : DocumentSource)
    (files : Files) (bean : String) (seed : Option Definition) :
    Orderly names low (traffic.search held files bean seed) gifts fate := by
  -- Only one cell changes: it has documents now, and a lookup that drew nothing.
  rcases traffic.search_cases held files bean seed with same | ⟨documents, free, viewed⟩
  · rwa [same]
  · rw [search_free free viewed]
    constructor
    case issued => exact orderly.issued
    case loaded =>
      intro cell known there
      by_cases same : cell = held.documents
      · subst same
        obtain rfl : documents = known := by simpa [Store.setDocuments] using there
        cases before : traffic.store.loaded held.documents with
        | none =>
          -- The documents come from files, so nothing was written in them yet.
          obtain ⟨unknown, none⟩ := orderly.unloaded held.documents before
          refine ⟨documents, by simp [unknown], ?_⟩
          rw [none]
          exact ⟨rfl, (Grown.none documents 0 0).fits⟩
        | some kept =>
          obtain rfl : kept = documents := by
            rw [DocumentSource.view_of_loaded before] at viewed
            exact Except.ok.inj viewed
          obtain ⟨origin, from_there, grown⟩ := orderly.loaded held.documents kept before
          exact ⟨origin, by simp [from_there], grown⟩
      · simp only [Store.setDocuments, setCell_other same] at there ⊢
        exact orderly.loaded cell known there
    case unloaded =>
      intro cell unloaded
      by_cases same : cell = held.documents
      · simp [Store.setDocuments, same] at unloaded
      · simp only [Store.setDocuments, setCell_other same] at unloaded ⊢
        exact orderly.unloaded cell unloaded
    case given => exact orderly.given
    case flying =>
      intro cell flight flying
      by_cases same : cell = held.documents
      · subst same
        simp only [setCell_self] at flying
        obtain ⟨fair, none⟩ := Flight.fair_of_begun flying
        exact ⟨documents, setCell_self _ _ _, fair, by simp [none]⟩
      · simp only [Store.setDocuments, setCell_other same] at flying ⊢
        exact orderly.flying cell flight flying
    case lost => exact orderly.lost

/--
A number that the lookup in a cell did not draw stays what it is: that of a name that is written,
was drawn by a lookup in another cell, or is of no use to anybody.
-/
theorem Orderly.others (orderly : Orderly names low traffic gifts fate) (cell high : Nat)
    (after : Nat → Fate) (up : (traffic.store.names names).issued ≤ high)
    (kept : ∀ number, number ≤ (traffic.store.names names).issued → fate number ≠ .drawn cell →
      after number = fate number) :
    (∀ other, ∀ gift ∈ gifts other, ∃ number, low < number ∧ number ≤ high ∧
      gift.2 = anonymousName number ∧ after number = .written other gift.1) ∧
    (∀ other flight, other ≠ cell → traffic.flights other = some flight → ∃ documents,
      traffic.store.loaded other = some documents ∧ flight.Fair documents ∧
        ∀ number ∈ flight.drawn, low < number ∧ number ≤ high ∧
          after number = .drawn other) ∧
    ∀ number ∈ traffic.lost, number ≤ high ∧ after number = .lost := by
  -- The numbers of all these have a fate other than that of the lookup in the cell.
  refine ⟨?_, ?_, ?_⟩
  · intro other gift member
    obtain ⟨number, behind, upto, named, written⟩ := orderly.given other gift member
    refine ⟨number, behind, Nat.le_trans upto up, named, ?_⟩
    rw [kept number upto (by simp [written]), written]
  · intro other flight elsewhere flying
    obtain ⟨documents, loaded, fair, numbers⟩ := orderly.flying other flight flying
    refine ⟨documents, loaded, fair, ?_⟩
    intro number member
    obtain ⟨behind, upto, drawn⟩ := numbers number member
    refine ⟨behind, Nat.le_trans upto up, ?_⟩
    rw [kept number upto (by simp [drawn, elsewhere]), drawn]
  · intro number member
    obtain ⟨upto, nobody⟩ := orderly.lost number member
    exact ⟨Nat.le_trans upto up, by rw [kept number upto (by simp [nobody]), nobody]⟩

/-- Lookups stay orderly when one of them draws a name, which is one that nobody has. -/
theorem Orderly.draw (orderly : Orderly names low traffic gifts fate)
    (supply : held.names = names) :
    ∃ after, Orderly names low (traffic.draw held) gifts after := by
  rcases traffic.draw_cases held with
    same | ⟨flight, documents, path, rest, flying, loaded, pending⟩
  · rw [same]
    exact ⟨fate, orderly⟩
  · obtain ⟨known, stands, fair, numbers⟩ := orderly.flying _ flight flying
    obtain rfl : documents = known := Option.some.inj (loaded.symm.trans stands)
    rw [draw_flying flying loaded pending, advance, supply]
    -- The number is greater than all that were drawn before.
    obtain ⟨given, others, lost⟩ := orderly.others held.documents
      ((traffic.store.names names).issued + 1)
      (setCell fate ((traffic.store.names names).issued + 1) (.drawn held.documents))
      (Nat.le_succ _) fun number upto _ => setCell_other (by omega) _ _
    have up := orderly.issued
    refine ⟨setCell fate ((traffic.store.names names).issued + 1) (.drawn held.documents), ?_⟩
    constructor
    all_goals simp only [Store.setNames, setCell_self]
    case issued => omega
    case loaded => exact orderly.loaded
    case unloaded => exact orderly.unloaded
    case given => exact given
    case lost => exact lost
    case flying =>
      intro cell other there
      by_cases same : cell = held.documents
      · subst same
        obtain rfl : flight.draw path rest documents.declaredIds
            ((traffic.store.names names).issued + 1) = other := by simpa using there
        refine ⟨documents, loaded, fair.draw pending ?_, ?_⟩
        · intro earlier member
          have upto := (numbers earlier member).2.1
          omega
        · intro number member
          rw [Flight.draw_drawn] at member
          rcases List.mem_cons.1 member with rfl | earlier
          · exact ⟨by omega, Nat.le_refl _, setCell_self _ _ _⟩
          · obtain ⟨behind, upto, here⟩ := numbers number earlier
            refine ⟨behind, by omega, ?_⟩
            rw [setCell_other (by omega), here]
      · rw [setCell_other same] at there
        exact others cell other same there

/-- Lookups stay orderly when one of them fails, whose numbers are of no use to anybody then. -/
theorem Orderly.fail (orderly : Orderly names low traffic gifts fate) {flight : Flight}
    (flying : traffic.flights held.documents = some flight) :
    ∃ after, Orderly names low
      { traffic with
        flights := setCell traffic.flights held.documents none
        lost := flight.drawn ++ traffic.lost } gifts after := by
  -- The numbers of the lookup change their fate, and no others do.
  obtain ⟨documents, loaded, fair, numbers⟩ := orderly.flying _ flight flying
  obtain ⟨given, others, lost⟩ := orderly.others held.documents _
    (fun number => if number ∈ flight.drawn then .lost else fate number) (Nat.le_refl _)
    fun number _ other => if_neg fun drawn => other (numbers number drawn).2.2
  refine ⟨fun number => if number ∈ flight.drawn then .lost else fate number, ?_⟩
  constructor
  case issued => exact orderly.issued
  case loaded => exact orderly.loaded
  case unloaded => exact orderly.unloaded
  case given => exact given
  case flying =>
    intro cell other there
    by_cases same : cell = held.documents
    · simp [same] at there
    · simp only [setCell_other same] at there
      exact others cell other same there
  case lost =>
    intro number member
    rcases List.mem_append.1 member with drawn | earlier
    · exact ⟨(numbers number drawn).2.1, if_pos drawn⟩
    · exact lost number earlier

/-- Lookups stay orderly when one of them succeeds, whose names are in its documents then. -/
theorem Orderly.succeed (orderly : Orderly names low traffic gifts fate) {flight : Flight}
    {documents : DocumentSet} (flying : traffic.flights held.documents = some flight)
    (loaded : traffic.store.loaded held.documents = some documents)
    (done : flight.pending = []) :
    Orderly names low
      { traffic with
        flights := setCell traffic.flights held.documents none
        store := traffic.store.setDocuments held.documents (documents.giveIds flight.named) }
      (setCell gifts held.documents (gifts held.documents ++ flight.named))
      (flight.spend held.documents fate) := by
  -- The ids join those given in the cell, under numbers that only this lookup drew.
  obtain ⟨known, stands, fair, numbers⟩ := orderly.flying _ flight flying
  obtain rfl : documents = known := Option.some.inj (loaded.symm.trans stands)
  obtain ⟨given, others, lost⟩ := orderly.others held.documents _
    (flight.spend held.documents fate) (Nat.le_refl _)
    fun number _ other => fair.spend_other _ _ fun drawn => other (numbers number drawn).2.2
  constructor
  all_goals simp only [Store.setDocuments]
  case issued => exact orderly.issued
  case lost => exact lost
  case loaded =>
    intro cell marked there
    by_cases same : cell = held.documents
    · subst same
      obtain rfl : documents.giveIds flight.named = marked := by simpa using there
      obtain ⟨origin, from_there, rfl, fits⟩ := orderly.loaded _ documents loaded
      refine ⟨origin, from_there, ?_, ?_⟩
      · rw [setCell_self, DocumentSet.giveIds_append]
      · rw [setCell_self]
        exact fits.append (fair.fits done)
    · rw [setCell_other same] at there ⊢
      exact orderly.loaded cell marked there
  case unloaded =>
    intro cell unloaded
    by_cases same : cell = held.documents
    · simp [same] at unloaded
    · rw [setCell_other same] at unloaded ⊢
      exact orderly.unloaded cell unloaded
  case given =>
    intro cell gift member
    by_cases same : cell = held.documents
    · subst same
      rw [setCell_self] at member
      rcases List.mem_append.1 member with earlier | last
      · exact given _ gift earlier
      · obtain ⟨number, drawn, named⟩ := fair.numbered gift last
        obtain ⟨behind, upto, _⟩ := numbers number drawn
        exact ⟨number, behind, upto, named, fair.spend_named _ _ last named⟩
    · rw [setCell_other same] at member
      exact given cell gift member
  case flying =>
    intro cell other there
    by_cases same : cell = held.documents
    · simp [same] at there
    · rw [setCell_other same] at there ⊢
      exact others cell other same there

/-- Lookups stay orderly in each move. -/
theorem Orderly.take (orderly : Orderly names low traffic gifts fate) (move : Move)
    (supply : move.source.names = names) :
    ∃ more after, Orderly names low (traffic.take move) more after := by
  -- A search draws nothing, a draw writes nothing, and a finish writes or loses all.
  cases move with
  | search held files bean seed => exact ⟨gifts, fate, orderly.search held files bean seed⟩
  | draw held =>
    have drawn : ∃ after, Orderly names low (traffic.draw held) gifts after :=
      orderly.draw supply
    exact ⟨gifts, drawn⟩
  | finish held =>
    simp only [Traffic.take]
    rcases traffic.finish_cases held with same | ⟨flight, documents, flying, loaded, done⟩
    · rw [same]
      exact ⟨gifts, fate, orderly⟩
    · rw [finish_flying flying loaded done]
      cases flight.outcome with
      | error error =>
        obtain ⟨after, further⟩ := orderly.fail flying
        exact ⟨gifts, after, further⟩
      | ok draft => exact ⟨_, _, orderly.succeed flying loaded done⟩

/-- Lookups stay orderly, in whatever order their moves come. -/
theorem Orderly.run (orderly : Orderly names low traffic gifts fate) {moves : List Move}
    (supply : ∀ move ∈ moves, move.source.names = names) :
    ∃ more after, Orderly names low (traffic.run moves) more after := by
  -- The induction is on the moves, whatever was given before them.
  induction moves generalizing traffic gifts fate with
  | nil => exact ⟨gifts, fate, orderly⟩
  | cons move rest ih =>
    obtain ⟨_, _, further⟩ := orderly.take move (supply move List.mem_cons_self)
    exact ih further fun other member => supply other (List.mem_cons_of_mem move member)

end Traffic

end BeanWiring
