import BeanWiring.Proofs.Import.Resolution
import BeanWiring.Proofs.Source.Giving
import BeanWiring.Proofs.Source.Plan
import BeanWiring.Proofs.Source.Watch

/-!
Where the ids lead that definitions refer to their inline beans by: to these beans, unless a
source in front has the id of its own.
-/

namespace BeanWiring

/-- A lookup that a source of documents answers is one in it, after those in front were passed. -/
theorem Chain.lookup_within {names : Nat} {chain : Chain} (sharing : Sharing names chain.sources)
    {files : Files} {store : Store} {bean : String} {index : Nat} {held : DocumentSource}
    (there : chain.sources[index]? = some (.documents held))
    (answered : chain.answerer? files store bean = some index) :
    ∃ before, Passed files store (chain.sources.take index) before ∧
      before.loaded held.documents = store.loaded held.documents ∧
      (chain.lookup files store bean).outcome = (held.lookup files before bean none).outcome ∧
      (chain.lookup files store bean).store = (held.lookup files before bean none).store := by
  rcases lookup_cases sharing.apart files store bean with
    ⟨unanswered, _⟩ | ⟨position, source, before, found, inside, passed, outcome, left⟩
  · rw [unanswered] at answered
    cases answered
  · obtain rfl : position = index := by
      rw [found] at answered
      exact Option.some.inj answered
    obtain rfl : source = .documents held := by
      rw [inside] at there
      exact Option.some.inj there
    -- No source in front has the cell of this one.
    have same := passed.others held.documents fun kept => sharing.not_before there
    exact ⟨before, passed, same, outcome, left⟩

/-- A definition that a source of documents answers is made from what it holds then. -/
theorem Chain.lookup_made {names : Nat} {chain : Chain} (sharing : Sharing names chain.sources)
    {files : Files} {store : Store} {bean : String} {index : Nat} {held : DocumentSource}
    {definition : Definition} (there : chain.sources[index]? = some (.documents held))
    (answered : chain.answerer? files store bean = some index)
    (answer : (chain.lookup files store bean).outcome = .ok (some definition)) :
    ∃ documents marked place draft, (held.load files store).outcome = .ok documents ∧
      (chain.lookup files store bean).store.loaded held.documents = some marked ∧
      MadeFrom documents marked bean none place draft definition ∧
      ∀ kept, .documents kept ∈ chain.sources.take index → ∃ known,
        (chain.lookup files store bean).store.loaded kept.documents = some known := by
  obtain ⟨before, passed, same, outcome, left⟩ := chain.lookup_within sharing there answered
  rw [outcome] at answer
  rw [left]
  cases viewed : held.view files before with
  | error error =>
    rw [(held.lookup_unloadable viewed bean none).1] at answer
    cases answer
  | ok documents =>
    rw [(held.lookup_loaded viewed bean none).1] at answer
    rw [(held.lookup_loaded viewed bean none).2]
    have here : (held.load files store).outcome = .ok documents := by
      rw [← viewed]
      exact (DocumentSource.view_congr same).symm
    -- Without a seed the definition is made from a declaration.
    rcases assemble_made (ok_of_mapError answer) with ⟨_, seeded⟩ | ⟨place, draft, made⟩
    · cases seeded
    · refine ⟨documents, _, place, draft, here, setCell_self _ _ _, made, ?_⟩
      intro kept earlier
      obtain ⟨known, _, stays⟩ := passed.loaded kept earlier
      refine ⟨known, ?_⟩
      rw [← stays]
      exact setCell_other (sharing.not_before there earlier) _ _

/-- The outcome of a lookup that a source of documents answers is what it assembles. -/
theorem Chain.lookup_assembled {names : Nat} {chain : Chain}
    (sharing : Sharing names chain.sources) {files : Files} {store : Store} {bean : String}
    {index : Nat} {held : DocumentSource} {documents : DocumentSet}
    (there : chain.sources[index]? = some (.documents held))
    (answered : chain.answerer? files store bean = some index)
    (loaded : store.loaded held.documents = some documents) :
    (chain.lookup files store bean).outcome =
      (assemble documents (store.names held.names) bean none).outcome.mapError .definition := by
  obtain ⟨before, passed, same, outcome, _⟩ := chain.lookup_within sharing there answered
  have viewed : held.view files before = .ok documents :=
    DocumentSource.view_of_loaded (same.trans loaded)
  -- The sources in front draw no name, since they find nothing.
  rw [outcome, ← passed.names]
  exact (held.lookup_loaded viewed bean none).1

namespace Watch

variable {names : Nat} {chain : Chain} {watch : Watch} {gifts : DocumentSource → Given Place}
  {index : Nat} {held : DocumentSource} {origin documents : DocumentSet} {place : Place}
  {id : String}

/-- An id at a bean that had none in what was loaded was given there, to no other bean. -/
theorem Sound.mem_gifts (sound : Sound names chain.sources watch gifts)
    (member : .documents held ∈ chain.sources)
    (loaded : watch.store.loaded held.documents = some documents)
    (loaded_as : watch.origin held = some origin) (nameless : origin.NamelessAt place)
    (declared : documents.DeclaredAt id place) :
    (place, id) ∈ gifts held ∧ documents.Finds id place ∧
      ∀ other, documents.DeclaredAt id other ↔ other = place := by
  -- What was loaded grew by the ids given, and each of these is on one bean.
  obtain ⟨base, from_base, grown⟩ := sound.loaded held member documents loaded
  obtain rfl : base = origin := Option.some.inj (from_base.symm.trans loaded_as)
  have given := grown.mem_given nameless declared
  refine ⟨given, ?_, ?_⟩
  · rw [grown.documents]
    exact grown.fits.finds given
  · intro other
    constructor
    · intro also
      rw [grown.documents] at also
      exact grown.fits.alone given also
    · rintro rfl
      exact declared

/-- Of an id that another source gave a source has to say what it has of its own. -/
theorem Sound.answers_iff_hasOwn (sharing : Sharing names chain.sources)
    (sound : Sound names chain.sources watch gifts) (member : .documents held ∈ chain.sources)
    {gift : Place × String} (given : gift ∈ gifts held) {source : Source}
    (among : source ∈ chain.sources) (other : source ≠ .documents held)
    (loaded : ∀ kept, source = .documents kept →
      ∃ known, watch.store.loaded kept.documents = some known) (files : Files) :
    source.answers files watch.store gift.2 = true ↔ watch.HasOwn gift.2 source := by
  cases source with
  | memory cell => simp [Source.answers, HasOwn]
  | external name answer => exact (sharing.kinds _ among).elim
  | documents kept =>
    obtain ⟨known, there⟩ := loaded kept rfl
    obtain ⟨base, from_base, grown⟩ := sound.loaded kept among known there
    -- No other source gives the id, so it is declared exactly if it was when loaded.
    have elsewhere : gift.2 ∉ (gifts kept).map (·.2) := by
      intro named
      obtain ⟨also, second, same⟩ := List.mem_map.1 named
      have differ : held ≠ kept := fun equal => other (by rw [equal])
      exact sound.apart held member kept among differ gift given also second same.symm
    have declared := grown.fits.mem_declaredIds gift.2
    rw [← grown.documents] at declared
    simp [Source.answers, HasOwn, DocumentSource.view_of_loaded there, from_base, declared,
      elsewhere]

/-- A lookup of a given id ends at its source exactly if no earlier one has it of its own. -/
theorem Sound.answerer?_iff (sharing : Sharing names chain.sources)
    (sound : Sound names chain.sources watch gifts)
    (there : chain.sources[index]? = some (.documents held))
    (loaded : watch.store.loaded held.documents = some documents) {gift : Place × String}
    (given : gift ∈ gifts held) (declared : documents.DeclaredAt gift.2 gift.1)
    (earlier : ∀ kept, .documents kept ∈ chain.sources.take index →
      ∃ known, watch.store.loaded kept.documents = some known) (files : Files) :
    chain.answerer? files watch.store gift.2 = some index ↔
      ∀ source ∈ chain.sources.take index, ¬ watch.HasOwn gift.2 source := by
  have member := List.mem_of_getElem? there
  obtain ⟨inside, stands⟩ := List.getElem?_eq_some_iff.1 there
  have own : ∀ source ∈ chain.sources.take index,
      (source.answers files watch.store gift.2 = true ↔ watch.HasOwn gift.2 source) := by
    intro source before
    refine sound.answers_iff_hasOwn sharing member given (List.mem_of_mem_take before) ?_ ?_ files
    · rintro rfl
      exact sharing.not_before there before rfl
    · rintro kept rfl
      exact earlier kept before
  have itself : (Source.documents held).answers files watch.store gift.2 = true := by
    have known := (documents.mem_declaredIds_iff gift.2).2 ⟨gift.1, declared⟩
    rw [Source.answers_of_view (DocumentSource.view_of_loaded loaded)]
    exact decide_eq_true known
  rw [Chain.answerer?, Chain.answererAmong?_eq sharing.apart, List.findIdx?_eq_some_iff_getElem]
  constructor
  · -- The sources in front of the first that answers are silent.
    rintro ⟨_, _, silent⟩ source before
    rw [← own source before]
    obtain ⟨position, within, rfl⟩ := List.mem_take_iff_getElem.1 before
    exact silent position (by omega)
  · intro none
    refine ⟨inside, by rw [stands]; exact itself, ?_⟩
    intro position ahead
    have before : chain.sources[position] ∈ chain.sources.take index :=
      List.mem_take_iff_getElem.2 ⟨position, by omega, rfl⟩
    rw [own _ before]
    exact none _ before

end Watch

/--
In a chain made of registered definitions and documents, whatever is done with it, a definition
that documents answer refers to their inline beans by ids that stand at these beans alone; if
such an id was given, a later lookup of it ends there exactly if no source in front has the id of
its own.

A lookup changes which source answers an id only by giving this very id: then its source answers
instead of those behind it.
-/
theorem Chain.inline_beans_lead_home {start : Files} {store : Store} {steps : List PlanStep}
    {chain : Chain} (own : ∀ step ∈ steps, step.IsOwn)
    (made : (Chain.make start store steps).outcome = .ok chain) (actions : List Action)
    (files : Files) (bean : String) :
    let watch := (Watch.start (Chain.make start store steps).store).run chain actions
    let after := watch.see chain (.lookup files bean)
    (∀ index held definition, chain.sources[index]? = some (.documents held) →
      chain.answerer? files watch.store bean = some index →
      (chain.lookup files watch.store bean).outcome = .ok (some definition) →
      ∃ origin documents marked place draft, after.origin held = some origin ∧
        (held.load files watch.store).outcome = .ok documents ∧
        after.store.loaded held.documents = some marked ∧
        MadeFrom documents marked bean none place draft definition ∧
        ∀ path ∈ draft.places, origin.NamelessAt (place.down path) → ∀ later again,
          let reached := after.run chain later
          let id := marked.idAt (place.down path)
          (chain.answerer? again reached.store id = some index ↔
            ∀ source ∈ chain.sources.take index, ¬ reached.HasOwn id source) ∧
          ∃ home, reached.store.loaded held.documents = some home ∧
            (∀ other, home.DeclaredAt id other ↔ other = place.down path) ∧
            home.findBean? id = home.pathAndElement? (place.down path) ∧
            (chain.answerer? again reached.store id = some index →
              (chain.lookup again reached.store id).outcome =
                (assemble home (reached.store.names held.names) id none).outcome.mapError
                  .definition)) ∧
    ∀ id,
      ((∀ held, .documents held ∈ chain.sources →
          ¬ held.Gives files watch.store after.store id) →
        chain.answerer? files after.store id = chain.answerer? files watch.store id) ∧
      ∀ index held, chain.sources[index]? = some (.documents held) →
        held.Gives files watch.store after.store id →
        chain.answerer? files after.store id =
          match chain.answerer? files watch.store id with
          | some before => some (min before index)
          | none => some index := by
  obtain ⟨names, sharing⟩ := Chain.make_sharing own made
  intro watch after
  obtain ⟨gifts, sound⟩ := (Watch.sound_start names chain.sources
    (Chain.make start store steps).store).run sharing actions
  refine ⟨?_, ?_⟩
  · intro index held definition there answered answer
    have member := List.mem_of_getElem? there
    obtain ⟨documents, marked, place, draft, viewed, kept, from_there, earlier⟩ :=
      chain.lookup_made sharing there answered answer
    obtain ⟨given, sound_after⟩ := sound.see sharing (.lookup files bean)
    obtain ⟨origin, loaded_as, _⟩ := sound_after.loaded held member marked kept
    refine ⟨origin, documents, marked, place, draft, loaded_as, viewed, kept, from_there, ?_⟩
    intro path inside nameless later again reached id
    have kept_after : after.store.loaded held.documents = some marked := kept
    obtain ⟨_, same_origin, home, _, loaded, grown⟩ :=
      Watch.run_loaded sharing member kept_after later
    obtain ⟨all_given, sound_reached⟩ := sound_after.run sharing later
    have declared : home.DeclaredAt id (place.down path) :=
      grown.declaredAt (from_there.declared path inside)
    obtain ⟨given_here, finds, alone⟩ := sound_reached.mem_gifts member loaded
      (same_origin.trans loaded_as) nameless declared
    -- What was passed in the lookup was loaded then, and stays so.
    have still_earlier : ∀ passed, .documents passed ∈ chain.sources.take index →
        ∃ known, reached.store.loaded passed.documents = some known := by
      intro passed before
      obtain ⟨known, loaded_then⟩ := earlier passed before
      have there_then : after.store.loaded passed.documents = some known := loaded_then
      obtain ⟨_, _, now, _, stays, _⟩ :=
        Watch.run_loaded sharing (List.mem_of_mem_take before) there_then later
      exact ⟨now, stays⟩
    refine ⟨?_, home, loaded, alone, finds.findBean?_eq, ?_⟩
    · exact sound_reached.answerer?_iff sharing there loaded given_here declared still_earlier again
    · intro ends_here
      exact chain.lookup_assembled sharing there ends_here loaded
  · intro id
    exact ⟨chain.answerer?_not_given sharing files watch.store bean,
      fun index held there => chain.answerer?_given sharing files watch.store bean there⟩

/-- A document that declares an id of the form that inline beans are given. -/
def declaringText : String :=
  "<beans><bean id=\"anonymous-bean#1\" class=\"Declared\" scope=\"singleton\"/></beans>"

/-- A document with an inline bean that has no id. -/
def inliningText : String :=
  "<beans><bean id=\"svc\" class=\"Svc\" scope=\"singleton\"><property name=\"inner\">" ++
    "<bean class=\"Inner\" scope=\"prototype\"/></property></bean></beans>"

/-- The tree of the declaring document. -/
def declaringTree : Element :=
  ⟨"beans", [], "", [⟨"bean", [("id", "anonymous-bean#1"), ("class", "Declared"),
    ("scope", "singleton")], "", []⟩]⟩

/-- The tree of the document with the inline bean. -/
def inliningTree : Element :=
  ⟨"beans", [], "", [⟨"bean", [("id", "svc"), ("class", "Svc"), ("scope", "singleton")], "",
    [⟨"property", [("name", "inner")], "",
      [⟨"bean", [("class", "Inner"), ("scope", "prototype")], "", []⟩]⟩]⟩]⟩

/-- Two files right below the root, one for each document. -/
def clashingFiles : Files :=
  ⟨[(⟨["a.xml"]⟩, .file declaringText.toUTF8), (⟨["b.xml"]⟩, .file inliningText.toUTF8)], {},
    by decide⟩

/-- The source of the declaring document. -/
def declaringSource : DocumentSource :=
  ⟨⟨Location.path ⟨["a.xml"]⟩, .document⟩, 2, 0⟩

/-- The source of the document with the inline bean. -/
def inliningSource : DocumentSource :=
  ⟨⟨Location.path ⟨["b.xml"]⟩, .document⟩, 1, 0⟩

/-- A chain in which the source with the inline bean stands in front. -/
def clashingChain : Chain :=
  ⟨[.documents inliningSource, .documents declaringSource]⟩

/-- The steps that lead to the chain. -/
def clashingSteps : List PlanStep :=
  [.documents inliningSource.options, .documents declaringSource.options]

/-- The store of the chain when nothing was looked up. -/
def clashingStore : Store :=
  (Chain.make clashingFiles {} clashingSteps).store

/-- What the declaring document holds. -/
def declaringDocuments : DocumentSet :=
  ⟨[⟨declaringSource.options.filename, declaringTree⟩]⟩

/-- What the document with the inline bean holds. -/
def inliningDocuments : DocumentSet :=
  ⟨[⟨inliningSource.options.filename, inliningTree⟩]⟩

/-- The declaring source goes by its document. -/
theorem view_declaring :
    declaringSource.view clashingFiles clashingStore = .ok declaringDocuments := by
  have there : clashingFiles.at? ⟨["a.xml"]⟩ = some (.file declaringText.toUTF8) := rfl
  rw [DocumentSource.view_of_unloaded rfl]
  -- The file is in the top directory and imports nothing.
  exact resolve_top (by decide +kernel) (by decide +kernel) there (by decide +kernel)
    (by decide +kernel) .document

/-- The source with the inline bean goes by its document. -/
theorem view_inlining :
    inliningSource.view clashingFiles clashingStore = .ok inliningDocuments := by
  have there : clashingFiles.at? ⟨["b.xml"]⟩ = some (.file inliningText.toUTF8) := rfl
  rw [DocumentSource.view_of_unloaded rfl]
  -- The file is in the top directory and imports nothing.
  exact resolve_top (by decide +kernel) (by decide +kernel) there (by decide +kernel)
    (by decide +kernel) .document

/-- What becomes of the documents with the inline bean when their bean is looked up. -/
def inliningAssembly : Assembly :=
  assemble inliningDocuments {} "svc" none

/-- The sources of the chain in order. -/
theorem clashing_sources : clashingChain.sources =
    [.documents inliningSource, .documents declaringSource] := rfl

/-- The sources of the chain keep their documents in different cells. -/
theorem clashing_apart : clashingChain.sources.Pairwise Source.Apart := by
  refine List.pairwise_pair.2 ?_
  rintro _ ⟨rfl⟩ _ ⟨rfl⟩
  decide

/-- The bean with the inline bean is answered from its document. -/
theorem lookup_inlining :
    clashingChain.answerer? clashingFiles clashingStore "svc" = some 0 ∧
    (clashingChain.lookup clashingFiles clashingStore "svc").outcome =
        inliningAssembly.outcome.mapError .definition ∧
      (clashingChain.lookup clashingFiles clashingStore "svc").store =
        (clashingStore.setDocuments 1 inliningAssembly.documents).setNames 0
          inliningAssembly.names := by
  have declared : "svc" ∈ inliningDocuments.declaredIds := by decide +kernel
  have answered : clashingChain.answerer? clashingFiles clashingStore "svc" = some 0 := by
    rw [Chain.answerer?, Chain.answererAmong?_eq clashing_apart]
    simp [clashingChain, List.findIdx?_cons, Source.answers_of_view view_inlining, declared]
  obtain ⟨source, there, outcome, left⟩ := Chain.lookupAmong_answered answered
  obtain rfl : Source.documents inliningSource = source := Option.some.inj there
  -- The first source has the bean, so it is as if it were asked alone.
  obtain ⟨said, kept⟩ := inliningSource.lookup_loaded view_inlining "svc" none
  exact ⟨answered, outcome.trans said, left.trans kept⟩

/-- A given id can hide a bean that was declared under it. -/
theorem Chain.given_id_hides_declared :
    (Chain.make clashingFiles {} clashingSteps).outcome = .ok clashingChain ∧
    (declaringSource.load clashingFiles clashingStore).outcome = .ok declaringDocuments ∧
    "anonymous-bean#1" ∈ declaringDocuments.declaredIds ∧
    clashingChain.answerer? clashingFiles clashingStore "anonymous-bean#1" = some 1 ∧
    clashingChain.answerer? clashingFiles
      (clashingChain.lookup clashingFiles clashingStore "svc").store "anonymous-bean#1" =
        some 0 := by
  have before : "anonymous-bean#1" ∉ inliningDocuments.declaredIds := by decide +kernel
  have declared : "anonymous-bean#1" ∈ declaringDocuments.declaredIds := by decide +kernel
  have given : "anonymous-bean#1" ∈ inliningAssembly.documents.declaredIds := by decide +kernel
  refine ⟨rfl, view_declaring, declared, ?_, ?_⟩
  · rw [answerer?, answererAmong?_eq clashing_apart]
    simp [clashingChain, List.findIdx?_cons, Source.answers_of_view view_inlining,
      Source.answers_of_view view_declaring, before, declared]
  · -- The source in front gave the id that the other declares.
    have loaded : (clashingChain.lookup clashingFiles clashingStore "svc").store.loaded 1 =
        some inliningAssembly.documents := by
      rw [lookup_inlining.2.2]
      rfl
    have viewed : inliningSource.view clashingFiles
        (clashingChain.lookup clashingFiles clashingStore "svc").store =
          .ok inliningAssembly.documents := DocumentSource.view_of_loaded loaded
    rw [answerer?, answererAmong?_eq clashing_apart]
    simp only [clashing_sources, List.findIdx?_cons, Source.answers_of_view viewed, given,
      decide_true, if_true]

/-- The definition made from the document with the inline bean. -/
def inliningDefinition : Definition :=
  { name := "svc", className := "Svc",
    properties := [⟨"inner", .beanRef "anonymous-bean#1"⟩] }

/-- In front of the declaration the inline bean is what its id leads to, whatever is done. -/
theorem Chain.inline_bean_leads_home_in_front :
    (∀ step ∈ clashingSteps, step.IsOwn) ∧
    (Chain.make clashingFiles {} clashingSteps).outcome = .ok clashingChain ∧
    (clashingChain.lookup clashingFiles clashingStore "svc").outcome =
      .ok (some inliningDefinition) ∧
    ∀ later again, clashingChain.answerer? again
      (((Watch.start clashingStore).see clashingChain (.lookup clashingFiles "svc")).run
        clashingChain later).store "anonymous-bean#1" = some 0 := by
  have own : ∀ step ∈ clashingSteps, step.IsOwn := by
    simp [clashingSteps, PlanStep.IsOwn]
  obtain ⟨answered, outcome, left⟩ := lookup_inlining
  have made : inliningAssembly.outcome.toOption = some (some inliningDefinition) := by
    decide +kernel
  have answer : (clashingChain.lookup clashingFiles clashingStore "svc").outcome =
      .ok (some inliningDefinition) := by
    rw [outcome, ok_of_toOption made]
    rfl
  have built : (Chain.make clashingFiles {} clashingSteps).outcome = .ok clashingChain := rfl
  refine ⟨own, built, answer, ?_⟩
  obtain ⟨origin, documents, marked, place, draft, loaded_as, viewed, kept, from_there, home⟩ :=
    (Chain.inline_beans_lead_home own built [] clashingFiles "svc").1 0 inliningSource
      inliningDefinition rfl answered answer
  -- The source goes by what its file holds, and keeps it with the id that was given.
  obtain rfl : inliningDocuments = documents := Except.ok.inj (view_inlining.symm.trans viewed)
  have loaded : (clashingChain.lookup clashingFiles clashingStore "svc").store.loaded
      inliningSource.documents = some inliningAssembly.documents := by
    rw [left]
    rfl
  obtain rfl : inliningAssembly.documents = marked := Option.some.inj (loaded.symm.trans kept)
  have unloaded : clashingStore.loaded inliningSource.documents = none := rfl
  have from_file : (Watch.start clashingStore).originBy clashingFiles
      (clashingChain.lookup clashingFiles clashingStore "svc").store inliningSource =
        some inliningDocuments := by
    have view : (inliningSource.load clashingFiles clashingStore).outcome =
        .ok inliningDocuments := viewed
    simp only [Watch.originBy, Watch.start, unloaded, loaded, view]
    rfl
  obtain rfl : inliningDocuments = origin := Option.some.inj (from_file.symm.trans loaded_as)
  -- Its bean has one inline bean, which had no id.
  have finds : inliningDocuments.placeOf? "svc" = some ⟨0, [0]⟩ := by decide +kernel
  obtain rfl : ⟨0, [0]⟩ = place := Option.some.inj (finds.symm.trans from_there.finds)
  have nameless : inliningDocuments.labelAt? ⟨0, [0, 0, 0]⟩ = some ("bean", none) := by
    decide +kernel
  have inside : [0, 0] ∈ draft.places := by
    obtain ⟨declaration, there, survey⟩ := from_there.surveyed
    have places : (inliningDocuments.element? ⟨0, [0]⟩).bind (fun declaration =>
        ((surveyAt "svc" none declaration).outcome.toOption.map DefinitionDraft.places)) =
        some [[0, 0]] := by decide +kernel
    simp only [there, survey, Option.bind_some, Except.toOption, Option.map_some,
      Option.some.injEq] at places
    simp [places]
  have id : inliningAssembly.documents.idAt ⟨0, [0, 0, 0]⟩ = "anonymous-bean#1" := by
    decide +kernel
  intro later again
  have leads := (home [0, 0] inside nameless later again).1
  have alone : ∀ source ∈ clashingChain.sources.take 0, ¬ Watch.HasOwn
      (((Watch.start clashingStore).see clashingChain (.lookup clashingFiles "svc")).run
        clashingChain later) (inliningAssembly.documents.idAt ⟨0, [0, 0, 0]⟩) source := by
    simp
  rw [← id]
  exact leads.2 alone

end BeanWiring
