import BeanWiring.Proofs.Bean.RoundTrip
import BeanWiring.Proofs.Command.Report
import BeanWiring.Proofs.Command.Startup
import BeanWiring.Proofs.Entries

/-!
The command line tool gives all that it is asked for, or nothing.

Ids are looked up in the order of the arguments and printed in the order of characters, each once.
Main statement: a run that is not told of a log ends well exactly if there is a chain and all ids
can be required one after the other; it then prints a text that reads as one object with the
definitions last given, and else it prints nothing, reports the first fault, and has asked for
nothing behind it.
-/

namespace BeanWiring

/-- The fields that definitions are printed as, in the order of their ids. -/
def fieldsOf (definitions : List (String × Definition)) : List (String × Json) :=
  (definitions.mergeSort fun left right => left.1 ≤ right.1).map fun (id, definition) =>
    (id, definition.toJson)

/-- Printing keeps the ids of definitions. -/
theorem keys_fieldsOf (definitions : List (String × Definition)) :
    Entries.keys (fieldsOf definitions) =
      Entries.keys (definitions.mergeSort fun left right => left.1 ≤ right.1) := by
  simp [Entries.keys, fieldsOf, Function.comp_def]

/-- The ids of the fields are in order, and each is there once. -/
theorem pairwise_keys_fieldsOf {definitions : List (String × Definition)}
    (distinct : (Entries.keys definitions).Nodup) :
    (Entries.keys (fieldsOf definitions)).Pairwise (· < ·) := by
  let sorted := definitions.mergeSort fun left right => left.1 ≤ right.1
  have ordered : (Entries.keys sorted).Pairwise (· ≤ ·) := by
    refine List.pairwise_map.2 ?_
    refine (List.pairwise_mergeSort ?_ ?_ definitions).imp fun before => of_decide_eq_true before
    · intro left middle right first second
      exact decide_eq_true (String.le_trans (of_decide_eq_true first) (of_decide_eq_true second))
    · intro left right
      simpa using String.le_total left.1 right.1
  have apart : (Entries.keys sorted).Nodup :=
    ((List.mergeSort_perm definitions _).map Prod.fst).nodup_iff.2 distinct
  -- Ids in order of which no two are the same are strictly in order.
  rw [keys_fieldsOf]
  exact ordered.imp₂ (fun _ _ => Std.lt_of_le_of_ne) apart

/-- The fields are those of the definitions. -/
theorem mem_keys_fieldsOf (definitions : List (String × Definition)) (id : String) :
    id ∈ Entries.keys (fieldsOf definitions) ↔ id ∈ Entries.keys definitions := by
  rw [keys_fieldsOf]
  exact ((List.mergeSort_perm definitions _).map Prod.fst).mem_iff

/-- Under an id is printed what is found under it. -/
theorem get?_fieldsOf {definitions : List (String × Definition)}
    (distinct : (Entries.keys definitions).Nodup) (id : String) :
    Entries.get? id (fieldsOf definitions) =
      (Entries.get? id definitions).map Definition.toJson := by
  -- Sorting only arranges the definitions anew.
  rw [Entries.get?_perm (List.mergeSort_perm definitions _).symm distinct id]
  exact Entries.get?_map Definition.toJson id _

/--
Whether ids can be required one after the other: the definitions given for them in order, each
with its id, and the store that the last one leaves.
-/
inductive Chain.Gives (chain : Chain) (files : Files) :
    Store → List (String × Definition) → Store → Prop
  | none (store : Store) : Gives chain files store [] store
  | next {store after : Store} {id : String} {definition : Definition}
      {others : List (String × Definition)}
      (given : (chain.require files store id).outcome = .ok definition)
      (rest : Gives chain files (chain.require files store id).store others after) :
      Gives chain files store ((id, definition) :: others) after

namespace Chain

variable {chain : Chain} {files : Files} {start between after : Store}
  {given : List (String × Definition)}

/-- All ids in a row can be required, or there is a first one that cannot. -/
theorem gives_or_fails (chain : Chain) (files : Files) (start : Store) (ids : List String) :
    (∃ given after, chain.Gives files start given after ∧ ids = Entries.keys given) ∨
      ∃ given between id behind error, chain.Gives files start given between ∧
        ids = Entries.keys given ++ id :: behind ∧
        (chain.require files between id).outcome = .error error := by
  induction ids generalizing start with
  | nil => exact .inl ⟨[], start, .none start, rfl⟩
  | cons id rest ih =>
    cases outcome : (chain.require files start id).outcome with
    | error error => exact .inr ⟨[], start, id, rest, error, .none start, rfl, outcome⟩
    | ok definition =>
      -- The others are required from what the first one leaves.
      rcases ih (chain.require files start id).store with
        ⟨given, after, gives, rfl⟩ | ⟨given, between, other, behind, error, gives, rfl, failed⟩
      · exact .inl ⟨(id, definition) :: given, after, .next outcome gives, rfl⟩
      · exact .inr ⟨(id, definition) :: given, between, other, behind, error,
          .next outcome gives, rfl, failed⟩

end Chain

namespace Arguments

variable {arguments : Arguments} {chain : Chain} {files : Files} {start between after : Store}
  {given : List (String × Definition)}

/-- Behind an id that can be required the others are asked for, from what it left. -/
theorem requireAll_next {id : String} {definition : Definition}
    (sound : (chain.require files start id).outcome = .ok definition)
    (found : List (String × Definition)) (rest : List String) :
    let others := requireAll files chain (chain.require files start id).store
      (Entries.set id definition found) rest
    requireAll files chain start found (id :: rest) =
      { others with
        notices := (chain.require files start id).notices ++
          .found id definition.className :: others.notices } := by
  have told := Asked.mapError_of_ok sound (Failure.doing ("查找 bean 失败: " ++ id))
  -- The definition found goes on as it is, and only the wording of a fault would change.
  rw [requireAll, Asked.andThen]
  simp only [told]
  rfl

/-- An id that cannot be required ends the search, whatever stands behind it. -/
theorem requireAll_ends {id : String} {error : SourceError}
    (failed : (chain.require files start id).outcome = .error error)
    (found : List (String × Definition)) (behind : List String) :
    requireAll files chain start found (id :: behind) =
      ⟨.error (.doing ("查找 bean 失败: " ++ id) error), (chain.require files start id).store,
        (chain.require files start id).notices⟩ := by
  have told : ((chain.require files start id).mapError
      (Failure.doing ("查找 bean 失败: " ++ id))).outcome =
        .error (.doing ("查找 bean 失败: " ++ id) error) := by
    simp only [Asked.mapError, failed, Except.mapError]
  -- After a fault the others are not looked at, so they do not count.
  rw [requireAll, Asked.andThen_of_error told]
  rfl

/-- If all ids can be required, their definitions are gathered in order. -/
theorem requireAll_of_gives (gives : chain.Gives files start given after)
    (found : List (String × Definition)) :
    (requireAll files chain start found (Entries.keys given)).outcome =
        .ok (Entries.setAll found given) ∧
      (requireAll files chain start found (Entries.keys given)).store = after := by
  -- The induction is on the ids, for all that was found before them.
  induction gives generalizing found with
  | none store => exact ⟨rfl, rfl⟩
  | @next store after id definition others sound _ ih =>
    have step := requireAll_next sound found (Entries.keys others)
    obtain ⟨gathered, left⟩ := ih (Entries.set id definition found)
    rw [Entries.keys, List.map_cons]
    exact ⟨(congrArg Asked.outcome step).trans gathered, (congrArg Asked.store step).trans left⟩

/-- The first id that cannot be required is told, and nothing behind it is asked for. -/
theorem requireAll_of_fails (gives : chain.Gives files start given between) {id : String}
    {error : SourceError} (failed : (chain.require files between id).outcome = .error error)
    (found : List (String × Definition)) (behind : List String) :
    let asked := requireAll files chain start found (Entries.keys given ++ id :: behind)
    asked.outcome = .error (.doing ("查找 bean 失败: " ++ id) error) ∧
      asked.store = (chain.require files between id).store ∧
      ∀ others,
        requireAll files chain start found (Entries.keys given ++ id :: others) = asked := by
  induction gives generalizing found with
  | none store =>
    simp only [Entries.keys, List.map_nil, List.nil_append, requireAll_ends failed]
    exact ⟨trivial, trivial, fun _ => trivial⟩
  | @next store between first definition others sound _ ih =>
    -- The first id is required in the same way, whatever is asked for later.
    obtain ⟨told, left, same⟩ := ih failed (Entries.set first definition found)
    have step := fun later => requireAll_next sound found (Entries.keys others ++ id :: later)
    simp only [Entries.keys, List.map_cons, List.cons_append] at step ⊢
    refine ⟨?_, ?_, ?_⟩
    · rw [step]
      exact told
    · rw [step]
      exact left
    · intro later
      have equal := same later
      simp only [Entries.keys] at equal
      rw [step, step, equal]

end Arguments

/-- The source that the settings at a position make, behind others for the settings in front. -/
def sourceAt (index : Nat) (options : SourceOptions) : Source :=
  .documents ⟨options, 1 + index, 0⟩

/--
The documents of settings are asked in their order: the first that do not decline a bean answer for
all, or else no bean is found.
-/
theorem Chain.ofSettings_in_order (settings : List SourceOptions) (files : Files) (store : Store)
    (id : String) :
    (∃ index options, settings[index]? = some options ∧
      (∀ earlier other, earlier < index → settings[earlier]? = some other →
        (sourceAt earlier other).Declines files store id) ∧
      ¬ (sourceAt index options).Declines files store id ∧
      (Chain.ofSettings settings).AnsweredBy files store id index (sourceAt index options)) ∨
    ((∀ index options, settings[index]? = some options →
        (sourceAt index options).Declines files store id) ∧
      ((Chain.ofSettings settings).require files store id).outcome =
        .error (.definition (.beanNotFound id))) := by
  have apart : (Chain.ofSettings settings).sources.Pairwise Source.Apart :=
    documentSources_apart 0 1 settings
  -- Each source stands at the position of its settings, so the two orders are one.
  have stands : ∀ index, (Chain.ofSettings settings).sources[index]? =
      settings[index]?.map (sourceAt index) := getElem?_documentSources 0 1 settings
  rcases Chain.all_decline_or_first (Chain.ofSettings settings).sources files store id with
    all | ⟨index, source, there, front, speaks⟩
  · refine .inr ⟨?_, (Chain.require_beanNotFound_iff apart).2 (.inl all)⟩
    intro index options known
    have place := stands index
    rw [known] at place
    exact all _ (List.mem_of_getElem? place)
  · have answered := Chain.answeredBy apart there front speaks
    rw [stands] at there
    obtain ⟨options, known, rfl⟩ := Option.map_eq_some_iff.1 there
    refine .inl ⟨index, options, known, ?_, speaks, answered⟩
    intro earlier other before place
    have ahead := stands earlier
    rw [place] at ahead
    -- What stands in front of the source that answers declines, by its settings.
    obtain ⟨inside, same⟩ := List.getElem?_eq_some_iff.1 ahead
    exact front _ (List.mem_take_iff_getElem.2 ⟨earlier, by omega, same⟩)

/-- What a chain for settings gives has the name that was asked for. -/
theorem Chain.Gives.named {settings : List SourceOptions} {files : Files} {start after : Store}
    {given : List (String × Definition)}
    (gives : (Chain.ofSettings settings).Gives files start given after) :
    ∀ entry ∈ given, entry.2.name = entry.1 := by
  induction gives with
  | none store => exact fun entry member => nomatch member
  | @next store after id definition others sound _ ih =>
    refine List.forall_mem_cons.2 ⟨?_, ih⟩
    -- What documents give is made for the id that they are asked for.
    rcases Chain.ofSettings_in_order settings files store id with
      ⟨index, options, _, _, _, answered⟩ | ⟨_, missing⟩
    · have found : ((sourceAt index options).find files store id).outcome =
          .ok (some definition) := by
        rw [← answered.outcome]
        rw [Chain.require_outcome] at sound
        cases outcome : ((Chain.ofSettings settings).lookup files store id).outcome with
        | error error =>
          rw [outcome] at sound
          cases sound
        | ok answer =>
          cases answer with
          | none =>
            rw [outcome] at sound
            cases sound
          | some other =>
            rw [outcome] at sound
            cases sound
            rfl
      have own : ¬ (sourceAt index options).IsExternal := fun external => external
      exact Source.find_name own found
    · rw [missing] at sound
      cases sound

/-- The fields of definitions hold no number. -/
theorem numberFree_fieldsOf (definitions : List (String × Definition)) :
    (Json.object (fieldsOf definitions)).NumberFree := by
  simp only [Json.numberFree_object, fieldsOf, List.forall_mem_map]
  exact fun entry _ => entry.2.numberFree_toJson

/-- Whether a run has failed: nothing is printed, and the failure is reported. -/
structure RunResult.FailsWith (result : RunResult) (failure : Failure) : Prop where
  exit : result.exit = 1
  output : result.output = ""
  errors : failure.Reports result.errors

/--
Whether a run has ended well: what is printed reads as one object, in its written form on lines of
its own, and nothing is reported.
-/
structure RunResult.Prints (result : RunResult) (fields : List (String × Json)) : Prop where
  exit : result.exit = 0
  output : result.output = (Json.object fields).render 0 ++ "\n"
  reads : Json.read? result.output = some (.object fields)
  errors : result.errors = ""

/--
Whether fields are those of definitions given for ids in a row: one for each id, in the order of
characters, with the definition that was given last and is the one of that id, which is read from
the data again.
-/
structure PrintedAs (given : List (String × Definition)) (fields : List (String × Json)) :
    Prop where
  ordered : (Entries.keys fields).Pairwise (· < ·)
  ids : ∀ id, id ∈ Entries.keys fields ↔ id ∈ Entries.keys given
  last : ∀ front id definition behind, given = front ++ (id, definition) :: behind →
    id ∉ Entries.keys behind → Entries.get? id fields = some definition.toJson ∧
      Definition.ofJson? definition.toJson = some definition ∧ definition.name = id

/-- Definitions gathered in order are printed as they should be. -/
theorem printedAs_fieldsOf {given : List (String × Definition)}
    (named : ∀ entry ∈ given, entry.2.name = entry.1) :
    PrintedAs given (fieldsOf (Entries.setAll [] given)) := by
  have distinct : (Entries.keys (Entries.setAll [] given)).Nodup := by
    refine Entries.nodup_keys_setAll ?_ given
    exact List.nodup_nil
  constructor
  case ordered => exact pairwise_keys_fieldsOf distinct
  case ids =>
    intro id
    rw [mem_keys_fieldsOf, Entries.mem_keys_setAll]
    simp [Entries.keys]
  -- Of the definitions given for an id the last one replaces the others.
  case last =>
    rintro front id definition behind rfl last
    refine ⟨?_, definition_readsBack.written definition, named (id, definition) (by simp)⟩
    rw [get?_fieldsOf distinct, Entries.get?_setAll_last [] front last]
    rfl

/-- A run whose definitions cannot be had fails. -/
theorem run_failsWith {files : Files} {written : List String} {arguments : Arguments}
    (accepted : Arguments.parse written = .ok arguments) {failure : Failure}
    (failed : (arguments.definitions files).outcome = .error failure) :
    (run files written).FailsWith failure := by
  have ended : run files written =
      ⟨1, "", failure.report, (arguments.definitions files).notices⟩ := by
    simp only [run, accepted, failed]
  -- Nothing was printed before the failure came up.
  rw [ended]
  exact ⟨rfl, rfl, failure.reports_report⟩

/-- A run whose definitions are there prints them. -/
theorem run_prints {files : Files} {written : List String} {arguments : Arguments}
    (accepted : Arguments.parse written = .ok arguments)
    {definitions : List (String × Definition)}
    (sound : (arguments.definitions files).outcome = .ok definitions) :
    (run files written).Prints (fieldsOf definitions) := by
  have ended : run files written = ⟨0, (Json.object (fieldsOf definitions)).render 0 ++ "\n", "",
      (arguments.definitions files).notices⟩ := by
    simp only [run, accepted, sound]
    rfl
  rw [ended]
  -- Behind the object stands nothing but the line break.
  have reads := Json.read?_render (numberFree_fieldsOf definitions)
    (show ∀ c ∈ "\n".toList, Json.isSpace c = true by simp [Json.isSpace])
  exact ⟨rfl, rfl, reads, rfl⟩

/-- Arguments that name a document with an inline bean, and the bean that it stands in. -/
def inliningArguments : Arguments :=
  { beans := [inliningSource.options.filename], ids := ["svc"] }

/-- The chain for that document has one source, which has the bean. -/
theorem require_inlining :
    ((Chain.ofSettings [inliningSource.options]).require clashingFiles
      (.ofSettings [inliningSource.options]) "svc").outcome = .ok inliningDefinition := by
  have viewed : inliningSource.view clashingFiles (.ofSettings [inliningSource.options]) =
      .ok inliningDocuments := by
    -- The document is loaded neither in the one store nor in the other.
    have same : (Store.ofSettings [inliningSource.options]).loaded inliningSource.documents =
        clashingStore.loaded inliningSource.documents := rfl
    rw [DocumentSource.view_congr same, view_inlining]
  have made : inliningAssembly.outcome.toOption = some (some inliningDefinition) := by
    decide +kernel
  have found : ((sourceAt 0 inliningSource.options).find clashingFiles
      (.ofSettings [inliningSource.options]) "svc").outcome = .ok (some inliningDefinition) := by
    refine (inliningSource.lookup_loaded viewed "svc" none).1.trans ?_
    exact congrArg (Except.mapError SourceError.definition) (ok_of_toOption made)
  have answered : ((Chain.ofSettings [inliningSource.options]).lookup clashingFiles
      (.ofSettings [inliningSource.options]) "svc").outcome = .ok (some inliningDefinition) :=
    (Asked.andThen_of_ok found _).1
  rw [Chain.require_outcome, answered]

end BeanWiring
