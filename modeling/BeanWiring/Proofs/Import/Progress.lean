import BeanWiring.Proofs.Import.Encounter

/-!
What a successful visit of files does: it goes on from the files visited before
to those that a depth-first walk meets, each where the walk meets it first.

The invariant is that every visited file is either open or settled.
-/

namespace BeanWiring

variable {files : Files} {base : ImportBase}

/-- Where a list of visits leads, in its order. -/
def VisitsLeadTo (files : Files) (visits : List Visit) (targets : List Location) : Prop :=
  List.Forall₂ (fun visit target => canonical files visit.target = .ok target) visits targets

/-- The files of a walk that have not been visited, each where it is met first. -/
def unvisited (visited walk : List Location) : List Location :=
  (walk.filter fun location => location ∉ visited).eraseDups

/-- Nothing is left of a walk through visited files. -/
theorem unvisited_eq_nil {visited walk : List Location}
    (known : ∀ location ∈ walk, location ∈ visited) : unvisited visited walk = [] := by
  -- Every location was visited, so none is left.
  have nothing : walk.filter (fun location => location ∉ visited) = [] := by
    simpa [List.filter_eq_nil_iff] using known
  rw [unvisited, nothing, List.eraseDups_nil]

/-- Two walks are gone through one after the other. -/
theorem unvisited_append (visited first second : List Location) :
    unvisited visited (first ++ second) =
      unvisited visited first ++ unvisited (visited ++ unvisited visited first) second := by
  simp only [unvisited, List.filter_append, List.eraseDups_append]
  congr 2
  -- What the first walk met is no longer new in the second.
  simp only [List.removeAll, List.filter_filter]
  refine List.filter_congr fun location _ => ?_
  by_cases known : location ∈ visited
  · simp [known]
  · simp [known, List.mem_eraseDups]

/-- A file not visited yet is the first that a walk from it meets. -/
theorem unvisited_cons {visited walk : List Location} {location : Location}
    (fresh : location ∉ visited) :
    unvisited visited (location :: walk) =
      location :: unvisited (visited ++ [location]) walk := by
  -- The location is the first of its kind, so it is kept.
  have single : unvisited visited [location] = [location] := by
    simp [unvisited, fresh, List.eraseDups_cons]
  have split := unvisited_append visited [location] walk
  rw [single] at split
  simpa using split

/-- A file of a walk is visited in the end. -/
theorem mem_append_unvisited {visited walk : List Location} {location : Location} :
    location ∈ visited ++ unvisited visited walk ↔ location ∈ visited ∨ location ∈ walk := by
  simp [unvisited, List.mem_eraseDups]
  tauto

/-- A parsed document keeps the path that it was read under. -/
theorem ParsesTo.path_eq {location : Location} {document : Document}
    (parsed : ParsesTo files location document) : document.path = location.path := by
  obtain ⟨-, there, text, -, -, made⟩ := parsed
  unfold Document.parse at made
  -- A document has the path that it was parsed under.
  split at made
  · simp only [Except.ok.injEq] at made
    rw [← made]
  · cases made

/-- The documents of files stand under the paths of these. -/
theorem paths_of_parsed {visited : List Location} {documents : List Document}
    (parsed : List.Forall₂ (ParsesTo files) visited documents) :
    documents.map (·.path) = visited.map Location.path := by
  induction parsed with
  | nil => rfl
  | cons first _ ih => simp [first.path_eq, ih]

/-- A document stands under the path of a file exactly if it is one of the files of the set. -/
theorem contains_path_iff {visited : List Location} {documents : DocumentSet}
    (paths : documents.paths = visited.map Location.path)
    (plain : ∀ location ∈ visited, location.isPlain) {location : Location}
    (here : location.isPlain) : documents.contains location.path ↔ location ∈ visited := by
  -- The paths of the documents are those of the files, which tell these apart.
  have found : documents.contains location.path ↔
      ∃ path ∈ documents.paths, path.same location.path := by
    simp [DocumentSet.contains, DocumentSet.get?, DocumentSet.paths, List.find?_isSome]
  rw [found, paths]
  constructor
  · rintro ⟨path, member, same⟩
    obtain ⟨other, visited, rfl⟩ := List.mem_map.1 member
    rwa [← (Location.same_path_iff (plain other visited) here).1 same]
  · intro visited
    exact ⟨_, List.mem_map_of_mem visited, (Location.same_path_iff here here).2 rfl⟩

/-- A document under a new path goes to the end of a set. -/
theorem documents_insert {documents : DocumentSet} {document : Document}
    (absent : documents.contains document.path = false) :
    (documents.insert document).documents = documents.documents ++ [document] := by
  simp [DocumentSet.insert, absent]

/--
What holds between two steps of the walk.

The documents are those of the visited files, in order. Of these the ones in the chain are still
open; the others are settled, and so is what they import.
-/
structure Progress (files : Files) (base : ImportBase) (visited chain : List Location)
    (documents : DocumentSet) : Prop where
  parsed : List.Forall₂ (ParsesTo files) visited documents.documents
  plain : ∀ location ∈ visited, location.isPlain
  distinct : visited.Nodup
  opened : ∀ location ∈ chain, location ∈ visited
  settled : ∀ location ∈ visited, location ∉ chain → Settled files base location
  closed : ∀ location ∈ visited, location ∉ chain → ∀ imported,
    Imports files base location imported → imported ∈ visited ∧ imported ∉ chain

namespace Progress

variable {visited chain : List Location} {documents : DocumentSet}

/-- A document stands under the path of a file exactly if the file was visited. -/
theorem contains_iff (progress : Progress files base visited chain documents)
    {location : Location} (plain : location.isPlain) :
    documents.contains location.path ↔ location ∈ visited :=
  contains_path_iff (paths_of_parsed progress.parsed) progress.plain plain

/-- What a file that is not open reaches has been visited and is not open. -/
theorem reached (progress : Progress files base visited chain documents)
    {location other : Location} (member : location ∈ visited) (shut : location ∉ chain)
    (reaches : Reaches files base location other) : other ∈ visited ∧ other ∉ chain := by
  -- The set is closed under imports of what is no longer open.
  induction reaches with
  | refl => exact ⟨member, shut⟩
  | tail _ imports ih => exact progress.closed _ ih.1 ih.2 _ imports

/-- A file that is read for the first time is visited and open. -/
theorem enter (progress : Progress files base visited chain documents) {location : Location}
    {document : Document} (plain : location.isPlain) (fresh : location ∉ visited)
    (parsed : ParsesTo files location document) :
    Progress files base (visited ++ [location]) (chain ++ [location])
      (documents.insert document) := by
  have absent : documents.contains document.path = false := by
    rw [parsed.path_eq]
    simpa using mt (progress.contains_iff plain).1 fresh
  have inserted := documents_insert absent
  -- A file that is neither open nor the new one is as it was before.
  have earlier : ∀ other ∈ visited ++ [location], other ∉ chain ++ [location] →
      other ∈ visited ∧ other ∉ chain := by
    intro other member shut
    simp only [List.mem_append, List.mem_singleton, not_or] at member shut
    exact ⟨member.resolve_right shut.2, shut.1⟩
  constructor
  · rw [inserted]
    exact List.rel_append progress.parsed (.cons parsed .nil)
  · intro other member
    rcases List.mem_append.1 member with old | new
    · exact progress.plain other old
    · rwa [List.mem_singleton.1 new]
  · simpa [List.nodup_append] using ⟨progress.distinct, fun other member same =>
      fresh (same ▸ member)⟩
  · intro other member
    rcases List.mem_append.1 member with old | new
    · exact List.mem_append_left _ (progress.opened other old)
    · exact List.mem_append_right _ new
  · intro other member shut
    obtain ⟨member, shut⟩ := earlier other member shut
    exact progress.settled other member shut
  · intro other member shut imported imports
    obtain ⟨member, shut⟩ := earlier other member shut
    obtain ⟨member, shut⟩ := progress.closed other member shut imported imports
    have differ : imported ≠ location := fun same => fresh (same ▸ member)
    simp [member, shut, differ]

/-- An open file whose imports have all been visited and are not open is settled. -/
theorem leave {location : Location} {document : Document} {resources : List String}
    {targets : List Location}
    (progress : Progress files base visited (chain ++ [location]) documents)
    (parsed : ParsesTo files location document) (asks : document.AsksFor resources)
    (leads : List.Forall₂ (Leads files base location) resources targets)
    (done : ∀ target ∈ targets, target ∈ visited ∧ target ∉ chain ++ [location]) :
    Progress files base visited chain documents := by
  have imports : ∀ imported, Imports files base location imported ↔ imported ∈ targets :=
    fun _ => imports_iff parsed asks leads
  have loadable : Loadable files base location :=
    loadable_iff.2 ⟨document, resources, targets, parsed, asks, leads⟩
  have settled : Settled files base location :=
    .intro loadable fun imported edge =>
      have visited := done imported ((imports imported).1 edge)
      progress.settled imported visited.1 visited.2
  constructor
  · exact progress.parsed
  · exact progress.plain
  · exact progress.distinct
  · exact fun other member => progress.opened other (List.mem_append_left _ member)
  · intro other member shut
    by_cases same : other = location
    · exact same ▸ settled
    · exact progress.settled other member (by simp [shut, same])
  · intro other member shut imported edge
    -- No file that has been left imports an open one.
    have kept : imported ∈ visited ∧ imported ∉ chain ++ [location] := by
      by_cases same : other = location
      · subst same
        exact done imported ((imports imported).1 edge)
      · exact progress.closed other member (by simp [shut, same]) imported edge
    exact ⟨kept.1, fun opened => kept.2 (List.mem_append_left _ opened)⟩

end Progress

/-- The imports of a document lead its visits where its resources lead. -/
theorem visitsLeadTo_importVisits {importer : Location} {document : Document}
    (parsed : ParsesTo files importer document) {resources : List String}
    {targets : List Location} :
    VisitsLeadTo files (importVisits base importer resources) targets ↔
      List.Forall₂ (Leads files base importer) resources targets := by
  -- A visit leads to the canonical location of what its resource stands for.
  have same : ∀ resource target, Leads files base importer resource target ↔
      canonical files (importTarget base importer resource) = .ok target :=
    fun _ _ => leads_iff parsed.1 parsed.inside
  simp only [VisitsLeadTo, importVisits, List.forall₂_map_left_iff, ← same]

/--
A successful walk visits what a walk without memory meets, in its order and without repetitions.
-/
theorem visitAll_progress (chain : List Location) (documents : DocumentSet)
    (visits : List Visit) {visited : List Location} {result : DocumentSet}
    (progress : Progress files base visited chain documents)
    (done : (visitAll files base chain documents visits).value = .ok result) :
    ∃ targets walk, VisitsLeadTo files visits targets ∧ Walk files base targets walk ∧
      (∀ target ∈ targets, target ∉ chain) ∧
      Progress files base (visited ++ unvisited visited walk) chain result := by
  -- The induction follows the walk: into the imports of a new file, then on to the next visit.
  induction chain, documents, visits using visitAll.induct files base generalizing visited result
    with
  | case1 chain documents =>
    have same : documents = result := by simpa [visitAll] using done
    subst same
    exact ⟨[], [], .nil, .done, by simp, by simpa [unvisited] using progress⟩
  | case2 chain documents visit rest again inside later =>
    rw [visitAll_cons, Noted.value_after] at done
    have meets := visit.meets files chain documents
    cases met : visit.encounter files chain documents with
    | fault error tried => simp [met, goOn] at done
    | known location =>
      -- A file seen before is settled, so a walk from it meets only files seen before.
      rw [met] at done meets
      obtain ⟨found, fresh, known⟩ := meets.of_known
      have member := (progress.contains_iff (plain_of_canonical found)).1 known
      obtain ⟨first, walked⟩ := (progress.settled location member fresh).exists_walk
      obtain ⟨targets, walk, lead, restWalked, shut, after⟩ := again progress done
      have nothing : unvisited visited first = [] := by
        refine unvisited_eq_nil fun other met => ?_
        obtain ⟨start, single, reaches⟩ := walked.mem_iff.1 met
        rw [List.mem_singleton.1 single] at reaches
        exact (progress.reached member fresh reaches).1
      refine ⟨location :: targets, first ++ walk, .cons found lead, walked.append restWalked, ?_,
        ?_⟩
      · simpa using ⟨fresh, shut⟩
      · simpa [unvisited_append, nothing] using after
    | entered location document resources =>
      rw [met] at done meets
      obtain ⟨found, fresh, unknown, parsed, asks⟩ := meets.of_entered
      have plain := plain_of_canonical found
      have absent : location ∉ visited := fun member => by
        simp [(progress.contains_iff plain).2 member] at unknown
      simp only [goOn, Noted.value_andThen] at done
      split at done
      · cases done
      · rename_i loaded entered
        -- The imports of the new file are walked with the file open.
        obtain ⟨targets, inner, lead, walked, shut, reached⟩ :=
          inside location found fresh document resources
            (progress.enter plain absent parsed) entered
        have leads := (visitsLeadTo_importVisits parsed).1 lead
        have met : ∀ target ∈ targets, target ∈ visited ++ [location] ++
            unvisited (visited ++ [location]) inner ∧ target ∉ chain ++ [location] := by
          refine fun target listed => ⟨mem_append_unvisited.2 (.inr ?_), shut target listed⟩
          exact walked.mem_iff.2 ⟨target, listed, .refl⟩
        have left := reached.leave parsed asks leads met
        -- The next visits start where the new file has been left.
        obtain ⟨others, outer, restLead, restWalked, restShut, after⟩ := later loaded left done
        refine ⟨location :: others, location :: inner ++ outer, .cons found restLead,
          .enter parsed asks leads walked restWalked, ?_, ?_⟩
        · simpa using ⟨fresh, restShut⟩
        · rw [List.cons_append, unvisited_cons absent, unvisited_append]
          simpa using after

end BeanWiring
