import BeanWiring.Proofs.Import.Progress
import Mathlib.Data.List.Chain

/-!
Loading a document with all that it imports.

It succeeds exactly if all that the root reaches can be loaded and lies on no cycle,
and what it loads is a depth-first walk without its repetitions.
The chain of a reported cycle is a path of imports that leads back into itself.
-/

namespace BeanWiring

variable {files : Files} {base : ImportBase}

/-- A reported chain is a path of imports that leads back into itself. -/
structure LeadsBack (files : Files) (base : ImportBase) (opened : List Location)
    (again : Location) : Prop where
  path : (opened ++ [again]).IsChain (Imports files base)
  distinct : opened.Nodup
  back : again ∈ opened

section Faults

variable {location : Location} {document : Document} {fault : ConfigError}

/-- A file that is not there, or has no canonical path, is no cycle. -/
theorem canonical_ne_cyclicImport {path : Path} {chain : List Path} :
    canonical files path ≠ .error (.cyclicImport chain) := by
  unfold canonical
  -- A path is missing, too long, or canonical.
  split
  · simp
  · split <;> simp

/-- A file that cannot be read or parsed is no cycle. -/
theorem load_ne_cyclicImport {path : Path} {chain : List Path} :
    (Document.load files path).value ≠ .error (.cyclicImport chain) := by
  unfold Document.load
  split
  · simp
  · -- Neither the reader nor the parser knows of other documents.
    dsimp only [Document.loadAt, Document.parse]
    split
    · simp
    · split <;> simp

/-- An import without a resource is no cycle. -/
theorem imports_ne_cyclicImport {chain : List Path} :
    document.imports ≠ .error (.cyclicImport chain) :=
  fun failed => nomatch (Document.exists_of_imports_eq_error failed).1

/-- A file that cannot be read or parsed cannot be loaded. -/
theorem not_loadable_of_unread
    (unread : (Document.load files location.path).value = .error fault) :
    ¬ Loadable files base location := by
  rintro ⟨document, parsed, _⟩
  -- A document that is parsed was loaded.
  simp [(parsesTo_iff parsed.1).1 parsed] at unread

/-- A document with an import that names no resource cannot be loaded. -/
theorem not_loadable_of_undeclared (parsed : ParsesTo files location document)
    (undeclared : document.imports = .error fault) : ¬ Loadable files base location := by
  rintro ⟨other, also, each⟩
  obtain rfl := parsed.unique also
  -- One of the declarations lacks its resource, so it asks for nothing.
  obtain ⟨-, place, declaration, stands, lacks⟩ :=
    Document.exists_of_imports_eq_error undeclared
  obtain ⟨resource, imported, names, -⟩ := each place declaration stands
  simp [lacks] at names

/-- A document with an import that leads nowhere cannot be loaded. -/
theorem not_loadable_of_missing {resources : List String} {resource : String}
    (parsed : ParsesTo files location document) (asks : document.AsksFor resources)
    (listed : resource ∈ resources)
    (missing : canonical files (importTarget base location resource) = .error fault) :
    ¬ Loadable files base location := by
  intro loadable
  obtain ⟨other, further, targets, also, known, leads⟩ := loadable_iff.1 loadable
  obtain rfl := parsed.unique also
  obtain rfl := asks.unique known
  -- A loadable document has a target for each resource.
  obtain ⟨target, -, led⟩ := exists_of_forall₂ leads listed
  simp [(leads_iff parsed.1 parsed.inside).1 led] at missing

end Faults

/--
The reason for which a walk fails at a visit: either the open files go on from there along imports
to a file that is open, or something that is reached from there cannot be loaded.
-/
inductive FailsAt (files : Files) (base : ImportBase) (chain : List Location) (visit : Visit)
    (fault : ConfigError) : Prop
  | leadsBack {opened : List Location} {again target : Location}
      (reported : fault = .cyclicImport ((opened ++ [again]).map Location.path))
      (back : LeadsBack files base opened again)
      (found : canonical files visit.target = .ok target)
      (front : chain ++ [target] <+: opened ++ [again])
  | breaks (reported : ∀ paths, fault ≠ .cyclicImport paths)
      (broken : ∀ target, canonical files visit.target = .ok target →
        ∃ other, Reaches files base target other ∧ ¬ Loadable files base other)

/-- A walk that fails does so for a reason, at one of its visits. -/
theorem visitAll_fault (chain : List Location) (documents : DocumentSet) (visits : List Visit)
    {fault : ConfigError} (path : chain.IsChain (Imports files base)) (distinct : chain.Nodup)
    (asked : ∀ visit ∈ visits, ∀ target, canonical files visit.target = .ok target →
      ∀ last ∈ chain.getLast?, Imports files base last target)
    (failed : (visitAll files base chain documents visits).value = .error fault) :
    ∃ visit ∈ visits, FailsAt files base chain visit fault := by
  induction chain, documents, visits using visitAll.induct files base with
  | case1 chain documents => simp [visitAll] at failed
  | case2 chain documents visit rest again inside later =>
    rw [visitAll_cons, Noted.value_after] at failed
    have meets := visit.meets files chain documents
    have askedRest := fun other member => asked other (List.mem_cons_of_mem visit member)
    -- What goes wrong past the visit goes wrong at one of the others.
    have past : ∀ loaded, (visitAll files base chain loaded rest).value = .error fault →
        ∃ other ∈ visit :: rest, FailsAt files base chain other fault := by
      intro loaded failed
      obtain ⟨other, member, reason⟩ := later loaded path distinct askedRest failed
      exact ⟨other, List.mem_cons_of_mem _ member, reason⟩
    -- The chain with the file at its end is a path of imports.
    have longer : ∀ location, canonical files visit.target = .ok location →
        (chain ++ [location]).IsChain (Imports files base) := by
      intro location found
      refine path.append (by simp) ?_
      intro last ends head starts
      have same : location = head := by simpa using starts
      exact same ▸ asked visit (by simp) location found last ends
    cases met : visit.encounter files chain documents with
    | known location => exact past documents (by simpa [met, goOn] using failed)
    | fault error tried =>
      rw [met] at failed meets
      obtain rfl : error = fault := by simpa [goOn] using failed
      refine ⟨visit, by simp, ?_⟩
      cases meets with
      | missing missing =>
        refine .breaks ?_ (by simp [missing])
        rintro paths rfl
        exact canonical_ne_cyclicImport missing
      | cycle found opened =>
        exact .leadsBack rfl ⟨longer _ found, distinct, opened⟩ found List.prefix_rfl
      | @unread location _ found _ _ unread =>
        refine .breaks ?_ fun target located => ?_
        · rintro paths rfl
          exact load_ne_cyclicImport unread
        · obtain rfl : location = target := Except.ok.inj (found.symm.trans located)
          exact ⟨location, .refl, not_loadable_of_unread unread⟩
      | @undeclared location document _ found _ _ parsed undeclared =>
        refine .breaks ?_ fun target located => ?_
        · rintro paths rfl
          exact imports_ne_cyclicImport undeclared
        · obtain rfl : location = target := Except.ok.inj (found.symm.trans located)
          exact ⟨location, .refl, not_loadable_of_undeclared parsed undeclared⟩
    | entered location document resources =>
      rw [met] at failed meets
      obtain ⟨found, fresh, unknown, parsed, asks⟩ := meets.of_entered
      simp only [goOn, Noted.value_andThen] at failed
      split at failed
      · rename_i error within
        obtain rfl : error = fault := by simpa using failed
        -- Whatever went wrong below the file went wrong at one of its imports.
        have imports : ∀ inner ∈ importVisits base location resources, ∀ target,
            canonical files inner.target = .ok target → Imports files base location target := by
          intro inner member target located
          obtain ⟨resource, listed, rfl⟩ := List.mem_map.1 member
          obtain ⟨place, here⟩ := asks.mem_iff.1 listed
          exact ⟨document, place, resource, parsed, here,
            (leads_iff parsed.1 parsed.inside).2 located⟩
        have unique : (chain ++ [location]).Nodup := by
          simpa [List.nodup_append] using ⟨distinct, fun other member same =>
            fresh (same ▸ member)⟩
        obtain ⟨inner, member, reason⟩ :=
          inside location found fresh document resources (longer location found) unique
            (fun inner member target located last ends => by
              have same : location = last := by simpa using ends
              exact same ▸ imports inner member target located) within
        refine ⟨visit, by simp, ?_⟩
        cases reason with
        | leadsBack reported back located front =>
          exact .leadsBack reported back found ((List.prefix_append ..).trans front)
        | breaks reported broken =>
          refine .breaks reported fun target located => ?_
          obtain rfl : location = target := Except.ok.inj (found.symm.trans located)
          cases lead : canonical files inner.target with
          | error fault =>
            -- The import leads nowhere, so the file itself cannot be loaded.
            obtain ⟨resource, listed, rfl⟩ := List.mem_map.1 member
            exact ⟨location, .refl, not_loadable_of_missing parsed asks listed lead⟩
          | ok next =>
            obtain ⟨end_, reaches, unloadable⟩ := broken next lead
            exact ⟨end_, reaches.head (imports inner member next lead), unloadable⟩
      · rename_i loaded within
        exact past loaded failed

/-- Locations with different names have paths that are not the same. -/
theorem pairwise_not_same {locations : List Location} (distinct : locations.Nodup)
    (plain : ∀ location ∈ locations, location.isPlain) :
    (locations.map Location.path).Pairwise fun left right => ¬ left.same right := by
  refine List.pairwise_map.2 (distinct.imp_of_mem ?_)
  -- Plain locations with the same path are the same.
  exact fun member member' differ same =>
    differ ((Location.same_path_iff (plain _ member) (plain _ member')).1 same)

/-- A successful resolution starts at a settled file and loads what a walk from it meets. -/
theorem resolve_ok {root : Path} {result : DocumentSet}
    (done : (resolve files base root).value = .ok result) :
    ∃ location walk, canonical files root = .ok location ∧ Settled files base location ∧
      Walk files base [location] walk ∧ Progress files base walk.eraseDups [] result := by
  have visited : (visitAll files base [] {} [⟨none, root⟩]).value = .ok result := by
    simp only [resolve, Noted.value_after, Noted.value_andThen] at done
    split at done
    · simp at done
    · rename_i documents visited
      rw [visited]
      simpa using done
  have start : Progress files base [] [] {} :=
    ⟨.nil, by simp, by simp, by simp, by simp, by simp⟩
  obtain ⟨targets, walk, lead, walked, -, progress⟩ := visitAll_progress [] {} _ start visited
  -- There is one visit, so there is one location that the walk starts from.
  obtain ⟨location, others, found, none, rfl⟩ := List.forall₂_cons_left_iff.1 lead
  obtain rfl := List.forall₂_nil_left_iff.1 none
  have progress : Progress files base walk.eraseDups [] result := by
    simpa [unvisited] using progress
  refine ⟨location, walk, found, ?_, walked, progress⟩
  refine progress.settled location ?_ (by simp)
  exact List.mem_eraseDups.2 (walked.mem_iff.2 ⟨location, by simp, .refl⟩)

/-- A failed resolution reports a cycle from its root on, or reaches what cannot be loaded. -/
theorem resolve_fault {root : Path} {fault : ConfigError}
    (failed : (resolve files base root).value = .error fault) :
    FailsAt files base [] ⟨none, root⟩ fault := by
  -- The notice at the end is told only after a success.
  have visited : (visitAll files base [] {} [⟨none, root⟩]).value = .error fault := by
    simp only [resolve, Noted.value_after, Noted.value_andThen] at failed
    split at failed
    · rename_i error visited
      rw [visited]
      simpa using failed
    · simp at failed
  obtain ⟨visit, member, reason⟩ :=
    visitAll_fault [] {} _ (by simp) (by simp) (by simp) visited
  exact List.mem_singleton.1 member ▸ reason

/-- A path of imports that ends where it starts makes its start a file on a cycle. -/
theorem onCycle_of_isChain {first last : Location} {between : List Location}
    (path : (first :: between ++ [last]).IsChain (Imports files base)) :
    Relation.TransGen (Imports files base) first last := by
  induction between generalizing first with
  | nil => exact .single (by simpa using path)
  | cons next rest ih =>
    -- The first step is an import, and the others make a way by themselves.
    simp only [List.cons_append, List.isChain_cons_cons] at path
    exact .head path.1 (ih path.2)

/-- The file that a chain leads back to is on a cycle. -/
theorem LeadsBack.onCycle {opened : List Location} {again : Location}
    (back : LeadsBack files base opened again) : OnCycle files base again := by
  obtain ⟨before, between, rfl⟩ := List.append_of_mem back.back
  have path := back.path
  rw [List.append_assoc] at path
  -- From where the location stands the chain leads back to it.
  exact onCycle_of_isChain path.right_of_append

/-- All files of a path of imports have plain locations if the first has. -/
theorem plain_of_isChain {first : Location} {others : List Location} (plain : first.isPlain)
    (path : (first :: others).IsChain (Imports files base)) :
    ∀ location ∈ first :: others, location.isPlain := by
  induction others generalizing first with
  | nil => simpa using plain
  | cons next rest ih =>
    simp only [List.isChain_cons_cons] at path
    -- What is imported is a location that a path was named by.
    obtain ⟨⟨_, _, _, _, _, _, _, named⟩, path⟩ := path
    have led := Files.locate_of_canonicalize? named
    intro location member
    rcases List.mem_cons.1 member with same | later
    · exact same ▸ plain
    · exact ih (Files.locate_isPlain led) path location later

/-- All files of a path of imports are reached from the first. -/
theorem reaches_of_isChain {first : Location} {others : List Location}
    (path : (first :: others).IsChain (Imports files base)) :
    ∀ location ∈ first :: others, Reaches files base first location := by
  induction others generalizing first with
  | nil => simp [Relation.ReflTransGen.refl]
  | cons next rest ih =>
    simp only [List.isChain_cons_cons] at path
    intro location member
    -- The first location is reached from itself, the others through the second.
    rcases List.mem_cons.1 member with same | later
    · exact same ▸ .refl
    · exact (ih path.2 location later).head path.1

/--
Resolution succeeds exactly if the root and all files that it reaches through imports exist, can
be read and parsed, have a resource on each import, and are on no cycle.

The documents are then the parses of exactly these files, each once, in the order in which
a depth-first walk from the root meets them first.
-/
theorem resolve_loads_exactly_the_reached (files : Files) (base : ImportBase) (root : Path) :
    ((∃ result, (resolve files base root).value = .ok result) ↔
      ∃ location, files.canonicalize? root = some location ∧
        ∀ other, Reaches files base location other →
          Loadable files base other ∧ ¬ OnCycle files base other) ∧
    ∀ result, (resolve files base root).value = .ok result →
      ∃ location walk, files.canonicalize? root = some location ∧
        Walk files base [location] walk ∧
        List.Forall₂ (ParsesTo files) walk.eraseDups result.documents ∧
        (∀ other, other ∈ walk.eraseDups ↔ Reaches files base location other) ∧
        result.paths = walk.eraseDups.map Location.path ∧
        result.paths.Pairwise fun left right => ¬ left.same right := by
  refine ⟨⟨?_, ?_⟩, ?_⟩
  · rintro ⟨result, done⟩
    obtain ⟨location, walk, found, settled, -, -⟩ := resolve_ok done
    refine ⟨location, canonical_eq_ok_iff.1 found, fun other reaches => ?_⟩
    exact ⟨(settled.reached reaches).loadable, (settled.reached reaches).not_onCycle⟩
  · rintro ⟨location, named, sound⟩
    have found := canonical_eq_ok_iff.2 named
    cases value : (resolve files base root).value with
    | ok result => exact ⟨result, rfl⟩
    | error fault =>
      exfalso
      cases resolve_fault value with
      | @leadsBack opened again target _ back located front =>
        -- The chain starts at the root, so the file that it leads back to is reached.
        obtain rfl : location = target := Except.ok.inj (found.symm.trans located)
        obtain ⟨rest, split⟩ := front
        have path := back.path
        rw [← split] at path
        have reaches := reaches_of_isChain path again (by
          have member : again ∈ opened ++ [again] := by simp
          simpa [← split] using member)
        exact (sound again reaches).2 back.onCycle
      | breaks _ broken =>
        obtain ⟨other, reaches, unloadable⟩ := broken location found
        exact unloadable (sound other reaches).1
  · intro result done
    obtain ⟨location, walk, found, -, walked, progress⟩ := resolve_ok done
    have paths : result.paths = walk.eraseDups.map Location.path :=
      paths_of_parsed progress.parsed
    refine ⟨location, walk, canonical_eq_ok_iff.1 found, walked, progress.parsed, ?_, paths, ?_⟩
    · intro other
      simp [List.mem_eraseDups, walked.mem_iff]
    · rw [paths]
      exact pairwise_not_same progress.distinct progress.plain

/--
A reported cycle starts at the root and follows imports through files that are all different,
until it comes back to exactly one of them, which lies on a cycle.

If all that the root reaches can be loaded and something is on a cycle, a cycle is reported;
if nothing is, none is.
-/
theorem resolve_reports_cycles (files : Files) (base : ImportBase) (root : Path) :
    (∀ chain, (resolve files base root).value = .error (.cyclicImport chain) →
      ∃ opened again, chain = (opened ++ [again]).map Location.path ∧
        (∃ location, files.canonicalize? root = some location ∧
          opened.head? = some location) ∧
        (opened ++ [again]).IsChain (Imports files base) ∧
        ((opened.map Location.path).Pairwise fun left right => ¬ left.same right) ∧
        opened.count again = 1 ∧ OnCycle files base again) ∧
    ∀ location, files.canonicalize? root = some location →
      ((∀ other, Reaches files base location other → Loadable files base other) →
        (∃ other, Reaches files base location other ∧ OnCycle files base other) →
        ∃ chain, (resolve files base root).value = .error (.cyclicImport chain)) ∧
      ((∀ other, Reaches files base location other → ¬ OnCycle files base other) →
        ∀ chain, (resolve files base root).value ≠ .error (.cyclicImport chain)) := by
  -- A cyclic report comes with the chain that the walk had open.
  have reported : ∀ chain, (resolve files base root).value = .error (.cyclicImport chain) →
      ∃ opened again target, chain = (opened ++ [again]).map Location.path ∧
        LeadsBack files base opened again ∧ canonical files root = .ok target ∧
        opened.head? = some target := by
    intro chain failed
    cases resolve_fault failed with
    | @leadsBack opened again target same back found front =>
      refine ⟨opened, again, target, by simpa using same, back, found, ?_⟩
      obtain ⟨first, others, rfl⟩ := List.exists_cons_of_ne_nil (List.ne_nil_of_mem back.back)
      obtain ⟨rest, split⟩ := front
      simpa using (List.cons.inj split).1.symm
    | breaks different => exact absurd rfl (different chain)
  refine ⟨?_, fun location named => ?_⟩
  · intro chain failed
    obtain ⟨opened, again, target, same, back, found, starts⟩ := reported chain failed
    refine ⟨opened, again, same, ⟨target, canonical_eq_ok_iff.1 found, starts⟩, back.path, ?_,
      by simp [back.distinct.count, back.back], back.onCycle⟩
    refine pairwise_not_same back.distinct fun location member => ?_
    obtain ⟨others, rfl⟩ : ∃ others, opened = target :: others := List.head?_eq_some_iff.1 starts
    exact plain_of_isChain (plain_of_canonical found) back.path location
      (List.mem_append_left _ member)
  have found := canonical_eq_ok_iff.2 named
  refine ⟨?_, ?_⟩
  · rintro loadable ⟨other, reaches, cycle⟩
    cases value : (resolve files base root).value with
    | ok result =>
      obtain ⟨start, _, located, settled, -, -⟩ := resolve_ok value
      have same : location = start := by simpa [found] using located
      exact absurd cycle (settled.reached (same ▸ reaches)).not_onCycle
    | error fault =>
      cases resolve_fault value with
      | leadsBack same => exact ⟨_, by rw [same]⟩
      | breaks _ broken =>
        obtain ⟨broken, reaches, unloadable⟩ := broken location found
        exact absurd (loadable broken reaches) unloadable
  · intro acyclic chain failed
    obtain ⟨opened, again, target, -, back, located, starts⟩ := reported chain failed
    have same : location = target := by simpa [found] using located
    obtain ⟨others, rfl⟩ : ∃ others, opened = target :: others := List.head?_eq_some_iff.1 starts
    have reaches := reaches_of_isChain back.path again (by simp)
    exact acyclic again (same ▸ reaches) back.onCycle

/-- The result of a resolution is that of the visit to its root. -/
theorem value_resolve (root : Path) :
    (resolve files base root).value =
      (goOn files base [] {} [] ((⟨none, root⟩ : Visit).encounter files [] {})).value := by
  rw [resolve, Noted.value_after, Noted.value_andThen, visitAll_cons, Noted.value_after]
  -- What is told at the end changes no result.
  cases (goOn files base [] {} [] ((⟨none, root⟩ : Visit).encounter files [] {})).value <;> rfl

/-- A root that leads nowhere is not found. -/
theorem resolve_missing {files : Files} {root : Path} (missing : files.locate root = none)
    (base : ImportBase) : (resolve files base root).value = .error (.fileNotFound root) := by
  -- A path that leads nowhere is not there.
  have absent : canonical files root = .error (.fileNotFound root) := by
    simp [canonical, Files.pathExists, missing]
  rw [value_resolve, Visit.encounter]
  simp only [absent, goOn]

/-- A document without imports is all that is loaded for it. -/
theorem resolve_alone {files : Files} {root : Path} {location : Location} {text : String}
    {tree : Element} (found : canonical files root = .ok location)
    (named : files.locate location.path = some location)
    (read : files.readText location = .ok text) (grown : readRoot text = .ok tree)
    (alone : tree.descendants.filter (fun element => element.name == "import") = [])
    (base : ImportBase) : (resolve files base root).value = .ok ⟨[⟨location.path, tree⟩]⟩ := by
  have loads : (Document.load files location.path).value = .ok ⟨location.path, tree⟩ := by
    simp only [Document.load, named, Document.loadAt, read, Document.parse, grown]
  have imports : (Document.mk location.path tree).imports = .ok [] := by
    rw [Document.imports, alone]
    rfl
  -- The root is the one document, and nothing is pending behind it.
  rw [value_resolve, Visit.encounter]
  simp [found, loads, imports, goOn, importVisits, DocumentSet.contains, DocumentSet.get?, visitAll,
    DocumentSet.insert]

/-- A reading that gives a value succeeds. -/
theorem ok_of_toOption {ε α : Type} {outcome : Except ε α} {value : α}
    (given : outcome.toOption = some value) : outcome = .ok value := by
  cases outcome with
  | error error => cases given
  | ok found => exact congrArg Except.ok (Option.some.inj given)

/-- A file right below the root, without imports, is all that is loaded for it. -/
theorem resolve_top {files : Files} {name text : String} {tree : Element}
    (plain : Path.isName name) (fits : (Location.path ⟨[name]⟩).fits)
    (there : files.at? ⟨[name]⟩ = some (.file text.toUTF8))
    (grown : (readRoot text).toOption = some tree)
    (alone : tree.descendants.filter (fun element => element.name == "import") = [])
    (base : ImportBase) :
    (resolve files base (Location.path ⟨[name]⟩)).value =
      .ok ⟨[⟨Location.path ⟨[name]⟩, tree⟩]⟩ := by
  have named := Files.canonicalize?_top plain fits there
  have led := Files.locate_of_canonicalize? named
  have found := canonical_eq_ok_iff.2 named
  -- A file in the top directory is its own canonical location.
  exact resolve_alone found led (Files.readText_file there) (ok_of_toOption grown) alone base

end BeanWiring
