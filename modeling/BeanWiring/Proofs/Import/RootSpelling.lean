import BeanWiring.Proofs.Files.Absolute
import BeanWiring.Proofs.Import.Encounter

/-!
What is loaded for a root depends on the file that its path leads to and not on how the path is
spelled.

With imports relative to the documents that declare them it does not depend on the working
directory either: from a file on, everything is named by absolute paths.
-/

namespace BeanWiring

/-- An import relative to the document that declares it is an absolute path. -/
theorem importTarget_isAbsolute {importer : Location} (plain : importer.isPlain)
    (inside : importer.names ≠ []) (resource : String) :
    (importTarget .document importer resource).isAbsolute := by
  simp only [importTarget, importer.path_parent? plain inside]
  -- The directory of the importer is absolute.
  exact Path.join_isAbsolute importer.above.path_isAbsolute _

variable {files others : Files} {base : ImportBase} {chain : List Location}
  {documents : DocumentSet}

/-- An absolute path leads to the same file from every working directory. -/
theorem canonical_absolute (entries : files.entries = others.entries) {path : Path}
    (absolute : path.isAbsolute) : canonical files path = canonical others path := by
  unfold canonical Files.pathExists
  rw [Files.locate_absolute entries absolute, Files.canonicalize?_absolute entries absolute]

/-- Loading the file at a location is the same from every working directory. -/
theorem load_congr (entries : files.entries = others.entries) (location : Location) :
    Document.load files location.path = Document.load others location.path := by
  simp only [Document.load, Files.locate_absolute entries location.path_isAbsolute,
    Document.loadAt, Files.readText_congr entries]

/-- Visits that are led to the same, or fail alike, come upon the same. -/
theorem encounter_congr (entries : files.entries = others.entries) {visit other : Visit}
    (same : canonical files visit.target = canonical others other.target) :
    visit.encounter files chain documents = other.encounter others chain documents := by
  -- Beyond where the visit leads, only the file there is looked at.
  simp only [Visit.encounter, same, load_congr entries]

/-- Two walks go on alike from an encounter if they go into its file and past it alike. -/
theorem goOn_congr {rest : List Visit} {encounter : Encounter}
    (past : ∀ loaded,
      visitAll files base chain loaded rest = visitAll others base chain loaded rest)
    (into : ∀ location document resources, encounter = .entered location document resources →
      visitAll files base (chain ++ [location]) (documents.insert document)
          (importVisits base location resources) =
        visitAll others base (chain ++ [location]) (documents.insert document)
          (importVisits base location resources)) :
    goOn files base chain documents rest encounter =
      goOn others base chain documents rest encounter := by
  -- There are three ways to go on, and only one of them leads into a file.
  cases encounter with
  | fault error tried => rfl
  | known location => exact past documents
  | entered location document resources =>
    simp only [goOn, into location document resources rfl, past]

/-- Whether two trees lead every import of every document to the same. -/
def ImportsAlike (files others : Files) (base : ImportBase) : Prop :=
  ∀ importer document, importer.isPlain → ParsesTo files importer document → ∀ resource,
    canonical files (importTarget base importer resource) =
      canonical others (importTarget base importer resource)

/-- The visits that a document asks for are led to the same. -/
theorem ImportsAlike.visits (alike : ImportsAlike files others base) {importer : Location}
    {document : Document} (plain : importer.isPlain) (parsed : ParsesTo files importer document)
    (resources : List String) :
    ∀ visit ∈ importVisits base importer resources,
      canonical files visit.target = canonical others visit.target := by
  intro visit member
  -- Every visit is made for a resource of the document.
  obtain ⟨resource, -, rfl⟩ := List.mem_map.1 member
  exact alike importer document plain parsed resource

/-- Visits that are led to the same, with imports that are, load the same and tell the same. -/
theorem visitAll_congr (entries : files.entries = others.entries)
    (alike : ImportsAlike files others base) (chain : List Location) (documents : DocumentSet)
    (visits : List Visit)
    (led : ∀ visit ∈ visits, canonical files visit.target = canonical others visit.target) :
    visitAll files base chain documents visits = visitAll others base chain documents visits := by
  -- The induction follows the walk in the one tree, which the other one takes as well.
  induction chain, documents, visits using visitAll.induct files base with
  | case1 chain documents => simp [visitAll]
  | case2 chain documents visit rest again inside later =>
    have ledRest := fun other member => led other (List.mem_cons_of_mem visit member)
    have same : visit.encounter files chain documents = visit.encounter others chain documents :=
      encounter_congr entries (led visit (by simp))
    rw [visitAll_cons, visitAll_cons, ← same]
    congr 1
    apply goOn_congr
    · intro loaded
      exact later loaded ledRest
    · -- The file is entered in both trees, and its imports are led to the same.
      intro location document resources met
      have meets := visit.meets files chain documents
      rw [met] at meets
      obtain ⟨found, fresh, _, parsed, _⟩ := meets.of_entered
      apply inside location found fresh document resources
      exact alike.visits (plain_of_canonical found) parsed resources

/--
From roots that lead to the same file the same is loaded, and the same is told once the root has
been named.
-/
theorem resolve_congr (entries : files.entries = others.entries)
    (alike : ImportsAlike files others base) {left right : Path} {location : Location}
    (found : canonical files left = .ok location) (also : canonical others right = .ok location) :
    (resolve files base left).value = (resolve others base right).value ∧
      (resolve files base left).notices.tail = (resolve others base right).notices.tail := by
  have same : (⟨none, left⟩ : Visit).encounter files [] {} =
      (⟨none, right⟩ : Visit).encounter others [] {} :=
    encounter_congr entries (found.trans also.symm)
  -- Both visits have no importer, so they come upon the same and tell the same of it.
  have made : visitAll files base [] {} [⟨none, left⟩] =
      visitAll others base [] {} [⟨none, right⟩] := by
    rw [visitAll_cons, visitAll_cons, ← same]
    congr 1
    apply goOn_congr
    · intro loaded
      simp [visitAll]
    · intro entered document resources met
      have meets := (⟨none, left⟩ : Visit).meets files [] {}
      rw [met] at meets
      obtain ⟨here, _, _, parsed, _⟩ := meets.of_entered
      apply visitAll_congr entries alike
      exact alike.visits (plain_of_canonical here) parsed resources
  simp only [resolve, made]
  exact ⟨rfl, rfl⟩

/-- Imports relative to their documents lead to the same from every working directory. -/
theorem importsAlike_document (entries : files.entries = others.entries) :
    ImportsAlike files others .document := by
  -- The target is absolute, since the document stands in a directory with an absolute path.
  intro importer document plain parsed resource
  exact canonical_absolute entries (importTarget_isAbsolute plain parsed.inside resource)

/--
Roots that lead to the same file give the same documents in the same order, or the same fault,
however they are spelled.

With imports relative to the documents that declare them this holds also for roots taken from
different working directories.
-/
theorem resolve_ignores_spelling (files : Files) (base : ImportBase) :
    (∀ left right location, files.canonicalize? left = some location →
      files.canonicalize? right = some location →
      (resolve files base left).value = (resolve files base right).value ∧
        (resolve files base left).notices.tail = (resolve files base right).notices.tail) ∧
    ∀ others : Files, files.entries = others.entries → ∀ left right location,
      files.canonicalize? left = some location → others.canonicalize? right = some location →
      (resolve files .document left).value = (resolve others .document right).value ∧
        (resolve files .document left).notices.tail =
          (resolve others .document right).notices.tail := by
  constructor
  -- In the same files every import is the same anyway.
  · intro left right location found also
    exact resolve_congr rfl (fun _ _ _ _ _ => rfl) (canonical_eq_ok_iff.2 found)
      (canonical_eq_ok_iff.2 also)
  · intro others entries left right location found also
    exact resolve_congr entries (importsAlike_document entries) (canonical_eq_ok_iff.2 found)
      (canonical_eq_ok_iff.2 also)

/-- A directory with a document that imports another one, and a link to that directory. -/
def linkedFiles (here : Location) (plain : here.isPlain) : Files where
  entries :=
    [(⟨["d"]⟩, .directory), (⟨["l"]⟩, .link ⟨"d"⟩),
      (⟨["d", "a.xml"]⟩, .file "<beans><import resource=\"b.xml\"/></beans>".toUTF8),
      (⟨["d", "b.xml"]⟩, .file "<beans/>".toUTF8)]
  here := here
  plain_here := plain

/-- The document gives the same through the link from the root as by its name from beside it. -/
theorem resolve_ignores_link :
    (linkedFiles {} rfl).canonicalize? ⟨"l/./a.xml"⟩ = some ⟨["d", "a.xml"]⟩ ∧
    (linkedFiles ⟨["d"]⟩ (by decide)).canonicalize? ⟨"../d/a.xml"⟩ = some ⟨["d", "a.xml"]⟩ ∧
    (resolve (linkedFiles {} rfl) .document ⟨"l/./a.xml"⟩).value =
      (resolve (linkedFiles ⟨["d"]⟩ (by decide)) .document ⟨"../d/a.xml"⟩).value := by
  have linked : (Path.mk "l/./a.xml").parts = ["l", ".", "a.xml"] := by decide
  have target : (Path.mk "d").parts = ["d"] := by decide
  have named : (Path.mk "../d/a.xml").parts = ["..", "d", "a.xml"] := by decide
  have fits : (Path.mk "l/./a.xml").fits ∧ (Path.mk "../d/a.xml").fits := by decide
  -- The places that are passed have short paths as well, the link among them.
  have passed : (Location.path ⟨["l"]⟩).fits ∧ (Location.path ⟨["d"]⟩).fits ∧
      (Location.path ⟨["d", "a.xml"]⟩).fits := by decide
  have found : (linkedFiles {} rfl).canonicalize? ⟨"l/./a.xml"⟩ = some ⟨["d", "a.xml"]⟩ := by
    refine Files.canonicalize?_of_walk (by decide) fits.1 (fun purpose => ?_) rfl
    simp [linked, target, passed, Files.start, Path.isAbsolute, Files.walk, Files.isDirectory,
      Files.at?, linkedFiles, Path.isIdle, Location.below, maxLinks]
  have also : (linkedFiles ⟨["d"]⟩ (by decide)).canonicalize? ⟨"../d/a.xml"⟩ =
      some ⟨["d", "a.xml"]⟩ := by
    refine Files.canonicalize?_of_walk (by decide) fits.2 (fun purpose => ?_) rfl
    simp [named, passed, Files.start, Path.isAbsolute, Files.walk, Files.isDirectory, Files.at?,
      linkedFiles, Path.isIdle, Location.below, Location.above, maxLinks]
  exact ⟨found, also,
    ((resolve_ignores_spelling (linkedFiles {} rfl) .document).2
      (linkedFiles ⟨["d"]⟩ (by decide)) rfl _ _ _ found also).1⟩

end BeanWiring
