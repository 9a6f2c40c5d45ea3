import BeanWiring.Proofs.Import.Declared
import Mathlib.Logic.Relation

/-!
The graph of imports between files, and the walks that go into every import in document order.

It is told by the import declarations of the documents and by what their resources stand for.
A file is settled when it and all that it reaches can be loaded and no import leads back.
-/

namespace BeanWiring

/-- The file at a location holds a document: its own path leads to a text that parses to it. -/
def ParsesTo (files : Files) (location : Location) (document : Document) : Prop :=
  location.isPlain ∧ ∃ there text, files.locate location.path = some there ∧
    files.readText there = .ok text ∧ Document.parse location.path text = .ok document

/--
The resource of an import leads to a file: what it stands for exists and can be named from the
root.
-/
def Leads (files : Files) (base : ImportBase) (importer : Location) (resource : String)
    (target : Location) : Prop :=
  ∃ path, StandsFor base importer resource path ∧ files.canonicalize? path = some target

/-- A file imports another: the resource of an import declared in its document leads there. -/
def Imports (files : Files) (base : ImportBase) (importer imported : Location) : Prop :=
  ∃ document place resource, ParsesTo files importer document ∧
    document.AsksAt place resource ∧ Leads files base importer resource imported

/-- A file that another one imports, directly or through others, or the file itself. -/
abbrev Reaches (files : Files) (base : ImportBase) : Location → Location → Prop :=
  Relation.ReflTransGen (Imports files base)

/--
A file can be read under its own path and parsed, each of its import declarations has a resource,
and each resource leads to something that exists.
-/
def Loadable (files : Files) (base : ImportBase) (location : Location) : Prop :=
  ∃ document, ParsesTo files location document ∧
    ∀ place declaration, document.ImportAt place declaration →
      ∃ resource imported, declaration.attribute? "resource" = some resource ∧
        Leads files base location resource imported

/-- A file on a cycle of imports. -/
def OnCycle (files : Files) (base : ImportBase) (location : Location) : Prop :=
  Relation.TransGen (Imports files base) location location

/--
A depth-first walk from files, each taken in order:
a file comes first, then all that is met from its imports, and then the files after it.
A file that is met again is walked again.
-/
inductive Walk (files : Files) (base : ImportBase) : List Location → List Location → Prop
  | done : Walk files base [] []
  | enter {location : Location} {rest targets inner later : List Location} {document : Document}
      {resources : List String} (parsed : ParsesTo files location document)
      (asks : document.AsksFor resources)
      (leads : List.Forall₂ (Leads files base location) resources targets)
      (inside : Walk files base targets inner) (after : Walk files base rest later) :
      Walk files base (location :: rest) (location :: inner ++ later)

/-- A file is settled once it can be loaded and all that it imports is settled. -/
inductive Settled (files : Files) (base : ImportBase) : Location → Prop
  | intro {location : Location} (loadable : Loadable files base location)
      (others : ∀ imported, Imports files base location imported → Settled files base imported) :
      Settled files base location

variable {files : Files} {base : ImportBase}

/-- A file reaches itself, and what is reached from its imports. -/
theorem reaches_iff {location other : Location} :
    Reaches files base location other ↔
      location = other ∨ ∃ imported, Imports files base location imported ∧
        Reaches files base imported other :=
  Relation.ReflTransGen.cases_head_iff

/-- A document never stands at the root, where there is a directory. -/
theorem ParsesTo.inside {location : Location} {document : Document}
    (parsed : ParsesTo files location document) : location.names ≠ [] := by
  obtain ⟨names⟩ := location
  rintro rfl
  obtain ⟨-, there, text, found, read, -⟩ := parsed
  -- The path of the root leads to the root itself.
  have parts : (Location.path ⟨[]⟩).parts = ["", ""] := by decide
  have root : files.isDirectory {} = true := rfl
  have walked : files.walk .finding maxLinks {} ["", ""] = some {} := by
    simp [Files.walk, root, Path.isIdle]
  simp only [Files.locate, parts] at found
  simp [Files.start, Location.path_isAbsolute, walked] at found
  obtain ⟨-, rfl, -⟩ := found
  cases read

/-- A file holds one document at most. -/
theorem ParsesTo.unique {location : Location} {document other : Document}
    (parsed : ParsesTo files location document) (also : ParsesTo files location other) :
    document = other := by
  obtain ⟨-, there, text, found, read, made⟩ := parsed
  obtain ⟨-, place, content, located, known, same⟩ := also
  -- Each step from the path to the document has one result.
  obtain rfl : there = place := Option.some.inj (found.symm.trans located)
  obtain rfl : text = content := Except.ok.inj (read.symm.trans known)
  exact Except.ok.inj (made.symm.trans same)

/-- A file holds a document exactly if loading it under its own path gives this. -/
theorem parsesTo_iff {location : Location} (plain : location.isPlain) {document : Document} :
    ParsesTo files location document ↔
      (Document.load files location.path).value = .ok document := by
  unfold Document.load
  constructor
  · rintro ⟨-, there, text, found, read, made⟩
    simpa only [found, Document.loadAt, read] using made
  · intro loaded
    -- Loading goes wrong where there is no file or no text to be read.
    split at loaded
    · cases loaded
    · rename_i there found
      dsimp only [Document.loadAt] at loaded
      split at loaded
      · cases loaded
      · rename_i text read
        exact ⟨plain, there, text, found, read, loaded⟩

/-- A resource leads where the target of the import does. -/
theorem leads_iff {importer target : Location} (plain : importer.isPlain)
    (inside : importer.names ≠ []) {resource : String} :
    Leads files base importer resource target ↔
      canonical files (importTarget base importer resource) = .ok target := by
  -- A resource stands for one path only.
  simp only [Leads, standsFor_iff plain inside, exists_eq_left', canonical_eq_ok_iff]

/-- A resource of a document leads to one file at most. -/
theorem ParsesTo.leads_unique {importer target other : Location} {document : Document}
    (parsed : ParsesTo files importer document) {resource : String}
    (leads : Leads files base importer resource target)
    (also : Leads files base importer resource other) : target = other := by
  rw [leads_iff parsed.1 parsed.inside] at leads also
  exact Except.ok.inj (leads.symm.trans also)

/-- A file can be loaded if all that it asks for leads somewhere, to locations in that order. -/
theorem loadable_iff {location : Location} :
    Loadable files base location ↔ ∃ document resources targets,
      ParsesTo files location document ∧ document.AsksFor resources ∧
        List.Forall₂ (Leads files base location) resources targets := by
  constructor
  · rintro ⟨document, parsed, each⟩
    -- The declarations are gone through in document order, and each asks for a resource.
    have listed := document.enumerates_locatedImports
    obtain ⟨resources, asked⟩ : ∃ resources, List.Forall₂ document.AsksAt
        (document.locatedImports.map (·.1)) resources := by
      refine forall₂_of_exists fun place member => ?_
      obtain ⟨declaration, stands⟩ := (listed.mem place).1 member
      obtain ⟨resource, -, asks, -⟩ := each place declaration stands
      exact ⟨resource, declaration, stands, asks⟩
    have asks : document.AsksFor resources := ⟨_, listed, asked⟩
    obtain ⟨targets, leads⟩ : ∃ targets,
        List.Forall₂ (Leads files base location) resources targets := by
      refine forall₂_of_exists fun resource member => ?_
      obtain ⟨place, declaration, stands, asks⟩ := asks.mem_iff.1 member
      obtain ⟨other, imported, also, leads⟩ := each place declaration stands
      obtain rfl : resource = other := Option.some.inj (asks.symm.trans also)
      exact ⟨imported, leads⟩
    exact ⟨document, resources, targets, parsed, asks, leads⟩
  · rintro ⟨document, resources, targets, parsed, asks, leads⟩
    refine ⟨document, parsed, fun place declaration stands => ?_⟩
    obtain ⟨places, listed, asked⟩ := id asks
    obtain ⟨resource, member, also, there, names⟩ :=
      exists_of_forall₂ asked ((listed.mem place).2 ⟨declaration, stands⟩)
    obtain rfl : declaration = also := Option.some.inj (stands.1.symm.trans there.1)
    obtain ⟨imported, -, led⟩ := exists_of_forall₂ leads member
    exact ⟨resource, imported, names, led⟩

/-- The imports of a file are the locations that its resources lead to. -/
theorem imports_iff {importer imported : Location} {document : Document} {resources : List String}
    {targets : List Location} (parsed : ParsesTo files importer document)
    (asks : document.AsksFor resources)
    (leads : List.Forall₂ (Leads files base importer) resources targets) :
    Imports files base importer imported ↔ imported ∈ targets := by
  constructor
  · rintro ⟨other, place, resource, also, asked, led⟩
    obtain rfl := parsed.unique also
    -- The resource asked for is one of those listed, and leads to one place only.
    obtain ⟨target, member, same⟩ := exists_of_forall₂ leads (asks.mem_iff.2 ⟨place, asked⟩)
    exact parsed.leads_unique led same ▸ member
  · intro member
    obtain ⟨resource, listed, led⟩ := exists_of_forall₂ leads.flip member
    obtain ⟨place, asked⟩ := asks.mem_iff.1 listed
    exact ⟨document, place, resource, parsed, asked, led⟩

/-- A settled file can be loaded. -/
theorem Settled.loadable {location : Location} (settled : Settled files base location) :
    Loadable files base location := by
  cases settled
  assumption

/-- What a settled file reaches is settled. -/
theorem Settled.reached {location other : Location} (settled : Settled files base location)
    (reaches : Reaches files base location other) : Settled files base other := by
  induction reaches with
  | refl => exact settled
  | tail _ imports ih =>
    -- What a settled place imports is settled.
    obtain ⟨_, others⟩ := ih
    exact others _ imports

/-- No settled file is on a cycle. -/
theorem Settled.not_onCycle {location : Location} (settled : Settled files base location) :
    ¬ OnCycle files base location := by
  -- A cycle through a file is a cycle through the import it begins with.
  induction settled with
  | intro _ _ ih =>
    intro cycle
    obtain ⟨imported, imports, reaches⟩ := Relation.TransGen.head'_iff.1 cycle
    exact ih imported imports (Relation.TransGen.tail' reaches imports)

/-- Walks from two lists of files make up one from both. -/
theorem Walk.append {starts others walk later : List Location}
    (first : Walk files base starts walk) (second : Walk files base others later) :
    Walk files base (starts ++ others) (walk ++ later) := by
  induction first with
  | done => exact second
  | enter parsed asks leads inside _ _ ih =>
    -- The walk below the first start is the same, whatever starts stand behind.
    simpa using Walk.enter parsed asks leads inside ih

/-- A walk meets exactly the files that its starts reach. -/
theorem Walk.mem_iff {starts walk : List Location} (walked : Walk files base starts walk)
    {location : Location} :
    location ∈ walk ↔ ∃ start ∈ starts, Reaches files base start location := by
  induction walked with
  | done => simp
  | @enter first rest targets inner later document resources parsed asks leads _ _ inside after =>
    simp only [List.cons_append, List.mem_cons, List.mem_append, inside, after,
      exists_eq_or_imp]
    rw [← or_assoc]
    refine or_congr_left ?_
    -- A file is reached from the first one at once or through one of its imports.
    rw [@reaches_iff _ _ first location]
    simp only [imports_iff parsed asks leads, eq_comm]

/-- Settled files can be walked from. -/
theorem Settled.exists_walk {location : Location} (settled : Settled files base location) :
    ∃ walk, Walk files base [location] walk := by
  induction settled with
  | @intro location loadable _ ih =>
    obtain ⟨document, resources, targets, parsed, asks, leads⟩ := loadable_iff.1 loadable
    -- The walks from the single imports are put behind each other.
    have walks : ∀ starts ⊆ targets, ∃ walk, Walk files base starts walk := by
      intro starts
      induction starts with
      | nil => exact fun _ => ⟨[], .done⟩
      | cons start rest more =>
        intro listed
        obtain ⟨first, firstWalked⟩ :=
          ih start ((imports_iff parsed asks leads).2 (listed (by simp)))
        obtain ⟨later, laterWalked⟩ := more fun other member => listed (by simp [member])
        exact ⟨first ++ later, firstWalked.append laterWalked⟩
    obtain ⟨inner, inside⟩ := walks targets (List.Subset.refl _)
    exact ⟨location :: inner ++ [], .enter parsed asks leads inside .done⟩

end BeanWiring
