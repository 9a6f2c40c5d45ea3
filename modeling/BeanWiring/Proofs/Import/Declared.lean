import BeanWiring.Import.Resolution
import BeanWiring.Proofs.Files.Absolute
import BeanWiring.Proofs.Markup.Order
import Mathlib.Data.List.Nodup

/-!
What a document imports, told by the import declarations in its tree, on whatever level they stand,
and what the resource of such a declaration stands for.
-/

namespace BeanWiring

/-- Steps that all succeed do so one by one. -/
theorem mapM_eq_ok_iff {ε α β : Type} {read : α → Except ε β} {items : List α}
    {results : List β} :
    items.mapM read = .ok results ↔
      List.Forall₂ (fun item result => read item = .ok result) items results := by
  -- The first step decides whether the others are looked at.
  induction items generalizing results with
  | nil => cases results <;> simp [pure, Except.pure]
  | cons first rest ih =>
    rw [List.mapM_cons]
    cases value : read first with
    | error fault => cases results <;> simp [value, bind, Except.bind]
    | ok result =>
      cases others : rest.mapM read with
      | error fault => cases results <;> simp [value, others, ← ih, bind, Except.bind]
      | ok more =>
        cases results <;> simp [value, others, ← ih, bind, Except.bind, pure, Except.pure]

/-- Steps that do not all succeed fail as one of them does. -/
theorem exists_of_mapM_eq_error {ε α β : Type} {read : α → Except ε β} {items : List α}
    {fault : ε} (failed : items.mapM read = .error fault) :
    ∃ item ∈ items, read item = .error fault := by
  induction items with
  | nil => simp [pure, Except.pure] at failed
  | cons first rest ih =>
    rw [List.mapM_cons] at failed
    cases value : read first with
    | error early =>
      simp only [value, bind, Except.bind, Except.error.injEq] at failed
      exact ⟨first, by simp, failed ▸ value⟩
    | ok result =>
      -- The first step succeeds, so one of the others is to blame.
      cases others : rest.mapM read with
      | error late =>
        simp only [value, others, bind, Except.bind, Except.error.injEq] at failed
        obtain ⟨item, member, blamed⟩ := ih (failed ▸ others)
        exact ⟨item, List.mem_cons_of_mem _ member, blamed⟩
      | ok more => simp [value, others, bind, Except.bind, pure, Except.pure] at failed

/-- Where two lists go together, every item of the first has one of the second. -/
theorem exists_of_forall₂ {α β : Type} {goes : α → β → Prop} {items : List α} {others : List β}
    (paired : List.Forall₂ goes items others) {item : α} (member : item ∈ items) :
    ∃ other ∈ others, goes item other := by
  induction paired with
  | nil => simp at member
  | cons here _ ih =>
    -- The item is the first one, with its partner, or stands among the others.
    rcases List.mem_cons.1 member with rfl | later
    · exact ⟨_, by simp, here⟩
    · obtain ⟨other, listed, there⟩ := ih later
      exact ⟨other, List.mem_cons_of_mem _ listed, there⟩

/-- Items each of which goes with something go together with a list. -/
theorem forall₂_of_exists {α β : Type} {goes : α → β → Prop} {items : List α}
    (each : ∀ item ∈ items, ∃ other, goes item other) :
    ∃ others, List.Forall₂ goes items others := by
  induction items with
  | nil => exact ⟨[], .nil⟩
  | cons first rest ih =>
    obtain ⟨other, here⟩ := each first (by simp)
    -- A partner for each item makes a list of partners.
    obtain ⟨others, later⟩ := ih fun item member => each item (List.mem_cons_of_mem _ member)
    exact ⟨other :: others, .cons here later⟩

/-- At most one list holds exactly the places of which something is told, in their order. -/
theorem Enumerates.unique {listed others : List (List Nat)} {told : List Nat → Prop}
    (first : Enumerates (· < ·) listed told) (second : Enumerates (· < ·) others told) :
    listed = others := by
  refine List.Perm.eq_of_pairwise ?_ first.sorted second.sorted ?_
  · exact fun left right _ _ before after => absurd after (List.lt_asymm before)
  · -- Places in their order are all different, so the lists are told apart by their members.
    rw [List.perm_ext_iff_of_nodup first.sorted.nodup second.sorted.nodup]
    exact fun place => (first.mem place).trans (second.mem place).symm

namespace Document

/-- An import declaration stands at a place of a document. -/
def ImportAt (document : Document) (place : List Nat) (declaration : Element) : Prop :=
  document.root.at? place = some declaration ∧ declaration.name = "import"

/-- At a place of a document an import declaration asks for a resource. -/
def AsksAt (document : Document) (place : List Nat) (resource : String) : Prop :=
  ∃ declaration, document.ImportAt place declaration ∧
    declaration.attribute? "resource" = some resource

/-- A document asks for resources: one for each of its import declarations, in their order. -/
def AsksFor (document : Document) (resources : List String) : Prop :=
  ∃ places, Enumerates (· < ·) places (fun place => ∃ declaration,
      document.ImportAt place declaration) ∧
    List.Forall₂ document.AsksAt places resources

variable {document : Document}

/-- The import declarations of a document, each under its place. -/
def locatedImports (document : Document) : List (List Nat × Element) :=
  document.root.located.filter fun found => found.2.name == "import"

/-- An import declaration is listed under a place exactly if it stands there. -/
theorem mem_locatedImports {place : List Nat} {declaration : Element} :
    (place, declaration) ∈ document.locatedImports ↔ document.ImportAt place declaration := by
  simp [locatedImports, ImportAt, Element.mem_located]

/-- The places of the import declarations are listed in document order. -/
theorem enumerates_locatedImports :
    Enumerates (· < ·) (document.locatedImports.map (·.1)) fun place =>
      ∃ declaration, document.ImportAt place declaration := by
  constructor
  · simp [← mem_locatedImports]
  · -- What is left of a sorted list is sorted.
    have sorted := List.pairwise_map.1 document.root.located_sorted
    exact List.pairwise_map.2 (sorted.filter _)

/-- A document imports what its import declarations ask for, read one after the other. -/
theorem imports_eq_mapM :
    document.imports = (document.locatedImports.map (·.2)).mapM document.resourceOf := by
  rw [imports, Element.descendants_eq, List.filter_map]
  rfl

/-- The resource of an import declaration is its attribute of that name. -/
theorem resourceOf_eq_ok_iff {declaration : Element} {resource : String} :
    document.resourceOf declaration = .ok resource ↔
      declaration.attribute? "resource" = some resource := by
  unfold resourceOf
  cases declaration.attribute? "resource" <;> simp

/-- The one fault of an import declaration is that it has no resource. -/
theorem resourceOf_eq_error_iff {declaration : Element} {fault : ConfigError} :
    document.resourceOf declaration = .error fault ↔
      declaration.attribute? "resource" = none ∧ fault = .importWithoutResource document.path := by
  -- There is just one fault that a declaration can have.
  unfold resourceOf
  cases declaration.attribute? "resource" <;> simp [eq_comm]

/-- The resources that a document imports are those that it asks for. -/
theorem imports_eq_ok_iff {resources : List String} :
    document.imports = .ok resources ↔ document.AsksFor resources := by
  -- The declarations and their places are two sides of one list.
  have sides : document.imports = .ok resources ↔
      List.Forall₂ document.AsksAt (document.locatedImports.map (·.1)) resources := by
    rw [imports_eq_mapM, mapM_eq_ok_iff, List.forall₂_map_left_iff, List.forall₂_map_left_iff,
      List.forall₂_iff_zip, List.forall₂_iff_zip]
    refine and_congr_right fun _ => forall₃_congr fun found resource paired => ?_
    have stands := mem_locatedImports.1 (List.of_mem_zip paired).1
    rw [resourceOf_eq_ok_iff]
    constructor
    · exact fun asked => ⟨found.2, stands, asked⟩
    · rintro ⟨declaration, also, asked⟩
      obtain rfl : found.2 = declaration := Option.some.inj (stands.1.symm.trans also.1)
      exact asked
  rw [sides]
  constructor
  · exact fun asked => ⟨_, enumerates_locatedImports, asked⟩
  · rintro ⟨places, listed, asked⟩
    rwa [enumerates_locatedImports.unique listed]

/-- A document asks for one list of resources at most. -/
theorem AsksFor.unique {resources others : List String} (first : document.AsksFor resources)
    (second : document.AsksFor others) : resources = others :=
  Except.ok.inj ((imports_eq_ok_iff.2 first).symm.trans (imports_eq_ok_iff.2 second))

/-- A document asks for a resource at some place if it is among those that it asks for. -/
theorem AsksFor.mem_iff {resources : List String} (asks : document.AsksFor resources)
    {resource : String} : resource ∈ resources ↔ ∃ place, document.AsksAt place resource := by
  obtain ⟨places, listed, asked⟩ := asks
  constructor
  · intro member
    obtain ⟨place, -, here⟩ := exists_of_forall₂ asked.flip member
    exact ⟨place, here⟩
  · -- Each place has its resource in the list, and no second one.
    rintro ⟨place, declaration, stands, asks⟩
    obtain ⟨other, member, also, there, same⟩ :=
      exists_of_forall₂ asked ((listed.mem place).2 ⟨declaration, stands⟩)
    obtain rfl : declaration = also := Option.some.inj (stands.1.symm.trans there.1)
    obtain rfl : resource = other := Option.some.inj (asks.symm.trans same)
    exact member

/-- A document that is at fault for an import has a declaration without a resource. -/
theorem exists_of_imports_eq_error {fault : ConfigError}
    (failed : document.imports = .error fault) :
    fault = .importWithoutResource document.path ∧ ∃ place declaration,
      document.ImportAt place declaration ∧ declaration.attribute? "resource" = none := by
  rw [imports_eq_mapM] at failed
  obtain ⟨declaration, member, blamed⟩ := exists_of_mapM_eq_error failed
  -- The first fault is that of one of the declarations.
  obtain ⟨found, listed, rfl⟩ := List.mem_map.1 member
  obtain ⟨lacks, same⟩ := resourceOf_eq_error_iff.1 blamed
  exact ⟨same, found.1, found.2, mem_locatedImports.1 listed, lacks⟩

end Document

/--
What the resource of an import stands for: an absolute path for itself, and a relative one for
a path in the directory of the document that declares the import, or in the working directory.
-/
inductive StandsFor (base : ImportBase) (importer : Location) (resource : String) : Path → Prop
  | absolute (front : resource.toList.head? = some '/') :
      StandsFor base importer resource ⟨resource⟩
  | besideImporter (relative : resource.toList.head? ≠ some '/') (chosen : base = .document) :
      StandsFor base importer resource (importer.above.below resource).path
  | inWorkingDirectory (relative : resource.toList.head? ≠ some '/')
      (chosen : base = .workingDirectory) : StandsFor base importer resource ⟨resource⟩

/-- The target of an import is what its resource stands for. -/
theorem standsFor_iff {base : ImportBase} {importer : Location} {resource : String} {path : Path}
    (plain : importer.isPlain) (inside : importer.names ≠ []) :
    StandsFor base importer resource path ↔ importTarget base importer resource = path := by
  have above : importer.path.parent? = some importer.above.path :=
    importer.path_parent? plain inside
  have higher : importer.above.isPlain := Location.above_isPlain plain
  by_cases front : resource.toList.head? = some '/'
  · -- An absolute resource replaces what it is joined to.
    have absolute : (Path.mk resource).isAbsolute = true := by simp [Path.isAbsolute, front]
    have target : importTarget base importer resource = ⟨resource⟩ := by
      cases base <;> simp [importTarget, above, Path.join, absolute]
    rw [target]
    constructor
    · rintro (_ | ⟨relative, -⟩ | _)
      · rfl
      · exact absurd front relative
      · rfl
    · rintro rfl
      exact .absolute front
  · have relative : (Path.mk resource).isAbsolute = false := by simp [Path.isAbsolute, front]
    cases base with
    | workingDirectory =>
      simp only [importTarget]
      constructor
      · rintro (_ | ⟨-, chosen⟩ | _)
        · rfl
        · cases chosen
        · rfl
      · rintro rfl
        exact .inWorkingDirectory front rfl
    | document =>
      simp only [importTarget, above, Location.join_path higher relative]
      constructor
      · rintro (absolute | _ | ⟨-, chosen⟩)
        · exact absurd absolute front
        · rfl
        · cases chosen
      · rintro rfl
        exact .besideImporter front rfl

end BeanWiring
