import BeanWiring.Files.Tree

/-!
Paths lead to plain locations only,
and the paths of two plain locations are the same only if the locations are.
-/

namespace BeanWiring

namespace Location

/-- A plain location goes on being plain where a name is put below it. -/
theorem below_isPlain {location : Location} (plain : location.isPlain) {name : String}
    (sound : Path.isName name) : (location.below name).isPlain := by
  simpa [isPlain, below, sound] using plain

/-- Going up from a plain location ends at a plain one. -/
theorem above_isPlain {location : Location} (plain : location.isPlain) :
    location.above.isPlain := by
  simp only [isPlain, above, List.all_eq_true] at plain ⊢
  exact fun name member => plain name (List.dropLast_subset _ member)

/-- The pieces of the path of a plain location are its names, behind the slash at the front. -/
theorem parts_path {location : Location} (plain : location.isPlain)
    (inside : location.names ≠ []) : location.path.parts = "" :: location.names := by
  -- No name has a slash, so cutting at the slashes undoes the joining.
  have free : ∀ part ∈ location.names.map String.toList, '/' ∉ part := by
    simp only [isPlain, List.all_eq_true] at plain
    intro part member
    obtain ⟨name, listed, rfl⟩ := List.mem_map.1 member
    have sound := plain name listed
    simp only [Path.isName, Bool.and_eq_true] at sound
    simpa using sound.2
  have text : location.path.text.toList =
      '/' :: List.intercalate ['/'] (location.names.map String.toList) := by
    simp [path, String.toList_intercalate]
  simp only [Path.parts, splitText, text, pieces, if_true]
  rw [pieces_intercalate (by simpa using inside) free]
  simp

/-- A plain location has its names as the components of its path. -/
theorem components_path {location : Location} (plain : location.isPlain) :
    location.path.components = .root :: location.names.map .name := by
  have absolute : location.path.isAbsolute := by simp [Path.isAbsolute, path]
  by_cases inside : location.names = []
  · -- The path of the root is a single slash.
    obtain ⟨names⟩ := location
    subst inside
    decide
  · simp only [isPlain, List.all_eq_true, Path.isName, Bool.and_eq_true, bne_iff_ne] at plain
    have kept : (location.names.filter fun part => !Path.isIdle part) = location.names :=
      List.filter_eq_self.2 fun name member => (plain name member).1.1
    have steps : (location.names.map fun part =>
        if part == ".." then Component.up else .name part) = location.names.map .name :=
      List.map_congr_left fun name member => by simp [(plain name member).1.2]
    have parts : location.path.parts = "" :: location.names :=
      parts_path (by simpa [isPlain, Path.isName] using plain) inside
    simp only [Path.components, absolute, if_true, parts]
    -- The piece in front of the first slash is empty, so it is no step.
    have front : ("" :: location.names).filter (fun part => !Path.isIdle part) =
        location.names := by
      rw [← kept]
      simp [Path.isIdle]
    rw [front, steps]
    rfl

/-- Plain locations are told apart by their paths. -/
theorem same_path_iff {left right : Location} (plain : left.isPlain) (plain' : right.isPlain) :
    left.path.same right.path ↔ left = right := by
  constructor
  · intro same
    simp only [Path.same, beq_iff_eq, components_path plain, components_path plain'] at same
    -- Different names are different components.
    have names : left.names = right.names :=
      List.map_inj_right (fun _ _ => Component.name.inj) |>.1 (List.cons.inj same).2
    cases left
    cases right
    simpa using names
  · rintro rfl
    simp [Path.same]

end Location

/-- No piece of a path has a slash. -/
theorem Path.not_mem_of_mem_parts {path : Path} {part : String} (member : part ∈ path.parts) :
    '/' ∉ part.toList := by
  simp only [Path.parts, splitText, List.mem_map] at member
  obtain ⟨piece, cut, rfl⟩ := member
  -- The parts of a path are cut at its slashes.
  simpa using not_mem_of_mem_pieces cut

namespace Files

/-- A walk along the pieces of a path goes from plain locations to plain locations. -/
theorem walk_isPlain {files : Files} {purpose : Purpose} {links : Nat} {start location : Location}
    {parts : List String} (plain : start.isPlain) (free : ∀ part ∈ parts, '/' ∉ part.toList)
    (walked : files.walk purpose links start parts = some location) : location.isPlain := by
  -- The induction follows the walk, which goes on by one piece or through a link.
  fun_induction walk files purpose links start parts with
  | case1 => simp_all
  | case2 => simp at walked
  | case3 links start piece rest inside idle ih =>
    exact ih plain (fun part member => free part (List.mem_cons_of_mem _ member)) walked
  | case4 links start piece rest inside idle up ih =>
    exact ih (Location.above_isPlain plain)
      (fun part member => free part (List.mem_cons_of_mem _ member)) walked
  | case5 => simp at walked
  | case6 links start piece rest inside idle up fits missing last =>
    have sound : Path.isName piece := by simp_all [Path.isName]
    simp only [Option.some.injEq] at walked
    exact walked ▸ Location.below_isPlain plain sound
  | case7 => simp at walked
  | case8 => simp at walked
  | case9 => simp at walked
  | case10 start piece rest inside idle up fits target there left nonempty ih =>
    refine ih ?_ ?_ walked
    · split
      · rfl
      · exact plain
    · -- The pieces of the link's target come before those still to be walked.
      intro part member
      rcases List.mem_append.1 member with target | later
      · exact Path.not_mem_of_mem_parts target
      · exact free part (List.mem_cons_of_mem _ later)
  | case11 links start piece rest inside idle up fits entry notLink there ih =>
    have sound : Path.isName piece := by simp_all [Path.isName]
    exact ih (Location.below_isPlain plain sound)
      (fun part member => free part (List.mem_cons_of_mem _ member)) walked

/-- Whatever a path leads to is a plain location. -/
theorem locate_isPlain {files : Files} {path : Path} {location : Location}
    (found : files.locate path = some location) : location.isPlain := by
  unfold locate at found
  split at found
  · simp at found
  · have walked := (Option.filter_eq_some_iff.1 found).1
    refine walk_isPlain ?_ (fun part member => Path.not_mem_of_mem_parts member) walked
    -- A walk starts at the root or in the working directory.
    unfold start
    split
    · rfl
    · exact files.plain_here

/-- A path along which a walk comes to something, whatever it is walked for, leads there. -/
theorem canonicalize?_of_walk {files : Files} {path : Path} {location : Location}
    (written : path.text ≠ "") (fits : path.fits)
    (walked : ∀ purpose, files.walk purpose maxLinks (files.start path) path.parts = some location)
    (there : (files.at? location).isSome) : files.canonicalize? path = some location := by
  simp [canonicalize?, locate, written, fits, walked, there]

/-- A file right below the root is found under its own path, and named by it. -/
theorem canonicalize?_top {files : Files} {name : String} {bytes : ByteArray}
    (plain : Path.isName name) (fits : (Location.path ⟨[name]⟩).fits)
    (there : files.at? ⟨[name]⟩ = some (.file bytes)) :
    files.canonicalize? (Location.path ⟨[name]⟩) = some ⟨[name]⟩ := by
  have parts : (Location.path ⟨[name]⟩).parts = ["", name] :=
    Location.parts_path (by simpa [Location.isPlain] using plain) (by simp)
  have step : Path.isIdle name = false ∧ name ≠ ".." := by
    simp only [Path.isName, Bool.and_eq_true, Bool.not_eq_true', bne_iff_ne] at plain
    exact plain.1
  have root : files.isDirectory {} = true := rfl
  have front : Path.isIdle "" = true := rfl
  -- The piece in front of the slash is no step, the one behind it is the last.
  have walked : ∀ purpose, files.walk purpose maxLinks {} ["", name] = some ⟨[name]⟩ := by
    intro purpose
    rw [walk, walk]
    simp [root, front, step, there, walk, Location.below, fits]
  have absolute : (Location.path ⟨[name]⟩).isAbsolute = true := by
    simp [Path.isAbsolute, Location.path]
  have written : (Location.path ⟨[name]⟩).text ≠ "" := by
    simp [Location.path]
  apply canonicalize?_of_walk written fits
  · simpa only [start, absolute, if_true, parts] using walked
  · simp [there]

/-- A file that holds a text in bytes is read as this text. -/
theorem readText_file {files : Files} {location : Location} {text : String}
    (there : files.at? location = some (.file text.toUTF8)) :
    files.readText location = .ok text := by
  -- The bytes of a text are always sound.
  have valid : text.toUTF8.IsValidUTF8 := text.isValidUTF8
  simp only [readText, there, String.fromUTF8?, valid, dif_pos]
  rfl

end Files

end BeanWiring
