import BeanWiring.Proofs.Files.Location

/-!
Absolute paths lead to the same from every working directory,
and what is reached from the directory of an absolute path is named by an absolute path.
-/

namespace BeanWiring

namespace Path

/-- A path joined to an absolute one is absolute. -/
theorem join_isAbsolute {base : Path} (absolute : base.isAbsolute) (path : Path) :
    (base.join path).isAbsolute := by
  -- Either the path is absolute itself, or it is put behind the base.
  obtain ⟨rest, front⟩ : ∃ rest, base.text.toList = '/' :: rest := by
    simpa [isAbsolute, List.head?_eq_some_iff] using absolute
  unfold join
  split
  · assumption
  · split <;> simp [isAbsolute, front]

/-- Nothing is dropped from pieces none of which is idle. -/
theorem dropIdle_of_busy {reversed : List String}
    (busy : ∀ part ∈ reversed, isIdle part = false) : dropIdle reversed = reversed := by
  cases reversed with
  | nil => rfl
  | cons part rest => simp [dropIdle, busy part (by simp)]

end Path

namespace Location

/-- The path of a location is absolute. -/
theorem path_isAbsolute (location : Location) : location.path.isAbsolute := by
  simp [Path.isAbsolute, path]

/-- The path of a location ends in the last of its names. -/
theorem path_ends {location : Location} {names : List String} {last : String}
    (split : location.names = names ++ [last]) : ∃ front, location.path.text = front ++ last := by
  -- In front of the last name stands the slash of the root, or the one behind the other names.
  cases names with
  | nil => exact ⟨"/", by simp [path, split]⟩
  | cons first rest =>
    refine ⟨"/" ++ "/".intercalate (first :: rest) ++ "/", ?_⟩
    simp only [path, split]
    rw [String.intercalate_append_of_ne_nil (List.cons_ne_nil first rest)
      (List.cons_ne_nil last [])]
    simp [String.append_assoc]

variable {location : Location}

/-- A name of a plain location is not idle. -/
theorem not_isIdle (plain : location.isPlain) {name : String} (member : name ∈ location.names) :
    Path.isIdle name = false := by
  simp only [isPlain, List.all_eq_true] at plain
  have named := plain name member
  simp only [Path.isName, Bool.and_eq_true, Bool.not_eq_true'] at named
  -- A name is neither empty nor a dot, among other things.
  exact named.1.1

/-- A plain location below the root stands in a directory, which is the place above it. -/
theorem path_parent? (plain : location.isPlain) (inside : location.names ≠ []) :
    location.path.parent? = some location.above.path := by
  obtain ⟨names, last, split⟩ := List.eq_nil_or_concat location.names |>.resolve_left inside
  rw [List.concat_eq_append] at split
  -- None of the names is idle, so the last of them is what the parent leaves off.
  have whole : Path.dropIdle (last :: names.reverse) = last :: names.reverse := by
    apply Path.dropIdle_of_busy
    intro name member
    apply not_isIdle plain
    simpa [split, or_comm] using member
  have others : Path.dropIdle names.reverse = names.reverse := by
    apply Path.dropIdle_of_busy
    intro name member
    apply not_isIdle plain
    rw [split]
    exact List.mem_append_left _ (List.mem_reverse.1 member)
  simp only [Path.parent?, path_isAbsolute, parts_path plain inside, if_true, split,
    List.tail_cons, List.reverse_append, List.reverse_singleton, List.singleton_append, whole,
    others, List.reverse_reverse]
  simp [path, above, split]

/-- A relative path under that of a plain location is put behind its names. -/
theorem join_path (plain : location.isPlain) {path : Path} (relative : path.isAbsolute = false) :
    location.path.join path = (location.below path.text).path := by
  simp only [Path.join, relative, Bool.false_eq_true, if_false]
  obtain empty | ⟨names, last, split⟩ := List.eq_nil_or_concat location.names
  · -- The path of the root ends in a slash already.
    simp [Location.path, below, empty]
  · rw [List.concat_eq_append] at split
    have written : last.toList ≠ [] := by
      have busy := @not_isIdle location plain last (by simp [split])
      simp only [Path.isIdle, Bool.or_eq_false_iff, beq_eq_false_iff_ne] at busy
      simpa using busy.1
    have free : '/' ∉ last.toList := by
      simp only [isPlain, List.all_eq_true] at plain
      have named := plain last (by simp [split])
      simp only [Path.isName, Bool.and_eq_true] at named
      simpa using named.2
    -- Any other path ends in a name, which has characters and none of them a slash.
    have ends : location.path.text.toList.getLast?.all (· == '/') = false := by
      obtain ⟨front, text⟩ := path_ends split
      have closes := List.getLast?_eq_some_getLast written
      have differs : last.toList.getLast written ≠ '/' :=
        fun same => free (same ▸ List.getLast_mem written)
      simp [text, List.getLast?_append, closes, differs]
    have front : location.names ≠ [] := by simp [split]
    simp only [ends, Bool.false_eq_true, if_false]
    simp [Location.path, below, String.intercalate_append_of_ne_nil front, String.append_assoc]

end Location

namespace Files

variable {files others : Files}

/-- What stands at a location is the same from every working directory. -/
theorem at?_congr (entries : files.entries = others.entries) (location : Location) :
    files.at? location = others.at? location := by
  simp only [at?, entries]

/-- Whether a directory stands at a location is the same from every working directory. -/
theorem isDirectory_congr (entries : files.entries = others.entries) (location : Location) :
    files.isDirectory location = others.isDirectory location := by
  simp only [isDirectory, at?_congr entries]

/-- A walk is the same from every working directory. -/
theorem walk_congr (entries : files.entries = others.entries) (purpose : Purpose) (links : Nat)
    (location : Location) (parts : List String) :
    files.walk purpose links location parts = others.walk purpose links location parts := by
  -- The induction follows the walk, which asks the tree only what stands at locations.
  fun_induction walk files purpose links location parts with
  | case1 => rw [walk]
  | _ => rw [walk]; simp_all [isDirectory_congr entries, at?_congr entries]

/-- An absolute path leads to the same from every working directory. -/
theorem locate_absolute (entries : files.entries = others.entries) {path : Path}
    (absolute : path.isAbsolute) : files.locate path = others.locate path := by
  -- Only relative paths are walked from the working directory.
  simp only [locate, start, absolute, if_true, walk_congr entries, at?_congr entries]

/-- An absolute path is named alike from every working directory. -/
theorem canonicalize?_absolute (entries : files.entries = others.entries) {path : Path}
    (absolute : path.isAbsolute) : files.canonicalize? path = others.canonicalize? path := by
  simp only [canonicalize?, locate_absolute entries absolute, start, absolute, if_true,
    walk_congr entries]

/-- The text of a file is the same from every working directory. -/
theorem readText_congr (entries : files.entries = others.entries) (location : Location) :
    files.readText location = others.readText location := by
  simp only [readText, at?_congr entries]

end Files

end BeanWiring
