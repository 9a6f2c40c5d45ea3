import BeanWiring.Files.Path

/-!
File trees with directories and symbolic links, and the location that a path leads to.

A location is a path free of links: the names from the root down.
-/

namespace BeanWiring

/-- A place in a file tree, as the names from the root down. -/
structure Location where
  names : List String := []
deriving DecidableEq, Repr, Inhabited

namespace Location

/-- The absolute path of a location. -/
def path (location : Location) : Path :=
  ⟨"/" ++ "/".intercalate location.names⟩

/-- The location one name below. -/
def below (location : Location) (name : String) : Location :=
  ⟨location.names ++ [name]⟩

/-- The location one name above; nothing is above the root. -/
def above (location : Location) : Location :=
  ⟨location.names.dropLast⟩

/-- Whether every name of the location is one that a path can step down to. -/
def isPlain (location : Location) : Bool :=
  location.names.all Path.isName

end Location

/-- What stands at a location. -/
inductive Entry where
  | file (bytes : ByteArray)
  /-- A file that is there and cannot be read. -/
  | locked (reason : String)
  | directory
  /-- A symbolic link leads to a path, relative to the directory it stands in. -/
  | link (target : Path)

/--
A file tree as seen from a working directory, which some path leads to;
the root is always a directory.
-/
structure Files where
  entries : List (Location × Entry) := []
  here : Location := {}
  plain_here : here.isPlain := by decide

/-- Links followed in one path before it is given up. -/
def maxLinks : Nat := 40

/-- Bytes in the longest path that leads anywhere. -/
def maxPathBytes : Nat := 4095

/-- Bytes in the longest name that anything can have. -/
def maxNameBytes : Nat := 255

/-- Whether a path, and every name in it, is short enough to be walked at all. -/
def Path.fits (path : Path) : Bool :=
  -- The text counts as it is written, with the pieces that name no step.
  path.text.utf8ByteSize ≤ maxPathBytes && path.parts.all (·.utf8ByteSize ≤ maxNameBytes)

/-- What a path is walked for. -/
inductive Purpose where
  /-- To find what stands where the path leads. -/
  | finding
  /-- To make something there: nothing needs to stand under the last name yet. -/
  | making
  /-- To name that place from the root: it has a path that fits, and so has every place passed. -/
  | naming
deriving DecidableEq, Repr

namespace Files

/-- What stands at a location. -/
def at? (files : Files) (location : Location) : Option Entry :=
  if location = {} then some .directory
  else (files.entries.find? fun entry => entry.1 == location).map (·.2)

/-- Whether a directory stands at a location. -/
def isDirectory (files : Files) (location : Location) : Bool :=
  match files.at? location with
  | some .directory => true
  | _ => false

/-- All locations at which something stands. -/
def locations (files : Files) : List Location :=
  {} :: files.entries.map (·.1)

/--
Walks the pieces of a path from a location; every step leads out of a directory.

A link is walked in place of its own name, and only so many of them.
-/
def walk (files : Files) (purpose : Purpose) (links : Nat) (location : Location) :
    List String → Option Location
  | [] => some location
  | piece :: rest =>
    if !files.isDirectory location then none
    else if Path.isIdle piece then files.walk purpose links location rest
    else if piece == ".." then files.walk purpose links location.above rest
    -- A link is asked for under its own name, so that name has to fit as well.
    else if purpose = .naming ∧ ¬ (location.below piece).path.fits then none
    else
      match files.at? (location.below piece) with
      | none => if purpose = .making ∧ rest = [] then some (location.below piece) else none
      | some (.link target) =>
        match links with
        | 0 => none
        | left + 1 =>
          if target.text == "" then none
          else
            files.walk purpose left (if target.isAbsolute then {} else location)
              (target.parts ++ rest)
      | some _ => files.walk purpose links (location.below piece) rest
termination_by pieces => (links, pieces.length)

/-- The location from which a path is walked. -/
def start (files : Files) (path : Path) : Location :=
  if path.isAbsolute then {} else files.here

/-- The location that a path leads to, if something stands there. -/
def locate (files : Files) (path : Path) : Option Location :=
  -- The empty path leads nowhere, though none of its pieces fails.
  if path.text == "" || !path.fits then none
  else
    (files.walk .finding maxLinks (files.start path) path.parts).filter
      fun location => (files.at? location).isSome

/-- The location that a path leads to, if it can be named from the root. -/
def canonicalize? (files : Files) (path : Path) : Option Location :=
  (files.locate path).filter fun _ =>
    (files.walk .naming maxLinks (files.start path) path.parts).isSome

/-- Whether a path leads somewhere. -/
def pathExists (files : Files) (path : Path) : Bool :=
  (files.locate path).isSome

/-- The text of the file at a location, or the reason why it cannot be read. -/
def readText (files : Files) (location : Location) : Except String String :=
  match files.at? location with
  | some (.file bytes) =>
    match String.fromUTF8? bytes with
    | some text => .ok text
    | none => .error "stream did not contain valid UTF-8"
  | some (.locked reason) => .error reason
  | some .directory => .error "Is a directory (os error 21)"
  | _ => .error "No such file or directory (os error 2)"

/-- A location with an entry is one of the tree's. -/
theorem mem_locations {files : Files} {location : Location}
    (present : (files.at? location).isSome) : location ∈ files.locations := by
  simp only [at?] at present
  split at present
  · simp [locations, *]
  · -- An entry found under the location is listed under it.
    simp only [Option.isSome_map, List.find?_isSome, beq_iff_eq] at present
    obtain ⟨entry, member, same⟩ := present
    exact List.mem_cons_of_mem _ (List.mem_map.2 ⟨entry, member, same⟩)

/-- A place that is named from the root is the one that the path leads to. -/
theorem locate_of_canonicalize? {files : Files} {path : Path} {location : Location}
    (found : files.canonicalize? path = some location) : files.locate path = some location :=
  (Option.filter_eq_some_iff.1 found).1

/-- The location that a path leads to is one of the tree's. -/
theorem locate_mem {files : Files} {path : Path} {location : Location}
    (found : files.locate path = some location) : location ∈ files.locations := by
  unfold locate at found
  split at found
  · simp at found
  · exact mem_locations (Option.filter_eq_some_iff.1 found).2

/-- The tree with something put at a location, in place of what stood there. -/
def put (files : Files) (location : Location) (entry : Entry) : Files :=
  { files with entries := (location, entry) ::
      files.entries.filter fun known => known.1 != location }

/-- The tree without what stands at a location. -/
def removeAt (files : Files) (location : Location) : Files :=
  { files with entries := files.entries.filter fun known => known.1 != location }

/-- Makes the directories that lead to the last piece of a path, as far as they are missing. -/
def makeParents (files : Files) (location : Location) : List String → Files
  | [] => files
  | [_] => files
  | piece :: rest =>
    -- A directory that is there is entered, also through a link; else it is made.
    match files.walk .finding maxLinks location [piece] with
    | some next => files.makeParents next rest
    | none => (files.put (location.below piece) .directory).makeParents (location.below piece) rest

/--
Puts an entry where a path leads, with the directories on the way;
a directory there already stays, and a path that is too long changes nothing.
-/
def write (files : Files) (path : Path) (entry : Entry) : Files :=
  if !path.fits then files
  else
    -- A link at the end is followed, so that its target is what is written.
    let made := files.makeParents (files.start path) path.parts
    match made.walk .making maxLinks (made.start path) path.parts with
    | some location => if made.isDirectory location then made else made.put location entry
    | none => made

/-- Removes the file or link that a path names; a link is not followed, and a directory stays. -/
def remove? (files : Files) (path : Path) : Option Files :=
  -- Only the directory is walked to, so a link at the end is not followed.
  match path.parts.getLast? with
  | none => none
  | some name =>
    if !path.fits || Path.isIdle name || name == ".." then none
    else
      match files.walk .finding maxLinks (files.start path) path.parts.dropLast with
      | none => none
      | some directory =>
        match files.at? (directory.below name) with
        | none | some .directory => none
        | some _ => some (files.removeAt (directory.below name))

end Files

end BeanWiring
