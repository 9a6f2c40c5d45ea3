import BeanWiring.Command.Run

/-!
The command line tool in the world: it takes a picture of the files it needs,
and prints what a run leaves.

A run names the paths that it follows, so the picture grows until a run follows nothing new.
-/

namespace BeanWiring

/-- The location of an absolute path free of links. -/
def locationOf (text : String) : Location :=
  ⟨(splitText '/' text).filter Path.isName⟩

/-- Only steps down are kept. -/
theorem locationOf_isPlain (text : String) : (locationOf text).isPlain := by
  simp [locationOf, Location.isPlain]

/-- The picture with the directories that lead to a location. -/
def addDirectories (files : Files) (location : Location) : Files :=
  (List.range location.names.length).foldl
    (fun files depth => files.put ⟨location.names.take depth⟩ .directory) files

/-- What stands at an absolute path free of links. -/
def entryAt (text : String) : IO Entry := do
  let real ← IO.FS.realPath text
  if ← real.isDir then return .directory
  match ← (IO.FS.readBinFile real).toBaseIO with
  | .ok bytes => return .file bytes
  | .error error => return .locked (toString error)

/-- The picture with all that the pieces of a path pass, walked from a location. -/
def addPieces (files : Files) (location : Location) : List String → IO Files
  | [] => return files
  | piece :: rest => do
    if Path.isIdle piece then addPieces files location rest
    else if piece == ".." then addPieces files location.above rest
    else
      let name := location.below piece
      -- A name that leads elsewhere is a link to what is really there.
      match ← (IO.FS.realPath name.path.text).toBaseIO with
      | .error _ => return files
      | .ok real =>
        let target := locationOf real.toString
        let files := (addDirectories files target).put target (← entryAt target.path.text)
        let files := if target = name then files else files.put name (.link target.path)
        addPieces files target rest

/-- The picture with all that a path passes. -/
def addPath (files : Files) (path : Path) : IO Files :=
  addPieces files (files.start path) path.parts

/-- Runs the tool on pictures that grow until nothing new is followed. -/
partial def runGrowing (files : Files) (seen : List Path) (arguments : List String) :
    IO RunResult := do
  let result := run files arguments
  let followed := (result.notices.filterMap Notice.followed?).filter fun path => !seen.contains path
  if followed.isEmpty then return result
  let files ← followed.foldlM addPath files
  runGrowing files (seen ++ followed) arguments

/-- The paths among the arguments. -/
def pathsOf (arguments : List String) : List Path :=
  match Arguments.parse arguments with
  | .ok arguments => arguments.config.toList ++ arguments.beans
  | .error _ => []

end BeanWiring

open BeanWiring in
/-- Runs the tool in the working directory. -/
def main (arguments : List String) : IO UInt32 := do
  let text := (← IO.FS.realPath ".").toString
  let here := locationOf text
  let files : Files := { here, plain_here := locationOf_isPlain text }
  let files := (addDirectories files here).put here .directory
  let result ← runGrowing (← (pathsOf arguments).foldlM addPath files) [] arguments
  IO.print result.output
  IO.eprint result.errors
  return result.exit.toUInt32
