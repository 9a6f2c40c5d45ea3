import BeanWiring.Text.Pieces

/-!
Paths as written: joining, the parent of a path,
and the components by which two paths are the same.
-/

namespace BeanWiring

/-- A path keeps the text it was written with. -/
structure Path where
  text : String
deriving DecidableEq, Repr, Inhabited

/-- What a path is made of, for comparing it with others. -/
inductive Component where
  | root
  | here
  | up
  | name (name : String)
deriving DecidableEq, Repr

namespace Path

/-- An absolute path starts at the root. -/
def isAbsolute (path : Path) : Bool :=
  path.text.toList.head? == some '/'

/-- The pieces between the slashes. -/
def parts (path : Path) : List String :=
  splitText '/' path.text

/-- A piece that names no step: nothing between two slashes, or a dot. -/
def isIdle (part : String) : Bool :=
  part == "" || part == "."

/-- A piece that names a step down: it is neither idle nor the step up, and it has no slash. -/
def isName (part : String) : Bool :=
  !isIdle part && part != ".." && !part.toList.contains '/'

/-- A path that starts with a dot keeps it as a component. -/
def startsHere (path : Path) : Bool :=
  path.parts.head? == some "."

/-- The components of a path: repeated and trailing slashes and dots inside it do not count. -/
def components (path : Path) : List Component :=
  -- A dot counts at the very front only; further on it is dropped with the empty pieces.
  let front :=
    if path.isAbsolute then [.root] else if path.startsHere then [.here] else []
  let steps := (path.parts.filter fun part => !isIdle part).map fun part =>
    if part == ".." then Component.up else .name part
  front ++ steps

/-- Two paths are the same if they have the same components. -/
def same (left right : Path) : Bool :=
  left.components == right.components

/-- A path under another one; an absolute path replaces the one it is joined to. -/
def join (base path : Path) : Path :=
  -- Nothing has to be put behind the empty path, nor behind a slash.
  if path.isAbsolute then path
  else if base.text.toList.getLast?.all (· == '/') then ⟨base.text ++ path.text⟩
  else ⟨base.text ++ "/" ++ path.text⟩

/-- The pieces, given in reverse, without the idle ones at the end of the path. -/
def dropIdle (reversed : List String) : List String :=
  reversed.dropWhile isIdle

/--
The path without its last component; the root and the empty path have no parent.

What stands before that component keeps the text it was written with, less what is idle at its end.
-/
def parent? (path : Path) : Option Path :=
  -- A slash or a dot at the very front is a component of its own and is never idle.
  let (front, reversed) :=
    if path.isAbsolute then ("/", path.parts.tail.reverse)
    else if path.startsHere then (".", (path.parts.tail.reverse))
    else ("", path.parts.reverse)
  match dropIdle reversed with
  | _ :: above =>
    let body := "/".intercalate (dropIdle above).reverse
    some ⟨if front == "." && !(dropIdle above).isEmpty then front ++ "/" ++ body else front ++ body⟩
  | [] => if front == "." then some ⟨""⟩ else none

end Path

end BeanWiring
