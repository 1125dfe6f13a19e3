/-!
# Files

The files of a machine, and the paths that lead to them. An absolute path starts at the root, any
other at the working directory.

* `FileSystem`: files and directories at their places below the root;
* `FileSystem.find?`: what a path leads to;
* `normalizePath`, `join`: paths without detours;
* `extension`: the extension of a path.
-/

namespace TypedQuery

/-! ## Paths -/

/-- The parts of a path, between slashes. -/
def pathParts (path : String) : List String := (path.toList.splitOn '/').map String.ofList

def isAbsolute (path : String) : Bool := path.toList.head? = some '/'

/-- The absolute path of some names. -/
def pathTo (names : List String) : String := "/" ++ "/".intercalate names

/-- Goes one part further along a path without detours. Nothing lies above the root; above the
start of any other path the way up is kept. -/
def goAlong (absolute : Bool) (done : List String) (part : String) : List String :=
  if part = "" ∨ part = "." then done
  else if part ≠ ".." then done ++ [part]
  else if done = [] ∨ done.getLast? = some ".." then if absolute then done else done ++ [".."]
  else done.dropLast

/-- A path without detours. It stays absolute, and keeps the slash at its end. -/
def normalizePath (path : String) : String :=
  let absolute := isAbsolute path
  let parts := (pathParts path).foldl (goAlong absolute) []
  let slash := if path.toList.getLast? = some '/' then "/" else ""
  if parts = [] then if absolute then "/" else "." ++ slash
  else (if absolute then pathTo parts else "/".intercalate parts) ++ slash

/-- The path of a name below a directory. -/
def join (directory name : String) : String :=
  normalizePath ("/".intercalate ([directory, name].filter fun path => path ≠ ""))

/-- The last part of a path that says something. -/
def baseName (path : String) : List Char :=
  (((pathParts path).filter fun part => part ≠ "").getLast?.getD "").toList

/-- The extension of a path: its last part from the last point on, unless that is where the part
starts. -/
def extension (path : String) : String :=
  let base := baseName path
  let reversed := base.reverse
  let after := reversed.takeWhile (· ≠ '.')
  let before := (reversed.dropWhile (· ≠ '.')).drop 1
  if before.isEmpty || base = ['.', '.'] then ""
  else String.ofList ('.' :: after.reverse)

/-! ## Files -/

/-- Files, each with the names that lead to it from the root and its text; directories, which need
no mention if something is mentioned that lies in them; and the working directory. -/
structure FileSystem where
  files : List (List String × String)
  directories : List (List String)
  workingDirectory : List String

/-- What a path can lead to. -/
inductive FileNode
  | file (text : String)
  | directory

namespace FileSystem

/-- What stands at a place. -/
def nodeAt? (system : FileSystem) (names : List String) : Option FileNode :=
  match system.files.find? fun f => f.1 = names with
  | some f => some (.file f.2)
  | none =>
    let mentioned :=
      system.workingDirectory :: system.directories ++ system.files.map Prod.fst
    if mentioned.any names.isPrefixOf then some .directory else none

/-- The place that a part of a path leads to from a directory. The root lies above itself. -/
def enter (here : List String) (part : String) : List String :=
  if part = "" ∨ part = "." then here
  else if part = ".." then here.dropLast
  else here ++ [part]

/-- Follows the parts of a path from a place. A part can only be followed from a directory. -/
def follow (system : FileSystem) (here : List String) : List String → Option (List String)
  | [] => some here
  | part :: rest =>
    match system.nodeAt? here with
    | some .directory => system.follow (enter here part) rest
    | _ => none

/-- What a path leads to. -/
def find? (system : FileSystem) (path : String) : Option FileNode :=
  if path = "" then none
  else
    let start := if isAbsolute path then [] else system.workingDirectory
    (system.follow start (pathParts path)).bind system.nodeAt?

end FileSystem

end TypedQuery
