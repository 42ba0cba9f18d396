import DeprecatedApi.Workspace

/-!
# Discovery of fact files

Fact files are the files below a root whose names end in `.facts.json`. Directories
with certain names are passed over, but never the root itself.

* `isFactName`, `isFactFile`: names and paths of fact files.
* `Discovery.walk`: the fact files below a directory.
* `Discovery.Fault`: a directory that could not be read.
* `Discovery.gather`: the fact files at a path, in order.
-/

namespace DeprecatedApi

/-- How the names of fact files end. -/
def factFileSuffix : String :=
  ".facts.json"

/-- Whether a name is that of a fact file: something, and then the suffix. -/
def isFactName (name : String) : Bool :=
  factFileSuffix.toList.isSuffixOf name.toList && name != factFileSuffix

/-- Whether a path names a fact file. -/
def isFactFile (path : String) : Bool :=
  (Path.fileName? path).any isFactName

/-- A fact file: its path, as users see it, and its content. -/
structure Source where
  path : String
  content : ByteArray

namespace Discovery

/-- The names of directories that are always passed over. -/
def standardExcludes : List String :=
  [".git", "node_modules", ".gradle", ".idea"]

/-- Whether directories of a name are passed over. -/
def isExcluded (excludes : List String) (name : String) : Bool :=
  standardExcludes.contains name || excludes.contains name

/-- Whether an entry of a directory is followed: a file if it is a fact file, a
directory unless it is passed over. -/
def isFollowed (excludes : List String) (name : String) : FileTree → Bool
  | .file _ => isFactName name
  | .dir _ => !isExcluded excludes name

mutual

/-- The files that are reached in a tree, each with the names on the way to it. -/
def reached (excludes : List String) : FileTree → List (List String × ByteArray)
  | .file content => [([], content)]
  | .dir entries => walk excludes entries

/-- The files that are reached from the entries of a directory. -/
def walk (excludes : List String) : List (String × FileTree) → List (List String × ByteArray)
  | [] => []
  | (name, tree) :: rest =>
    (if isFollowed excludes name tree then
      (reached excludes tree).map fun found => (name :: found.1, found.2)
    else [])
      ++ walk excludes rest

end

mutual

/-- The directories that are read in a tree, each with the names on the way to it. -/
def entered (excludes : List String) : FileTree → List (List String)
  | .file _ => []
  | .dir entries => [] :: enteredBelow excludes entries

/-- The directories that are read from the entries of a directory. -/
def enteredBelow (excludes : List String) : List (String × FileTree) → List (List String)
  | [] => []
  | (name, tree) :: rest =>
    (if isFollowed excludes name tree then (entered excludes tree).map (name :: ·) else [])
      ++ enteredBelow excludes rest

end

/-- Fact files in the order of their paths. -/
def sorted (found : List (List String × ByteArray)) : List (List String × ByteArray) :=
  found.mergeSort fun a b => Path.componentsLe a.1 b.1

/-- The fact files of a tree that stands at the path `root`. A file is its own and
only candidate. -/
def sources (root : String) (excludes : List String) : FileTree → List Source
  | .file content => if isFactFile root then [⟨root, content⟩] else []
  | .dir entries =>
    (sorted (walk excludes entries)).map fun found => ⟨Path.below root found.1, found.2⟩

/-! ## Faults -/

/-- A directory that could not be read. -/
structure Fault where
  path : String
  cause : ReadFault
  deriving DecidableEq, Repr

/-- What a fault is called. -/
def Fault.message (fault : Fault) : String :=
  "IO error for operation on " ++ fault.path ++ ": " ++ fault.cause.message

/-- What it is called that the fact files at a path could not be gathered. -/
def failure (root : String) : String :=
  "Failed to gather fact files from " ++ root

/-- The first directory of a tree at the path `root` that cannot be read, because the
path to it is none. -/
def unreadable? (root : String) (excludes : List String) (target : FileTree) : Option Fault :=
  (entered excludes target).findSome? fun way =>
    (ReadFault.ofPath? (Path.below root way)).map fun cause => ⟨Path.below root way, cause⟩

/-- The fact files of a tree that stands at the path `root`, if all its directories can
be read. -/
def discover (root : String) (excludes : List String) (target : FileTree) :
    Except Fault (List Source) :=
  match unreadable? root excludes target with
  | some fault => .error fault
  | none => .ok (sources root excludes target)

/-- The fact files at a path. -/
def gather (ws : Workspace) (root : String) (excludes : List String) :
    Except Fault (List Source) :=
  match ws.find root with
  | .error cause => .error ⟨root, cause⟩
  | .ok target => discover root excludes target

end Discovery

end DeprecatedApi
