import DeprecatedApi.FileTree
import DeprecatedApi.Path

/-!
# Workspaces

A workspace is all there is to read, as a tree from the root of the file system, and
the working directory in it. A path is followed name by name from the root or from the
working directory, and every place on its way must be a directory.

* `ReadFault`: why nothing can be read at a path, with its wording.
* `ReadFault.ofPath?`, `ReadFault.ofName?`: what no path and no name can be.
* `Workspace.find`: what stands at a path.
* `Workspace.readText`: the text of a file.
* `Workspace.put`, `Workspace.makeDir`, `Workspace.remove`: changes at a path.
-/

namespace DeprecatedApi

/-! ## Faults -/

/-- Why nothing can be read at a path. -/
inductive ReadFault where
  | nulInName
  | nameTooLong
  | notFound
  | notDirectory
  | isDirectory
  | notUtf8
  deriving DecidableEq, Repr

namespace ReadFault

/-- What the system calls a fault. -/
def message : ReadFault → String
  | .nulInName => "file name contained an unexpected NUL byte"
  | .nameTooLong => "File name too long (os error 36)"
  | .notFound => "No such file or directory (os error 2)"
  | .notDirectory => "Not a directory (os error 20)"
  | .isDirectory => "Is a directory (os error 21)"
  | .notUtf8 => "stream did not contain valid UTF-8"

/-- The length of the longest path, in bytes. -/
def maxPathSize : Nat :=
  4095

/-- The length of the longest name, in bytes. -/
def maxNameSize : Nat :=
  255

/-- Why a text is no path: it holds the character that ends all paths, is empty, or is
too long. -/
def ofPath? (path : String) : Option ReadFault :=
  if path.toList.contains '\x00' then some .nulInName
  else if path = "" then some .notFound
  else if maxPathSize < path.utf8ByteSize then some .nameTooLong
  else none

/-- Why nothing can have a name: it is too long. -/
def ofName? (name : String) : Option ReadFault :=
  if maxNameSize < name.utf8ByteSize then some .nameTooLong else none

end ReadFault

/-! ## Workspaces -/

/-- All there is to read. -/
structure Workspace where
  /-- The tree from the root of the file system. -/
  root : FileTree
  /-- The way to the working directory. -/
  cwd : List String

namespace Workspace

/-- Where a path begins. -/
def start (ws : Workspace) (path : String) : List String :=
  if Path.isAbsolute path then [] else ws.cwd

/-- The way after one more segment. Nothing lies above the root. -/
def follow (way : List String) (segment : String) : List String :=
  if segment = "" ∨ segment = "." then way
  else if segment = ".." then way.dropLast
  else way ++ [segment]

/-- Follows segments from the end of a way. All but the last place must be directories. -/
def walk (tree : FileTree) (way : List String) : List String → Except ReadFault FileTree
  | [] =>
    match tree.get? way with
    | none => .error .notFound
    | some found => .ok found
  | segment :: rest =>
    match tree.get? way with
    | none => .error .notFound
    | some (.file _) => .error .notDirectory
    | some (.dir _) =>
      match ReadFault.ofName? segment with
      | some fault => .error fault
      | none => walk tree (follow way segment) rest

/-- What stands at a path. -/
def find (ws : Workspace) (path : String) : Except ReadFault FileTree :=
  match ReadFault.ofPath? path with
  | some fault => .error fault
  | none => walk ws.root (ws.start path) (Path.segments path)

/-- Whether something stands at a path. -/
def isPresent (ws : Workspace) (path : String) : Bool :=
  match ws.find path with
  | .ok _ => true
  | .error _ => false

/-- Whether a directory stands at a path. -/
def isDir (ws : Workspace) (path : String) : Bool :=
  match ws.find path with
  | .ok (.dir _) => true
  | _ => false

/-! ## Texts -/

/-- The text of a content. -/
def decode (content : ByteArray) : Except ReadFault String :=
  match String.fromUTF8? content with
  | some text => .ok text
  | none => .error .notUtf8

/-- The text of the file at a path. -/
def readText (ws : Workspace) (path : String) : Except ReadFault String :=
  match ws.find path with
  | .error fault => .error fault
  | .ok (.dir _) => .error .isDirectory
  | .ok (.file content) => decode content

/-! ## Changes -/

/-- Follows a path and makes the directories it goes through. -/
def approach (ws : Workspace) (path : String) : FileTree × List String :=
  (Path.segments path).foldl
    (fun (tree, way) segment => (tree.makeDir way, follow way segment))
    (ws.root, ws.start path)

/-- Puts a tree at a path, with the directories that the path goes through. -/
def put (ws : Workspace) (path : String) (new : FileTree) : Workspace :=
  let (tree, way) := ws.approach path
  { ws with root := tree.insert way new }

/-- Makes the directory at a path, with those that the path goes through. -/
def makeDir (ws : Workspace) (path : String) : Workspace :=
  let (tree, way) := ws.approach path
  { ws with root := tree.makeDir way }

/-- Removes what stands at a path. -/
def remove (ws : Workspace) (path : String) : Workspace :=
  { ws with root := ws.root.erase ((Path.segments path).foldl follow (ws.start path)) }

end Workspace

end DeprecatedApi
