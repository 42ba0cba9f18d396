import DeprecatedApi.CommandLine

/-!
# The program

Reads the files that an analysis may look at, runs the command line on them, and
prints what it says.
-/

namespace DeprecatedApi

namespace Snapshot

/-- How deep directories are followed; no path of an operating system goes deeper. -/
def maxNesting : Nat :=
  4096

/-- Reads the tree at a directory entry. Of files, only those that `wanted` names
are read; of the others, it is enough that they exist. -/
def read (wanted : String → Bool) : Nat → IO.FS.DirEntry → IO FileTree
  | 0, _ => return .dir []
  | depth + 1, entry => do
    if ← entry.path.isDir then
      let inner ← entry.path.readDir
      let entries ← inner.toList.mapM fun child => do
        return (child.fileName, ← read wanted depth child)
      return .dir entries
    else if wanted entry.fileName then
      return .file (← IO.FS.readBinFile entry.path)
    else
      return .file ByteArray.empty

/-- A path as an entry of its own, if something stands there. -/
def entryAt? (path : String) : IO (Option IO.FS.DirEntry) := do
  let entry : IO.FS.DirEntry := ⟨".", path⟩
  if (ReadFault.ofPath? path).isNone && (← entry.path.pathExists) then
    return some entry
  else
    return none

/-- Adds the tree at a path to a workspace. -/
def addTree (wanted : String → Bool) (ws : Workspace) (path : String) : IO Workspace := do
  match ← entryAt? path with
  | some entry => return ws.put path (← read wanted maxNesting entry)
  | none => return ws

/-- Adds the file at a path to a workspace. Of a directory, it is enough that it exists. -/
def addFile (ws : Workspace) (path : String) : IO Workspace := do
  match ← entryAt? path with
  | some entry =>
    if ← entry.path.isDir then
      return ws.makeDir path
    else
      return ws.put path (.file (← IO.FS.readBinFile entry.path))
  | none => return ws

/-- The working directory, of which nothing is known yet. -/
def empty : IO Workspace := do
  let here ← IO.currentDir
  let cwd := Path.components here.toString
  return ⟨FileTree.makeDir cwd (.dir []), cwd⟩

/-- Whether an analysis looks into files of a name below its root. -/
def isInput (name : String) : Bool :=
  isFactName name || name == configFile

/-- The files that the given options may make an analysis look at. -/
def take (options : CommandLine.Options) : IO Workspace := do
  let ws ← empty
  let ws ← addTree (fun name => isInput ((Path.fileName? name).getD "")) ws options.root
  let ws ← options.rules.toList.foldlM addFile ws
  let config := (options.settings.config ws options.root).value
  let named := config.bind Config.deprecatedApisFile
  (named.map (Path.join options.root)).toList.foldlM addFile ws

end Snapshot

/-- Prints what the program says, and returns its exit status. -/
def CommandLine.Output.print (output : CommandLine.Output) : IO UInt32 := do
  IO.print output.stdout
  IO.eprint output.stderr
  return output.exit.toUInt32

end DeprecatedApi

open DeprecatedApi in
/-- Runs the program. -/
def main (args : List String) : IO UInt32 := do
  match CommandLine.parse args with
  | .error stop => stop.output.print
  | .ok options => (options.run (← Snapshot.take options)).print
