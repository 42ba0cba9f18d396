import DeprecatedApi.Assoc

/-!
# Files and directories

A tree of files and directories, in which a place is given by the names on the way
to it.

* `FileTree`: files with their contents, and directories with their entries.
* `FileTree.get?`, `FileTree.insert`, `FileTree.erase`: by the names on the way.
* `FileTree.makeDir`: a directory, unless something is there.
-/

namespace DeprecatedApi

/-- A file with its content, or a directory with its entries. -/
inductive FileTree where
  | file (content : ByteArray)
  | dir (entries : List (String × FileTree))

namespace FileTree

/-- What stands at the end of a way of names. -/
def get? : List String → FileTree → Option FileTree
  | [], tree => some tree
  | _ :: _, .file _ => none
  | name :: rest, .dir entries => (entries.lookup name).bind (get? rest)

/-- The entries of a directory. -/
def entries : FileTree → List (String × FileTree)
  | .file _ => []
  | .dir entries => entries

/-- Puts a tree at the end of a way of names, with the directories on the way. -/
def insert : List String → FileTree → FileTree → FileTree
  | [], _, new => new
  | name :: rest, tree, new =>
    .dir (Assoc.set name (insert rest ((tree.entries.lookup name).getD (.dir [])) new)
      tree.entries)

/-- Removes what stands at the end of a way of names. -/
def erase : List String → FileTree → FileTree
  | [], tree => tree
  | [name], tree => .dir (Assoc.remove name tree.entries)
  | name :: rest, tree =>
    match tree.entries.lookup name with
    | none => tree
    | some inner => .dir (Assoc.set name (erase rest inner) tree.entries)

/-- Puts an empty directory at the end of a way of names, unless something is there. -/
def makeDir (way : List String) (tree : FileTree) : FileTree :=
  if (tree.get? way).isSome then tree else tree.insert way (.dir [])

/-- What was put at the end of a way is found there. -/
@[simp] theorem get?_insert_self (way : List String) (tree new : FileTree) :
    (tree.insert way new).get? way = some new := by
  induction way generalizing tree with
  | nil => rfl
  | cons name rest ih => simp [insert, get?, ih]

end FileTree

end DeprecatedApi
