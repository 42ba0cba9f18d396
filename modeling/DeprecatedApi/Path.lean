/-!
# Paths

A path is a text whose segments are separated by slashes.

* `Path.segments`: what stands between the slashes.
* `Path.components`: the segments that lead somewhere.
* `Path.join`: a path below another one.
* `Path.fileName?`: the name that a path ends in.
* `Path.componentsLe`: the order of paths, component by component.
-/

namespace DeprecatedApi

namespace Path

/-- Splits a text at its slashes. -/
def splitSlash : List Char → List (List Char)
  | [] => [[]]
  | c :: rest =>
    if c = '/' then [] :: splitSlash rest
    else
      match splitSlash rest with
      | [] => [[c]]
      | segment :: later => (c :: segment) :: later

/-- What stands between the slashes of a path. -/
def segments (path : String) : List String :=
  (splitSlash path.toList).map String.ofList

/-- The segments of a path but for the empty ones and `.`, which lead nowhere. -/
def components (path : String) : List String :=
  (segments path).filter fun segment => segment != "" && segment != "."

/-- Whether a path starts at the root of the file system. -/
def isAbsolute (path : String) : Bool :=
  path.toList.head? == some '/'

/-- The path `rest` as seen from `base`. An absolute path is seen the same from everywhere. -/
def join (base rest : String) : String :=
  if isAbsolute rest then rest
  else if base = "" || base.toList.getLast? == some '/' then base ++ rest
  else base ++ "/" ++ rest

/-- The path to a name below a path. -/
def below (base : String) (names : List String) : String :=
  names.foldl join base

/-- The name that a path ends in; a path that ends in `..` has none. -/
def fileName? (path : String) : Option String :=
  (components path).getLast?.filter (· != "..")

/-- The order of paths: by the first component that differs, and a path before
those below it. -/
def componentsLe : List String → List String → Bool
  | [], _ => true
  | _ :: _, [] => false
  | a :: as, b :: bs => if a = b then componentsLe as bs else a < b

end Path

end DeprecatedApi
