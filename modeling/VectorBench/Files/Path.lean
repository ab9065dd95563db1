/-!
# Paths

A path is text in which slashes separate names.  Empty pieces between slashes mean nothing, and so
does a dot, except that a relative path may start with one; two dots stand for the parent directory.
-/

namespace VectorBench.Path

/-- The pieces of a path that are not empty. -/
def pieces (path : String) : List String :=
  ((path.toList.splitOn '/').filter (!·.isEmpty)).map String.ofList

def isAbsolute (path : String) : Bool := path.toList.head? == some '/'

def endsInSlash (path : String) : Bool := path.toList.getLast? == some '/'

/-- The names of a path, without the dots that mean nothing. -/
def names (path : String) : List String :=
  match pieces path with
  | [] => []
  | first :: rest =>
    let rest := rest.filter (· != ".")
    if first == "." && isAbsolute path then rest else first :: rest

def ofNames (absolute : Bool) (names : List String) : String :=
  (if absolute then "/" else "") ++ "/".intercalate names

/-- The directory that a path is in, which is empty text for a single relative name; the root and
the empty path are in none. -/
def parent? (path : String) : Option String :=
  match names path with
  | [] => none
  | all => some (ofNames (isAbsolute path) all.dropLast)

/-- A path and the directories above it, up to the one in the working directory or the root. -/
def ancestors (path : String) : List String :=
  let all := names path
  (List.range all.length).map fun i => ofNames (isAbsolute path) (all.take (all.length - i))

end VectorBench.Path
