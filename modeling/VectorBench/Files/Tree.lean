import VectorBench.Files.Error
import VectorBench.Files.Path

/-!
# File trees

A file tree without links: files hold bytes, directories hold named nodes.  The tree is all there
is, and its root is the working directory.

A path is walked from left to right, and every step of the walk must be an existing directory; only
the last name may be missing.  A name of more than 255 bytes and a path of more than 4095 are too
long.  `Tree.answer` says what every request does to a tree; a request that fails changes nothing.
-/

namespace VectorBench

abbrev Bytes := List UInt8

/-- A file with its bytes, or a directory with its named entries. -/
inductive Node where
  | file (bytes : Bytes)
  | directory (entries : List (String × Node))

namespace Node

def empty : Node := directory []

/-- The entries of a directory; a file has none. -/
def entries : Node → List (String × Node)
  | file _ => []
  | directory entries => entries

def child? (n : Node) (name : String) : Option Node := n.entries.lookup name

/-- A directory with the node of a name replaced, added or, for `none`, removed. -/
def setChild (n : Node) (name : String) (child : Option Node) : Node :=
  let others := n.entries.filter fun entry => entry.1 != name
  match child with
  | none => directory others
  | some node => directory ((name, node) :: others)

/-- The node at the end of a list of names. -/
def get? : Node → List String → Option Node
  | n, [] => some n
  | n, name :: rest => (n.child? name).bind fun child => child.get? rest

/-- The tree with the entry `name` of the directory `dir` replaced, added or removed. -/
def setEntry (n : Node) (dir : List String) (name : String) (child : Option Node) : Node :=
  match dir with
  | [] => n.setChild name child
  | first :: rest =>
    match n.child? first with
    | none => n
    | some below => n.setChild first (some (below.setEntry rest name child))

end Node

/-! ## Walking a path -/

/-- What the last name of a path stands for. -/
inductive Place where
  /-- The entry `name`, there or not, of the directory `dir`; `slash` if a slash follows it. -/
  | entry (dir : List String) (name : String) (slash : Bool)
  /-- A directory that the path names by dots or as the root. -/
  | directory (dir : List String)
  deriving DecidableEq, Repr

def maxNameBytes : Nat := 255

def maxPathBytes : Nat := 4095

/-- What is there under a name in the directory `dir`. -/
def lookUp (tree : Node) (dir : List String) (name : String) : Except FileError (Option Node) :=
  if maxNameBytes < name.utf8ByteSize then .error .nameTooLong
  else .ok (tree.get? (dir ++ [name]))

/-- One step of a walk from the directory `here`. -/
def walkStep (tree : Node) (here : List String) (name : String) :
    Except FileError (List String) :=
  if name == "." then .ok here
  else if name == ".." then .ok here.dropLast
  else
    match lookUp tree here name with
    | .error e => .error e
    | .ok none => .error .noEntry
    | .ok (some (.file _)) => .error .notDirectory
    | .ok (some (.directory _)) => .ok (here ++ [name])

/-- The directory at the end of a walk from the directory `here`. -/
def walk (tree : Node) (here : List String) : List String → Except FileError (List String)
  | [] => .ok here
  | name :: rest =>
    match walkStep tree here name with
    | .error e => .error e
    | .ok here => walk tree here rest

/-- What the name at the end of a path stands for in the directory `dir`. -/
def placeIn (dir : List String) (name : String) (slash : Bool) : Place :=
  if name == "." then .directory dir
  else if name == ".." then .directory dir.dropLast
  else .entry dir name slash

/-- The place that a path names. -/
def locate (tree : Node) (path : String) : Except FileError Place :=
  if path.toList.contains '\x00' then .error .nulInPath
  else if path.isEmpty then .error .noEntry
  else if maxPathBytes < path.utf8ByteSize then .error .nameTooLong
  else
    match (Path.pieces path).getLast? with
    | none => .ok (.directory [])
    | some name =>
      match walk tree [] (Path.pieces path).dropLast with
      | .error e => .error e
      | .ok dir => .ok (placeIn dir name (Path.endsInSlash path))

/-! ## Requests -/

/-- What a program may ask of a file system. -/
inductive FileRequest where
  /-- Make a directory. -/
  | makeDir (path : String)
  /-- Whether a path names a directory. -/
  | isDir (path : String)
  /-- Make an empty file, or empty the file that is there. -/
  | create (path : String)
  /-- Add bytes at the end of a file. -/
  | append (path : String) (bytes : Bytes)
  /-- Wait until a file is on the disk. -/
  | sync (path : String)
  /-- Give a file another name, in place of a file of that name.  Directories are not renamed. -/
  | rename (source target : String)
  /-- Remove a file. -/
  | remove (path : String)
  /-- The contents of a file. -/
  | read (path : String)
  deriving DecidableEq, Repr

/-- What a request yields when it succeeds. -/
def FileRequest.Reply : FileRequest → Type
  | isDir _ => Bool
  | read _ => Bytes
  | _ => Unit

/-- What a request yields. -/
abbrev FileRequest.Answer (r : FileRequest) : Type := Except FileError r.Reply

namespace Tree

/-- The file that a path names for reading or adding to it, with its directory and name. -/
def existingFile (tree : Node) (path : String) :
    Except FileError (List String × String × Bytes) :=
  match locate tree path with
  | .error e => .error e
  | .ok (.directory _) => .error .isDirectory
  | .ok (.entry dir name slash) =>
    match lookUp tree dir name with
    | .error e => .error e
    | .ok none => .error .noEntry
    | .ok (some (.directory _)) => .error .isDirectory
    | .ok (some (.file bytes)) => if slash then .error .notDirectory else .ok (dir, name, bytes)

def makeDir (tree : Node) (path : String) : Except FileError Node :=
  match locate tree path with
  | .error e => .error e
  | .ok (.directory _) => .error .alreadyExists
  | .ok (.entry dir name _) =>
    match lookUp tree dir name with
    | .error e => .error e
    | .ok (some _) => .error .alreadyExists
    | .ok none => .ok (tree.setEntry dir name (some .empty))

def isDir (tree : Node) (path : String) : Bool :=
  match locate tree path with
  | .error _ => false
  | .ok (.directory _) => true
  | .ok (.entry dir name _) =>
    match lookUp tree dir name with
    | .ok (some (.directory _)) => true
    | _ => false

/-- The tree with an empty file at a path, new or emptied. -/
def create (tree : Node) (path : String) : Except FileError Node :=
  match locate tree path with
  | .error e => .error e
  | .ok (.directory _) => .error .isDirectory
  | .ok (.entry dir name slash) =>
    if slash then .error .isDirectory
    else
      match lookUp tree dir name with
      | .error e => .error e
      | .ok (some (.directory _)) => .error .isDirectory
      | .ok _ => .ok (tree.setEntry dir name (some (.file [])))

/-- The tree with more bytes at the end of a file. -/
def append (tree : Node) (path : String) (more : Bytes) : Except FileError Node :=
  match existingFile tree path with
  | .error e => .error e
  | .ok (dir, name, bytes) => .ok (tree.setEntry dir name (some (.file (bytes ++ more))))

/-- Moves a file.  It can take the place of a file, but not of a directory. -/
def moveFile (tree : Node) (dir : List String) (name : String) (bytes : Bytes)
    (dir' : List String) (name' : String) : Except FileError Node :=
  match lookUp tree dir' name' with
  | .error e => .error e
  | .ok (some (.directory _)) => .error .isDirectory
  | .ok _ => .ok ((tree.setEntry dir name none).setEntry dir' name' (some (.file bytes)))

/-- Gives a file the name `target`, which must not be dots or have a slash behind it. -/
def rename (tree : Node) (source target : String) : Except FileError Node :=
  match locate tree source, locate tree target with
  | .error e, _ => .error e
  | .ok _, .error e => .error e
  | .ok (.entry dir name slash), .ok (.entry dir' name' slash') =>
    match lookUp tree dir name with
    | .error e => .error e
    | .ok none => .error .noEntry
    | .ok (some (.directory _)) => .error .isDirectory
    | .ok (some (.file bytes)) =>
      if slash || slash' then .error .notDirectory else moveFile tree dir name bytes dir' name'
  | .ok _, .ok _ => .error .busy

def remove (tree : Node) (path : String) : Except FileError Node :=
  match existingFile tree path with
  | .error e => .error e
  | .ok (dir, name, _) => .ok (tree.setEntry dir name none)

def read (tree : Node) (path : String) : Except FileError Bytes :=
  match existingFile tree path with
  | .error e => .error e
  | .ok (_, _, bytes) => .ok bytes

/-- The tree after a change, and the old tree after a change that failed. -/
def change (tree : Node) (result : Except FileError Node) : Except FileError Unit × Node :=
  match result with
  | .ok tree => (.ok (), tree)
  | .error e => (.error e, tree)

/-- What a request yields, and the tree after it. -/
def answer : (r : FileRequest) → Node → r.Answer × Node
  | .makeDir path, tree => change tree (makeDir tree path)
  | .isDir path, tree => (.ok (isDir tree path), tree)
  | .create path, tree => change tree (create tree path)
  | .append path bytes, tree => change tree (append tree path bytes)
  | .sync path, tree => ((existingFile tree path).map fun _ => (), tree)
  | .rename source target, tree => change tree (rename tree source target)
  | .remove path, tree => change tree (remove tree path)
  | .read path, tree => (read tree path, tree)

/-! ## Listing -/

mutual
/-- The paths below a directory; those of directories end in a slash. -/
def paths (above : String) : Node → List String
  | .file _ => []
  | .directory entries => entryPaths above entries

def entryPaths (above : String) : List (String × Node) → List String
  | [] => []
  | (name, .file _) :: rest => (above ++ name) :: entryPaths above rest
  | (name, .directory entries) :: rest =>
    (above ++ name ++ "/") :: entryPaths (above ++ name ++ "/") entries ++ entryPaths above rest
end

/-- All paths of a tree in ascending order. -/
def listing (tree : Node) : List String := (paths "" tree).mergeSort fun a b => a ≤ b

end Tree

end VectorBench
