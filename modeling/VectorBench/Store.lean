import VectorBench.Chart
import VectorBench.Files.Tree
import VectorBench.Program
import VectorBench.Record.Text

/-!
# Storing records and charts

A record is saved so that its path never holds a part of it: the text goes to a file beside the
path, which takes the place of the path once it is complete and on the disk.  Missing directories
are made first, and when a later step fails the file beside is removed.  A chart, which can be drawn
again, is written to its path directly.
-/

namespace VectorBench

/-- A program that asks a file system. -/
abbrev FileProgram : Type → Type := Program FileRequest FileRequest.Answer

def ask (r : FileRequest) : FileProgram r.Answer := Program.request r

def FileProgram.run {α : Type} (p : FileProgram α) (tree : Node) : α × Node :=
  Program.run Tree.answer p tree

/-! ## Directories -/

/-- Leaves an error alone where a directory is there after all. -/
def unlessDirectory (path : String) (e : FileError) : FileProgram (Except FileError Unit) := do
  match ← ask (.isDir path) with
  | .ok true => return .ok ()
  | _ => return .error e

/-- Makes a directory, and those above it where they are missing.  The paths are those of the
directory and of the ones above it, from below. -/
def makeDirs : List String → FileProgram (Except FileError Unit)
  | [] => return .ok ()
  | path :: above => do
    match ← ask (.makeDir path) with
    | .ok _ => return .ok ()
    | .error .noEntry =>
      match ← makeDirs above with
      | .error e => return .error e
      | .ok _ =>
        match ← ask (.makeDir path) with
        | .ok _ => return .ok ()
        | .error e => unlessDirectory path e
    | .error e => unlessDirectory path e

def makeParents (path : String) : FileProgram (Except FileError Unit) :=
  match Path.parent? path with
  | none => return .ok ()
  | some parent => makeDirs (Path.ancestors parent)

/-! ## Records -/

/-- The file that a record is written to before it takes the place of `path`. -/
def temporaryPath (path : String) : String := path ++ ".tmp"

/-- Writes a file and waits until it is on the disk. -/
def writeSynced (path : String) (bytes : Bytes) : FileProgram (Except FileError Unit) := do
  match ← ask (.create path) with
  | .error e => return .error e
  | .ok _ =>
    match ← ask (.append path bytes) with
    | .error e => return .error e
    | .ok _ => ask (.sync path)

/-- Writes the file beside `path` and gives it that name. -/
def replaceFile (path : String) (bytes : Bytes) : FileProgram (Except FileError Unit) := do
  match ← writeSynced (temporaryPath path) bytes with
  | .error e => return .error e
  | .ok _ => ask (.rename (temporaryPath path) path)

def Record.bytes (r : Record) : Bytes := r.encode.toUTF8.toList

def saveRecord (r : Record) (path : String) : FileProgram (Except FileError Unit) := do
  match ← makeParents path with
  | .error e => return .error e
  | .ok _ =>
    match ← replaceFile path r.bytes with
    | .ok _ => return .ok ()
    | .error e =>
      let _ ← ask (.remove (temporaryPath path))
      return .error e

inductive StoreError where
  | io (cause : FileError)
  | malformed (cause : DecodeError)

namespace StoreError

def message : StoreError → String
  | io cause => "i/o error: " ++ cause.message
  | malformed cause => "malformed benchmark record: " ++ cause.reason

end StoreError

/-- The text of some bytes, if they are UTF-8. -/
def textOfBytes (bytes : Bytes) : Except FileError String :=
  match String.fromUTF8? ⟨bytes.toArray⟩ with
  | some text => .ok text
  | none => .error .notText

/-- The record that the contents of a file hold. -/
def recordOfBytes (bytes : Bytes) : Except StoreError Record :=
  match textOfBytes bytes with
  | .error e => .error (.io e)
  | .ok text => (Record.decode text).mapError .malformed

def loadRecord (path : String) : FileProgram (Except StoreError Record) := do
  match ← ask (.read path) with
  | .error e => return .error (.io e)
  | .ok bytes => return recordOfBytes bytes

/-! ## Charts -/

def saveChart (r : Record) (path : String) : FileProgram (Except FileError Unit) := do
  match ← makeParents path with
  | .error e => return .error e
  | .ok _ =>
    match ← ask (.create path) with
    | .error e => return .error e
    | .ok _ => ask (.append path (Chart.ofRecord r).svg.toUTF8.toList)

end VectorBench
