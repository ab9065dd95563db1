import VectorBench.CommandLine.Options
import VectorBench.Report
import VectorBench.Store

/-!
# Commands

A command asks for files, writes to the two output streams and reads a stopwatch; it ends with an
exit status.  `World` is all that a command can see and change: running a command on a world is a
function.
-/

namespace VectorBench.CommandLine

inductive Request where
  | file (request : FileRequest)
  | write (stream : Stream) (text : String)
  /-- The seconds since the last request of this kind. -/
  | lap

def Request.Answer : Request → Type
  | file request => request.Answer
  | write _ _ => Except FileError Unit
  | lap => Binary64

/-- A program that a user runs. -/
abbrev Command : Type → Type := Program Request Request.Answer

/-- A program on files as a command. -/
def ofFiles {α : Type} (p : FileProgram α) : Command α := p.lift .file fun _ answer => answer

def write (stream : Stream) (text : String) : Command (Except FileError Unit) :=
  Program.request (Request.write stream text)

/-- Writes a line to a stream, whether it can be written or not. -/
def say (stream : Stream) (line : String) : Command Unit := do
  let _ ← write stream (line ++ "\n")

/-- The seconds since the stopwatch was last read. -/
def lap : Command Binary64 := Program.request Request.lap

inductive ExitStatus where
  | success
  | failure
  | misuse
  /-- The program did not get to its end. -/
  | stopped
  deriving DecidableEq, Repr

def ExitStatus.code : ExitStatus → UInt8
  | success => 0
  | failure => 1
  | misuse => 2
  | stopped => 101

/-- Writes a line to the error stream and ends. -/
def fail (status : ExitStatus) (line : String) : Command ExitStatus := do
  say .err line
  return status

/-- Reports what is wrong with the arguments and ends. -/
def refuse (e : ArgumentError) : Command ExitStatus := do
  let _ ← write .err e.printed
  return .misuse

/-! ## Running a command on a world -/

/-- A file tree, what was written to each stream, and the readings of the stopwatch to come. -/
structure World where
  tree : Node
  out : String
  err : String
  laps : Nat → Binary64
  lapsRead : Nat

/-- The world before a command: nothing is written, and the stopwatch was not read. -/
def World.start (tree : Node) (laps : Nat → Binary64) : World := ⟨tree, "", "", laps, 0⟩

/-- What a request yields, and the world after it.  Streams take everything. -/
def World.answer : (r : Request) → World → r.Answer × World
  | .file request, w =>
    let (answer, tree) := Tree.answer request w.tree
    (answer, { w with tree })
  | .write .out text, w => (.ok (), { w with out := w.out ++ text })
  | .write .err text, w => (.ok (), { w with err := w.err ++ text })
  | .lap, w => (w.laps w.lapsRead, { w with lapsRead := w.lapsRead + 1 })

/-- Runs a command on a world. -/
def runOn {α : Type} (command : Command α) (w : World) : α × World := command.run World.answer w

end VectorBench.CommandLine
