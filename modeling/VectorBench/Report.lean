import VectorBench.Decimal.Fixed
import VectorBench.Files.Error
import VectorBench.Verdict

/-!
# Reports

What a benchmark and a check print, line by line, each line with the stream it goes to.  Lines are
written one after the other until one cannot be written; nothing is written after that.

A `Sink` is a stream that takes a limited number of bytes: of a text that does not fit it takes as
much as does.
-/

namespace VectorBench

/-! ## Lines -/

inductive Stream where
  | out
  | err
  deriving DecidableEq, Repr

/-- What a benchmark says of one engine. -/
def summaryLine (m : Measurement) : String :=
  m.engine ++ ": build=" ++ m.buildSeconds.fixed 4 ++ "s search=" ++ m.searchSeconds.fixed 4 ++ "s"

/-- What a check says of one engine. -/
def comparisonLine (c : Comparison) : String :=
  c.engine ++ ": baseline=" ++ c.baseline.fixed 6 ++ "s current=" ++ c.current.fixed 6 ++
    "s ratio=" ++ c.ratio.fixed 3

def regressionLine (c : Comparison) (limit : Binary64) : String :=
  "ERROR: " ++ c.engine ++ " search regression ratio " ++ c.ratio.fixed 3 ++ " > " ++ limit.fixed 3

def passedLine : String := "ANN regression check passed."

def configLine (c : Config) : String :=
  "Benchmark config: samples=" ++ toString c.samples ++ ", dims=" ++ toString c.dims ++
    ", queries=" ++ toString c.queries ++ ", top_k=" ++ toString c.topK ++
    ", seed=" ++ toString c.seed

/-- The configuration, then every engine in the order of invocation. -/
def Record.summaryLines (r : Record) : List (Stream × String) :=
  (.out, configLine r.config) :: r.metrics.map fun m => (.out, summaryLine m)

/-- Every comparison, then either that the check passed or, on the other stream, every regression.
-/
def Verdict.lines (v : Verdict) : List (Stream × String) :=
  v.comparisons.map (fun c => (.out, comparisonLine c)) ++
    if v.passed then [(.out, passedLine)]
    else v.regressions.map fun c => (.err, regressionLine c v.limit)

/-! ## Writing -/

/-- Writes lines until one cannot be written. -/
def printLines {m : Type → Type} [Monad m] (write : Stream → String → m (Except FileError Unit)) :
    List (Stream × String) → m (Except FileError Unit)
  | [] => return .ok ()
  | (stream, line) :: rest => do
    match ← write stream (line ++ "\n") with
    | .error e => return .error e
    | .ok () => printLines write rest

/-- A stream that takes at most `limit` bytes. -/
structure Sink where
  limit : Nat
  written : List UInt8
  deriving Repr

def Sink.open (limit : Nat) : Sink := ⟨limit, []⟩

/-- Takes a text, or as much of it as fits. -/
def Sink.write (s : Sink) (text : String) : Except FileError Unit × Sink :=
  let bytes := text.toUTF8.toList
  let room := s.limit - s.written.length
  if bytes.length ≤ room then (.ok (), { s with written := s.written ++ bytes })
  else (.error .shortWrite, { s with written := s.written ++ bytes.take room })

/-- Both streams with a limit each. -/
structure Console where
  out : Sink
  err : Sink
  deriving Repr

def Console.write (stream : Stream) (text : String) : StateM Console (Except FileError Unit) :=
  fun c => match stream with
    | .out => let (result, out) := c.out.write text; (result, { c with out })
    | .err => let (result, err) := c.err.write text; (result, { c with err })

end VectorBench
