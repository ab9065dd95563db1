import VectorBench.Json.Shape
import VectorBench.Json.Tree
import VectorBench.Record

/-!
# The text of a record

A record is kept as a JSON object with the members `config` and `metrics`, the latter with one
member for every engine in the order of invocation, printed over several lines and ended by a line
feed.  Reading takes the fields of every structure in any order, ignores members it does not know,
and fills in nothing that is missing.

    decode (encode r) = .ok r
-/

namespace VectorBench

/-! ## Writing -/

/-- A 64-bit number with its shortest digits. -/
def Json.ofBinary (x : Binary64) : Json := .number (NumberStyle.file.text x)

namespace Config

def json (c : Config) : Json :=
  .object [("n_samples", .ofNat c.samples.toNat), ("n_dims", .ofNat c.dims.toNat),
    ("n_queries", .ofNat c.queries.toNat), ("top_k", .ofNat c.topK.toNat),
    ("seed", .ofNat c.seed.toNat)]

def compactText (c : Config) : String := String.ofList c.json.compact

end Config

/-- The durations of a measurement; its engine is the name of the member that holds them. -/
def Measurement.json (m : Measurement) : Json :=
  .object [("build_sec", .ofBinary m.buildSeconds), ("search_sec", .ofBinary m.searchSeconds)]

namespace Record

def json (r : Record) : Json :=
  .object [("config", r.config.json),
    ("metrics", .object (r.metrics.map fun m => (m.engine, m.json)))]

/-- The text in which a record is kept. -/
def encode (r : Record) : String := String.ofList (r.json.pretty 0 ++ ['\n'])

end Record

/-! ## Reading -/

open Json (Shape Reading Cursor ReadError)

def naturalField {α : Type} (name expected : String) (set : UInt64 → α → α) :
    Shape.Field α where
  name := name
  read c := (Json.readNatural expected c).map fun (value, c) => (set value, c)

def secondsField {α : Type} (name : String) (set : Binary64 → α → α) : Shape.Field α where
  name := name
  read c := (Json.readFloat "f64" c).map fun (value, c) => (set value, c)

namespace Config

def shape : Shape Config where
  name := "BenchmarkConfig"
  fields := [
    naturalField "n_samples" "usize" fun value c => { c with samples := value },
    naturalField "n_dims" "usize" fun value c => { c with dims := value },
    naturalField "n_queries" "usize" fun value c => { c with queries := value },
    naturalField "top_k" "usize" fun value c => { c with topK := value },
    naturalField "seed" "u64" fun value c => { c with seed := value }]
  blank := ⟨0, 0, 0, 0, 0⟩

/-- The configuration that a text holds, whatever its counts. -/
def ofText (text : String) : Except ReadError Config := Json.readDocument shape.read text

end Config

def Measurement.shape (engine : String) : Shape Measurement where
  name := "MetricDocument"
  fields := [
    secondsField "build_sec" fun value m => { m with buildSeconds := value },
    secondsField "search_sec" fun value m => { m with searchSeconds := value }]
  blank := ⟨engine, .zero false, .zero false⟩

/-- Reads measurements under the names of their engines, behind the ones `read` before, the last of
which comes first. -/
def readMetricMembers : Nat → (read : List Measurement) → Cursor → Reading (List Measurement)
  | 0, _, c => c.fail .endInObject
  | steps + 1, read, c =>
    match Json.nextKey read.isEmpty c with
    | .error e => .error e
    | .ok (none, c) => .ok (read.reverse, c.advance)
    | .ok (some engine, c) =>
      match Json.readColon c with
      | .error e => .error e
      | .ok (_, c) =>
        match (Measurement.shape engine).read c with
        | .error e => .error e
        | .ok (m, c) =>
          if read.any fun other => other.engine == engine then
            c.failInObject (.duplicateEngine engine)
          else readMetricMembers steps (m :: read) c

def readMetrics (c : Cursor) : Reading (List Measurement) :=
  let c := c.skipBlanks
  match c.rest with
  | [] => c.failAhead .endInValue
  | first :: rest =>
    if first = '{' then readMetricMembers (rest.length + 1) [] c.advance
    else Json.wrongType "an object keyed by engine name" first c

/-- A record's parts as a text holds them, checked or not. -/
structure RecordDocument where
  config : Config
  metrics : List Measurement

def RecordDocument.shape : Shape RecordDocument where
  name := "RecordDocument"
  fields := [
    ⟨"config", fun c =>
      (Config.shape.read c).map fun (config, c) => (fun document => { document with config }, c)⟩,
    ⟨"metrics", fun c =>
      (readMetrics c).map fun (metrics, c) => (fun document => { document with metrics }, c)⟩]
  blank := ⟨Config.shape.blank, []⟩

inductive DecodeError where
  | unreadable (cause : ReadError)
  | invalid (cause : ValidationError)

def DecodeError.reason : DecodeError → String
  | unreadable cause => cause.message
  | invalid cause => cause.message

/-- The record that a text holds. -/
def Record.decode (text : String) : Except DecodeError Record :=
  match Json.readDocument RecordDocument.shape.read text with
  | .error e => .error (.unreadable e)
  | .ok document =>
    match Record.ofParts document.config document.metrics with
    | .error e => .error (.invalid e)
    | .ok record => .ok record

end VectorBench
