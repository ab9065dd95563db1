import VectorBench.Binary.Arith
import VectorBench.Record

/-!
# Regression verdicts

The search times of two records, engine by engine.  An engine has regressed when its current time is
more than `limit` times its baseline time; against a baseline that is not positive every time is
infinitely many times as long.  An engine that is asked for more than once is compared once, and one
that a record lacks leaves no verdict.
-/

namespace VectorBench

inductive Side where
  | baseline
  | current
  deriving DecidableEq, Repr

def Side.label : Side → String
  | baseline => "baseline"
  | current => "current"

/-- Why there is no verdict. -/
inductive CheckError where
  | missingEngine (engine : String) (side : Side)
  | invalidLimit (limit : Binary64)
  deriving DecidableEq

namespace CheckError

def message : CheckError → String
  | missingEngine engine side =>
    "engine '" ++ engine ++ "' is missing from the " ++ side.label ++ " record"
  | invalidLimit limit => "ratio limit must be a finite value > 0, got " ++ limit.messageText

end CheckError

/-- One engine's search times in both records. -/
structure Comparison where
  engine : String
  baseline : Binary64
  current : Binary64
  ratio : Binary64
  exceeded : Bool
  deriving DecidableEq

/-- How many times as long as the baseline the current time is. -/
def searchRatio (baseline current : Binary64) : Binary64 :=
  if baseline.isPositive then current / baseline else .infinity false

/-- The largest ratio accepted by default: one and a half. -/
def defaultLimit : Binary64 := .ofBits .double 0x3ff8000000000000

structure SearchTimes where
  engine : String
  baseline : Binary64
  current : Binary64
  deriving DecidableEq

/-- The comparison of an engine's search times. -/
def SearchTimes.compare (limit : Binary64) (t : SearchTimes) : Comparison :=
  let ratio := searchRatio t.baseline t.current
  ⟨t.engine, t.baseline, t.current, ratio, limit.lt ratio⟩

/-- The comparisons of a check, and whether none of them exceeds the limit. -/
structure Verdict where
  comparisons : List Comparison
  limit : Binary64
  passed : Bool
  deriving DecidableEq

namespace Verdict

def comparison? (v : Verdict) (engine : String) : Option Comparison :=
  v.comparisons.find? fun c => c.engine == engine

/-- The comparisons that exceed the limit. -/
def regressions (v : Verdict) : List Comparison := v.comparisons.filter (·.exceeded)

end Verdict

/-- The search times of an engine, which both records must have. -/
def searchTimes (baseline current : Record) (engine : String) : Except CheckError SearchTimes :=
  match baseline.metric? engine with
  | none => .error (.missingEngine engine .baseline)
  | some base =>
    match current.metric? engine with
    | none => .error (.missingEngine engine .current)
    | some now => .ok ⟨engine, base.searchSeconds, now.searchSeconds⟩

/-- The search times of the engines, after those `found` before.  An engine that is among these is
passed over, and the first one that a record lacks ends it. -/
def collectTimes (baseline current : Record) (found : List SearchTimes) :
    List String → Except CheckError (List SearchTimes)
  | [] => .ok found
  | engine :: rest =>
    if found.any fun t => t.engine == engine then collectTimes baseline current found rest
    else
      match searchTimes baseline current engine with
      | .error e => .error e
      | .ok times => collectTimes baseline current (found ++ [times]) rest

/-- The verdict on `current` against `baseline` for the given engines. -/
def checkRegression (baseline current : Record) (engines : List String) (limit : Binary64) :
    Except CheckError Verdict :=
  if !limit.isFinite || limit.le (.zero false) then .error (.invalidLimit limit)
  else
    match collectTimes baseline current [] engines with
    | .error e => .error e
    | .ok times =>
      let comparisons := times.map (SearchTimes.compare limit)
      .ok ⟨comparisons, limit, comparisons.all fun c => !c.exceeded⟩

end VectorBench
