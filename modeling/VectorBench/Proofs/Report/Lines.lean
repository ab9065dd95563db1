import VectorBench.Proofs.Verdict.Outcome
import VectorBench.Report

/-!
# Lines of a report

What a report comes to on either stream, as a text.  A verdict has its comparisons on the output
stream, with one line more when it is passed, and its regressions on the error stream, where a verdict
of a check that is passed has none.

    Judges … v → v.lines = the output lines of v, then the error lines of v              (lines_eq)
    Judges … v → (v.errLines = [] ↔ v.passed = true)                         (errLines_eq_nil_iff)
-/

namespace VectorBench

def textOfLines (lines : List String) : String := String.join (lines.map (· ++ "\n"))

@[simp] theorem textOfLines_nil : textOfLines [] = "" := rfl

@[simp] theorem textOfLines_cons (line : String) (rest : List String) :
    textOfLines (line :: rest) = line ++ "\n" ++ textOfLines rest := by
  rw [textOfLines, List.map_cons, String.join_cons, textOfLines]

theorem textOfLines_append (lines more : List String) :
    textOfLines (lines ++ more) = textOfLines lines ++ textOfLines more := by
  rw [textOfLines, List.map_append, String.join_append, textOfLines, textOfLines]

theorem textOfLines_eq_empty_iff {lines : List String} : textOfLines lines = "" ↔ lines = [] := by
  cases lines with
  | nil => simp
  | cons line rest => simp [String.append_eq_empty_iff]

/-- Lines that all go to one stream. -/
def sentTo (stream : Stream) (lines : List String) : List (Stream × String) :=
  lines.map fun line => (stream, line)

/-- The configuration, then every engine in the order of invocation. -/
def Record.outLines (r : Record) : List String := configLine r.config :: r.metrics.map summaryLine

theorem Record.summaryLines_eq (r : Record) : r.summaryLines = sentTo .out r.outLines := by
  rw [summaryLines, sentTo, outLines, List.map_cons, List.map_map]
  rfl

namespace Verdict

/-- Every comparison, and that the check passed if it did. -/
def outLines (v : Verdict) : List String :=
  v.comparisons.map comparisonLine ++ if v.passed then [passedLine] else []

def errLines (v : Verdict) : List String := v.regressions.map fun c => regressionLine c v.limit

variable {baseline current : Record} {engines : List String} {limit : Binary64} {v : Verdict}

theorem errLines_eq_nil_iff (h : Judges baseline current engines limit v) :
    v.errLines = [] ↔ v.passed = true := by
  rw [errLines, List.map_eq_nil_iff, h.passed]

theorem lines_eq (h : Judges baseline current engines limit v) :
    v.lines = sentTo .out v.outLines ++ sentTo .err v.errLines := by
  have herr := errLines_eq_nil_iff h
  rw [lines, sentTo, outLines, List.map_append, List.map_map, List.append_assoc]
  cases hpassed : v.passed with
  | true =>
    rw [herr.2 hpassed]
    rfl
  | false =>
    rw [sentTo, errLines, List.map_map]
    rfl

end Verdict

end VectorBench
