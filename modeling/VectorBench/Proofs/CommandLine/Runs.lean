import VectorBench.CommandLine.Terminal
import VectorBench.Proofs.Report.Lines
import VectorBench.Proofs.Store.Loading

/-!
# Runs of commands

What the parts of a command do to a world: a program on files changes the tree alone, and lines that
are printed are behind what was written to their stream before, in their order.

    runOn (ofFiles p) w = ((p.run w.tree).1, { w with tree := (p.run w.tree).2 })    (runOn_ofFiles)
    runOn (printLines write lines) w = (.ok (), w.print lines)                   (runOn_printLines)
-/

namespace VectorBench

def linesOn (stream : Stream) (lines : List (Stream × String)) : List String :=
  (lines.filter fun line => line.1 == stream).map (·.2)

theorem linesOn_append (stream : Stream) (lines more : List (Stream × String)) :
    linesOn stream (lines ++ more) = linesOn stream lines ++ linesOn stream more := by
  simp [linesOn]

theorem linesOn_map_self {α : Type} (stream : Stream) (text : α → String) (l : List α) :
    linesOn stream (l.map fun a => (stream, text a)) = l.map text := by
  have hall : (l.map fun a => (stream, text a)).filter (fun line => line.1 == stream) =
      l.map fun a => (stream, text a) := by
    simp [List.filter_eq_self]
  rw [linesOn, hall, List.map_map]
  rfl

theorem linesOn_map_other {α : Type} {stream other : Stream} (h : other ≠ stream)
    (text : α → String) (l : List α) : linesOn stream (l.map fun a => (other, text a)) = [] := by
  simp [linesOn, h]

namespace CommandLine

variable {α β : Type}

theorem runOn_pure (a : α) (w : World) : runOn (pure a : Command α) w = (a, w) := rfl

theorem runOn_bind (c : Command α) (k : α → Command β) (w : World) :
    runOn (c >>= k) w = runOn (k (runOn c w).1) (runOn c w).2 :=
  Program.run_bind World.answer c k w

/-- A program on files does to the tree of a world what it does to a tree. -/
theorem runOn_ofFiles (p : FileProgram α) (w : World) :
    runOn (ofFiles p) w = ((p.run w.tree).1, { w with tree := (p.run w.tree).2 }) := by
  induction p generalizing w with
  | done a => rfl
  | ask r next ih => exact ih _ _

/-- A world after some more lines on its streams. -/
def World.print (lines : List (Stream × String)) (w : World) : World :=
  { w with
    out := w.out ++ textOfLines (linesOn .out lines)
    err := w.err ++ textOfLines (linesOn .err lines) }

theorem World.tree_print (lines : List (Stream × String)) (w : World) :
    (w.print lines).tree = w.tree := rfl

theorem World.print_nil (w : World) : w.print [] = w := by
  show { w with out := w.out ++ "", err := w.err ++ "" } = w
  rw [String.append_empty, String.append_empty]

theorem World.print_append (lines more : List (Stream × String)) (w : World) :
    w.print (lines ++ more) = (w.print lines).print more := by
  simp only [print, linesOn_append, textOfLines_append, String.append_assoc]

theorem World.answer_write (stream : Stream) (line : String) (w : World) :
    World.answer (.write stream (line ++ "\n")) w = (.ok (), w.print [(stream, line)]) := by
  cases stream with
  | out => simp [World.answer, World.print, linesOn]
  | err => simp [World.answer, World.print, linesOn]

theorem runOn_say (stream : Stream) (line : String) (w : World) :
    runOn (say stream line) w = ((), w.print [(stream, line)]) := by
  rw [say, runOn_bind, runOn_pure]
  show ((), (World.answer (.write stream (line ++ "\n")) w).2) = _
  rw [World.answer_write]

theorem runOn_fail (status : ExitStatus) (line : String) (w : World) :
    runOn (fail status line) w = (status, w.print [(.err, line)]) := by
  rw [fail, runOn_bind, runOn_say, runOn_pure]

/-- All lines are printed, each on its stream. -/
theorem runOn_printLines (lines : List (Stream × String)) (w : World) :
    runOn (printLines write lines) w = (.ok (), w.print lines) := by
  induction lines generalizing w with
  | nil =>
    rw [printLines, runOn_pure, World.print_nil]
  | cons first rest ih =>
    obtain ⟨stream, line⟩ := first
    have hwrite : runOn (write stream (line ++ "\n")) w = (.ok (), w.print [(stream, line)]) :=
      World.answer_write stream line w
    rw [printLines, runOn_bind, hwrite]
    exact (ih _).trans (congrArg _ (World.print_append [(stream, line)] rest w).symm)

end CommandLine

end VectorBench
