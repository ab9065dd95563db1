import Mathlib.Data.List.Induction
import VectorBench.Engine.Flat
import VectorBench.Engine.Graph
import VectorBench.Proofs.Benchmark.Calls

/-!
# Engines in use

What an engine has done before matters to its next piece of work only through the latest build, and
whether that work fails, and how, does not depend on the engine at all.  So two engines that are
given the same work one after the other stay in step, whatever the work is: rebuilds, builds that
fail, and searches between them.

    s.built = none, or the index of the latest corpus if that is not empty          (built_after)
    Answers (latestCorpus past) work (engine.reply past work)                       (reply_answers)
-/

namespace VectorBench

/-- What work that goes well ends with. -/
inductive Reply where
  | built
  | found (hits : Hits)

def Work.corpus? : Work → Option VectorSet
  | .build corpus => some corpus
  | .search _ _ => none

/-- The corpus of the latest build, whether that went well or not. -/
def latestCorpus (past : List Work) : Option VectorSet := (past.filterMap Work.corpus?).getLast?

theorem latestCorpus_append (past : List Work) (work : Work) :
    latestCorpus (past ++ [work]) = work.corpus?.or (latestCorpus past) := by
  rw [latestCorpus, latestCorpus, List.filterMap_append, List.getLast?_append]
  cases work <;> rfl

/-- Searches leave no trace. -/
theorem latestCorpus_search (before later : List Work) (queries : VectorSet) (topK : UInt64) :
    latestCorpus (before ++ .search queries topK :: later) = latestCorpus (before ++ later) := by
  rw [latestCorpus, latestCorpus, List.filterMap_append, List.filterMap_append]
  rfl

namespace Session

/-- One piece of work: how it ends, and the engine after it. -/
def perform (s : Session) : Work → Except EngineError Reply × Session
  | .build corpus =>
    let (result, s) := s.build corpus
    (result.map fun _ => .built, s)
  | .search queries topK => ((s.search queries topK).map .found, s)

def after (s : Session) (past : List Work) : Session :=
  past.foldl (fun s work => (s.perform work).2) s

theorem after_append (s : Session) (past : List Work) (work : Work) :
    s.after (past ++ [work]) = ((s.after past).perform work).2 := by
  rw [after, List.foldl_append]
  rfl

end Session

namespace Engine

/-- How a piece of work ends for an engine that has done other work before. -/
def reply (engine : Engine) (past : List Work) (work : Work) : Except EngineError Reply :=
  (((Session.start engine).after past).perform work).1

/-- The index of a corpus, if it can be indexed. -/
def index? (engine : Engine) (corpus : VectorSet) : Option Index :=
  if corpus.isEmpty then none else some (engine.index corpus)

/-- The index has the dimension of its corpus. -/
def KeepsDim (engine : Engine) : Prop := ∀ corpus, (engine.index corpus).dim = corpus.dim

theorem flat_keepsDim : flat.KeepsDim := fun _ => rfl

theorem graph_keepsDim (tuning : Tuning) (source : CandidateSource) :
    (graph tuning source).KeepsDim := fun _ => rfl

end Engine

/-! ## One piece of work -/

namespace Session

theorem build_eq (s : Session) (corpus : VectorSet) :
    s.build corpus = (if corpus.isEmpty then .error .emptyCorpus else .ok (),
      ⟨s.engine, s.engine.index? corpus⟩) := by
  rw [build, Engine.build, Engine.index?]
  cases corpus.isEmpty <;> rfl

/-- Work changes nothing but the index, and that only if it is a build. -/
theorem perform_session (s : Session) (work : Work) :
    (s.perform work).2 =
      ⟨s.engine, (work.corpus?.map s.engine.index?).getD s.built⟩ := by
  cases work with
  | build corpus => rw [perform, build_eq]; rfl
  | search queries topK => rfl

/-- Whatever was done before, the index is that of the latest corpus. -/
theorem after_start (engine : Engine) (past : List Work) :
    (start engine).after past = ⟨engine, (latestCorpus past).bind engine.index?⟩ := by
  induction past using List.reverseRecOn with
  | nil => rfl
  | append_singleton past work ih =>
    rw [after_append, perform_session, ih, latestCorpus_append]
    cases work <;> rfl

end Session

/-! ## Replies -/

/-- How work may end when the latest build was over the given corpus.  The cases exclude each other
but for the hits of a search that goes well. -/
inductive Answers (latest : Option VectorSet) : Work → Except EngineError Reply → Prop where
  | emptyCorpus {corpus : VectorSet} (h : corpus.isEmpty = true) :
      Answers latest (.build corpus) (.error .emptyCorpus)
  | built {corpus : VectorSet} (h : corpus.isEmpty = false) :
      Answers latest (.build corpus) (.ok .built)
  | notBuilt {queries : VectorSet} {topK : UInt64}
      (h : ∀ corpus, latest = some corpus → corpus.isEmpty = true) :
      Answers latest (.search queries topK) (.error .notBuilt)
  | invalidTopK {corpus queries : VectorSet} (h : latest = some corpus)
      (hbuilt : corpus.isEmpty = false) :
      Answers latest (.search queries 0) (.error .invalidTopK)
  | dimensionMismatch {corpus queries : VectorSet} {topK : UInt64} (h : latest = some corpus)
      (hbuilt : corpus.isEmpty = false) (htop : topK ≠ 0) (hdim : corpus.dim ≠ queries.dim) :
      Answers latest (.search queries topK) (.error (.dimensionMismatch corpus.dim queries.dim))
  | found {corpus queries : VectorSet} {topK : UInt64} {hits : Hits} (h : latest = some corpus)
      (hbuilt : corpus.isEmpty = false) (htop : topK ≠ 0) (hdim : corpus.dim = queries.dim)
      (hsize : hits.length = queries.size) : Answers latest (.search queries topK) (.ok (.found hits))

theorem Engine.reply_eq (engine : Engine) (past : List Work) (work : Work) :
    engine.reply past work =
      (Session.perform ⟨engine, (latestCorpus past).bind engine.index?⟩ work).1 := by
  rw [reply, Session.after_start]

/-- An engine that keeps the dimension answers as the latest build says. -/
theorem Engine.reply_answers {engine : Engine} (hdim : engine.KeepsDim) (past : List Work)
    (work : Work) : Answers (latestCorpus past) work (engine.reply past work) := by
  rw [reply_eq]
  generalize latestCorpus past = latest
  cases work with
  | build corpus =>
    rw [Session.perform, Session.build_eq]
    cases hempty : corpus.isEmpty with
    | true => exact .emptyCorpus hempty
    | false => exact .built hempty
  | search queries topK =>
    cases latest with
    | none => exact .notBuilt nofun
    | some corpus =>
      rw [Session.perform, Session.search, Option.bind_some, index?]
      cases hempty : corpus.isEmpty with
      | true =>
        apply Answers.notBuilt
        rintro _ ⟨⟩
        exact hempty
      | false =>
        simp only [Bool.false_eq_true, if_false]
        rw [Index.search, hdim corpus]
        by_cases htop : topK = 0
        · subst htop
          exact .invalidTopK rfl hempty
        by_cases hsame : corpus.dim = queries.dim
        · rw [if_neg htop, if_neg (not_not.2 hsame)]
          apply Answers.found rfl hempty htop hsame
          rw [List.length_map]
          exact length_rowsOf _ _
        · rw [if_neg htop, if_pos hsame]
          exact .dimensionMismatch rfl hempty htop hsame

/-- How work ends is settled but for the hits. -/
theorem Answers.alike {latest : Option VectorSet} {work : Work} {r r' : Except EngineError Reply}
    (h : Answers latest work r) (h' : Answers latest work r') :
    (r.map fun _ => ()) = r'.map fun _ => () := by
  cases h <;> cases h' <;> grind [Except.map]

/-! ## Two engines side by side -/

/-- The exact engine and the graph engine are in step.  After whatever work, the next piece fails on
one of them exactly if it fails on the other, and with the same error; how it ends follows from the
latest build, the same build with other work around it gives the same reply, and a search can be
left out of the past. -/
theorem flat_graph_in_step (tuning : Tuning) (source : CandidateSource) (past : List Work)
    (work : Work) :
    ((Engine.flat.reply past work).map fun _ => ()) =
        (((Engine.graph tuning source).reply past work).map fun _ => ()) ∧
      ∀ engine ∈ [Engine.flat, Engine.graph tuning source],
        Answers (latestCorpus past) work (engine.reply past work) ∧
          (∀ other, latestCorpus other = latestCorpus past →
            engine.reply other work = engine.reply past work) ∧
          ∀ before queries topK later, past = before ++ .search queries topK :: later →
            engine.reply past work = engine.reply (before ++ later) work := by
  have hflat := Engine.reply_answers Engine.flat_keepsDim past work
  have hgraph := Engine.reply_answers (Engine.graph_keepsDim tuning source) past work
  refine ⟨hflat.alike hgraph, fun engine hengine => ⟨?_, ?_, ?_⟩⟩
  · rcases List.mem_pair.1 hengine with rfl | rfl
    · exact hflat
    · exact hgraph
  · intro other hother
    rw [Engine.reply_eq, Engine.reply_eq, hother]
  · rintro before queries topK later rfl
    rw [Engine.reply_eq, Engine.reply_eq, latestCorpus_search]

/-- A corpus of one row that is replaced by an empty one. -/
def emptied : List Work := [.build ⟨1, [.zero false]⟩, .search (.empty 2) 1, .build (.empty 2)]

theorem flat_graph_in_step_emptied :
    Engine.flat.reply emptied (.search (.empty 1) 1) = .error .notBuilt ∧
      (Engine.graph .default .exhaustive).reply emptied (.search (.empty 1) 1) =
        .error .notBuilt := by
  obtain ⟨halike, -⟩ := flat_graph_in_step .default .exhaustive emptied (.search (.empty 1) 1)
  have hflat : Engine.flat.reply emptied (.search (.empty 1) 1) = .error .notBuilt := rfl
  refine ⟨hflat, ?_⟩
  rw [hflat] at halike
  cases hgraph : (Engine.graph .default .exhaustive).reply emptied (.search (.empty 1) 1) with
  | error e =>
    rw [hgraph] at halike
    cases halike
    rfl
  | ok reply =>
    rw [hgraph] at halike
    cases halike

end VectorBench
