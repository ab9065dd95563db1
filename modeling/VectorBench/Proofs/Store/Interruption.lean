import VectorBench.Store
import VectorBench.Proofs.Files.Requests
import Mathlib.Logic.Relation

/-!
# Programs that fail and stop

What can become of a program on a file system that does not do all that it is asked for: a request
is carried out, or it fails for whatever reason and changes nothing, or only a part of some bytes is
added to a file and the rest is still to come.  A program can stop after every step, so a property
of what it leaves is a property of all that it reaches.

    Keeps p t I Q → (∀ a t, I t → Q a t → Keeps (k a) t I R) → Keeps (p >>= k) t I R
                                                                                     (Keeps.bind)
-/

namespace VectorBench

namespace FileProgram

variable {α β : Type}

/-- One step of a program on a file system. -/
inductive Step : FileProgram α × Node → FileProgram α × Node → Prop
  /-- A request is carried out. -/
  | answered (r : FileRequest) (next : r.Answer → FileProgram α) (t : Node) :
      Step (.ask r next, t) (next (Tree.answer r t).1, (Tree.answer r t).2)
  /-- A request fails. -/
  | failed (r : FileRequest) (next : r.Answer → FileProgram α) (t : Node) (e : FileError) :
      Step (.ask r next, t) (next (.error e), t)
  /-- The first of some bytes are added to a file. -/
  | partly (path : String) (first rest : Bytes) (next : Except FileError Unit → FileProgram α)
      (t t' : Node) (hadd : Tree.append t path first = .ok t') :
      Step (.ask (.append path (first ++ rest)) next, t) (.ask (.append path rest) next, t')

/-- What a program on a file tree can come to. -/
abbrev Reaches : FileProgram α × Node → FileProgram α × Node → Prop :=
  Relation.ReflTransGen Step

/-- An undisturbed run is one of the ways. -/
theorem reaches_run (p : FileProgram α) (t : Node) :
    Reaches (p, t) (.done (p.run t).1, (p.run t).2) := by
  induction p generalizing t with
  | done a => exact .refl
  | ask r next ih => exact .head (.answered r next t) (ih _ _)

theorem not_step_done {a : α} {t : Node} {s : FileProgram α × Node} : ¬ Step (.done a, t) s := by
  intro h
  cases h

/-- A step of a program that goes on with another is one of the first, as long as it is not done. -/
theorem step_bind {r : FileRequest} {next : r.Answer → FileProgram α} {k : α → FileProgram β}
    {t : Node} {s : FileProgram β × Node}
    (h : Step (.ask r fun answer => (next answer).bind k, t) s) :
    ∃ p' t', Step (.ask r next, t) (p', t') ∧ s = (p'.bind k, t') := by
  cases h with
  | answered => exact ⟨_, _, .answered r next t, rfl⟩
  | failed _ _ _ e => exact ⟨_, _, .failed r next t e, rfl⟩
  | partly path first rest next t t' hadd =>
    exact ⟨_, _, .partly path first rest next t t' hadd, rfl⟩

/-- Two programs one after the other are in the first, or the first is done. -/
theorem reaches_bind {p : FileProgram α} {k : α → FileProgram β} {t : Node}
    {s : FileProgram β × Node} (h : Reaches (p.bind k, t) s) :
    (∃ p' t', Reaches (p, t) (p', t') ∧ s = (p'.bind k, t')) ∨
      ∃ a t', Reaches (p, t) (.done a, t') ∧ Reaches (k a, t') s := by
  induction h with
  | refl => exact .inl ⟨p, t, .refl, rfl⟩
  | @tail s s' _ hstep ih =>
    rcases ih with ⟨p', t', hreaches, rfl⟩ | ⟨a, t', hreaches, hrest⟩
    · cases p' with
      | done a => exact .inr ⟨a, t', hreaches, .single hstep⟩
      | ask r next =>
        obtain ⟨p'', t'', hfirst, rfl⟩ := step_bind hstep
        exact .inl ⟨p'', t'', hreaches.tail hfirst, rfl⟩
    · exact .inr ⟨a, t', hreaches, hrest.tail hstep⟩

end FileProgram

open FileProgram

/-! ## What a program keeps -/

section Keeps

variable {α β : Type} {I : Node → Prop} {t : Node}

/-- Every tree that a program comes to has one property, and every value that it yields another one
with the tree that is there then. -/
structure Keeps (p : FileProgram α) (t : Node) (I : Node → Prop) (Q : α → Node → Prop) : Prop where
  always : ∀ p' t', Reaches (p, t) (p', t') → I t'
  atEnd : ∀ a t', Reaches (p, t) (.done a, t') → Q a t'

/-- An invariant of the steps gives what a program keeps. -/
theorem Keeps.of_invariant {p : FileProgram α} {Q : α → Node → Prop}
    (P : FileProgram α × Node → Prop) (hstart : P (p, t)) (hstep : ∀ s s', P s → Step s s' → P s')
    (hI : ∀ p' t', P (p', t') → I t') (hQ : ∀ a t', P (.done a, t') → Q a t') : Keeps p t I Q := by
  have hreached {s : FileProgram α × Node} (h : Reaches (p, t) s) : P s := by
    induction h with
    | refl => exact hstart
    | tail _ hnext ih => exact hstep _ _ ih hnext
  exact ⟨fun p' t' h => hI p' t' (hreached h), fun a t' h => hQ a t' (hreached h)⟩

theorem Keeps.done {Q : α → Node → Prop} {a : α} (hI : I t) (hQ : Q a t) :
    Keeps (.done a) t I Q := by
  refine .of_invariant (fun s => s = (.done a, t)) rfl ?_ ?_ ?_
  · rintro s s' rfl hstep
    exact absurd hstep not_step_done
  · intro p' t' h
    cases h
    exact hI
  · intro a' t' h
    cases h
    exact hQ

theorem Keeps.bind {p : FileProgram α} {k : α → FileProgram β} {Q : α → Node → Prop}
    {R : β → Node → Prop} (hp : Keeps p t I Q)
    (hk : ∀ a t', I t' → Q a t' → Keeps (k a) t' I R) : Keeps (p >>= k) t I R := by
  have hrest {a : α} {t' : Node} (h : Reaches (p, t) (.done a, t')) : Keeps (k a) t' I R :=
    hk a t' (hp.always _ _ h) (hp.atEnd a t' h)
  constructor
  · intro q t' h
    rcases reaches_bind h with ⟨p', t'', hreaches, he⟩ | ⟨a, t'', hreaches, hlater⟩
    · cases he
      exact hp.always p' _ hreaches
    · exact (hrest hreaches).always q t' hlater
  · intro b t' h
    rcases reaches_bind h with ⟨p', t'', hreaches, he⟩ | ⟨a, t'', hreaches, hlater⟩
    · cases p' with
      | done a =>
        obtain ⟨hprogram, rfl⟩ := Prod.mk.inj he
        refine (hrest hreaches).atEnd b _ ?_
        show Reaches (Program.bind (.done a) k, _) _
        rw [← hprogram]
      | ask r next => cases he
    · exact (hrest hreaches).atEnd b t' hlater

theorem Keeps.mono {p : FileProgram α} {J : Node → Prop} {Q R : α → Node → Prop}
    (h : Keeps p t I Q) (hI : ∀ t, I t → J t) (hQ : ∀ a t, I t → Q a t → R a t) : Keeps p t J R where
  always p' t' hreaches := hI t' (h.always p' t' hreaches)
  atEnd a t' hreaches := hQ a t' (h.always _ t' hreaches) (h.atEnd a t' hreaches)

theorem Keeps.imp {p : FileProgram α} {Q R : α → Node → Prop} (h : Keeps p t I Q)
    (hQ : ∀ a t, I t → Q a t → R a t) : Keeps p t I R :=
  h.mono (fun _ ht => ht) hQ

theorem Keeps.forget {p : FileProgram α} {Q : α → Node → Prop} (h : Keeps p t I Q) :
    Keeps p t I fun _ _ => True :=
  h.imp fun _ _ _ _ => trivial

/-! ## What a request keeps -/

/-- A request that cannot be carried out in part. -/
def FileRequest.whole : FileRequest → Bool
  | append _ _ => false
  | _ => true

/-- What becomes of such a request: it waits, or it has failed, or it has had its effect. -/
inductive Asked (r : FileRequest) (t : Node) : FileProgram r.Answer × Node → Prop
  | waiting : Asked r t (ask r, t)
  | failed (e : FileError) : Asked r t (.done (.error e), t)
  | answered {t' : Node} (v : r.Reply) (heffect : Tree.effect r t = .ok t') :
      Asked r t (.done (.ok v), t')

theorem Asked.step {r : FileRequest} {s s' : FileProgram r.Answer × Node} (hr : r.whole = true)
    (h : Asked r t s) (hstep : Step s s') : Asked r t s' := by
  cases h with
  | waiting =>
    cases hstep with
    | answered =>
      rcases Tree.answer_cases r t with ⟨e, hanswer, hsame⟩ | ⟨v, hanswer, heffect⟩
      · rw [hanswer, hsame]
        exact .failed e
      · rw [hanswer]
        exact .answered v heffect
    | failed _ _ _ e => exact .failed e
    | partly path first rest => cases hr
  | failed => exact absurd hstep not_step_done
  | answered => exact absurd hstep not_step_done

/-- A request that cannot be carried out in part fails or has its effect. -/
theorem Keeps.ask {r : FileRequest} (hr : r.whole = true) (ht : I t)
    (heffect : ∀ t', Tree.effect r t = .ok t' → I t') :
    Keeps (ask r) t I fun a t' =>
      (∃ e, a = .error e) ∧ t' = t ∨ (∃ v, a = .ok v) ∧ Tree.effect r t = .ok t' := by
  refine .of_invariant (Asked r t) .waiting (fun s s' h hstep => h.step hr hstep) ?_ ?_
  · intro p' t' h
    cases h with
    | waiting => exact ht
    | failed => exact ht
    | answered v hdone => exact heffect t' hdone
  · intro a t' h
    cases h with
    | failed e => exact .inl ⟨⟨e, rfl⟩, rfl⟩
    | answered v hdone => exact .inr ⟨⟨v, rfl⟩, hdone⟩

/-- What becomes of bytes that are to be added to a file.  `C` says of a tree which of them have
been. -/
inductive Appending (C : Bytes → Node → Prop) (path : String) (bytes : Bytes) :
    FileProgram (Except FileError Unit) × Node → Prop
  | going {written rest : Bytes} {t : Node} (hC : C written t) (hbytes : bytes = written ++ rest) :
      Appending C path bytes (ask (.append path rest), t)
  | failed {written : Bytes} {t : Node} (e : FileError) (hC : C written t) :
      Appending C path bytes (.done (.error e), t)
  | ended {t : Node} (hC : C bytes t) : Appending C path bytes (.done (.ok ()), t)

section

variable {C : Bytes → Node → Prop} {path : String} {bytes : Bytes}
  (happend : ∀ written more t t', C written t → Tree.append t path more = .ok t' →
    C (written ++ more) t')

include happend

theorem Appending.step {s s' : FileProgram (Except FileError Unit) × Node}
    (h : Appending C path bytes s) (hstep : Step s s') : Appending C path bytes s' := by
  cases h with
  | @going written rest t hC hbytes =>
    cases hstep with
    | answered =>
      rcases Tree.answer_cases (.append path rest) t with
        ⟨e, hanswer, hsame⟩ | ⟨v, hanswer, heffect⟩
      · rw [hanswer, hsame]
        exact .failed e hC
      · rw [hanswer, hbytes]
        exact .ended (happend written rest t _ hC heffect)
    | failed _ _ _ e => exact .failed e hC
    | partly _ first rest _ _ t' hadd =>
      refine .going (happend written first t t' hC hadd) ?_
      rw [hbytes, List.append_assoc]
  | failed => exact absurd hstep not_step_done
  | ended => exact absurd hstep not_step_done

/-- Adding bytes to a file comes to trees where some of the first bytes are in it. -/
theorem Keeps.append (ht : C [] t) :
    Keeps (VectorBench.ask (.append path bytes)) t (fun t' => ∃ written, C written t') fun a t' =>
      (∃ e, a = .error e) ∨ a = .ok () ∧ C bytes t' := by
  refine .of_invariant (Appending C path bytes) (.going ht rfl)
    (fun s s' h hstep => h.step happend hstep) ?_ ?_
  · intro p' t' h
    cases h with
    | @going written _ _ hC => exact ⟨written, hC⟩
    | @failed written _ _ hC => exact ⟨written, hC⟩
    | ended hC => exact ⟨bytes, hC⟩
  · intro a t' h
    cases h with
    | failed e => exact .inl ⟨e, rfl⟩
    | ended hC => exact .inr ⟨rfl, hC⟩

end

end Keeps

end VectorBench
