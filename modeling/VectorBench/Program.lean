/-!
# Programs that ask

A program is done, or it makes a request and goes on with the answer.  What a request does is left
to whoever runs the program: a state machine (`run`) or another monad (`interpret`).  Since every
request is visible, so is every point where a program may be stopped.

    (p >>= k).run answer s = let (a, s') := p.run answer s; (k a).run answer s'        (run_bind)
-/

namespace VectorBench

/-- A program over requests `R` with answers `A`, yielding a value. -/
inductive Program (R : Type) (A : R → Type) (α : Type) where
  | done (value : α)
  | ask (request : R) (next : A request → Program R A α)

namespace Program

variable {R S : Type} {A : R → Type} {B : S → Type} {α β σ : Type}

/-- One program, then the one that its value asks for. -/
def bind : Program R A α → (α → Program R A β) → Program R A β
  | done a, k => k a
  | ask r next, k => ask r fun answer => (next answer).bind k

instance : Monad (Program R A) where
  pure := done
  bind := bind

/-- The program that makes one request and yields its answer. -/
def request (r : R) : Program R A (A r) := ask r done

/-- Runs a program on a state that answers its requests. -/
def run (answer : (r : R) → σ → A r × σ) : Program R A α → σ → α × σ
  | done a, s => (a, s)
  | ask r next, s => (next (answer r s).1).run answer (answer r s).2

/-- Runs a program in a monad that answers its requests. -/
def interpret {m : Type → Type} [Monad m] (answer : (r : R) → m (A r)) : Program R A α → m α
  | done a => pure a
  | ask r next => do (next (← answer r)).interpret answer

/-- The same program over more requests. -/
def lift (inject : R → S) (answers : (r : R) → B (inject r) → A r) : Program R A α → Program S B α
  | done a => done a
  | ask r next => ask (inject r) fun answer => (next (answers r answer)).lift inject answers

/-! ## Lemmas -/

theorem run_bind (answer : (r : R) → σ → A r × σ) (p : Program R A α) (k : α → Program R A β)
    (s : σ) :
    (p.bind k).run answer s = (k (p.run answer s).1).run answer (p.run answer s).2 := by
  induction p generalizing s with
  | done a => rfl
  | ask r next ih => exact ih _ _

end Program

end VectorBench
