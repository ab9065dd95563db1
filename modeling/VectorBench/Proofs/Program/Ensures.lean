import VectorBench.Program

/-!
# What a program asks for

A program may ask only for requests of some kind, and the values that it yields may all have a
property, whatever the answers are.  Both are seen step by step, and then a run does no more than
requests of this kind do.

    Ensures P Q p → (∀ a, Q a → Ensures P S (k a)) → Ensures P S (p >>= k)           (Ensures.bind)
    Ensures P Q p → Q (p.run answer s).1 ∧ Before s (p.run answer s).2                (Ensures.run)
-/

namespace VectorBench.Program

variable {R : Type} {A : R → Type} {α β σ : Type} {P : R → Prop} {Q : α → Prop} {S : β → Prop}

/-- A program asks only for requests with a property, and yields only values with another one. -/
inductive Ensures (P : R → Prop) (Q : α → Prop) : Program R A α → Prop where
  | done {a : α} (ha : Q a) : Ensures P Q (.done a)
  | ask {r : R} {next : A r → Program R A α} (hr : P r) (hnext : ∀ a, Ensures P Q (next a)) :
      Ensures P Q (.ask r next)

namespace Ensures

theorem request {r : R} (hr : P r) : Ensures P (fun _ => True) (Program.request (A := A) r) :=
  .ask hr fun _ => .done trivial

theorem bind {p : Program R A α} {k : α → Program R A β} (hp : Ensures P Q p)
    (hk : ∀ a, Q a → Ensures P S (k a)) : Ensures P S (p >>= k) := by
  induction hp with
  | done ha => exact hk _ ha
  | ask hr _ ih => exact .ask hr ih

/-- A run from a state comes to one that is not before it, if this holds for every request that may
be asked for. -/
theorem run {p : Program R A α} (hp : Ensures P Q p) (answer : (r : R) → σ → A r × σ)
    (Before : σ → σ → Prop) (hrefl : ∀ s, Before s s)
    (htrans : ∀ s s' s'', Before s s' → Before s' s'' → Before s s'')
    (hstep : ∀ r s, P r → Before s (answer r s).2) (s : σ) :
    Q (p.run answer s).1 ∧ Before s (p.run answer s).2 := by
  induction hp generalizing s with
  | done ha => exact ⟨ha, hrefl s⟩
  | @ask r _ hr _ ih =>
    obtain ⟨hvalue, hlater⟩ := ih _ (answer r s).2
    exact ⟨hvalue, htrans _ _ _ (hstep r s hr) hlater⟩

end Ensures

end VectorBench.Program
