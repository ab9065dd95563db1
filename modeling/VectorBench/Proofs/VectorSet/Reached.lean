import VectorBench.Proofs.VectorSet.Rows

/-!
# Sets that can be reached

A set that was made new or from whole rows, and only ever grew by rows, has no numbers behind its
last row.  If its dimension is positive, its size is where its rows end and counts every row that it
takes.  A set of dimension zero can be made and never grows: it takes rows without numbers and has
one at every index, but its size is zero.

    v.Reached → v.dim ∣ v.data.length                                             (Reached.dvd)
    v.Reached → ((∀ index, (v.row? index).isSome ↔ index < v.size) ↔ v.dim ≠ 0)
                                                                       (Reached.bounded_iff)
-/

namespace VectorBench.VectorSet

/-- The sets that making and growing lead to. -/
inductive Reached : VectorSet → Prop where
  | empty (dim : Nat) : Reached (.empty dim)
  | ofFlat {dim : Nat} {data : Vector32} {v : VectorSet} (h : ofFlat? dim data = some v) : Reached v
  | push {v w : VectorSet} {row : Vector32} (hv : Reached v) (h : v.push row = some w) : Reached w

/-- The size of a set is where its rows end. -/
def BoundsRows (v : VectorSet) : Prop :=
  ∀ index : UInt64, (v.row? index.toNat).isSome = true ↔ index.toNat < v.size

/-- A row that is taken adds one to the size. -/
def CountsRows (v : VectorSet) : Prop := ∀ row w, v.push row = some w → w.size = v.size + 1

/-! ## What making and growing keep -/

theorem dvd_of_ofFlat? {dim : Nat} {data : Vector32} {v : VectorSet}
    (h : ofFlat? dim data = some v) : v.dim ∣ v.data.length := by
  rcases Nat.eq_zero_or_pos dim with rfl | hdim
  · cases h
  · rw [ofFlat?_eq hdim] at h
    split at h
    · cases h
      assumption
    · cases h

theorem dvd_push {v w : VectorSet} {row : Vector32} (hv : v.dim ∣ v.data.length)
    (h : v.push row = some w) : w.dim ∣ w.data.length := by
  rw [push] at h
  split at h
  · rename_i hrow
    cases h
    rw [List.length_append, hrow]
    exact Nat.dvd_add hv (Nat.dvd_refl _)
  · cases h

/-- No numbers are left behind the last row; with dimension zero there are none at all. -/
theorem Reached.dvd {v : VectorSet} (h : v.Reached) : v.dim ∣ v.data.length := by
  induction h with
  | empty dim => exact Nat.dvd_zero dim
  | ofFlat h => exact dvd_of_ofFlat? h
  | push _ h ih => exact dvd_push ih h

/-! ## Positive dimension -/

section

variable {v : VectorSet} (h : v.Reached) (hdim : 0 < v.dim)

include h hdim

theorem Reached.boundsRows (hfit : v.Countable) : v.BoundsRows := by
  intro index
  have hrows := holds_rows h.dvd
  rw [hrows.row?_eq hdim hfit, hrows.size_eq hdim, isSome_getElem?]

theorem Reached.countsRows : v.CountsRows := by
  intro row w hw
  have hrows := holds_rows h.dvd
  rw [hrows.push_eq] at hw
  split at hw
  · rename_i hrow
    cases hw
    rw [(hrows.append hrow).size_eq hdim, hrows.size_eq hdim, List.length_append,
      List.length_singleton]
  · cases hw

end

/-! ## Dimension zero -/

/-- There is one set of dimension zero. -/
theorem Reached.eq_empty {v : VectorSet} (h : v.Reached) (hdim : v.dim = 0) : v = .empty 0 := by
  have hdata := h.dvd
  rw [hdim, Nat.zero_dvd, List.length_eq_zero_iff] at hdata
  obtain ⟨dim, data⟩ := v
  cases hdim
  cases hdata
  rfl

theorem countable_empty (dim : Nat) : (empty dim).Countable := Nat.two_pow_pos 64

theorem row?_empty_zero (index : UInt64) : (empty 0).row? index.toNat = some [] := by
  rw [row?_eq (countable_empty 0)]
  exact if_pos (Nat.le_of_eq (Nat.mul_zero _))

theorem not_boundsRows_empty_zero : ¬ (empty 0).BoundsRows := by
  intro h
  have hrow := (h 0).1 (by rw [row?_empty_zero]; rfl)
  exact Nat.not_lt_zero _ hrow

theorem not_countsRows_empty_zero : ¬ (empty 0).CountsRows := by
  intro h
  exact absurd (h [] (empty 0) rfl) (by decide)

/-! ## All sets -/

/-- In a set that can be reached, the size says where the rows end and counts the rows taken exactly
if the dimension is not zero.  The one set of dimension zero has no size, a row at every index, and
stays as it is when it takes a row. -/
theorem Reached.bounded_iff {v : VectorSet} (h : v.Reached) (hfit : v.Countable) :
    (v.BoundsRows ↔ v.dim ≠ 0) ∧ (v.CountsRows ↔ v.dim ≠ 0) ∧
      (v.dim = 0 → v.size = 0 ∧ (∀ index : UInt64, v.row? index.toNat = some []) ∧
        v.push [] = some v) := by
  rcases Nat.eq_zero_or_pos v.dim with hdim | hdim
  · have hv := h.eq_empty hdim
    subst hv
    refine ⟨iff_of_false not_boundsRows_empty_zero (not_not_intro rfl),
      iff_of_false not_countsRows_empty_zero (not_not_intro rfl), fun _ => ?_⟩
    exact ⟨rfl, row?_empty_zero, rfl⟩
  · have hne : v.dim ≠ 0 := Nat.ne_of_gt hdim
    exact ⟨iff_of_true (h.boundsRows hdim hfit) hne, iff_of_true (h.countsRows hdim) hne,
      fun hzero => absurd hzero hne⟩

theorem Reached.bounded_iff_grown :
    ofFlat? 2 [.zero false, .zero true] = some ⟨2, [.zero false, .zero true]⟩ ∧
      Reached ⟨2, [.zero false, .zero true, .zero true, .zero true]⟩ ∧
      BoundsRows ⟨2, [.zero false, .zero true, .zero true, .zero true]⟩ ∧
      CountsRows ⟨2, [.zero false, .zero true, .zero true, .zero true]⟩ := by
  have hstart : ofFlat? 2 [.zero false, .zero true] = some ⟨2, [.zero false, .zero true]⟩ := rfl
  have hgrown : Reached ⟨2, [.zero false, .zero true, .zero true, .zero true]⟩ :=
    @Reached.push _ _ [.zero true, .zero true] (.ofFlat hstart) rfl
  have hfit : Countable ⟨2, [.zero false, .zero true, .zero true, .zero true]⟩ := by
    show 4 < UInt64.size
    decide
  obtain ⟨hbounds, hcounts, -⟩ := hgrown.bounded_iff hfit
  exact ⟨hstart, hgrown, hbounds.2 (by decide), hcounts.2 (by decide)⟩

/-- Neither holds of all sets that can be reached. -/
theorem not_forall_reached_bounded :
    (¬ ∀ v : VectorSet, v.Reached → v.BoundsRows) ∧
      ¬ ∀ v : VectorSet, v.Reached → v.CountsRows :=
  ⟨fun h => not_boundsRows_empty_zero (h _ (.empty 0)),
    fun h => not_countsRows_empty_zero (h _ (.empty 0))⟩

end VectorBench.VectorSet
