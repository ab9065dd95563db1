import VectorBench.Proofs.VectorSet.Rows

/-!
# A set as a list of rows

Nothing that may be asked of a set of positive dimension, one request after the other, tells it from
the list of its rows: a row of the right length comes last, any other is refused and changes
nothing, and all that is looked up is what the list has there.  The set finds rows in three ways, by
cutting, by dividing and by counting positions in 64 bits, and the list knows none of them.

    v.Holds dim rows → (v.serve request).1 = (serveRows dim rows request).1        (Holds.serve)
    v.StartedWith dim data → ∃ rows, rows.flatten = data ∧ ... ∧
      (serveAll VectorSet.serve v requests).1 =
        (serveAll (serveRows dim) rows requests).1                              (serveAll_eq_rows)
-/

namespace VectorBench.VectorSet

inductive Request where
  | push (row : Vector32)
  | row (index : UInt64)
  | rows
  | flat
  | dim
  | size
  | isEmpty

inductive Answer where
  | truth (b : Bool)
  | found (row : Option Vector32)
  | rows (rows : List Vector32)
  | numbers (data : Vector32)
  | count (n : Nat)

/-! ## Two ways to serve requests -/

/-- The answer of a set, and the set after it. -/
def serve (v : VectorSet) : Request → Answer × VectorSet
  | .push row =>
    match v.push row with
    | some w => (.truth true, w)
    | none => (.truth false, v)
  | .row index => (.found (v.row? index.toNat), v)
  | .rows => (.rows v.rows, v)
  | .flat => (.numbers v.data, v)
  | .dim => (.count v.dim, v)
  | .size => (.count v.size, v)
  | .isEmpty => (.truth v.isEmpty, v)

/-- The answer of a list of rows of length `dim`, and the list after it. -/
def serveRows (dim : Nat) (rows : List Vector32) : Request → Answer × List Vector32
  | .push row =>
    if row.length = dim then (.truth true, rows ++ [row]) else (.truth false, rows)
  | .row index => (.found rows[index.toNat]?, rows)
  | .rows => (.rows rows, rows)
  | .flat => (.numbers rows.flatten, rows)
  | .dim => (.count dim, rows)
  | .size => (.count rows.length, rows)
  | .isEmpty => (.truth (rows.length == 0), rows)

/-- The answers to requests one after the other, and what there is after them. -/
def serveAll {σ : Type} (serve : σ → Request → Answer × σ) : σ → List Request → List Answer × σ
  | s, [] => ([], s)
  | s, request :: rest =>
    let (answer, s) := serve s request
    let (answers, s) := serveAll serve s rest
    (answer :: answers, s)

/-! ## One request -/

theorem length_data_serve (v : VectorSet) (request : Request) :
    v.data.length ≤ (v.serve request).2.data.length := by
  cases request with
  | push row =>
    rw [serve]
    split
    · rename_i w hw
      rw [data_push hw, List.length_append]
      exact Nat.le_add_right _ _
    · exact Nat.le_refl _
  | row _ | rows | flat | dim | size | isEmpty => exact Nat.le_refl _

/-- A set that holds rows answers as these do, and goes on holding what they become. -/
theorem Holds.serve {v : VectorSet} {dim : Nat} {rows : List Vector32} (h : v.Holds dim rows)
    (hdim : 0 < dim) (hfit : v.Countable) (request : Request) :
    (v.serve request).1 = (serveRows dim rows request).1 ∧
      (v.serve request).2.Holds dim (serveRows dim rows request).2 := by
  cases request with
  | push row =>
    simp only [VectorSet.serve, serveRows, h.push_eq]
    by_cases hrow : row.length = dim
    · simp only [if_pos hrow]
      exact ⟨trivial, h.append hrow⟩
    · simp only [if_neg hrow]
      exact ⟨trivial, h⟩
  | row index => exact ⟨congrArg Answer.found (h.row?_eq hdim hfit _), h⟩
  | rows => exact ⟨congrArg Answer.rows (h.rows_eq hdim), h⟩
  | flat => exact ⟨congrArg Answer.numbers h.data_eq, h⟩
  | dim => exact ⟨congrArg Answer.count h.dim_eq, h⟩
  | size => exact ⟨congrArg Answer.count (h.size_eq hdim), h⟩
  | isEmpty => exact ⟨congrArg Answer.truth (h.isEmpty_eq hdim), h⟩

/-! ## Any number of requests -/

theorem length_data_serveAll (v : VectorSet) (requests : List Request) :
    v.data.length ≤ (serveAll VectorSet.serve v requests).2.data.length := by
  induction requests generalizing v with
  | nil => exact Nat.le_refl _
  | cons request rest ih => exact Nat.le_trans (v.length_data_serve request) (ih _)

/-- Numbers are never taken away, so that those which can be counted in the end always could. -/
theorem Holds.serveAll {v : VectorSet} {dim : Nat} {rows : List Vector32} (h : v.Holds dim rows)
    (hdim : 0 < dim) (requests : List Request)
    (hfit : (VectorSet.serveAll VectorSet.serve v requests).2.Countable) :
    (VectorSet.serveAll VectorSet.serve v requests).1 =
        (VectorSet.serveAll (serveRows dim) rows requests).1 ∧
      (VectorSet.serveAll VectorSet.serve v requests).2.Holds dim
        (VectorSet.serveAll (serveRows dim) rows requests).2 := by
  induction requests generalizing v rows with
  | nil => exact ⟨rfl, h⟩
  | cons request rest ih =>
    have hnow : v.Countable := Nat.lt_of_le_of_lt (length_data_serveAll v (request :: rest)) hfit
    obtain ⟨hanswer, hnext⟩ := h.serve hdim hnow request
    obtain ⟨hanswers, hlast⟩ := ih hnext hfit
    exact ⟨List.cons_eq_cons.2 ⟨hanswer, hanswers⟩, hlast⟩

/-! ## From the start -/

/-- A new set, or one that was accepted with the given flat contents. -/
inductive StartedWith (dim : Nat) : Vector32 → VectorSet → Prop where
  | empty : StartedWith dim [] (.empty dim)
  | ofFlat {data : Vector32} {v : VectorSet} (h : ofFlat? dim data = some v) :
      StartedWith dim data v

theorem StartedWith.holds {dim : Nat} {data : Vector32} {v : VectorSet} (hdim : 0 < dim)
    (h : StartedWith dim data v) : ∃ rows, v.Holds dim rows ∧ rows.flatten = data := by
  cases h with
  | empty => exact ⟨[], holds_empty dim, rfl⟩
  | ofFlat h =>
    rw [ofFlat?_eq hdim] at h
    split at h
    · rename_i hdvd
      cases h
      exact ⟨_, holds_rows hdvd, flatten_rowsOf hdvd⟩
    · cases h

/-- A set of positive dimension, new or with whole rows to start with, behaves as the list of its
rows under all requests, as long as its numbers can be counted. -/
theorem serveAll_eq_rows {dim : Nat} (hdim : 0 < dim) :
    (∀ data, (∃ v, ofFlat? dim data = some v) ↔ dim ∣ data.length) ∧
      ∀ data v, StartedWith dim data v →
        ∃ rows : List Vector32, (∀ row ∈ rows, row.length = dim) ∧ rows.flatten = data ∧
          ∀ requests, (serveAll VectorSet.serve v requests).2.Countable →
            (serveAll VectorSet.serve v requests).1 = (serveAll (serveRows dim) rows requests).1 ∧
              (serveAll VectorSet.serve v requests).2.Holds dim
                (serveAll (serveRows dim) rows requests).2 := by
  refine ⟨fun data => ?_, fun data v hstart => ?_⟩
  · rw [ofFlat?_eq hdim]
    by_cases hdvd : dim ∣ data.length
    · simp [hdvd]
    · simp [hdvd]
  · obtain ⟨rows, hrows, hdata⟩ := hstart.holds hdim
    exact ⟨rows, hrows.row_length, hdata, fun requests hfit => hrows.serveAll hdim requests hfit⟩

/-- No index is too large to be asked for: `2 ^ 63` times the dimension is `2 ^ 64`, and the last
index leaves no room for the row behind its first position. -/
theorem serveAll_eq_rows_far :
    ofFlat? 2 [.zero false, .zero true] = some ⟨2, [.zero false, .zero true]⟩ ∧
      (serveAll VectorSet.serve ⟨2, [.zero false, .zero true]⟩
        [.push [.zero true], .push [.zero true, .zero true], .row 1, .row 2,
          .row 9223372036854775808, .row 18446744073709551615, .size, .rows]).1 =
        [.truth false, .truth true, .found (some [.zero true, .zero true]), .found none,
          .found none, .found none, .count 2,
          .rows [[.zero false, .zero true], [.zero true, .zero true]]] := by
  have hstart : ofFlat? 2 [.zero false, .zero true] = some ⟨2, [.zero false, .zero true]⟩ := rfl
  obtain ⟨rows, hlength, hdata, hserve⟩ :=
    (serveAll_eq_rows Nat.zero_lt_two).2 _ _ (.ofFlat hstart)
  have hrows : rows = [[.zero false, .zero true]] := by
    rw [← rowsOf_flatten (by decide) hlength, hdata]
    rfl
  refine ⟨hstart, (hserve _ ?_).1.trans ?_⟩
  · show 4 < UInt64.size
    decide
  · rw [hrows]
    rfl

end VectorBench.VectorSet
