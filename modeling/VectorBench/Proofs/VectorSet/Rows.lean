import VectorBench.VectorSet

/-!
# Rows in a flat list

Rows of one positive length that are written one after the other can be told apart again: cutting,
dividing and looking at a place all find the same rows.  So a set may be read as a list of rows, and
each of its operations as the one on that list.

    (∀ row ∈ rows, row.length = dim) → rowsOf dim rows.flatten = rows           (rowsOf_flatten)
    dim ∣ data.length → (rowsOf dim data).flatten = data                        (flatten_rowsOf)
    v.Holds dim rows → v.row? index = rows[index]?                              (Holds.row?_eq)
-/

namespace VectorBench

/-! ## Cutting -/

theorem length_flatten_takeRows {dim count : Nat} {data : Vector32}
    (h : count * dim ≤ data.length) : (takeRows dim count data).flatten.length = count * dim := by
  induction count generalizing data with
  | zero => simp [takeRows]
  | succ count ih =>
    rw [Nat.succ_mul] at h ⊢
    rw [takeRows, List.flatten_cons, List.length_append, List.length_take,
      ih (by rw [List.length_drop]; omega)]
    omega

theorem length_of_mem_takeRows {dim count : Nat} {data row : Vector32}
    (h : count * dim ≤ data.length) (hrow : row ∈ takeRows dim count data) : row.length = dim := by
  induction count generalizing data with
  | zero => cases hrow
  | succ count ih =>
    rw [Nat.succ_mul] at h
    rcases List.mem_cons.1 hrow with rfl | hrow
    · rw [List.length_take]
      omega
    · exact ih (by rw [List.length_drop]; omega) hrow

/-- Rows of one length that are written one after the other are found again. -/
theorem takeRows_flatten {dim : Nat} {rows : List Vector32} (h : ∀ row ∈ rows, row.length = dim) :
    takeRows dim rows.length rows.flatten = rows := by
  induction rows with
  | nil => rfl
  | cons row rows ih =>
    obtain ⟨hrow, hrows⟩ := List.forall_mem_cons.1 h
    rw [List.length_cons, takeRows, List.flatten_cons, List.take_left' hrow, List.drop_left' hrow,
      ih hrows]

theorem length_flatten_of_rows {dim : Nat} {rows : List Vector32}
    (h : ∀ row ∈ rows, row.length = dim) : rows.flatten.length = rows.length * dim := by
  rw [List.length_flatten, List.map_congr_left h, List.map_const', List.sum_replicate_nat]

theorem rowsOf_flatten {dim : Nat} (hdim : 0 < dim) {rows : List Vector32}
    (h : ∀ row ∈ rows, row.length = dim) : rowsOf dim rows.flatten = rows := by
  rw [rowsOf, length_flatten_of_rows h, Nat.mul_div_cancel _ hdim]
  exact takeRows_flatten h

/-- A list that ends with a row loses nothing when it is cut. -/
theorem flatten_takeRows {dim count : Nat} {data : Vector32} (h : data.length = count * dim) :
    (takeRows dim count data).flatten = data := by
  induction count generalizing data with
  | zero =>
    rw [Nat.zero_mul, List.length_eq_zero_iff] at h
    rw [h, takeRows, List.flatten_nil]
  | succ count ih =>
    rw [Nat.succ_mul] at h
    rw [takeRows, List.flatten_cons, ih (by rw [List.length_drop]; omega), List.take_append_drop]

theorem flatten_rowsOf {dim : Nat} {data : Vector32} (h : dim ∣ data.length) :
    (rowsOf dim data).flatten = data := flatten_takeRows (Nat.div_mul_cancel h).symm

/-- A row can be found by its place alone, without the rows before it. -/
theorem getElem?_rows {dim : Nat} {rows : List Vector32} (h : ∀ row ∈ rows, row.length = dim)
    (index : Nat) :
    rows[index]? = if index < rows.length then
      some ((rows.flatten.drop (index * dim)).take dim) else none := by
  induction rows generalizing index with
  | nil => rfl
  | cons row rows ih =>
    obtain ⟨hrow, hrows⟩ := List.forall_mem_cons.1 h
    cases index with
    | zero =>
      rw [List.getElem?_cons_zero, List.length_cons, if_pos (Nat.succ_pos _), Nat.zero_mul,
        List.drop_zero, List.flatten_cons, List.take_left' hrow]
    | succ index =>
      rw [List.getElem?_cons_succ, ih hrows, List.length_cons, Nat.succ_mul, Nat.add_comm _ dim,
        ← List.drop_drop, List.flatten_cons, List.drop_left' hrow]
      simp only [Nat.add_lt_add_iff_right]

/-! ## Sets -/

namespace VectorSet

/-- The numbers of a set can be counted in 64 bits, as those of any list in memory can. -/
def Countable (v : VectorSet) : Prop := v.data.length < UInt64.size

/-- A set holds the given rows and nothing else. -/
structure Holds (v : VectorSet) (dim : Nat) (rows : List Vector32) : Prop where
  dim_eq : v.dim = dim
  row_length : ∀ row ∈ rows, row.length = dim
  data_eq : v.data = rows.flatten

/-- Counting the positions refuses no row that is there. -/
theorem row?_eq {v : VectorSet} (hfit : v.Countable) (index : Nat) :
    v.row? index = if (index + 1) * v.dim ≤ v.data.length then
      some ((v.data.drop (index * v.dim)).take v.dim) else none := by
  rw [Countable] at hfit
  rw [Nat.succ_mul]
  by_cases hlast : index * v.dim + v.dim ≤ v.data.length
  · have hfirst : counted? (index * v.dim) = some (index * v.dim) := if_pos (by omega)
    have hend : counted? (index * v.dim + v.dim) = some (index * v.dim + v.dim) :=
      if_pos (by omega)
    simp only [row?, hfirst, hend, Option.bind_eq_bind, Option.bind_some]
  · rw [if_neg hlast, Option.eq_none_iff_forall_ne_some]
    intro row hrow
    simp only [row?, counted?, Option.bind_eq_bind] at hrow
    split at hrow
    · rw [Option.bind_some] at hrow
      split at hrow
      · rw [Option.bind_some, if_neg hlast] at hrow
        cases hrow
      · cases hrow
    · cases hrow

theorem holds_empty (dim : Nat) : (empty dim).Holds dim [] :=
  ⟨rfl, fun _ h => (List.not_mem_nil h).elim, rfl⟩

theorem holds_rows {v : VectorSet} (h : v.dim ∣ v.data.length) : v.Holds v.dim v.rows where
  dim_eq := rfl
  row_length _ hrow := length_of_mem_takeRows (Nat.div_mul_le_self _ _) hrow
  data_eq := (flatten_rowsOf h).symm

theorem ofFlat?_eq {dim : Nat} (hdim : 0 < dim) (data : Vector32) :
    ofFlat? dim data = if dim ∣ data.length then some ⟨dim, data⟩ else none := by
  simp only [ofFlat?, Nat.dvd_iff_mod_eq_zero, Bool.or_eq_true, decide_eq_true_eq, bne_iff_ne]
  by_cases h : data.length % dim = 0
  · rw [if_pos h, if_neg (by omega)]
  · rw [if_neg h, if_pos (.inr h)]

section

variable {v : VectorSet} {dim : Nat} {rows : List Vector32} (h : v.Holds dim rows)

include h

theorem Holds.push_eq (row : Vector32) :
    v.push row = if row.length = dim then some ⟨dim, rows.flatten ++ row⟩ else none := by
  rw [VectorSet.push, h.dim_eq, h.data_eq]

theorem Holds.length_data : v.data.length = rows.length * dim := by
  rw [h.data_eq, length_flatten_of_rows h.row_length]

theorem Holds.append {row : Vector32} (hrow : row.length = dim) :
    Holds ⟨dim, rows.flatten ++ row⟩ dim (rows ++ [row]) where
  dim_eq := rfl
  row_length := List.forall_mem_append.2 ⟨h.row_length, List.forall_mem_singleton.2 hrow⟩
  data_eq := by rw [List.flatten_append, List.flatten_singleton]

variable (hdim : 0 < dim)

include hdim

theorem Holds.rows_eq : v.rows = rows := by
  rw [VectorSet.rows, h.dim_eq, h.data_eq, rowsOf_flatten hdim h.row_length]

theorem Holds.size_eq : v.size = rows.length := by
  rw [size, h.dim_eq, h.length_data, Nat.mul_div_cancel _ hdim]

theorem Holds.isEmpty_eq : v.isEmpty = (rows.length == 0) := by
  rw [Bool.eq_iff_iff, isEmpty, List.isEmpty_iff_length_eq_zero, h.length_data, beq_iff_eq,
    Nat.mul_eq_zero, or_iff_left (Nat.ne_of_gt hdim)]

theorem Holds.row?_eq (hfit : v.Countable) (index : Nat) : v.row? index = rows[index]? := by
  rw [VectorSet.row?_eq hfit, getElem?_rows h.row_length, h.dim_eq, h.length_data, h.data_eq]
  simp only [Nat.mul_le_mul_right_iff hdim, Nat.succ_le_iff]

end

end VectorSet

end VectorBench
