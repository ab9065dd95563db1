import VectorBench.Binary.Basic

/-!
# Vector sets

Rows of one length, kept one after the other in a flat list.  A set of dimension zero has no rows
that could be counted, and a flat list that ends within a row keeps its last numbers out of every
row.

    v.push row = some w → w.data = v.data ++ row              (data_push)
    (rowsOf dim data).length = data.length / dim              (length_rowsOf)
-/

namespace VectorBench

/-- A row of 32-bit numbers. -/
abbrev Vector32 := List Binary32

/-- A position, if 64 bits can count it. -/
def counted? (n : Nat) : Option Nat := if n < UInt64.size then some n else none

/-- The first `count` consecutive rows of length `dim`. -/
def takeRows (dim : Nat) : Nat → Vector32 → List Vector32
  | 0, _ => []
  | count + 1, data => data.take dim :: takeRows dim count (data.drop dim)

/-- A list cut into consecutive rows of length `dim`; what is left at the end is dropped. -/
def rowsOf (dim : Nat) (data : Vector32) : List Vector32 := takeRows dim (data.length / dim) data

/-- Rows of length `dim`, one after the other. -/
structure VectorSet where
  dim : Nat
  data : Vector32
  deriving DecidableEq

namespace VectorSet

def empty (dim : Nat) : VectorSet := ⟨dim, []⟩

/-- The set with the given flat contents, if these are whole rows of a positive length. -/
def ofFlat? (dim : Nat) (data : Vector32) : Option VectorSet :=
  if dim = 0 || data.length % dim != 0 then none else some ⟨dim, data⟩

/-- The set with one more row, if the row has the right length. -/
def push (v : VectorSet) (row : Vector32) : Option VectorSet :=
  if row.length = v.dim then some { v with data := v.data ++ row } else none

def size (v : VectorSet) : Nat := v.data.length / v.dim

/-- Whether the set holds no numbers at all. -/
def isEmpty (v : VectorSet) : Bool := v.data.isEmpty

/-- The row at an index: the numbers from its first position up to the first one behind it, if both
can be counted and there are any. -/
def row? (v : VectorSet) (index : Nat) : Option Vector32 := do
  let first ← counted? (index * v.dim)
  let last ← counted? (first + v.dim)
  if last ≤ v.data.length then some ((v.data.drop first).take v.dim) else none

def rows (v : VectorSet) : List Vector32 := rowsOf v.dim v.data

/-! ## Lemmas -/

theorem data_push {v w : VectorSet} {row : Vector32} (h : v.push row = some w) :
    w.data = v.data ++ row := by
  unfold push at h
  split at h
  · cases h
    rfl
  · cases h

end VectorSet

theorem length_takeRows (dim count : Nat) (data : Vector32) :
    (takeRows dim count data).length = count := by
  induction count generalizing data with
  | zero => rfl
  | succ count ih => simp [takeRows, ih]

theorem length_rowsOf (dim : Nat) (data : Vector32) :
    (rowsOf dim data).length = data.length / dim := length_takeRows _ _ _

end VectorBench
