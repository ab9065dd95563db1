import VectorBench.Dataset.ChaCha
import VectorBench.Binary.Arith
import VectorBench.Binary.Convert
import VectorBench.Record
import VectorBench.VectorSet

/-!
# Datasets

A reproducible corpus and its queries.  Every number is drawn uniformly from `[0, 1)`, one random
word each, corpus rows before query rows, and every row is then scaled to Euclidean norm one.  A set
takes `rows * dim` words.  The product is one of 64-bit words, and it depends on how the program was
built what becomes of one that does not fit.  Memory for all numbers is taken to be there.
-/

namespace VectorBench

/-! ## Normalization -/

/-- The Euclidean norm, added up and rooted in 64 bits. -/
def euclideanNorm (row : Vector32) : Binary64 :=
  (Binary.sum (row.map fun x => x.widen * x.widen)).sqrt

/-- The norms up to this one are taken for zero: `2 ^ (-52)`. -/
def leastNorm : Binary64 := .ofBits .double 0x3cb0000000000000

/-- The row scaled to Euclidean norm one.  A row whose norm is not finite or as good as zero stays
as it is. -/
def normalize (row : Vector32) : Vector32 :=
  let norm := euclideanNorm row
  if norm.le leastNorm || !norm.isFinite then row
  else row.map fun x => (x.widen / norm).narrow

/-! ## Random numbers -/

/-- The number in `[1, 2)` with the upper 23 bits of a word as its fraction, less one. -/
def uniform (word : UInt32) : Binary32 :=
  .ofBits .single (word >>> 9 ||| 0x3f800000).toNat - .ofBits .single 0x3f800000

/-- The interval that the numbers are drawn from, its upper end excluded. -/
def valueRange : Binary32 × Binary32 := (.zero false, .ofBits .single 0x3f800000)

/-- `count` numbers from a source of random words behind those already `drawn`, the last one first,
and the source after them. -/
def drawNumbers {σ : Type} (next : σ → UInt32 × σ) : Nat → Vector32 → σ → Vector32 × σ
  | 0, drawn, source => (drawn.reverse, source)
  | count + 1, drawn, source =>
    let (word, source) := next source
    drawNumbers next count (uniform word :: drawn) source

/-! ## Sets -/

/-- What becomes of a product of sizes that 64 bits cannot hold: the program stops, or goes on with
the lower 64 bits. -/
inductive Overflow where
  | stops
  | wraps
  deriving DecidableEq, Repr

/-- How many numbers a set of `rows` rows takes, if the program gets past the product. -/
def Overflow.count? (rows dim : UInt64) : Overflow → Option UInt64
  | stops => if rows.toNat * dim.toNat < UInt64.size then some (rows * dim) else none
  | wraps => some (rows * dim)

/-- Every whole row normalized; numbers behind the last whole row stay. -/
def normalizeRows (dim : Nat) (data : Vector32) : Vector32 :=
  let rows := rowsOf dim data
  (rows.map normalize).flatten ++ data.drop (rows.length * dim)

/-- A set of normalized random rows that holds `count` numbers. -/
def drawCounted {σ : Type} (next : σ → UInt32 × σ) (count dim : UInt64) (source : σ) :
    VectorSet × σ :=
  let (data, source) := drawNumbers next count.toNat [] source
  (⟨dim.toNat, normalizeRows dim.toNat data⟩, source)

/-- A set of `rows` normalized random rows. -/
def drawSet {σ : Type} (overflow : Overflow) (next : σ → UInt32 × σ) (rows dim : UInt64)
    (source : σ) : Option (VectorSet × σ) :=
  (overflow.count? rows dim).map fun count => drawCounted next count dim source

/-- A corpus and the queries to put to it. -/
structure Dataset where
  vectors : VectorSet
  queries : VectorSet
  deriving DecidableEq

inductive DatasetError where
  | invalidConfig (cause : ValidationError)
  | overflow
  deriving DecidableEq

namespace Dataset

/-- The dataset of a configuration from a source of random words, or why there is none, and the
source after it.  A configuration that is refused takes no word. -/
def drawFrom {σ : Type} (overflow : Overflow) (next : σ → UInt32 × σ) (config : Config)
    (source : σ) : Except DatasetError Dataset × σ :=
  match config.check with
  | .error e => (.error (.invalidConfig e), source)
  | .ok _ =>
    match drawSet overflow next config.samples config.dims source with
    | none => (.error .overflow, source)
    | some (vectors, source) =>
      match drawSet overflow next config.queries config.dims source with
      | none => (.error .overflow, source)
      | some (queries, source) => (.ok ⟨vectors, queries⟩, source)

/-- The dataset of a configuration together with the source after it. -/
def draw {σ : Type} (overflow : Overflow) (next : σ → UInt32 × σ) (config : Config) (source : σ) :
    Except DatasetError (Dataset × σ) :=
  let (result, source) := drawFrom overflow next config source
  result.map fun dataset => (dataset, source)

/-- The dataset of a configuration from the stream of its seed. -/
def generate (overflow : Overflow) (config : Config) : Except DatasetError Dataset :=
  (drawFrom overflow ChaCha.Stream.next config (.ofSeed config.seed)).1

end Dataset

end VectorBench
