/-!
# Seeded random words

The ChaCha stream with eight rounds, keyed from a 64-bit seed.  The key is filled by a
multiplicative congruential generator whose state is permuted by a shift and a rotation for every
word; a 64-bit block counter follows the key in the state, and the last two words are zero.
-/

namespace VectorBench.ChaCha

abbrev State := Vector UInt32 16

/-- A word rotated to the left by `k` bits, for `k` between 1 and 31. -/
def rotateLeft (x : UInt32) (k : UInt32) : UInt32 := x <<< k ||| x >>> (32 - k)

/-- A word rotated to the right by `k` bits; the amount counts modulo 32. -/
def rotateRight (x : UInt32) (k : UInt32) : UInt32 := x >>> (k % 32) ||| x <<< ((32 - k % 32) % 32)

/-! ## The key -/

/-- One step of the congruential generator. -/
def seedStep (s : UInt64) : UInt64 := s * 6364136223846793005 + 11634580027462260723

/-- The word that a generator state yields. -/
def seedWord (s : UInt64) : UInt32 :=
  rotateRight (((s >>> 18) ^^^ s) >>> 27).toUInt32 (s >>> 59).toUInt32

def seedWords : Nat → UInt64 → List UInt32
  | 0, _ => []
  | count + 1, s => seedWord (seedStep s) :: seedWords count (seedStep s)

/-! ## Blocks -/

/-- The quarter round on the words at `a`, `b`, `c` and `d`. -/
def quarterRound (s : State) (a b c d : Fin 16) : State :=
  let s := s.set a (s[a] + s[b])
  let s := s.set d (rotateLeft (s[d] ^^^ s[a]) 16)
  let s := s.set c (s[c] + s[d])
  let s := s.set b (rotateLeft (s[b] ^^^ s[c]) 12)
  let s := s.set a (s[a] + s[b])
  let s := s.set d (rotateLeft (s[d] ^^^ s[a]) 8)
  let s := s.set c (s[c] + s[d])
  s.set b (rotateLeft (s[b] ^^^ s[c]) 7)

/-- A round over the columns, then one over the diagonals. -/
def doubleRound (s : State) : State :=
  let s := quarterRound s 0 4 8 12
  let s := quarterRound s 1 5 9 13
  let s := quarterRound s 2 6 10 14
  let s := quarterRound s 3 7 11 15
  let s := quarterRound s 0 5 10 15
  let s := quarterRound s 1 6 11 12
  let s := quarterRound s 2 7 8 13
  quarterRound s 3 4 9 14

/-- The state before the rounds of the block with the given counter. -/
def initialState (key : Vector UInt32 8) (counter : UInt64) : State :=
  let constants : Vector UInt32 4 := #v[0x61707865, 0x3320646e, 0x79622d32, 0x6b206574]
  let place : Vector UInt32 4 := #v[counter.toUInt32, (counter >>> 32).toUInt32, 0, 0]
  constants ++ key ++ place

/-- The sixteen words of a block: the state after eight rounds, added to the state before. -/
def block (key : Vector UInt32 8) (counter : UInt64) : List UInt32 :=
  let start := initialState key counter
  let mixed := doubleRound (doubleRound (doubleRound (doubleRound start)))
  (Vector.zipWith (· + ·) mixed start).toList

/-! ## The stream -/

/-- Where a stream stands: its key, the next block, and the words left of the current one. -/
structure Stream where
  key : Vector UInt32 8
  counter : UInt64
  left : List UInt32

def keyOfSeed (seed : UInt64) : Vector UInt32 8 :=
  Vector.ofFn fun i => (seedWords 8 seed).getD i 0

/-- The stream of a seed from its start. -/
def Stream.ofSeed (seed : UInt64) : Stream := ⟨keyOfSeed seed, 0, []⟩

def Stream.next (s : Stream) : UInt32 × Stream :=
  match s.left with
  | word :: left => (word, { s with left })
  | [] =>
    let words := block s.key s.counter
    (words.headD 0, { s with counter := s.counter + 1, left := words.tail })

end VectorBench.ChaCha
