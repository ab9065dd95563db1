import VectorBench.Decimal.Basic

/-!
# The fewest digits that read back

A number is written with as few digits as still read back as the same number, and of the decimals
with that many digits the nearest one is taken.  On the grid of decimals with a given last place
only the two neighbours of the exact value need a look: if any point of the grid reads back, one of
these does.  The grids are tried from one digit upwards.  The exact value, which reads back whatever
the grids say, ends the search.
-/

namespace VectorBench

/-- Which of two equally near decimals is taken. -/
inductive Tie where
  | away
  | even
  deriving DecidableEq, Repr

/-- The position of the first digit: the `t` with `10 ^ (t - 1) ≤ n / d < 10 ^ t`. -/
def decimalPoint (n d : Nat) : Int :=
  if d ≤ n then digitCount (n / d) else 1 - digitCount ((d - 1) / n)

/-- The two neighbours of `n / d` among the multiples of `10 ^ place`, the nearer one first. -/
def neighbours (tie : Tie) (n d : Nat) (place : Int) : List Decimal :=
  let num := n * tenPower (-place).toNat
  let den := d * tenPower place.toNat
  let below := num / den
  let twice := 2 * (num % den)
  let belowFirst := twice < den || (twice == den && tie == .even && below % 2 == 0)
  if belowFirst then [⟨below, place⟩, ⟨below + 1, place⟩] else [⟨below + 1, place⟩, ⟨below, place⟩]

/-- The most digits for which the neighbours are tried: enough for every 64-bit number. -/
def maxDigits : Nat := 17

/-- The decimal with the fewest digits that reads back as the finite number `x` other than zero. -/
def shortest (tie : Tie) {f : Format} (x : Binary f) : Decimal :=
  let (n, d) := x.ratio
  let point := decimalPoint n d
  let readsBack := fun (c : Decimal) => c.toBinary f x.negative == x
  let grid := fun (digits : Nat) => neighbours tie n d (point - digits)
  ((List.range maxDigits).findSome? fun i => (grid (i + 1)).find? readsBack).getD (.ofBinary x)

end VectorBench
