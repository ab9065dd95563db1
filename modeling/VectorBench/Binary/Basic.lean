/-!
# Binary floating-point numbers

A number of one of the two interchange formats is a sign and a *magnitude*: the bit pattern below
the sign bit.  Magnitudes grow with the absolute value, infinity follows the largest finite
magnitude and the NaNs follow infinity, so that comparing, rounding and carrying into the next
binade are all arithmetic on magnitudes.

A finite magnitude `g` stands for `significand g * 2 ^ exponent g` *units*, where one unit is the
least positive number of the format, `2 ^ (-unitBits)`.

    ofBits f x.toBits = x                                (ofBits_toBits)
-/

namespace VectorBench

/-- The power `2 ^ n`.  A machine word serves for the small powers, which rounding asks for most. -/
@[inline] def twoPower (n : Nat) : Nat :=
  if n < 62 then ((1 : UInt64) <<< n.toUInt64).toNat else Nat.pow 2 n

theorem twoPower_eq (n : Nat) : twoPower n = Nat.pow 2 n := by
  unfold twoPower
  split
  · rename_i h
    have hp : Nat.pow 2 n < 2 ^ 64 := Nat.pow_lt_pow_of_lt (by decide) (by omega : n < 64)
    have hn : n.toUInt64.toNat % 64 = n := by
      rw [Nat.toUInt64_eq, UInt64.toNat_ofNat']
      omega
    rw [UInt64.toNat_shiftLeft, hn, UInt64.toNat_one, Nat.shiftLeft_eq, Nat.one_mul]
    exact Nat.mod_eq_of_lt hp
  · rfl

/-- The two floating-point formats in use: 32 and 64 bits wide. -/
inductive Format where
  | single
  | double
  deriving DecidableEq, Repr

namespace Format

def fractionBits : Format → Nat
  | single => 23
  | double => 52

/-- The weight of the implicit leading bit, `2 ^ fractionBits`. -/
def hiddenBit : Format → Nat
  | single => 0x800000
  | double => 0x10000000000000

/-- The magnitude of infinity: exponent field all ones, fraction zero. -/
def infinity : Format → Nat
  | single => 0x7f800000
  | double => 0x7ff0000000000000

/-- One past the last magnitude; also the weight of the sign bit. -/
def magnitudeLimit : Format → Nat
  | single => 0x80000000
  | double => 0x8000000000000000

/-- A unit is `2 ^ (-unitBits)`, the least positive number. -/
def unitBits : Format → Nat
  | single => 149
  | double => 1074

theorem hiddenBit_eq (f : Format) : f.hiddenBit = twoPower f.fractionBits := by
  cases f <;> decide

theorem hiddenBit_pos (f : Format) : 0 < f.hiddenBit := by
  cases f <;> decide

theorem infinity_lt (f : Format) : f.infinity + f.hiddenBit / 2 < f.magnitudeLimit := by
  cases f <;> decide

theorem magnitudeLimit_pos (f : Format) : 0 < f.magnitudeLimit := by
  cases f <;> decide

end Format

/-- A number of format `f`: its sign and the bits below the sign. -/
structure Binary (f : Format) where
  negative : Bool
  magnitude : Nat
  magnitude_lt : magnitude < f.magnitudeLimit
  deriving DecidableEq

/-- The 32-bit numbers, which vectors are made of. -/
abbrev Binary32 := Binary .single

/-- The 64-bit numbers, which durations and ratios are. -/
abbrev Binary64 := Binary .double

namespace Binary

variable {f : Format}

/-! ## Bit patterns -/

/-- The number with the given bit pattern; bits above the format's width are ignored. -/
def ofBits (f : Format) (bits : Nat) : Binary f where
  negative := bits / f.magnitudeLimit % 2 == 1
  magnitude := bits % f.magnitudeLimit
  magnitude_lt := Nat.mod_lt _ f.magnitudeLimit_pos

/-- The bit pattern, sign bit first. -/
def toBits (x : Binary f) : Nat :=
  if x.negative then f.magnitudeLimit + x.magnitude else x.magnitude

/-- The number with sign `negative` and magnitude `g`, infinite when `g` is too large. -/
def ofMagnitude (f : Format) (negative : Bool) (g : Nat) : Binary f where
  negative := negative
  magnitude := min g f.infinity
  magnitude_lt := by
    have := f.infinity_lt
    omega

/-! ## Kinds of numbers -/

def zero (negative : Bool) : Binary f := ⟨negative, 0, f.magnitudeLimit_pos⟩

instance : Inhabited (Binary f) := ⟨zero false⟩

def infinity (negative : Bool) : Binary f :=
  ⟨negative, f.infinity, by have := f.infinity_lt; omega⟩

/-- The quiet NaN that arithmetic yields. -/
def nan : Binary f := ⟨false, f.infinity + f.hiddenBit / 2, f.infinity_lt⟩

/-- Not a number: beyond infinity. -/
def isNaN (x : Binary f) : Bool := f.infinity < x.magnitude

def isInfinite (x : Binary f) : Bool := x.magnitude == f.infinity

def isFinite (x : Binary f) : Bool := x.magnitude < f.infinity

def isZero (x : Binary f) : Bool := x.magnitude == 0

def neg (x : Binary f) : Binary f := { x with negative := !x.negative }

/-! ## Significand and exponent -/

/-- The exponent of a magnitude: zero for the subnormal numbers and the first binade. -/
def exponentOf (f : Format) (g : Nat) : Nat := g / f.hiddenBit - 1

/-- The significand of a magnitude, with the implicit bit when there is one. -/
def significandOf (f : Format) (g : Nat) : Nat := g - exponentOf f g * f.hiddenBit

/-- The exact absolute value of a finite magnitude, in units. -/
def unitsOf (f : Format) (g : Nat) : Nat := significandOf f g * twoPower (exponentOf f g)

def exponent (x : Binary f) : Nat := exponentOf f x.magnitude

def significand (x : Binary f) : Nat := significandOf f x.magnitude

/-- The exact absolute value of a finite number, in units. -/
def units (x : Binary f) : Nat := unitsOf f x.magnitude

/-! ## Lemmas -/

theorem ofBits_toBits (x : Binary f) : ofBits f x.toBits = x := by
  obtain ⟨s, g, h⟩ := x
  have hp := f.magnitudeLimit_pos
  cases s
  · simp [toBits, ofBits, Nat.div_eq_of_lt h, Nat.mod_eq_of_lt h]
  · have h1 : (f.magnitudeLimit + g) / f.magnitudeLimit = 1 := by
      rw [Nat.add_div_left _ hp, Nat.div_eq_of_lt h]
    simp [toBits, ofBits, h1, Nat.mod_eq_of_lt h]

end Binary

end VectorBench
