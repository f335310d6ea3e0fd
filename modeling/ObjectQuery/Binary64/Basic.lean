/-!
# Binary64 numbers

The 64-bit binary floating-point numbers as exact values. Every finite number is an integer
multiple of `2 ^ (-1074)`; this module calls that multiple its *units*, so that order and equality
are those of integers. No machine arithmetic is involved.
-/

namespace ObjectQuery

-- Powers of integers are the core library's, whatever else a module imports.
attribute [default_instance 20000, instance (high)] instPowNat

/-- A finite binary64 number, `± significand · 2 ^ exponent` units of `2 ^ (-1074)`.

The significand has at most 53 bits and only the lowest exponent admits fewer, so each number has
one representation; the sign also distinguishes the two zeros. -/
structure Binary64.Finite where
  negative : Bool
  significand : Nat
  exponent : Nat
  significand_lt : significand < 2 ^ 53
  exponent_le : exponent ≤ 2045
  normalized : exponent = 0 ∨ 2 ^ 52 ≤ significand
  deriving DecidableEq

inductive Binary64 where
  | finite (value : Binary64.Finite)
  | infinite (negative : Bool)
  | nan
  deriving DecidableEq

namespace Binary64

namespace Finite

/-- The absolute value in units of `2 ^ (-1074)`. -/
def magnitude (x : Finite) : Nat :=
  x.significand * 2 ^ x.exponent

/-- The exact value in units of `2 ^ (-1074)`. Both zeros have none. -/
def units (x : Finite) : Int :=
  if x.negative then -(x.magnitude : Int) else x.magnitude

def zero (negative : Bool) : Finite where
  negative := negative
  significand := 0
  exponent := 0
  significand_lt := by decide
  exponent_le := by decide
  normalized := Or.inl rfl

def compare (x y : Finite) : Ordering :=
  Ord.compare x.units y.units

def equal (x y : Finite) : Bool :=
  x.units == y.units

theorem equal_iff (x y : Finite) : x.equal y = true ↔ x.units = y.units := by
  simp [equal]

theorem equal_refl (x : Finite) : x.equal x = true := by
  simp [equal]

end Finite

/-- Order by value, with the infinities at the ends. Not-a-number is unordered. -/
def compare? : Binary64 → Binary64 → Option Ordering
  | .nan, _ => none
  | _, .nan => none
  | .finite x, .finite y => some (x.compare y)
  | .finite _, .infinite negative => some (if negative then .gt else .lt)
  | .infinite negative, .finite _ => some (if negative then .lt else .gt)
  | .infinite left, .infinite right =>
      some (if left = right then .eq else if left then .lt else .gt)

/-- Equality of values: the two zeros are equal and not-a-number differs from itself. -/
def equal (x y : Binary64) : Bool :=
  x.compare? y == some .eq

/-- The number with the given parts, or the infinity of its sign if the exponent is too large. -/
def ofParts (negative : Bool) (significand exponent : Nat) : Binary64 :=
  if h : significand < 2 ^ 53 ∧ exponent ≤ 2045 ∧ (exponent = 0 ∨ 2 ^ 52 ≤ significand) then
    .finite ⟨negative, significand, exponent, h.1, h.2.1, h.2.2⟩
  else
    .infinite negative

end Binary64

end ObjectQuery
