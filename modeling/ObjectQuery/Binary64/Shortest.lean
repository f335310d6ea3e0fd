import ObjectQuery.Binary64.Rounding
/-!
# Shortest decimals

The decimal with the fewest digits that reads back as a given number. Of the two neighbours of a
number on the first decimal grid with such a point, the nearer one is taken; what an exact tie does
is a choice of the text format.
-/

namespace ObjectQuery

/-- An unsigned decimal, `digits · 10 ^ exponent`. -/
structure Decimal where
  digits : Nat
  exponent : Int
  deriving DecidableEq

/-- Which of two equally near candidates is written. -/
inductive Tie where
  | away
  | even
  deriving DecidableEq

namespace Decimal

def trimZeros (d : Decimal) : Nat → Decimal
  | 0 => d
  | fuel + 1 =>
      if d.digits % 10 = 0 then trimZeros ⟨d.digits / 10, d.exponent + 1⟩ fuel else d

end Decimal

namespace Binary64.Finite

/-- The number of digits before the decimal point: `k` with `10 ^ (k - 1) ≤ |x| < 10 ^ k` for a
nonzero `x`. Scaling by `10 ^ 324` leaves a nonzero integer part. -/
def pointPosition (x : Finite) : Int :=
  (Nat.toDigits 10 (x.magnitude * 10 ^ 324 / 2 ^ 1074)).length - 324

def scaled (x : Finite) (exponent : Int) : Nat × Nat :=
  (x.magnitude * 10 ^ (-exponent).toNat, 2 ^ 1074 * 10 ^ exponent.toNat)

def reads (x : Finite) (d : Decimal) : Bool :=
  ofDecimal x.negative d.digits d.exponent = .finite x

/-- The multiple of `10 ^ exponent` that is nearest to `x` among the two neighbours of `x` that read
back, if there is one. -/
def nearest? (tie : Tie) (x : Finite) (exponent : Int) : Option Decimal :=
  let (num, den) := x.scaled exponent
  let lower : Decimal := ⟨num / den, exponent⟩
  let upper : Decimal := ⟨num / den + 1, exponent⟩
  let twice := 2 * (num % den)
  let preferUpper : Bool :=
    den < twice || (den = twice && (tie == .away || num / den % 2 = 1))
  match x.reads lower, x.reads upper with
  | true, true => some (if preferUpper then upper else lower)
  | true, false => some lower
  | false, true => some upper
  | false, false => none

def candidate? (tie : Tie) (x : Finite) (count : Nat) : Option Decimal :=
  x.nearest? tie (x.pointPosition - count)

def exactDecimal (x : Finite) : Decimal :=
  ⟨x.magnitude * 5 ^ 1074, -1074⟩

/-- The shortest decimal that reads back as a nonzero `x`, without trailing zeros. Seventeen digits
always suffice; the exact value stands behind them so that the search needs no proof of that. -/
def shortest (tie : Tie) (x : Finite) : Decimal :=
  let found := (List.range 17).findSome? fun i => x.candidate? tie (i + 1)
  (found.getD x.exactDecimal).trimZeros 1100

end Binary64.Finite

end ObjectQuery
