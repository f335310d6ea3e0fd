import ObjectQuery.Binary64.Shortest
/-!
# Number text

The two decimal notations of binary64 numbers. *Plain* text never has an exponent and has a
decimal point only if there is a fraction. *Compact* text always shows that the number is not an
integer literal, by a point or an exponent, and uses the exponent for large and small values.
-/

namespace ObjectQuery

namespace Decimal

def digitsOf (n : Nat) : List Char :=
  Nat.toDigits 10 n

def pointPosition (d : Decimal) : Int :=
  (digitsOf d.digits).length + d.exponent

def positional (d : Decimal) : List Char × List Char :=
  let digits := digitsOf d.digits
  let point := d.pointPosition
  if point ≤ 0 then (['0'], List.replicate (-point).toNat '0' ++ digits)
  else
    let padded := digits ++ List.replicate (point.toNat - digits.length) '0'
    (padded.take point.toNat, padded.drop point.toNat)

end Decimal

namespace Binary64

def signText (negative : Bool) : List Char :=
  if negative then ['-'] else []

/-- Shortest text without an exponent, and without a point if the number is an integer. A tie
between two shortest candidates goes away from zero. -/
def Finite.plainText (x : Finite) : List Char :=
  if x.significand = 0 then signText x.negative ++ ['0']
  else
    let (whole, fraction) := (x.shortest .away).positional
    signText x.negative ++ whole ++ (if fraction.isEmpty then [] else '.' :: fraction)

def plainText : Binary64 → String
  | .finite x => String.ofList x.plainText
  | .infinite negative => if negative then "-inf" else "inf"
  | .nan => "NaN"

/-- Scientific notation: one digit, a fraction only if there are more, and a signed exponent. -/
def scientific (d : Decimal) : List Char :=
  let power := d.pointPosition - 1
  let mark := if power < 0 then ['e', '-'] else ['e', '+']
  match Decimal.digitsOf d.digits with
  | [] => []
  | [digit] => digit :: mark ++ Decimal.digitsOf power.natAbs
  | digit :: fraction => digit :: '.' :: fraction ++ mark ++ Decimal.digitsOf power.natAbs

/-- Shortest text that cannot be taken for an integer: positional with a fraction for zero and from
`10 ^ (-5)` up to below `10 ^ 16`, else scientific. A tie between two shortest candidates goes to
the even digit. -/
def Finite.compactText (x : Finite) : List Char :=
  if x.significand = 0 then signText x.negative ++ ['0', '.', '0']
  else
    let d := x.shortest .even
    if -5 < d.pointPosition ∧ d.pointPosition ≤ 16 then
      let (whole, fraction) := d.positional
      signText x.negative ++ whole ++ '.' :: (if fraction.isEmpty then ['0'] else fraction)
    else
      signText x.negative ++ scientific d

end Binary64

end ObjectQuery
