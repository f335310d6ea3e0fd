import ObjectQuery.Binary64.Basic
/-!
# Correct rounding

Exact quotients, integers and decimals rounded to the nearest binary64 number, a tie going to the
even significand.
-/

namespace ObjectQuery

/-- The integer nearest to `num / den`, a tie going to the even one. -/
def roundQuotient (num den : Nat) : Nat :=
  let quotient := num / den
  let twice := 2 * (num % den)
  if twice < den then quotient
  else if den < twice then quotient + 1
  else quotient + quotient % 2

namespace Binary64

/-- The exponent at which a magnitude with integer part `whole` has a 53-bit significand. -/
def exponentFor (whole : Nat) : Nat :=
  whole.log2 - 52

/-- The number nearest to `± num / den` units of `2 ^ (-1074)`. A significand that rounds up to
`2 ^ 53` moves to the next exponent. -/
def ofQuotient (negative : Bool) (num den : Nat) : Binary64 :=
  let exponent := exponentFor (num / den)
  let significand := roundQuotient num (den * 2 ^ exponent)
  if significand = 2 ^ 53 then ofParts negative (2 ^ 52) (exponent + 1)
  else ofParts negative significand exponent

def ofNat (negative : Bool) (n : Nat) : Binary64 :=
  ofQuotient negative (n * 2 ^ 1074) 1

def ofInt (i : Int) : Binary64 :=
  ofNat (i < 0) i.natAbs

/-- The number nearest to `± digits · 10 ^ exponent`.

A value of `10 ^ 309` or more overflows and one below `10 ^ (-330)` is nearer to zero than to any
other number; both are settled by the count of digits, so no huge power is formed. -/
def ofDecimal (negative : Bool) (digits : Nat) (exponent : Int) : Binary64 :=
  if digits = 0 then .finite (.zero negative)
  else
    let top : Int := (Nat.toDigits 10 digits).length + exponent
    if 310 ≤ top then .infinite negative
    else if top ≤ -330 then .finite (.zero negative)
    else if 0 ≤ exponent then ofNat negative (digits * 10 ^ exponent.toNat)
    else ofQuotient negative (digits * 2 ^ 1074) (10 ^ (-exponent).toNat)

end Binary64

end ObjectQuery
