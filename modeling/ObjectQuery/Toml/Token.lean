import ObjectQuery.Binary64.Reading
/-!
# TOML scalars without quotes

Truth values, integers, floats and times. Each is one run of characters; these tests say which runs
are well formed.
-/

namespace ObjectQuery.Toml

/-- The digits of a group such as `1_000`. Every underscore stands between two digits. -/
def ungroup? (isDigit : Char → Bool) : List Char → Option (List Char)
  | [] => none
  | [c] => if isDigit c then some [c] else none
  | c :: '_' :: rest => if isDigit c then (ungroup? isDigit rest).map (c :: ·) else none
  | c :: rest => if isDigit c then (ungroup? isDigit rest).map (c :: ·) else none

/-- The digits of a decimal group, which starts with a zero only if it is zero. -/
def decimal? (text : List Char) : Option (List Char) :=
  (ungroup? Char.isDigit text).filter fun digits => digits.head? != some '0' || digits.length == 1

/-- A sign in front of a text: whether it is a minus, and the rest. -/
def splitSign : List Char → Bool × List Char
  | '-' :: rest => (true, rest)
  | '+' :: rest => (false, rest)
  | text => (false, text)

/-- The integer that a token writes. Decimal integers may have a sign; those in another base have a
mark instead. An integer has at most 64 bits with sign. -/
def integer? (token : List Char) : Option Int :=
  let inBase (base : Nat) (text : List Char) : Option Int :=
    ((ungroup? (fun c => (Text.digitValue? base c).isSome) text).bind (Text.baseValue? base)).map
      Int.ofNat
  let value :=
    match token with
    | '0' :: 'x' :: rest => inBase 16 rest
    | '0' :: 'o' :: rest => inBase 8 rest
    | '0' :: 'b' :: rest => inBase 2 rest
    | _ =>
        let (negative, text) := splitSign token
        (decimal? text).map fun digits =>
          let magnitude : Int := Text.digitsValue digits
          if negative then -magnitude else magnitude
  value.filter fun i => -2 ^ 63 ≤ i && i < 2 ^ 63

def isExponent : List Char → Bool
  | mark :: rest =>
      (mark == 'e' || mark == 'E') && (ungroup? Char.isDigit (splitSign rest).2).isSome
  | [] => false

/-- Whether a text without sign is an integer part with a fraction, an exponent, or both. -/
def isDecimalFloat (text : List Char) : Bool :=
  let inGroup (c : Char) : Bool := c.isDigit || c == '_'
  let tail := text.dropWhile inGroup
  (decimal? (text.takeWhile inGroup)).isSome &&
    match tail with
    | '.' :: rest =>
        let exponent := rest.dropWhile inGroup
        (ungroup? Char.isDigit (rest.takeWhile inGroup)).isSome
          && (exponent.isEmpty || isExponent exponent)
    | _ => isExponent tail

/-- Whether a token is a float: a decimal one, or one of the words for infinity and not-a-number. A
decimal float that is rounded to positive infinity is refused, one that is rounded to negative
infinity is not. -/
def isFloat (token : List Char) : Bool :=
  let (negative, text) := splitSign token
  text == ['i', 'n', 'f'] || text == ['n', 'a', 'n'] ||
    (isDecimalFloat text &&
      Binary64.ofUnsignedText? negative (text.filter (· != '_')) != some (.infinite false))

def daysIn (year month : Nat) : Nat :=
  if month = 2 then
    if year % 4 = 0 ∧ (year % 100 ≠ 0 ∨ year % 400 = 0) then 29 else 28
  else if month = 4 ∨ month = 6 ∨ month = 9 ∨ month = 11 then 30
  else 31

def isDate : List Char → Bool
  | [y1, y2, y3, y4, '-', m1, m2, '-', d1, d2] =>
      let year := [y1, y2, y3, y4]
      let month := Text.digitsValue [m1, m2]
      let day := Text.digitsValue [d1, d2]
      (year ++ [m1, m2, d1, d2]).all Char.isDigit && 1 ≤ month && month ≤ 12 && 1 ≤ day
        && day ≤ daysIn (Text.digitsValue year) month
  | _ => false

def isSecondFraction : List Char → Bool
  | [] => true
  | '.' :: digits => !digits.isEmpty && digits.all Char.isDigit
  | _ => false

def isTimeOfDay : List Char → Bool
  | h1 :: h2 :: ':' :: m1 :: m2 :: ':' :: s1 :: s2 :: fraction =>
      [h1, h2, m1, m2, s1, s2].all Char.isDigit && Text.digitsValue [h1, h2] < 24
        && Text.digitsValue [m1, m2] < 60 && Text.digitsValue [s1, s2] ≤ 60
        && isSecondFraction fraction
  | _ => false

def isOffset : List Char → Bool
  | [] => true
  | ['Z'] => true
  | ['z'] => true
  | [sign, h1, h2, ':', m1, m2] =>
      (sign == '+' || sign == '-') && [h1, h2, m1, m2].all Char.isDigit
        && Text.digitsValue [h1, h2] < 24 && Text.digitsValue [m1, m2] < 60
  | _ => false

def isTimeWithOffset (text : List Char) : Bool :=
  let inTime (c : Char) : Bool := c.isDigit || c == ':' || c == '.'
  isTimeOfDay (text.takeWhile inTime) && isOffset (text.dropWhile inTime)

/-- Whether a token is a date, a time of day, or both joined by `T` or a space. -/
def isTime (token : List Char) : Bool :=
  isDate token || isTimeOfDay token ||
    (isDate (token.take 10) &&
      match token.drop 10 with
      | mark :: rest => (mark == 'T' || mark == 't' || mark == ' ') && isTimeWithOffset rest
      | [] => false)

def isBoolean (token : List Char) : Bool :=
  token == ['t', 'r', 'u', 'e'] || token == ['f', 'a', 'l', 's', 'e']

end ObjectQuery.Toml
