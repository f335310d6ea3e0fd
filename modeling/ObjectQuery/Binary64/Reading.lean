import ObjectQuery.Binary64.Rounding
import ObjectQuery.Text.Characters
/-!
# Reading numbers

The binary64 number nearest to a decimal text, such as `-12.5e3`. Digits may be missing on one side
of the point but not on both; the words `inf`, `infinity` and `nan` are read in any case.
-/

namespace ObjectQuery.Binary64

def exponentOfText? : List Char → Option Int
  | [] => some 0
  | mark :: text =>
      let (negative, digits) :=
        match text with
        | '-' :: rest => (true, rest)
        | '+' :: rest => (false, rest)
        | _ => (false, text)
      if mark.toLower ≠ 'e' || digits.isEmpty || !digits.all Char.isDigit then none
      else
        let magnitude : Int := Text.digitsValue digits
        some (if negative then -magnitude else magnitude)

def ofUnsignedText? (negative : Bool) (text : List Char) : Option Binary64 :=
  let word := text.map Char.toLower
  if word = ['i', 'n', 'f'] ∨ word = ['i', 'n', 'f', 'i', 'n', 'i', 't', 'y'] then
    some (.infinite negative)
  else if word = ['n', 'a', 'n'] then some .nan
  else
    let whole := text.takeWhile Char.isDigit
    let afterWhole := text.dropWhile Char.isDigit
    let (fraction, tail) :=
      match afterWhole with
      | '.' :: rest => (rest.takeWhile Char.isDigit, rest.dropWhile Char.isDigit)
      | _ => ([], afterWhole)
    if whole.isEmpty && fraction.isEmpty then none
    else
      (exponentOfText? tail).map fun exponent =>
        ofDecimal negative (Text.digitsValue (whole ++ fraction)) (exponent - fraction.length)

/-- The number nearest to a decimal text. -/
def ofText? (text : String) : Option Binary64 :=
  match text.toList with
  | '-' :: rest => ofUnsignedText? true rest
  | '+' :: rest => ofUnsignedText? false rest
  | text => ofUnsignedText? false text

end ObjectQuery.Binary64
