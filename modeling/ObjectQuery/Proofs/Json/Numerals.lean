import ObjectQuery.Json.Decode
import ObjectQuery.Json.Text
import ObjectQuery.Proofs.Binary64.Text
/-!
# JSON numbers as written

The text of an integer of at most 64 bits and the compact text of a binary64 number are read back as
the integer and the number, if what follows cannot go on the number.
-/

namespace ObjectQuery.Json

open Decimal (IsWhole digitsOf writtenFraction)

/-- What follows a number without going on it. -/
structure EndsNumber (rest : List Char) : Prop where
  digit : ∀ c ∈ rest.head?, c.isDigit = false
  point : ∀ c ∈ rest.head?, c ≠ '.'
  mark : ∀ c ∈ rest.head?, c ≠ 'e' ∧ c ≠ 'E'

theorem EndsNumber.nil : EndsNumber [] := by
  constructor <;> simp

theorem EndsNumber.of_cons {c : Char} (hdigit : c.isDigit = false) (hpoint : c ≠ '.')
    (hmark : c ≠ 'e' ∧ c ≠ 'E') (rest : List Char) : EndsNumber (c :: rest) where
  digit := fun _ hc => Option.some.inj hc ▸ hdigit
  point := fun _ hc => Option.some.inj hc ▸ hpoint
  mark := fun _ hc => Option.some.inj hc ▸ hmark

theorem EndsNumber.comma (rest : List Char) : EndsNumber (',' :: rest) :=
  .of_cons (by decide) (by decide) (by decide) rest

theorem EndsNumber.bracket (rest : List Char) : EndsNumber (']' :: rest) :=
  .of_cons (by decide) (by decide) (by decide) rest

theorem EndsNumber.brace (rest : List Char) : EndsNumber ('\x7d' :: rest) :=
  .of_cons (by decide) (by decide) (by decide) rest

theorem EndsNumber.line (rest : List Char) : EndsNumber ('\n' :: rest) :=
  .of_cons (by decide) (by decide) (by decide) rest

def powerText (power : Int) : List Char :=
  (if power < 0 then ['e', '-'] else ['e', '+']) ++ digitsOf power.natAbs

theorem eq_mark_of_head?_powerText (power : Int) (rest : List Char) :
    ∀ c ∈ (powerText power ++ rest).head?, c = 'e' := by
  rw [powerText]
  intro c hc
  split at hc <;> exact (Option.some.inj hc).symm

variable {whole fraction digits rest : List Char} {x : Binary64.Finite} {d : Decimal}

namespace Tree

/-! ## The parts of a number -/

theorem readWhole_append (hwhole : IsWhole whole) (hrest : ∀ c ∈ rest.head?, c.isDigit = false) :
    readWhole (whole ++ rest) = some (whole, rest) := by
  obtain ⟨first, others, rfl⟩ := List.exists_cons_of_ne_nil hwhole.ne_nil
  by_cases hzero : first = '0'
  · subst hzero
    obtain rfl : others = [] := (List.cons.inj (hwhole.eq_zero rfl)).2
    cases rest with
    | nil => rfl
    | cons c rest => simp [readWhole, hrest c rfl]
  · rw [List.cons_append, readWhole]
    · exact Reader.takeWhile1_append hwhole.ne_nil hwhole.isDigit hrest
    · exact fun _ heq => hzero (List.cons.inj heq).1

theorem readFraction_of_ne_point (h : ∀ c ∈ rest.head?, c ≠ '.') :
    readFraction rest = some ([], rest) := by
  cases rest with
  | nil => rfl
  | cons c rest => simp [readFraction, h c rfl]

theorem readFraction_append (hne : digits ≠ []) (hdigits : ∀ c ∈ digits, c.isDigit = true)
    (hrest : ∀ c ∈ rest.head?, c.isDigit = false) :
    readFraction ('.' :: (digits ++ rest)) = some (digits, rest) := by
  rw [readFraction]
  exact Reader.takeWhile1_append hne hdigits hrest

theorem readExponent_of_ne_mark (h : ∀ c ∈ rest.head?, c ≠ 'e' ∧ c ≠ 'E') :
    readExponent rest = some (none, rest) := by
  cases rest with
  | nil => rfl
  | cons c rest => simp [readExponent, h c rfl]

theorem takeWhile1_digitsOf (n : Nat) (hrest : ∀ c ∈ rest.head?, c.isDigit = false) :
    Reader.takeWhile1 Char.isDigit (digitsOf n ++ rest) = some (digitsOf n, rest) :=
  Reader.takeWhile1_append (Decimal.digitsOf_ne_nil n)
    (fun _ => Decimal.isDigit_of_mem_digitsOf) hrest

theorem readPower_minus (n : Nat) (hrest : ∀ c ∈ rest.head?, c.isDigit = false) :
    readPower ('-' :: (digitsOf n ++ rest)) = some (-(n : Int), rest) := by
  rw [readPower, takeWhile1_digitsOf n hrest, Option.map_some]
  dsimp only
  rw [Decimal.digitsValue_digitsOf]

theorem readPower_plus (n : Nat) (hrest : ∀ c ∈ rest.head?, c.isDigit = false) :
    readPower ('+' :: (digitsOf n ++ rest)) = some ((n : Int), rest) := by
  rw [readPower, takeWhile1_digitsOf n hrest, Option.map_some]
  dsimp only
  rw [Decimal.digitsValue_digitsOf]

theorem readExponent_mark {text : List Char} {power : Int}
    (h : readPower text = some (power, rest)) :
    readExponent ('e' :: text) = some (some power, rest) := by
  rw [readExponent, if_pos (Or.inl rfl), h, Option.map_some]

theorem readExponent_powerText (power : Int) (hrest : ∀ c ∈ rest.head?, c.isDigit = false) :
    readExponent (powerText power ++ rest) = some (some power, rest) := by
  rw [powerText, List.append_assoc]
  by_cases hpower : power < 0
  · have hread := readPower_minus power.natAbs hrest
    rw [show -(power.natAbs : Int) = power by omega] at hread
    rw [if_pos hpower]
    exact readExponent_mark hread
  · have hread := readPower_plus power.natAbs hrest
    rw [show (power.natAbs : Int) = power by omega] at hread
    rw [if_neg hpower]
    exact readExponent_mark hread

theorem readNumeral_of_parts {afterWhole afterFraction : List Char} {exponent : Option Int}
    (negative : Bool) (hwhole : IsWhole whole)
    (hafter : ∀ c ∈ afterWhole.head?, c.isDigit = false)
    (hfraction : readFraction afterWhole = some (fraction, afterFraction))
    (hexponent : readExponent afterFraction = some (exponent, rest)) :
    readNumeral (Binary64.signText negative ++ (whole ++ afterWhole)) =
      some (⟨negative, whole, fraction, exponent⟩, rest) := by
  have hparts := readWhole_append hwhole hafter
  obtain ⟨first, others, rfl⟩ := List.exists_cons_of_ne_nil hwhole.ne_nil
  have hminus : first ≠ '-' := by
    rintro rfl
    cases hwhole.isDigit '-' List.mem_cons_self
  rw [List.cons_append] at hparts ⊢
  cases negative <;>
    simp [readNumeral, Binary64.signText, hminus, hparts, hfraction, hexponent]

end Tree

/-! ## Integers -/

theorem readNumeral_integerText (i : Int) (hrest : EndsNumber rest) :
    Tree.readNumeral (integerText i ++ rest) =
      some (⟨i < 0, digitsOf i.natAbs, [], none⟩, rest) := by
  rw [integerText, List.append_assoc]
  exact Tree.readNumeral_of_parts _ (Decimal.isWhole_digitsOf _) hrest.digit
    (Tree.readFraction_of_ne_point hrest.point) (Tree.readExponent_of_ne_mark hrest.mark)

theorem integer?_numeral (i : Int) :
    Numeral.integer? ⟨i < 0, digitsOf i.natAbs, [], none⟩ = some i := by
  simp only [Numeral.integer?, Numeral.isIntegral, Decimal.digitsValue_digitsOf,
    List.isEmpty_nil, Option.isNone_none, Bool.and_self, Bool.not_true, Bool.false_eq_true,
    if_false, decide_eq_true_eq]
  split
  · rw [if_neg (by omega)]
    congr 1
    omega
  · congr 1
    omega

theorem toJson?_integerText {i : Int} (h : isExactInteger i = true) :
    Numeral.toJson? ⟨i < 0, digitsOf i.natAbs, [], none⟩ = some (.integer i) := by
  rw [Numeral.toJson?, integer?_numeral, Option.filter_some, if_pos h]

/-! ## Floats -/

/-- A number with a point or an exponent denotes the float that it is rounded to. -/
theorem toJson?_of_float {numeral : Numeral} {x : Binary64.Finite}
    (hform : numeral.isIntegral = false) (hfloat : numeral.float = .finite x) :
    numeral.toJson? = some (.float x) := by
  have hinteger : numeral.integer? = none := by
    simp [Numeral.integer?, hform]
  rw [Numeral.toJson?, hinteger, hfloat]
  rfl

theorem readNumeral_positional (negative : Bool) (hwhole : IsWhole whole)
    (hfraction : ∀ c ∈ fraction, c.isDigit = true) (hrest : EndsNumber rest) :
    Tree.readNumeral (Binary64.signText negative ++ whole ++ '.' :: writtenFraction fraction ++
        rest) =
      some (⟨negative, whole, writtenFraction fraction, none⟩, rest) := by
  simp only [List.append_assoc, List.cons_append]
  refine Tree.readNumeral_of_parts negative hwhole ?_
    (Tree.readFraction_append (Decimal.writtenFraction_ne_nil fraction)
      (Decimal.isDigit_of_mem_writtenFraction hfraction) hrest.digit)
    (Tree.readExponent_of_ne_mark hrest.mark)
  simp

theorem float_positional (negative : Bool) (d : Decimal) :
    Numeral.float ⟨negative, d.positional.1, writtenFraction d.positional.2, none⟩ =
      Binary64.ofDecimal negative d.digits d.exponent := by
  rw [← Decimal.ofDecimal_positional, ← Decimal.ofDecimal_writtenFraction, Numeral.float,
    Option.getD_none, Int.zero_sub]

section Scientific

variable {first : Char} {others : List Char}

theorem scientific_eq (h : digitsOf d.digits = first :: others) :
    Binary64.scientific d =
      [first] ++ (if others.isEmpty then [] else '.' :: others) ++
        powerText (d.pointPosition - 1) := by
  cases others <;> simp [Binary64.scientific, h, powerText]

theorem isDigit_of_mem_split (hdigits : digitsOf d.digits = first :: others) :
    ∀ c ∈ first :: others, c.isDigit = true :=
  hdigits ▸ fun _ => Decimal.isDigit_of_mem_digitsOf

theorem readNumeral_scientific (negative : Bool) (hdigits : digitsOf d.digits = first :: others)
    (hfirst : IsWhole [first]) (hrest : EndsNumber rest) :
    Tree.readNumeral (Binary64.signText negative ++ Binary64.scientific d ++ rest) =
      some (⟨negative, [first], others, some (d.pointPosition - 1)⟩, rest) := by
  have hpower := Tree.readExponent_powerText (d.pointPosition - 1) hrest.digit
  have hmark := eq_mark_of_head?_powerText (d.pointPosition - 1) rest
  have hstop : ∀ c ∈ (powerText (d.pointPosition - 1) ++ rest).head?, c.isDigit = false := by
    intro c hc
    rw [hmark c hc]
    decide
  have hothers := (List.forall_mem_cons.1 (isDigit_of_mem_split hdigits)).2
  rw [scientific_eq hdigits, List.append_assoc, List.append_assoc, List.append_assoc]
  cases others with
  | nil =>
      exact Tree.readNumeral_of_parts negative hfirst hstop
        (Tree.readFraction_of_ne_point fun c hc => hmark c hc ▸ by decide) hpower
  | cons second others =>
      refine Tree.readNumeral_of_parts negative hfirst ?_
        (Tree.readFraction_append (List.cons_ne_nil second others) hothers hstop) hpower
      simp

theorem float_scientific (negative : Bool) (hdigits : digitsOf d.digits = first :: others) :
    Numeral.float ⟨negative, [first], others, some (d.pointPosition - 1)⟩ =
      Binary64.ofDecimal negative d.digits d.exponent := by
  have hvalue : Text.digitsValue (first :: others) = d.digits := by
    rw [← hdigits, Decimal.digitsValue_digitsOf]
  have hpoint : d.pointPosition = others.length + 1 + d.exponent := by
    rw [Decimal.pointPosition, hdigits, List.length_cons]
    rfl
  rw [Numeral.float, Option.getD_some, List.singleton_append, hvalue]
  dsimp only
  congr 1
  omega

theorem isWhole_singleton (h : d.digits ≠ 0) (hdigits : digitsOf d.digits = first :: others) :
    IsWhole [first] := by
  have hfirst := (List.forall_mem_cons.1 (isDigit_of_mem_split hdigits)).1
  have hhead := Decimal.head?_digitsOf_ne_zero h
  rw [hdigits] at hhead
  exact .of_head? rfl (fun heq => hhead (congrArg some heq)) (by simpa using hfirst)

end Scientific

theorem readNumeral_zero (negative : Bool) (hrest : EndsNumber rest) :
    Tree.readNumeral (Binary64.signText negative ++ ['0', '.', '0'] ++ rest) =
      some (⟨negative, ['0'], ['0'], none⟩, rest) := by
  have hread : Tree.readNumeral
      (Binary64.signText negative ++ ['0'] ++ '.' :: writtenFraction [] ++ rest) = _ :=
    readNumeral_positional negative Decimal.isWhole_zero (by simp) hrest
  simpa [writtenFraction] using hread

theorem float_zero (negative : Bool) :
    Numeral.float ⟨negative, ['0'], ['0'], none⟩ = .finite (.zero negative) := by
  have hvalue : Text.digitsValue (['0'] ++ ['0']) = 0 := by decide
  rw [Numeral.float, hvalue, Binary64.ofDecimal, if_pos rfl]

/-- The compact text of a number is read as a numeral that denotes the number. -/
theorem readNumeral_compactText (x : Binary64.Finite) (hrest : EndsNumber rest) :
    ∃ numeral, Tree.readNumeral (x.compactText ++ rest) = some (numeral, rest) ∧
      numeral.toJson? = some (.float x) := by
  by_cases hzero : x.significand = 0
  · have hfloat := float_zero x.negative
    rw [← Binary64.Finite.eq_zero_of_significand hzero] at hfloat
    rw [Binary64.Finite.compactText_of_zero hzero]
    exact ⟨_, readNumeral_zero x.negative hrest, toJson?_of_float rfl hfloat⟩
  · obtain ⟨d, hd⟩ : ∃ d, x.shortest .even = d := ⟨_, rfl⟩
    have hreads := Binary64.Finite.reads_shortest .even hzero
    rw [hd] at hreads
    have hdigits := Binary64.Finite.digits_ne_zero_of_reads hzero hreads
    rw [Binary64.Finite.reads_iff] at hreads
    by_cases hpoint : -5 < d.pointPosition ∧ d.pointPosition ≤ 16
    · rw [Binary64.Finite.compactText_of_positional hzero hd hpoint]
      refine ⟨_, readNumeral_positional x.negative (Decimal.isWhole_positional hdigits)
        (fun _ hc => Decimal.isDigit_of_mem_fraction hc) hrest, toJson?_of_float ?_ ?_⟩
      · simp [Numeral.isIntegral, Decimal.writtenFraction_ne_nil]
      · rw [float_positional, hreads]
    · rw [Binary64.Finite.compactText_of_scientific hzero hd hpoint]
      obtain ⟨first, others, hsplit⟩ :=
        List.exists_cons_of_ne_nil (Decimal.digitsOf_ne_nil d.digits)
      refine ⟨_, readNumeral_scientific x.negative hsplit (isWhole_singleton hdigits hsplit) hrest,
        toJson?_of_float ?_ ?_⟩
      · simp [Numeral.isIntegral]
      · rw [float_scientific x.negative hsplit, hreads]

end ObjectQuery.Json
