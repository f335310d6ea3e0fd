import Mathlib
import ObjectQuery.Proofs.Binary64.Nearest
import ObjectQuery.Scalar
/-!
# Comparing numbers

Integers are compared with each other exactly, and so are floats. An integer is rounded before it is
compared with a float. Rounding keeps order (`Values.rounded_le`), so the comparison never reverses
the order of the exact values: all it does is to take an integer for the float that it is rounded
to. Less and greater are transitive for that reason; equal is not.
-/

namespace ObjectQuery

namespace Binary64

/-- The exact value in units of `2 ^ (-1074)`, with the infinities at the ends. -/
def value? : Binary64 → Option EInt
  | .finite x => some (WithBotTop.coe x.units)
  | .infinite negative => some (if negative then ⊥ else ⊤)
  | .nan => none

theorem compares_units (x y : Finite) : (x.compare y).Compares x.units y.units := by
  unfold Finite.compare
  rcases Int.lt_trichotomy x.units y.units with hlt | heq | hgt
  · rw [Int.compare_eq_lt.2 hlt]
    exact hlt
  · rw [Int.compare_eq_eq.2 heq]
    exact heq
  · rw [Int.compare_eq_gt.2 hgt]
    exact hgt

theorem compares_coe {order : Ordering} {i j : Int} (h : order.Compares i j) :
    order.Compares (WithBotTop.coe i) (WithBotTop.coe j) := by
  cases order with
  | lt => exact WithBotTop.coe_lt_coe.2 h
  | eq => exact congrArg WithBotTop.coe h
  | gt => exact WithBotTop.coe_lt_coe.2 h

theorem bot_lt_value (x : Finite) : ⊥ < WithBotTop.coe x.units :=
  bot_lt_iff_ne_bot.2 (WithBotTop.coe_ne_bot _)

theorem value_lt_top (x : Finite) : WithBotTop.coe x.units < ⊤ :=
  lt_top_iff_ne_top.2 (WithBotTop.coe_ne_top _)

theorem exists_compare?_compares {x y : Binary64} {v w : EInt} (hx : x.value? = some v)
    (hy : y.value? = some w) : ∃ order, x.compare? y = some order ∧ order.Compares v w := by
  cases x with
  | nan => cases hx
  | finite x =>
      cases hx
      cases y with
      | nan => cases hy
      | finite y =>
          cases hy
          exact ⟨_, rfl, compares_coe (compares_units x y)⟩
      | infinite negative =>
          cases hy
          refine ⟨_, rfl, ?_⟩
          cases negative with
          | false => exact value_lt_top x
          | true => exact bot_lt_value x
  | infinite left =>
      cases hx
      cases y with
      | nan => cases hy
      | finite y =>
          cases hy
          refine ⟨_, rfl, ?_⟩
          cases left with
          | false => exact value_lt_top y
          | true => exact bot_lt_value y
      | infinite right =>
          cases hy
          refine ⟨_, rfl, ?_⟩
          cases left <;> cases right
          · exact rfl
          · exact WithBotTop.top_ne_bot.bot_lt
          · exact WithBotTop.top_ne_bot.bot_lt
          · exact rfl

end Binary64

namespace Scalar

def value? : Scalar → Option EInt
  | .integer i => some (WithBotTop.coe (Binary64.unitsOf i.toInt))
  | .float x => x.value?
  | _ => none

/-- The value with which a number is compared with a float: that of a float, to which an integer is
rounded. -/
def rounded? : Scalar → Option EInt
  | .integer i => (Binary64.ofInt i.toInt).value?
  | .float x => x.value?
  | _ => none

def isInteger : Scalar → Bool
  | .integer _ => true
  | _ => false

/-- One of two numbers is an integer, and the other one is the float to which it is rounded. -/
def RoundsTo (a b : Scalar) : Prop :=
  a.isInteger ≠ b.isInteger ∧ a.rounded? = b.rounded?

variable {a b c : Scalar} {x y z r s t : EInt}

theorem natAbs_toInt_lt (i : Int64) : i.toInt.natAbs < 2 ^ 64 := by
  have hlower := i.le_toInt
  have hupper := i.toInt_lt
  omega

/-- The two values of a number: those of a float are the same, and that of an integer is rounded to
a nearest one. -/
inductive Values : Scalar → EInt → EInt → Prop
  | float {f : Binary64} {x : EInt} (hvalue : f.value? = some x) : Values (.float f) x x
  | integer {i : Int64} {f : Binary64.Finite} (hround : Binary64.ofInt i.toInt = .finite f)
      (hnearest : f.Nearest (Binary64.unitsOf i.toInt)) :
      Values (.integer i) (WithBotTop.coe (Binary64.unitsOf i.toInt)) (WithBotTop.coe f.units)

theorem exists_values (h : a.value? = some x) : ∃ r, Values a x r := by
  cases a with
  | integer i =>
      cases h
      obtain ⟨f, hround, hnearest⟩ := Binary64.exists_ofInt_nearest (natAbs_toInt_lt i)
      exact ⟨_, .integer hround hnearest⟩
  | float f => exact ⟨x, .float h⟩
  | _ => cases h

theorem Values.rounded?_eq (h : Values a x r) : a.rounded? = some r := by
  cases h with
  | float hvalue => exact hvalue
  | integer hround => exact congrArg Binary64.value? hround

theorem unitsOf_le_iff {i j : Int} : Binary64.unitsOf i ≤ Binary64.unitsOf j ↔ i ≤ j :=
  Int.mul_le_mul_right (Int.natCast_pos.2 (Nat.two_pow_pos 1074))

theorem unitsOf_lt_iff {i j : Int} : Binary64.unitsOf i < Binary64.unitsOf j ↔ i < j :=
  Int.mul_lt_mul_right (Int.natCast_pos.2 (Nat.two_pow_pos 1074))

theorem le_value_of_nearest {f : Binary64.Finite} {g : Binary64} {value : Int}
    (hnearest : f.Nearest value) (hg : g.value? = some x) :
    (WithBotTop.coe value ≤ x → WithBotTop.coe f.units ≤ x) ∧
      (x ≤ WithBotTop.coe value → x ≤ WithBotTop.coe f.units) := by
  cases g with
  | nan => cases hg
  | finite g =>
      cases hg
      simp only [WithBotTop.coe_le_coe]
      exact ⟨hnearest.units_le, hnearest.le_units⟩
  | infinite negative =>
      cases hg
      cases negative with
      | false => exact ⟨fun _ => le_top, fun h => absurd (top_le_iff.1 h) (WithBotTop.coe_ne_top _)⟩
      | true => exact ⟨fun h => absurd (le_bot_iff.1 h) (WithBotTop.coe_ne_bot _), fun _ => bot_le⟩

theorem Values.rounded_le (ha : Values a x r) (hb : Values b y s) (hle : x ≤ y) : r ≤ s := by
  cases ha with
  | float hf =>
      cases hb with
      | float hg => exact hle
      | integer _ hnearest => exact (le_value_of_nearest hnearest hf).2 hle
  | @integer i f hf hnearest =>
      cases hb with
      | float hg => exact (le_value_of_nearest hnearest hg).1 hle
      | @integer j g hg hother =>
          rw [WithBotTop.coe_le_coe] at hle ⊢
          rcases Int.lt_or_eq_of_le hle with hlt | heq
          · exact hnearest.units_le_units hother hlt
          · have hsame : i.toInt = j.toInt :=
              Int.le_antisymm (unitsOf_le_iff.1 (Int.le_of_eq heq))
                (unitsOf_le_iff.1 (Int.le_of_eq heq.symm))
            rw [hsame, hg] at hf
            cases hf
            exact Int.le_refl _

/-- The order that the comparison gives: of exact values between two integers, else of the floats
that the numbers are rounded to. -/
theorem exists_compare?_compares (ha : Values a x r) (hb : Values b y s) :
    ∃ order, a.compare? b = some order ∧
      if a.isInteger && b.isInteger then order.Compares x y else order.Compares r s := by
  cases ha with
  | float hf =>
      cases hb with
      | float hg => exact Binary64.exists_compare?_compares hf hg
      | integer hround =>
          exact Binary64.exists_compare?_compares hf (congrArg Binary64.value? hround)
  | @integer i f hround =>
      cases hb with
      | float hg => exact Binary64.exists_compare?_compares (congrArg Binary64.value? hround) hg
      | @integer j g =>
          refine ⟨_, rfl, ?_⟩
          rcases Int.lt_trichotomy i.toInt j.toInt with hlt | heq | hgt
          · rw [Int.compare_eq_lt.2 hlt]
            exact WithBotTop.coe_lt_coe.2 (unitsOf_lt_iff.2 hlt)
          · rw [Int.compare_eq_eq.2 heq]
            exact congrArg (fun k => WithBotTop.coe (Binary64.unitsOf k)) heq
          · rw [Int.compare_eq_gt.2 hgt]
            exact WithBotTop.coe_lt_coe.2 (unitsOf_lt_iff.2 hgt)

theorem Values.roundsTo_iff (ha : Values a x r) (hb : Values b y s) :
    a.RoundsTo b ↔ a.isInteger ≠ b.isInteger ∧ r = s := by
  rw [RoundsTo, ha.rounded?_eq, hb.rounded?_eq, Option.some.injEq]

theorem RoundsTo.symm (h : a.RoundsTo b) : b.RoundsTo a :=
  ⟨h.1.symm, h.2.symm⟩

theorem Values.eq_of_not_isInteger (h : Values a x r) (hfloat : a.isInteger = false) : r = x := by
  cases h with
  | float => rfl
  | integer => cases hfloat

theorem Values.rounded_lt_iff (ha : Values a x r) (hb : Values b y s)
    (hmixed : (a.isInteger && b.isInteger) = false) : r < s ↔ x < y ∧ ¬ a.RoundsTo b := by
  rw [ha.roundsTo_iff hb]
  constructor
  · intro hlt
    exact ⟨lt_of_not_ge fun hle => hlt.not_ge (hb.rounded_le ha hle), fun h => hlt.ne h.2⟩
  · rintro ⟨hlt, hapart⟩
    refine lt_of_le_of_ne (ha.rounded_le hb hlt.le) fun heq => ?_
    by_cases hkind : a.isInteger = b.isInteger
    · rw [hkind, Bool.and_self] at hmixed
      rw [ha.eq_of_not_isInteger (hkind.trans hmixed), hb.eq_of_not_isInteger hmixed] at heq
      exact hlt.ne heq
    · exact hapart ⟨hkind, heq⟩

theorem Values.exists_order (ha : Values a x r) (hb : Values b y s) :
    ∃ order, a.compare? b = some order ∧ (order = .lt ↔ x < y ∧ ¬ a.RoundsTo b) ∧
      (order = .gt ↔ y < x ∧ ¬ a.RoundsTo b) := by
  obtain ⟨order, hcompare, horder⟩ := exists_compare?_compares ha hb
  refine ⟨order, hcompare, ?_⟩
  cases hkinds : a.isInteger && b.isInteger with
  | true =>
      obtain ⟨hfirst, hsecond⟩ := Bool.and_eq_true_iff.1 hkinds
      have hexact : ¬ a.RoundsTo b := fun h => h.1 (hfirst.trans hsecond.symm)
      rw [hkinds, if_pos rfl] at horder
      simp only [horder.eq_lt, horder.eq_gt, hexact, not_false_eq_true, and_true]
  | false =>
      have hswap : (b.isInteger && a.isInteger) = false := by rw [Bool.and_comm, hkinds]
      have hrounds : b.RoundsTo a ↔ a.RoundsTo b := ⟨RoundsTo.symm, RoundsTo.symm⟩
      rw [hkinds, if_neg Bool.false_ne_true] at horder
      rw [horder.eq_lt, horder.eq_gt, ha.rounded_lt_iff hb hkinds, hb.rounded_lt_iff ha hswap,
        hrounds]
      exact ⟨Iff.rfl, Iff.rfl⟩

theorem Values.compare?_eq_lt_iff (ha : Values a x r) (hb : Values b y s) :
    a.compare? b = some .lt ↔ x < y ∧ ¬ a.RoundsTo b := by
  obtain ⟨order, hcompare, hlt, -⟩ := ha.exists_order hb
  rw [hcompare, Option.some.injEq, hlt]

theorem Values.compare?_eq_gt_iff (ha : Values a x r) (hb : Values b y s) :
    a.compare? b = some .gt ↔ y < x ∧ ¬ a.RoundsTo b := by
  obtain ⟨order, hcompare, -, hgt⟩ := ha.exists_order hb
  rw [hcompare, Option.some.injEq, hgt]

theorem Values.compare?_eq_eq_iff (ha : Values a x r) (hb : Values b y s) :
    a.compare? b = some .eq ↔ x = y ∨ a.RoundsTo b := by
  obtain ⟨order, hcompare, hlt, hgt⟩ := ha.exists_order hb
  rw [hcompare, Option.some.injEq]
  constructor
  · rintro rfl
    by_contra hapart
    obtain ⟨hne, hrounds⟩ := not_or.1 hapart
    rcases lt_or_gt_of_ne hne with hless | hgreater
    · exact Ordering.noConfusion (hlt.2 ⟨hless, hrounds⟩)
    · exact Ordering.noConfusion (hgt.2 ⟨hgreater, hrounds⟩)
  · intro h
    have hnotlt : order ≠ .lt := fun heq =>
      h.elim (hlt.1 heq).1.ne (hlt.1 heq).2
    have hnotgt : order ≠ .gt := fun heq =>
      h.elim (fun hsame => (hgt.1 heq).1.ne hsame.symm) (hgt.1 heq).2
    cases order with
    | lt => exact absurd rfl hnotlt
    | eq => rfl
    | gt => exact absurd rfl hnotgt

/-- Between two numbers that one is rounded to lies no number that is told apart from both. -/
theorem Values.not_roundsTo_of_between (ha : Values a x r) (hb : Values b y s) (hc : Values c z t)
    (hfirst : x ≤ y) (hsecond : y ≤ z) (hab : ¬ a.RoundsTo b) (hbc : ¬ b.RoundsTo c) :
    ¬ a.RoundsTo c := by
  intro hac
  obtain ⟨hkinds, heq⟩ := (ha.roundsTo_iff hc).1 hac
  have hlower : r ≤ s := ha.rounded_le hb hfirst
  have hupper : s ≤ t := hb.rounded_le hc hsecond
  have hrs : r = s := le_antisymm hlower (heq ▸ hupper)
  have hst : s = t := hrs.symm.trans heq
  by_cases hkind : a.isInteger = b.isInteger
  · exact hbc ((hb.roundsTo_iff hc).2 ⟨hkind ▸ hkinds, hst⟩)
  · exact hab ((ha.roundsTo_iff hb).2 ⟨hkind, hrs⟩)

theorem eq_of_roundsTo {i : Int64} {f : Binary64} (hf : f.value? = some y)
    (hrounds : (Scalar.integer i).RoundsTo (.float f)) (hsmall : i.toInt.natAbs ≤ 2 ^ 53) :
    y = WithBotTop.coe (Binary64.unitsOf i.toInt) := by
  obtain ⟨g, hround, hunits⟩ := Binary64.exists_ofInt_units hsmall
  have hsame : (Binary64.ofInt i.toInt).value? = f.value? := hrounds.2
  rw [hround, hf, Binary64.value?, hunits] at hsame
  exact (Option.some.inj hsame).symm

theorem exists_large_of_roundsTo (hx : a.value? = some x) (hy : b.value? = some y)
    (hrounds : a.RoundsTo b) (hne : x ≠ y) :
    ∃ i, (a = .integer i ∨ b = .integer i) ∧ 2 ^ 53 < i.toInt.natAbs := by
  cases a with
  | integer i =>
      cases b with
      | float f =>
          refine ⟨i, Or.inl rfl, Nat.lt_of_not_le fun hsmall => hne ?_⟩
          rw [eq_of_roundsTo hy hrounds hsmall]
          exact (Option.some.inj hx).symm
      | integer j => exact absurd rfl hrounds.1
      | _ => cases hy
  | float f =>
      cases b with
      | integer i =>
          refine ⟨i, Or.inr rfl, Nat.lt_of_not_le fun hsmall => hne ?_⟩
          rw [eq_of_roundsTo hx hrounds.symm hsmall]
          exact Option.some.inj hy
      | float g => exact absurd rfl hrounds.1
      | _ => cases hy
  | _ => cases hx

/-- Numbers are compared by their exact values, except that an integer beyond `2 ^ 53` counts as
equal to the float that it is rounded to. Less and greater therefore agree with the values, and each
is transitive. -/
theorem compare?_orders_values (hx : a.value? = some x) (hy : b.value? = some y) :
    (a.compare? b = some .lt ↔ x < y ∧ ¬ a.RoundsTo b) ∧
    (a.compare? b = some .eq ↔ x = y ∨ a.RoundsTo b) ∧
    (a.compare? b = some .gt ↔ y < x ∧ ¬ a.RoundsTo b) ∧
    (a.RoundsTo b → x = y ∨ ∃ i, (a = .integer i ∨ b = .integer i) ∧ 2 ^ 53 < i.toInt.natAbs) ∧
    ∀ c z, c.value? = some z →
      (a.compare? b = some .lt → b.compare? c = some .lt → a.compare? c = some .lt) ∧
        (a.compare? b = some .gt → b.compare? c = some .gt → a.compare? c = some .gt) := by
  obtain ⟨r, ha⟩ := exists_values hx
  obtain ⟨s, hb⟩ := exists_values hy
  refine ⟨ha.compare?_eq_lt_iff hb, ha.compare?_eq_eq_iff hb, ha.compare?_eq_gt_iff hb, ?_, ?_⟩
  · intro hrounds
    by_cases heq : x = y
    · exact Or.inl heq
    · exact Or.inr (exists_large_of_roundsTo hx hy hrounds heq)
  · intro c z hz
    obtain ⟨t, hc⟩ := exists_values hz
    rw [ha.compare?_eq_lt_iff hb, hb.compare?_eq_lt_iff hc, ha.compare?_eq_lt_iff hc,
      ha.compare?_eq_gt_iff hb, hb.compare?_eq_gt_iff hc, ha.compare?_eq_gt_iff hc]
    constructor
    · rintro ⟨hxy, hab⟩ ⟨hyz, hbc⟩
      exact ⟨hxy.trans hyz, ha.not_roundsTo_of_between hb hc hxy.le hyz.le hab hbc⟩
    · rintro ⟨hyx, hab⟩ ⟨hzy, hbc⟩
      have hca := hc.not_roundsTo_of_between hb ha hzy.le hyx.le (fun h => hbc h.symm)
        (fun h => hab h.symm)
      exact ⟨hzy.trans hyx, fun h => hca h.symm⟩

def twoPow53 : Binary64.Finite :=
  ⟨false, 2 ^ 52, 1075, by decide, by decide, by decide⟩

theorem units_twoPow53 : twoPow53.units = Binary64.unitsOf 9007199254740992 := by
  decide +kernel

theorem value_twoPow53_lt :
    WithBotTop.coe twoPow53.units < WithBotTop.coe (Binary64.unitsOf 9007199254740993) := by
  rw [WithBotTop.coe_lt_coe, units_twoPow53, unitsOf_lt_iff]
  decide

/-- The integer behind `2 ^ 53` is taken for `2 ^ 53`. It lies between the infinities, and so one
of them is less than the other. -/
theorem compare?_orders_values_twoPow53 :
    (Scalar.integer 9007199254740993).compare? (.float (.finite twoPow53)) = some .eq ∧
    (∃ i, (Scalar.integer 9007199254740993 = .integer i ∨
      Scalar.float (.finite twoPow53) = .integer i) ∧ 2 ^ 53 < i.toInt.natAbs) ∧
    (Scalar.float (.infinite true)).compare? (.integer 9007199254740993) = some .lt ∧
    (Scalar.integer 9007199254740993).compare? (.float (.infinite false)) = some .lt ∧
    (Scalar.float (.infinite true)).compare? (.float (.infinite false)) = some .lt := by
  have hround : Binary64.ofInt (9007199254740993 : Int64).toInt = .finite twoPow53 := by
    decide +kernel
  have hrounds : (Scalar.integer 9007199254740993).RoundsTo (.float (.finite twoPow53)) :=
    ⟨by decide, by simp only [rounded?, hround]⟩
  obtain ⟨-, hequal, -, hlarge, -⟩ :=
    compare?_orders_values (a := .integer 9007199254740993) (b := .float (.finite twoPow53)) rfl rfl
  obtain ⟨-, -, -, -, htrans⟩ :=
    compare?_orders_values (a := .float (.infinite true)) (b := .integer 9007199254740993) rfl rfl
  have hlower :
      (Scalar.float (.infinite true)).compare? (.integer 9007199254740993) = some .lt := by
    decide +kernel
  have hupper : (Scalar.integer 9007199254740993).compare? (.float (.infinite false)) =
      some .lt := by
    decide +kernel
  exact ⟨hequal.2 (Or.inr hrounds), (hlarge hrounds).resolve_left value_twoPow53_lt.ne', hlower,
    hupper, (htrans _ _ rfl).1 hlower hupper⟩

/-- The integer behind `2 ^ 53` is compared as equal to the float `2 ^ 53`, though it is greater.
The float is compared as equal to the integer `2 ^ 53`, but the integers are not. -/
theorem compare?_of_rounded :
    (Scalar.integer 9007199254740993).compare? (.float (.finite twoPow53)) = some .eq ∧
    (∃ x y, (Scalar.integer 9007199254740993).value? = some x ∧
      (Scalar.float (.finite twoPow53)).value? = some y ∧ y < x) ∧
    (Scalar.float (.finite twoPow53)).compare? (.integer 9007199254740992) = some .eq ∧
    (Scalar.integer 9007199254740993).compare? (.integer 9007199254740992) = some .gt := by
  refine ⟨by decide +kernel, ⟨_, _, rfl, rfl, value_twoPow53_lt⟩, by decide +kernel, by decide⟩

end Scalar

end ObjectQuery
