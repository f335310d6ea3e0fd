import ObjectQuery.Text.Lowercase
/-!
# Lower-casing a part of a text

Only a capital sigma has a lower-case form that depends on the text around it. A part of a text is
therefore lower-cased as it is by itself just if each capital sigma of the part is final in the text
and in the part, or in neither (`keepsSigmas_iff`).
-/

namespace ObjectQuery.Text

/-- Whether a capital sigma between a reversed text and another one is final. -/
def isFinal (before after : List Char) : Bool :=
  startsCased before && !startsCased after

def lowerBetween (before : List Char) (c : Char) (after : List Char) : List Char :=
  if c = '\u03A3' then [if isFinal before after then '\u03C2' else '\u03C3'] else lowerChar c

/-- Lower-cases a part that stands between a reversed text and another one. -/
def lowerWithin (before : List Char) : List Char → List Char → List Char
  | [], _ => []
  | c :: rest, after =>
      lowerBetween before c (rest ++ after) ++ lowerWithin (c :: before) rest after

/-- A capital sigma of a part between a reversed text and another one is final there just if it is
final in the part by itself. -/
def KeepsSigmas (before part after : List Char) : Prop :=
  ∀ lead rest, part = lead ++ '\u03A3' :: rest →
    isFinal (lead.reverse ++ before) (rest ++ after) = isFinal lead.reverse rest

variable {before other part after behind : List Char} {c : Char}

/-! ## Single characters -/

theorem lowerBetween_eq_iff :
    lowerBetween before c after = lowerBetween other c behind ↔
      (c = '\u03A3' → isFinal before after = isFinal other behind) := by
  by_cases hc : c = '\u03A3'
  · simp only [lowerBetween, hc, if_true, true_imp_iff]
    cases isFinal before after <;> cases isFinal other behind <;> decide
  · simp [lowerBetween, hc]

theorem length_lowerBetween :
    (lowerBetween before c after).length = (lowerBetween other c behind).length := by
  by_cases hc : c = '\u03A3'
  · simp only [lowerBetween, if_pos hc, List.length_singleton]
  · simp only [lowerBetween, if_neg hc]

/-! ## Parts -/

theorem lowerWithin_append (before part rest after : List Char) :
    lowerWithin before (part ++ rest) after =
      lowerWithin before part (rest ++ after) ++
        lowerWithin (part.reverse ++ before) rest after := by
  induction part generalizing before with
  | nil => rfl
  | cons c part ih =>
      rw [List.cons_append, lowerWithin, lowerWithin, ih, List.reverse_cons, List.append_assoc,
        List.append_assoc, List.append_assoc, List.singleton_append]

theorem lowerAfter_eq (before text : List Char) :
    lowerAfter before text = lowerWithin before text [] := by
  induction text generalizing before with
  | nil => rfl
  | cons c rest ih =>
      rw [lowerWithin, List.append_nil, ← ih]
      rfl

theorem lowercase_eq (text : List Char) : lowercase text = lowerWithin [] text [] :=
  lowerAfter_eq [] text

theorem length_lowerWithin :
    (lowerWithin before part after).length = (lowerWithin other part behind).length := by
  induction part generalizing before other with
  | nil => rfl
  | cons c part ih =>
      rw [lowerWithin, lowerWithin, List.length_append, List.length_append, length_lowerBetween, ih]

/-- Two texts around a part count alike for it just if they make the same capital sigmas final. -/
theorem lowerWithin_eq_iff :
    lowerWithin before part after = lowerWithin other part behind ↔
      ∀ lead rest, part = lead ++ '\u03A3' :: rest →
        isFinal (lead.reverse ++ before) (rest ++ after) =
          isFinal (lead.reverse ++ other) (rest ++ behind) := by
  induction part generalizing before other with
  | nil => simp [lowerWithin]
  | cons c part ih =>
      -- the image of the first character is as long in both texts, so the images are compared apart
      have hsplit : lowerWithin before (c :: part) after = lowerWithin other (c :: part) behind ↔
          lowerBetween before c (part ++ after) = lowerBetween other c (part ++ behind) ∧
            lowerWithin (c :: before) part after = lowerWithin (c :: other) part behind := by
        refine ⟨fun h => List.append_inj h length_lowerBetween, fun ⟨hfirst, hrest⟩ => ?_⟩
        rw [lowerWithin, lowerWithin, hfirst, hrest]
      rw [hsplit, lowerBetween_eq_iff, ih]
      constructor
      · rintro ⟨hfirst, hrest⟩ lead rest heq
        rcases List.cons_eq_append_iff.1 heq with ⟨rfl, hsigma⟩ | ⟨later, rfl, hpart⟩
        · obtain ⟨rfl, rfl⟩ := List.cons.inj hsigma
          exact hfirst rfl
        · simpa using hrest later rest hpart
      · intro h
        refine ⟨?_, fun lead rest hpart => ?_⟩
        · rintro rfl
          exact h [] part rfl
        · simpa using h (c :: lead) rest (congrArg (c :: ·) hpart)

/-- A part is lower-cased as it is by itself just if its capital sigmas are kept. -/
theorem keepsSigmas_iff :
    KeepsSigmas before part after ↔ lowerWithin before part after = lowercase part := by
  rw [lowercase_eq, lowerWithin_eq_iff]
  simp only [KeepsSigmas, List.append_nil]

/-! ## Prefixes, suffixes and parts -/

theorem lowercase_isPrefix_iff :
    lowercase part <+: lowercase (part ++ after) ↔ KeepsSigmas [] part after := by
  have happend := lowerWithin_append [] part after []
  rw [List.append_nil, ← lowercase_eq] at happend
  have hprefix : lowerWithin [] part after <+: lowercase (part ++ after) := ⟨_, happend.symm⟩
  have hlength : (lowerWithin [] part after).length = (lowercase part).length := by
    rw [lowercase_eq]
    exact length_lowerWithin
  rw [keepsSigmas_iff]
  constructor
  · intro h
    exact (List.prefix_of_prefix_length_le hprefix h (Nat.le_of_eq hlength)).eq_of_length hlength
  · intro h
    rwa [h] at hprefix

theorem lowercase_isSuffix_iff :
    lowercase part <:+ lowercase (before ++ part) ↔ KeepsSigmas before.reverse part [] := by
  have happend := lowerWithin_append [] before part []
  rw [List.append_nil, List.append_nil, ← lowercase_eq] at happend
  have hsuffix : lowerWithin before.reverse part [] <:+ lowercase (before ++ part) :=
    ⟨_, happend.symm⟩
  have hlength : (lowerWithin before.reverse part []).length = (lowercase part).length := by
    rw [lowercase_eq]
    exact length_lowerWithin
  rw [keepsSigmas_iff]
  constructor
  · intro h
    exact (List.suffix_of_suffix_length_le hsuffix h (Nat.le_of_eq hlength)).eq_of_length hlength
  · intro h
    rwa [h] at hsuffix

theorem lowercase_isInfix (h : KeepsSigmas before.reverse part after) :
    lowercase part <:+: lowercase (before ++ part ++ after) := by
  refine ⟨lowerWithin [] before (part ++ after), lowerWithin (before ++ part).reverse after [], ?_⟩
  rw [lowercase_eq (before ++ part ++ after), lowerWithin_append, lowerWithin_append,
    List.append_nil, List.append_nil, List.append_nil, keepsSigmas_iff.1 h]

end ObjectQuery.Text
