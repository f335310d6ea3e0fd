import ObjectQuery.Proofs.Selector.Characters
import ObjectQuery.Proofs.Selector.Rules
/-!
# Literals as they are written

The texts of strings, numbers, truth values and operands without quotes, and what it takes for each
of them to be read.
-/

namespace ObjectQuery.Selector

open Grammar

/-! ## Strings -/

/-- A text in which a backslash precedes every quote. -/
def escaped (quote : Char) (text : List Char) : List Char :=
  text.flatMap fun c => if c = quote then ['\\', quote] else [c]

def quotedText (quote : Char) (text : List Char) : List Char :=
  quote :: (escaped quote text ++ [quote])

theorem escaped_cons_quote (quote : Char) (text : List Char) :
    escaped quote (quote :: text) = '\\' :: quote :: escaped quote text := by
  simp [escaped]

theorem escaped_cons_of_ne {quote c : Char} (h : c ≠ quote) (text : List Char) :
    escaped quote (c :: text) = c :: escaped quote text := by
  simp [escaped, h]

abbrev quotedItem (quote : Char) : Grammar Char :=
  .choice (.dropLeft (.char '\\') (.char quote)) (.satisfy (· != quote))

theorem read_escape_iff {quote c : Char} {text rest : List Char} :
    (Peg.dropLeft (.char '\\') (.char quote) : Grammar Char).read text = some (c, rest) ↔
      text = '\\' :: quote :: rest ∧ c = quote := by
  rw [Peg.read_dropLeft_iff]
  constructor
  · rintro ⟨d, middle, hslash, hquote⟩
    obtain ⟨rfl, -⟩ := Peg.read_char_iff.1 hslash
    obtain ⟨rfl, rfl⟩ := Peg.read_char_iff.1 hquote
    exact ⟨rfl, rfl⟩
  · rintro ⟨rfl, rfl⟩
    exact ⟨'\\', _, Peg.read_char '\\' _, Peg.read_char c _⟩

theorem read_escape (quote : Char) (rest : List Char) :
    (Peg.dropLeft (.char '\\') (.char quote) : Grammar Char).read ('\\' :: quote :: rest) =
      some (quote, rest) :=
  Peg.read_dropLeft (Peg.read_char '\\' _) (Peg.read_char quote rest)

theorem read_escape_eq_none {quote : Char} {text : List Char}
    (h : ∀ rest, text ≠ '\\' :: quote :: rest) :
    (Peg.dropLeft (.char '\\') (.char quote) : Grammar Char).read text = none := by
  cases hread : (Peg.dropLeft (.char '\\') (.char quote) : Grammar Char).read text with
  | none => rfl
  | some result =>
      obtain ⟨c, rest⟩ := result
      exact absurd (read_escape_iff.1 hread).1 (h rest)

theorem quotedItem_eq_none_iff {quote : Char} {text : List Char} (hquote : quote ≠ '\\') :
    (quotedItem quote).read text = none ↔ ∀ c ∈ text.head?, c = quote := by
  rw [Peg.read_choice_eq_none_iff, Peg.read_satisfy_eq_none_iff]
  constructor
  · rintro ⟨-, hstops⟩ c hc
    simpa using hstops c hc
  · intro h
    refine ⟨read_escape_eq_none ?_, fun c hc => by simpa using h c hc⟩
    rintro rest rfl
    exact hquote (h '\\' (by simp)).symm

theorem escaped_append_ne {quote : Char} (hquote : quote ≠ '\\') {value : List Char}
    (hvalue : value ≠ []) (tail rest : List Char) :
    escaped quote value ++ tail ≠ quote :: rest := by
  obtain ⟨c, value, rfl⟩ := List.exists_cons_of_ne_nil hvalue
  intro h
  by_cases hc : c = quote
  · subst hc
    rw [escaped_cons_quote] at h
    exact hquote (List.cons.inj h).1.symm
  · rw [escaped_cons_of_ne hc] at h
    exact hc (List.cons.inj h).1

theorem getLast?_ne_of_cons {c d : Char} {value : List Char}
    (h : (c :: value).getLast? ≠ some d) : value.getLast? ≠ some d := by
  intro hvalue
  cases value with
  | nil => cases hvalue
  | cons e value => exact h (by rw [List.getLast?_cons_cons, hvalue])

/-- The characters of a string are read up to a quote that no backslash precedes. -/
theorem read_quotedItems {quote : Char} (hquote : quote ≠ '\\') {value : List Char}
    (hlast : value.getLast? ≠ some '\\') (rest : List Char) :
    (Peg.many (quotedItem quote)).read (escaped quote value ++ quote :: rest) =
      some (value, quote :: rest) := by
  induction value with
  | nil => exact Peg.read_many_of_none ((quotedItem_eq_none_iff hquote).2 (by simp [escaped]))
  | cons c value ih =>
      have hlater := ih (getLast?_ne_of_cons hlast)
      by_cases hc : c = quote
      · subst hc
        have hitem := Peg.read_choice_left (.satisfy (· != c))
          (read_escape c (escaped c value ++ c :: rest))
        rw [escaped_cons_quote]
        exact Peg.read_many_of_some (quoted_item_consumes c) hitem hlater
      · have hescape : ∀ tail, c :: (escaped quote value ++ quote :: rest) ≠
            '\\' :: quote :: tail := by
          intro tail htail
          obtain ⟨rfl, hvalue⟩ := List.cons.inj htail
          have hempty : value = [] := by
            by_contra hne
            exact escaped_append_ne hquote hne _ _ hvalue
          subst hempty
          exact hlast rfl
        have hitem : (quotedItem quote).read (c :: (escaped quote value ++ quote :: rest)) =
            some (c, escaped quote value ++ quote :: rest) :=
          Peg.read_choice_right (read_escape_eq_none hescape)
            (Peg.read_satisfy (by simpa using hc) _)
        rw [escaped_cons_of_ne hc]
        exact Peg.read_many_of_some (quoted_item_consumes quote) hitem hlater

theorem eq_escaped_of_rounds {quote : Char} {text value rest : List Char}
    (h : Reader.Rounds (quotedItem quote).read text value rest) :
    text = escaped quote value ++ rest ∧
      (rest.head? = some quote → quote ≠ '\\' → value.getLast? ≠ some '\\') := by
  induction h with
  | stop _ => exact ⟨rfl, by simp⟩
  | @next text middle rest c value hread _ hrounds ih =>
      obtain ⟨rfl, hlast⟩ := ih
      rcases Peg.read_choice_iff.1 hread with hescape | ⟨hescape, hsatisfy⟩
      · obtain ⟨rfl, rfl⟩ := read_escape_iff.1 hescape
        rw [escaped_cons_quote]
        refine ⟨rfl, fun hhead hquote => ?_⟩
        cases value with
        | nil => simpa using hquote
        | cons d value => exact hlast hhead hquote
      · obtain ⟨rfl, hc⟩ := Peg.read_satisfy_iff.1 hsatisfy
        rw [escaped_cons_of_ne (by simpa using hc)]
        refine ⟨rfl, fun hhead hquote => ?_⟩
        cases value with
        | nil =>
            intro hslash
            obtain ⟨tail, rfl⟩ := List.head?_eq_some_iff.1 hhead
            obtain rfl : c = '\\' := by simpa using hslash
            have hsome := (read_escape quote tail).symm.trans hescape
            cases hsome
        | cons d value => exact hlast hhead hquote

theorem read_quoted_iff {quote : Char} (hquote : quote ≠ '\\') {text value rest : List Char} :
    (quoted quote).read text = some (value, rest) ↔
      text = quotedText quote value ++ rest ∧ value.getLast? ≠ some '\\' := by
  constructor
  · intro h
    obtain ⟨c, middle, hopen, hlater⟩ := Peg.read_dropLeft_iff.1 h
    obtain ⟨rfl, -⟩ := Peg.read_char_iff.1 hopen
    obtain ⟨d, tail, hitems, hclose⟩ := Peg.read_dropRight_iff.1 hlater
    obtain ⟨rfl, -⟩ := Peg.read_char_iff.1 hclose
    obtain ⟨rfl, hlast⟩ := eq_escaped_of_rounds (Peg.read_many_iff.1 hitems)
    exact ⟨by simp [quotedText], hlast rfl hquote⟩
  · rintro ⟨rfl, hlast⟩
    have htext : quotedText quote value ++ rest =
        quote :: (escaped quote value ++ quote :: rest) := by
      simp [quotedText]
    rw [htext]
    apply Peg.read_dropLeft (Peg.read_char quote _)
    exact Peg.read_dropRight (read_quotedItems hquote hlast rest) (Peg.read_char quote rest)

def IsQuote (c : Char) : Prop :=
  c = '"' ∨ c = '\''

theorem read_quoted_eq_none {quote : Char} {text : List Char} (h : ∀ rest, text ≠ quote :: rest) :
    (quoted quote).read text = none := by
  unfold quoted
  rw [Peg.read_dropLeft_eq_none_iff]
  intro c middle hread
  exact absurd (Peg.read_char_iff.1 hread).1 (h middle)

theorem read_string_iff {text rest : List Char} {found : Operand} :
    string.read text = some (found, rest) ↔
      ∃ quote value, found = .string (String.ofList value) ∧ IsQuote quote ∧
        text = quotedText quote value ++ rest ∧ value.getLast? ≠ some '\\' := by
  have hdouble : '"' ≠ '\\' := by decide
  have hsingle : '\'' ≠ '\\' := by decide
  unfold string
  rw [Peg.read_map_iff]
  constructor
  · rintro ⟨value, hread, rfl⟩
    rcases Peg.read_choice_iff.1 hread with hread | ⟨-, hread⟩
    · exact ⟨'"', value, rfl, Or.inl rfl, (read_quoted_iff hdouble).1 hread⟩
    · exact ⟨'\'', value, rfl, Or.inr rfl, (read_quoted_iff hsingle).1 hread⟩
  · rintro ⟨quote, value, rfl, rfl | rfl, htext⟩
    · exact ⟨value, Peg.read_choice_left _ ((read_quoted_iff hdouble).2 htext), rfl⟩
    · have hfirst : ∀ tail, text ≠ '"' :: tail := by
        rw [htext.1]
        intro tail heq
        exact absurd (List.cons.inj heq).1 (by decide)
      exact ⟨value, Peg.read_choice_right (read_quoted_eq_none hfirst)
        ((read_quoted_iff hsingle).2 htext), rfl⟩

theorem read_string_eq_none {text : List Char} (h : ∀ c rest, text = c :: rest → ¬ IsQuote c) :
    string.read text = none := by
  unfold string
  rw [Peg.read_map_eq_none_iff, Peg.read_choice_eq_none_iff]
  exact ⟨read_quoted_eq_none fun rest htext => h _ rest htext (Or.inl rfl),
    read_quoted_eq_none fun rest htext => h _ rest htext (Or.inr rfl)⟩

/-! ## Numbers -/

def IsDigits (text : List Char) : Prop :=
  text ≠ [] ∧ ∀ c ∈ text, c.isDigit = true

/-- A number with its sign, the digits of its whole part and of its fraction. -/
def numberText (negative : Bool) (whole : List Char) (fraction : Option (List Char)) : List Char :=
  (if negative then ['-'] else []) ++ (whole ++ fraction.elim [] ('.' :: ·))

/-- A text that starts with a digit or with a minus and a digit. -/
def StartsNumber (text : List Char) : Prop :=
  ∃ sign c rest, (sign = [] ∨ sign = ['-']) ∧ text = sign ++ c :: rest ∧ c.isDigit = true

abbrev magnitude : Grammar (List Char × Option (List Char)) :=
  .seq (.run1 Char.isDigit) (.optional (.dropLeft (.char '.') (.run1 Char.isDigit)))

theorem read_magnitude_eq_none_iff {text : List Char} :
    magnitude.read text = none ↔ Stops Char.isDigit text := by
  rw [Peg.read_seq_eq_none_iff, ← Peg.read_run1_eq_none_iff (V := Rule.Value)]
  constructor
  · intro h
    cases hread : (Peg.run1 Char.isDigit : Grammar (List Char)).read text with
    | none => rfl
    | some result =>
        obtain ⟨fraction, rest, hfraction⟩ := Peg.exists_read_optional
          (Peg.dropLeft (.char '.') (.run1 Char.isDigit) : Grammar (List Char)) result.2
        have hnone := h result.1 result.2 hread
        rw [hfraction] at hnone
        cases hnone
  · intro h digits middle hread
    rw [h] at hread
    cases hread

theorem read_number_eq_none_iff {text : List Char} :
    number.read text = none ↔ ¬ StartsNumber text := by
  unfold number
  rw [Peg.read_map_eq_none_iff, Peg.read_seq_eq_none_iff]
  constructor
  · rintro h ⟨sign, c, rest, rfl | rfl, rfl, hc⟩
    · have hsign : (Peg.char '-' : Grammar Char).read (c :: rest) = none := by
        rw [Peg.read_char_eq_none_iff]
        rintro tail htail
        rw [(List.cons.inj htail).1] at hc
        cases hc
      have hnone := h none _ (Peg.read_optional_absent hsign)
      have hstops : Stops Char.isDigit (c :: rest) := read_magnitude_eq_none_iff.1 hnone
      rw [Stops.cons_iff, hc] at hstops
      cases hstops
    · have hnone := h (some '-') _ (Peg.read_optional_present (Peg.read_char '-' (c :: rest)))
      have hstops : Stops Char.isDigit (c :: rest) := read_magnitude_eq_none_iff.1 hnone
      rw [Stops.cons_iff, hc] at hstops
      cases hstops
  · intro h sign middle hsign
    rw [read_magnitude_eq_none_iff]
    intro c hc
    by_contra hdigit
    obtain ⟨rest, rfl⟩ := List.head?_eq_some_iff.1 hc
    rcases Peg.read_optional_iff.1 hsign with ⟨d, rfl, hchar⟩ | ⟨rfl, rfl, -⟩
    · obtain ⟨rfl, -⟩ := Peg.read_char_iff.1 hchar
      exact h ⟨['-'], c, rest, Or.inr rfl, rfl, by simpa using hdigit⟩
    · exact h ⟨[], c, rest, Or.inl rfl, rfl, by simpa using hdigit⟩

theorem stops_isDigit {text : List Char} (h : Stops isBareChar text) : Stops Char.isDigit text :=
  h.mono fun _ hc => isBareChar_of_isNameChar (isNameChar_of_isDigit hc)

theorem read_fraction_eq_none {text : List Char} (h : Stops isBareChar text) :
    (Peg.dropLeft (.char '.') (.run1 Char.isDigit) : Grammar (List Char)).read text = none := by
  rw [Peg.read_dropLeft_eq_none_iff]
  intro c middle hread
  obtain ⟨rfl, -⟩ := Peg.read_char_iff.1 hread
  have hpoint := Stops.cons_iff.1 h
  exact absurd hpoint (by decide)

theorem read_magnitude {whole rest : List Char} {fraction : Option (List Char)}
    (hwhole : IsDigits whole) (hfraction : ∀ digits ∈ fraction, IsDigits digits)
    (hrest : Stops isBareChar rest) :
    magnitude.read (whole ++ (fraction.elim [] ('.' :: ·) ++ rest)) =
      some ((whole, fraction), rest) := by
  obtain ⟨hne, hdigits⟩ := hwhole
  cases fraction with
  | none =>
      apply Peg.read_seq (Peg.read_run1 hne hdigits (stops_isDigit hrest))
      exact Peg.read_optional_absent (read_fraction_eq_none hrest)
  | some digits =>
      obtain ⟨hsome, hafter⟩ := hfraction digits rfl
      have hpoint : Stops Char.isDigit ('.' :: (digits ++ rest)) := Stops.cons_iff.2 (by decide)
      apply Peg.read_seq (Peg.read_run1 hne hdigits hpoint)
      apply Peg.read_optional_present
      apply Peg.read_dropLeft (Peg.read_char '.' _)
      exact Peg.read_run1 hsome hafter (stops_isDigit hrest)

theorem read_sign (negative : Bool) {whole : List Char} (hwhole : IsDigits whole)
    (rest : List Char) :
    (Peg.optional (.char '-') : Grammar (Option Char)).read
      ((if negative then ['-'] else []) ++ (whole ++ rest)) =
        some (if negative then some '-' else none, whole ++ rest) := by
  cases negative with
  | true => exact Peg.read_optional_present (Peg.read_char '-' _)
  | false =>
      apply Peg.read_optional_absent
      obtain ⟨hne, hdigits⟩ := hwhole
      obtain ⟨c, whole, rfl⟩ := List.exists_cons_of_ne_nil hne
      rw [Peg.read_char_eq_none_iff]
      intro tail htail
      have hc := hdigits c (by simp)
      rw [(List.cons.inj htail).1] at hc
      cases hc

theorem read_number {negative : Bool} {whole rest : List Char} {fraction : Option (List Char)}
    (hwhole : IsDigits whole) (hfraction : ∀ digits ∈ fraction, IsDigits digits)
    (hrest : Stops isBareChar rest) :
    number.read (numberText negative whole fraction ++ rest) =
      some (numberOperand negative whole fraction, rest) := by
  unfold numberText
  rw [List.append_assoc, List.append_assoc]
  have hparts := Peg.read_seq (read_sign negative hwhole _) (read_magnitude hwhole hfraction hrest)
  refine Peg.read_map_iff.2 ⟨_, hparts, ?_⟩
  cases negative <;> rfl

theorem numberText_of_read {text rest : List Char} {found : Operand}
    (h : number.read text = some (found, rest)) :
    ∃ negative whole fraction, IsDigits whole ∧ (∀ digits ∈ fraction, IsDigits digits) ∧
      found = numberOperand negative whole fraction ∧
      text = numberText negative whole fraction ++ rest := by
  obtain ⟨⟨sign, whole, fraction⟩, hseq, rfl⟩ := Peg.read_map_iff.1 h
  obtain ⟨middle, hsign, hmagnitude⟩ := Peg.read_seq_iff.1 hseq
  obtain ⟨tail, hwhole, hfraction⟩ := Peg.read_seq_iff.1 hmagnitude
  obtain ⟨rfl, hne, hdigits, -⟩ := Peg.read_run1_iff.1 hwhole
  have htail : tail = fraction.elim [] ('.' :: ·) ++ rest ∧
      ∀ digits ∈ fraction, IsDigits digits := by
    rcases Peg.read_optional_iff.1 hfraction with ⟨digits, rfl, hread⟩ | ⟨rfl, rfl, -⟩
    · obtain ⟨c, middle, hpoint, hrun⟩ := Peg.read_dropLeft_iff.1 hread
      obtain ⟨rfl, -⟩ := Peg.read_char_iff.1 hpoint
      obtain ⟨rfl, hsome, hafter, -⟩ := Peg.read_run1_iff.1 hrun
      refine ⟨rfl, ?_⟩
      rintro _ ⟨⟩
      exact ⟨hsome, hafter⟩
    · exact ⟨rfl, by simp⟩
  obtain ⟨rfl, hfractions⟩ := htail
  refine ⟨sign.isSome, whole, fraction, ⟨hne, hdigits⟩, hfractions, rfl, ?_⟩
  unfold numberText
  rw [List.append_assoc, List.append_assoc]
  rcases Peg.read_optional_iff.1 hsign with ⟨c, rfl, hchar⟩ | ⟨rfl, rfl, -⟩
  · exact (Peg.read_char_iff.1 hchar).1
  · rfl

/-! ## Truth values -/

def truthText (value : Bool) : List Char :=
  if value then ['t', 'r', 'u', 'e'] else ['f', 'a', 'l', 's', 'e']

def StartsTruth (text : List Char) : Prop :=
  ∃ value taken rest, text = taken ++ rest ∧ taken.map Char.toLower = truthText value

theorem read_boolean_iff {text rest : List Char} {found : Operand} :
    boolean.read text = some (found, rest) ↔
      ∃ value taken, found = .boolean value ∧ text = taken ++ rest ∧
        taken.map Char.toLower = truthText value := by
  unfold boolean
  rw [Peg.read_choice_iff, Peg.read_map_iff, Peg.read_map_iff, Peg.read_map_eq_none_iff]
  constructor
  · rintro (⟨⟨⟩, hread, rfl⟩ | ⟨-, ⟨⟩, hread, rfl⟩)
    · obtain ⟨taken, rfl, htaken⟩ := Peg.read_word_iff.1 hread
      exact ⟨true, taken, rfl, rfl, htaken⟩
    · obtain ⟨taken, rfl, htaken⟩ := Peg.read_word_iff.1 hread
      exact ⟨false, taken, rfl, rfl, htaken⟩
  · rintro ⟨value, taken, rfl, rfl, htaken⟩
    have hread : (Peg.word Char.toLower (truthText value) : Grammar Unit).read (taken ++ rest) =
        some ((), rest) := Peg.read_word_iff.2 ⟨taken, rfl, htaken⟩
    cases value with
    | true => exact Or.inl ⟨(), hread, rfl⟩
    | false =>
        refine Or.inr ⟨Peg.read_word_eq_none_iff.2 ?_, (), hread, rfl⟩
        intro other tail heq hother
        have hhead := congrArg List.head? heq
        cases taken with
        | nil => cases htaken
        | cons c taken =>
            cases other with
            | nil => cases hother
            | cons d other =>
                obtain rfl : c = d := Option.some.inj hhead
                have hlower := (List.cons.inj htaken).1.symm.trans (List.cons.inj hother).1
                exact absurd hlower (by decide)

theorem read_boolean_eq_none_iff {text : List Char} :
    boolean.read text = none ↔ ¬ StartsTruth text := by
  constructor
  · rintro h ⟨value, taken, rest, rfl, htaken⟩
    rw [read_boolean_iff.2 ⟨value, taken, rfl, rfl, htaken⟩] at h
    cases h
  · intro h
    cases hread : boolean.read text with
    | none => rfl
    | some result =>
        obtain ⟨value, taken, -, htext, htaken⟩ := read_boolean_iff.1 hread
        exact absurd ⟨value, taken, _, htext, htaken⟩ h

/-! ## Operands without quotes -/

def IsBare (text : List Char) : Prop :=
  text ≠ [] ∧ ∀ c ∈ text, isBareChar c = true

theorem IsBare.exists_cons {text : List Char} (h : IsBare text) :
    ∃ c rest, text = c :: rest ∧ isBareChar c = true := by
  obtain ⟨hne, hbare⟩ := h
  obtain ⟨c, rest, rfl⟩ := List.exists_cons_of_ne_nil hne
  exact ⟨c, rest, rfl, hbare c (by simp)⟩

theorem read_unquoted_iff {text rest : List Char} {found : Operand} :
    unquoted.read text = some (found, rest) ↔
      ∃ value, found = .unquoted (String.ofList value) ∧ text = value ++ rest ∧ IsBare value ∧
        Stops isBareChar rest := by
  unfold unquoted
  rw [Peg.read_map_iff]
  constructor
  · rintro ⟨value, hread, rfl⟩
    obtain ⟨rfl, hne, hvalue, hrest⟩ := Peg.read_run1_iff.1 hread
    exact ⟨value, rfl, rfl, ⟨hne, hvalue⟩, hrest⟩
  · rintro ⟨value, rfl, rfl, ⟨hne, hvalue⟩, hrest⟩
    exact ⟨value, Peg.read_run1 hne hvalue hrest, rfl⟩

theorem not_isQuote_of_isBareChar {c : Char} (h : isBareChar c = true) : ¬ IsQuote c := by
  rintro (rfl | rfl) <;> exact absurd h (by decide)

theorem toLower_of_not_isUpper {c : Char} (h : ¬ c.isUpper = true) : c.toLower = c :=
  dif_neg fun hupper => h (decide_eq_true hupper)

theorem isBareChar_of_toLower_mem {c : Char} {value : Bool} (h : c.toLower ∈ truthText value) :
    isBareChar c = true := by
  by_cases hupper : c.isUpper = true
  · have halpha : c.isAlpha = true := isAlpha_iff.2 (Or.inl (isUpper_iff.1 hupper))
    exact isBareChar_of_isNameChar (isNameChar_of_isNameStart (by simp [isNameStart, halpha]))
  · rw [toLower_of_not_isUpper hupper] at h
    have hbare : ∀ value, (truthText value).all isBareChar = true := by decide
    exact List.all_eq_true.1 (hbare value) c h

theorem isBare_of_truth {text : List Char} {value : Bool}
    (htext : text.map Char.toLower = truthText value) : IsBare text := by
  constructor
  · rintro rfl
    cases value <;> cases htext
  · intro c hc
    have hmem : c.toLower ∈ truthText value := by
      rw [← htext]
      exact List.mem_map_of_mem hc
    exact isBareChar_of_toLower_mem hmem

theorem startsNumber_append {value rest : List Char} (hvalue : value ≠ [])
    (hrest : Stops isBareChar rest) : StartsNumber (value ++ rest) ↔ StartsNumber value := by
  constructor
  · rintro ⟨sign, c, tail, rfl | rfl, htext, hc⟩
    · obtain ⟨d, value, rfl⟩ := List.exists_cons_of_ne_nil hvalue
      obtain ⟨rfl, -⟩ := List.cons.inj htext
      exact ⟨[], d, value, Or.inl rfl, rfl, hc⟩
    · obtain ⟨d, value, rfl⟩ := List.exists_cons_of_ne_nil hvalue
      obtain ⟨rfl, htail⟩ := List.cons.inj htext
      cases value with
      | nil =>
          have hdigit := stops_isDigit hrest c (by
            change rest = c :: tail at htail
            simp [htail])
          rw [hc] at hdigit
          cases hdigit
      | cons e value =>
          obtain ⟨rfl, -⟩ := List.cons.inj htail
          exact ⟨['-'], e, value, Or.inr rfl, rfl, hc⟩
  · rintro ⟨sign, c, tail, hsign, rfl, hc⟩
    exact ⟨sign, c, tail ++ rest, hsign, by simp, hc⟩

theorem startsTruth_append {value rest : List Char} (hrest : Stops isBareChar rest) :
    StartsTruth (value ++ rest) ↔ StartsTruth value := by
  constructor
  · rintro ⟨truth, taken, tail, htext, htaken⟩
    rcases List.append_eq_append_iff.1 htext with ⟨more, rfl, rfl⟩ | ⟨more, rfl, -⟩
    · cases more with
      | nil => exact ⟨truth, value, [], by simp, by simpa using htaken⟩
      | cons c more =>
          have hbare := (isBare_of_truth htaken).2 c (by simp)
          rw [Stops.cons_iff.1 hrest] at hbare
          cases hbare
    · exact ⟨truth, taken, more, rfl, htaken⟩
  · rintro ⟨truth, taken, tail, rfl, htaken⟩
    exact ⟨truth, taken, tail ++ rest, by simp, htaken⟩

theorem read_string_eq_none_of_bare {c : Char} (hc : isBareChar c = true) (rest : List Char) :
    string.read (c :: rest) = none := by
  apply read_string_eq_none
  intro d tail htext
  rw [← (List.cons.inj htext).1]
  exact not_isQuote_of_isBareChar hc

theorem IsBare.read_string_eq_none {text : List Char} (h : IsBare text) (rest : List Char) :
    string.read (text ++ rest) = none := by
  obtain ⟨c, tail, rfl, hc⟩ := h.exists_cons
  exact read_string_eq_none_of_bare hc _

theorem exists_cons_numberText (negative : Bool) {whole : List Char} (hwhole : IsDigits whole)
    (fraction : Option (List Char)) :
    ∃ c rest, numberText negative whole fraction = c :: rest ∧ isBareChar c = true := by
  obtain ⟨hne, hdigits⟩ := hwhole
  obtain ⟨c, whole, rfl⟩ := List.exists_cons_of_ne_nil hne
  cases negative with
  | true => exact ⟨'-', _, rfl, by decide⟩
  | false =>
      exact ⟨c, _, rfl, isBareChar_of_isNameChar (isNameChar_of_isDigit (hdigits c (by simp)))⟩

theorem not_startsNumber_of_truth {text : List Char} {value : Bool}
    (htext : text.map Char.toLower = truthText value) (rest : List Char) :
    ¬ StartsNumber (text ++ rest) := by
  cases text with
  | nil => cases value <;> cases htext
  | cons c text =>
      have hc : c.toLower = 't' ∨ c.toLower = 'f' := by
        cases value with
        | true => exact Or.inl (List.cons.inj htext).1
        | false => exact Or.inr (List.cons.inj htext).1
      rintro ⟨sign, d, tail, rfl | rfl, heq, hd⟩
      · obtain ⟨rfl, -⟩ := List.cons.inj heq
        have hupper : ¬ c.isUpper = true := by
          intro hupper
          rw [isUpper_iff] at hupper
          rw [isDigit_iff] at hd
          omega
        rw [toLower_of_not_isUpper hupper] at hc
        rcases hc with rfl | rfl <;> cases hd
      · obtain ⟨rfl, -⟩ := List.cons.inj heq
        exact absurd hc (by decide)

end ObjectQuery.Selector
