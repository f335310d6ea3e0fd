import ObjectQuery.Proofs.Selector.Productions
import ObjectQuery.Proofs.Selector.Rules
/-!
# Parsing follows the productions

What `parse` takes of a text is what the productions derive for the symbol of a selector, and they
derive something for every text. Each symbol is matched with the expression that reads it, by one
lemma for every form of production.
-/

namespace ObjectQuery.Selector

variable {α β : Type}

/-- A production derives whatever an expression reads. -/
def Reads (production : Production α) (item : Grammar α) : Prop :=
  ∀ text, Derives production text (item.read text)

namespace Reads

theorem oneOf {test : Char → Bool} {itemTest : Char → Bool} (h : test = itemTest) :
    Reads (.oneOf test) (.satisfy itemTest) := by
  subst h
  intro text
  cases hread : Peg.read (.satisfy test : Grammar Char) text with
  | none => exact .oneOf_fails (Peg.read_satisfy_eq_none_iff.1 hread)
  | some result =>
      obtain ⟨c, rest⟩ := result
      obtain ⟨rfl, hc⟩ := Peg.read_satisfy_iff.1 hread
      exact .oneOf hc

theorem char (c : Char) : Reads (.char c) (.char c) :=
  oneOf rfl

theorem literal (fold : Char → Char) (expected : List Char) :
    Reads (.literal fold expected) (.word fold expected) := by
  intro text
  cases hread : Peg.read (.word fold expected : Grammar Unit) text with
  | none => exact .literal_fails (Peg.read_word_eq_none_iff.1 hread)
  | some result =>
      obtain ⟨⟨⟩, rest⟩ := result
      obtain ⟨taken, rfl, hfold⟩ := Peg.read_word_iff.1 hread
      exact .literal hfold

theorem seq {first : Production α} {second : Production β} {firstItem : Grammar α}
    {secondItem : Grammar β} (hfirst : Reads first firstItem) (hsecond : Reads second secondItem) :
    Reads (.seq first second) (.seq firstItem secondItem) := by
  intro text
  have hderives := hfirst text
  cases hread : firstItem.read text with
  | none =>
      rw [hread] at hderives
      simp only [Peg.read, hread]
      exact .seq_fails_first hderives
  | some result =>
      obtain ⟨x, middle⟩ := result
      rw [hread] at hderives
      have hlater := hsecond middle
      cases hnext : secondItem.read middle with
      | none =>
          rw [hnext] at hlater
          simp only [Peg.read, hread, hnext]
          exact .seq_fails_second hderives hlater
      | some result =>
          obtain ⟨y, rest⟩ := result
          rw [hnext] at hlater
          simp only [Peg.read, hread, hnext]
          exact .seq hderives hlater

theorem choice {first second : Production α} {firstItem secondItem : Grammar α}
    (hfirst : Reads first firstItem) (hsecond : Reads second secondItem) :
    Reads (.choice first second) (.choice firstItem secondItem) := by
  intro text
  have hderives := hfirst text
  cases hread : firstItem.read text with
  | none =>
      rw [hread] at hderives
      simp only [Peg.read, hread]
      exact .choice_second hderives (hsecond text)
  | some result =>
      obtain ⟨x, rest⟩ := result
      rw [hread] at hderives
      simp only [Peg.read, hread]
      exact .choice_first hderives

theorem optional {production : Production α} {item : Grammar α} (h : Reads production item) :
    Reads (.optional production) (.optional item) := by
  intro text
  have hderives := h text
  cases hread : item.read text with
  | none =>
      rw [hread] at hderives
      simp only [Peg.read, hread]
      exact .optional_absent hderives
  | some result =>
      obtain ⟨x, rest⟩ := result
      rw [hread] at hderives
      simp only [Peg.read, hread]
      exact .optional hderives

/-- A repetition is derived because every round of it takes something. -/
theorem star {production : Production α} {item : Grammar α} (hconsumes : item.Consumes)
    (h : Reads production item) : Reads (.star production) (.many item) := by
  intro text
  obtain ⟨values, rest, hread⟩ := Peg.exists_read_many hconsumes text
  rw [hread]
  have hrounds := Peg.read_many_iff.1 hread
  clear hread
  induction hrounds with
  | @stop text hnone =>
      have hderives := h text
      rw [hnone] at hderives
      exact .star_stops hderives
  | @next text _ _ _ _ hsome _ _ ih =>
      have hderives := h text
      rw [hsome] at hderives
      exact .star_next hderives ih

theorem run {test itemTest : Char → Bool} (h : test = itemTest) :
    Reads (.star (.oneOf test)) (.run itemTest) := by
  subst h
  intro text
  induction text with
  | nil => exact .star_stops (.oneOf_fails (by simp))
  | cons c rest ih =>
      by_cases hc : test c = true
      · have hrun : Peg.read (.run test : Grammar (List Char)) (c :: rest) =
            some (c :: rest.takeWhile test, rest.dropWhile test) := by
          simp [Peg.read, hc]
        rw [hrun]
        exact .star_next (.oneOf hc) ih
      · have hrun : Peg.read (.run test : Grammar (List Char)) (c :: rest) =
            some ([], c :: rest) := by
          simp [Peg.read, hc]
        rw [hrun]
        exact .star_stops (.oneOf_fails (by simpa using hc))

theorem map {f : α → β} {production : Production α} {item : Grammar α}
    (h : Reads production item) : Reads (.map f production) (.map f item) := by
  intro text
  have hderives := h text
  cases hread : item.read text with
  | none =>
      rw [hread] at hderives
      simp only [Peg.read, hread]
      exact .map_fails hderives
  | some result =>
      obtain ⟨x, rest⟩ := result
      rw [hread] at hderives
      simp only [Peg.read, hread]
      exact .map hderives

theorem taken {production : Production α} {item : Grammar α} (h : Reads production item) :
    Reads (.taken production) (.consumed item) := by
  intro text
  have hderives := h text
  cases hread : item.read text with
  | none =>
      rw [hread] at hderives
      simp only [Peg.read, hread]
      exact .taken_fails hderives
  | some result =>
      obtain ⟨x, rest⟩ := result
      obtain ⟨before, rfl⟩ := Peg.read_suffix item hread
      rw [hread] at hderives
      simp only [Peg.read, hread, Reader.consumed_append]
      exact .taken hderives

theorem ref {symbol : Symbol} {item : Grammar symbol.Value} (h : Reads (.of symbol) item) :
    Reads (.ref symbol) item :=
  fun text => .ref (h text)

theorem plus {test itemTest : Char → Bool} (h : test = itemTest) :
    Reads (.plus (.oneOf test)) (.run1 itemTest) :=
  .map (.seq (.oneOf h) (.run h))

theorem before {first : Production α} {second : Production β} {firstItem : Grammar α}
    {secondItem : Grammar β} (hfirst : Reads first firstItem) (hsecond : Reads second secondItem) :
    Reads (.before first second) (.dropLeft firstItem secondItem) :=
  .map (.seq hfirst hsecond)

theorem after {first : Production α} {second : Production β} {firstItem : Grammar α}
    {secondItem : Grammar β} (hfirst : Reads first firstItem) (hsecond : Reads second secondItem) :
    Reads (.after first second) (.dropRight firstItem secondItem) :=
  .map (.seq hfirst hsecond)

theorem keyword (operator : Operator) :
    Reads (.keyword operator.symbol operator) (Grammar.symbol operator) :=
  .map (.literal id operator.symbol.toList)

/-! ## The symbols -/

theorem blank : Reads (.ref .blank) Grammar.blank :=
  .ref <| .run rfl

theorem identifier : Reads (.ref .name) Grammar.identifier :=
  .ref <| .map <| .seq (.oneOf inClass_nameStart) (.run inClass_nameChar)

theorem name_after (c : Char) :
    Reads (.star (.before (.char c) (.ref .name)))
      (.many (.dropLeft (.char c) Grammar.identifier)) :=
  .star (Grammar.dropLeft_char_identifier_consumes c) (.before (.char c) identifier)

theorem path : Reads (.ref .path) Grammar.path := by
  apply Reads.ref
  apply Reads.choice
  · exact .map <| .before (.char '/') <| .optional <| .map <| .seq identifier (.name_after '/')
  · exact .map <| .seq identifier <| .before (.char '/') <| .seq identifier (.name_after '/')

theorem identifierFilter : Reads (.ref .identifierFilter) Grammar.identifierFilter :=
  .ref <| .before (.char '#') <| .ref <| .map (.plus inClass_identifierChar)

theorem propertyName : Reads (.ref .propertyName) Grammar.propertyName :=
  .ref identifier

theorem primary :
    Reads
      (.alternatives (.map .path (.ref .path))
        [.map .identifier (.ref .identifierFilter), .map .propertyName (.ref .propertyName)])
      Grammar.primary :=
  .choice (.map path) (.choice (.map identifierFilter) (.map propertyName))

theorem propertyPath : Reads (.ref .propertyPath) Grammar.propertyPath :=
  .ref <| .map <| .taken <| .seq identifier (.name_after '.')

theorem quotedBy (quote : Char) : Reads (.quotedBy quote) (Grammar.quoted quote) := by
  have hitem : Reads (.choice (.before (.char '\\') (.char quote)) (.oneOf (· != quote)))
      (.choice (.dropLeft (.char '\\') (.char quote)) (.satisfy (· != quote))) :=
    .choice (.before (.char '\\') (.char quote)) (.oneOf rfl)
  exact .before (.char quote)
    (.after (.star (Grammar.quoted_item_consumes quote) hitem) (.char quote))

theorem string : Reads (.ref .string) Grammar.string :=
  .ref <| .map <| .choice (.quotedBy '"') (.quotedBy '\'')

theorem number : Reads (.ref .number) Grammar.number := by
  have hdigits : Reads (.plus (.oneOf (inClass [('0', '9')]))) (.run1 Char.isDigit) :=
    .plus inClass_digits
  exact .ref <| .map <| .seq (.optional (.char '-')) <|
    .seq hdigits (.optional (.before (.char '.') hdigits))

theorem boolean : Reads (.ref .boolean) Grammar.boolean :=
  .ref <| .choice (.map (.literal _ _)) (.map (.literal _ _))

theorem unquoted : Reads (.ref .unquoted) Grammar.unquoted := by
  apply Reads.ref
  apply Reads.map
  apply Reads.plus
  funext c
  rw [inClass_delimiter]
  rfl

theorem operand : Reads (.ref .operand) Grammar.operand :=
  .ref <| .choice string <| .choice number <| .choice boolean unquoted

/-- The order of the alternatives is the order in which the operators are listed. -/
theorem operator : Reads (.ref .operator) Grammar.operator :=
  .ref <| .choice (.keyword _) <| .choice (.keyword _) <| .choice (.keyword _) <|
    .choice (.keyword _) <| .choice (.keyword _) <| .choice (.keyword _) <|
    .choice (.keyword _) <| .choice (.keyword _) <| .choice (.keyword _) <|
    .choice (.keyword _) <| .choice (.keyword _) <| .choice (.keyword _) <|
    .choice (.keyword _) <| .choice (.keyword _) <| .choice (.keyword _) (.keyword _)

theorem typeTest : Reads (.ref .typeTest) Grammar.instanceOfTest :=
  .ref <| .map <| .seq (.choice (.keyword _) (.keyword _)) <|
    .before blank (.after (.choice string unquoted) blank)

theorem propertyTest : Reads (.ref .propertyTest) Grammar.propertyTest :=
  .ref <| .seq (.after propertyPath blank) <| .optional <| .map <|
    .seq operator (.before blank (.after operand blank))

theorem attributeFilter : Reads (.ref .attributeFilter) Grammar.attributeFilter := by
  have hcondition : Grammar.condition =
      .choice (.map (fun test => (none, some test)) Grammar.instanceOfTest)
        (.map (fun found => (found.map Prod.fst, found.bind Prod.snd))
          (.optional Grammar.propertyTest)) := by
    unfold Grammar.condition
    congr
    ext found
    · cases found <;> rfl
    · cases found <;> rfl
  unfold Grammar.attributeFilter
  rw [hcondition]
  exact .ref <| .map <| .taken <| .before (.seq (.char '[') blank) <|
    .after (.choice (.map typeTest) (.map (.optional propertyTest))) (.seq blank (.char ']'))

theorem filter : Reads (.ref .filter) Grammar.filter :=
  .ref <| .map <| .seq (.optional primary) <|
    .star Grammar.attributeFilter_consumes attributeFilter

theorem comma_filter :
    Reads (.before (.seq (.ref .blank) (.seq (.char ',') (.ref .blank))) (.ref .filter))
      (.dropLeft Grammar.comma Grammar.filter) := by
  have hparts : Reads
      (.before (.seq (.ref .blank) (.seq (.char ',') (.ref .blank))) (.ref .filter))
      (.dropLeft (.seq Grammar.blank (.seq (.char ',') Grammar.blank)) Grammar.filter) :=
    .before (.seq blank (.seq (.char ',') blank)) filter
  intro text
  unfold Grammar.comma
  rw [Peg.read_dropLeft_map]
  exact hparts text

theorem selector : Reads (.ref .selector) Grammar.selector :=
  .ref <| .map <| .seq filter <| .star Grammar.dropLeft_comma_filter_consumes comma_filter

end Reads

/-! ## Parsing -/

theorem derives_selector_iff {text rest : List Char} {selector : Selector} :
    Derives (.ref .selector) text (some (selector, rest)) ↔
      Grammar.selector.read text = some (selector, rest) := by
  have hderives := Reads.selector text
  constructor
  · intro h
    exact hderives.unique h
  · intro h
    rwa [h] at hderives

theorem exists_drop_of_read {text rest : List Char} {selector : Selector}
    (h : Grammar.selector.read text = some (selector, rest)) :
    ∃ position, position ≤ text.length ∧ rest = text.drop position ∧
      text.length - rest.length = position := by
  obtain ⟨before, rfl⟩ := Peg.read_suffix Grammar.selector h
  exact ⟨before.length, by simp, by simp, by simp⟩

/-- Parsing takes the whole text as the productions derive it, or reports the character behind what
they derive. They always derive something, and no repetition takes nothing in a round. -/
theorem parse_iff_derives (text : String) :
    (∀ selector, parse text = .ok selector ↔
      Derives (.ref .selector) text.toList (some (selector, []))) ∧
    (∀ position, parse text = .error ⟨text, 1 + position⟩ ↔
      position < text.toList.length ∧
        ∃ selector, Derives (.ref .selector) text.toList
          (some (selector, text.toList.drop position))) ∧
    (∃ selector position, position ≤ text.toList.length ∧
      Derives (.ref .selector) text.toList (some (selector, text.toList.drop position))) ∧
    ¬ Derives (.ref .selector) text.toList none ∧
    Grammar.selector.NeverStalls := by
  obtain ⟨found, rest, hread⟩ := exists_read_selector text.toList
  obtain ⟨stop, hle, hrest, hstop⟩ := exists_drop_of_read hread
  have hfound := derives_selector_iff.2 hread
  refine ⟨?_, ?_, ⟨found, stop, hle, hrest ▸ hfound⟩, ?_, Grammar.selector_neverStalls⟩
  · intro selector
    rw [parse_eq_ok_iff, derives_selector_iff]
  · intro position
    rw [parse_eq_error_iff]
    constructor
    · rintro ⟨selector, last, hlast, hne, heq⟩
      rw [hread] at hlast
      cases hlast
      have hposition : 1 + position = text.toList.length - rest.length + 1 :=
        congrArg SyntaxError.position heq
      have hpos := List.length_pos_iff.2 hne
      have hlength := Peg.length_le_of_read Grammar.selector hread
      have hlt : position < text.toList.length := by omega
      have hdrop : rest = text.toList.drop position := by
        rw [hrest]
        congr 1
        omega
      exact ⟨hlt, found, hdrop ▸ hfound⟩
    · rintro ⟨hlt, selector, hderives⟩
      refine ⟨selector, _, derives_selector_iff.1 hderives, ?_, ?_⟩
      · rw [Ne, List.drop_eq_nil_iff]
        omega
      · unfold SyntaxError.stoppedAt
        rw [List.length_drop]
        congr 1
        omega
  · intro hnone
    cases hfound.unique hnone

end ObjectQuery.Selector
