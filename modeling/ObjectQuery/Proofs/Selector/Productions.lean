import ObjectQuery.Proofs.Selector.Characters
/-!
# The grammar of selectors as productions

The syntax of selectors as a table of productions over named symbols, and the relation `Derives`
that says what such productions match and where they fail. Alternatives are ordered, repetitions and
optional parts take all they can:

    Selector         := Filter (Blank ',' Blank Filter)*
    Filter           := (Path | IdentifierFilter | PropertyName)? AttributeFilter*
    Path             := '/' (Name ('/' Name)*)?  |  Name '/' Name ('/' Name)*
    IdentifierFilter := '#' Identifier
    PropertyName     := Name
    AttributeFilter  := '[' Blank (TypeTest | PropertyTest?) Blank ']'
    TypeTest         := ('instanceof' | '!instanceof') Blank (String | Unquoted) Blank
    PropertyTest     := PropertyPath Blank (Operator Blank Operand Blank)?
    PropertyPath     := Name ('.' Name)*
    Operator         := 'instanceof' | '!instanceof' | '^=~' | '^=' | '$=~' | '$=' | '*=~' | '*='
                      | '=~' | '=' | '!=~' | '!=' | '<=' | '<' | '>=' | '>'
    Operand          := String | Number | Boolean | Unquoted
    String           := '"' ('\"' | [^"])* '"'  |  ''' ('\'' | [^'])* '''
    Number           := '-'? [0-9]+ ('.' [0-9]+)?
    Boolean          := 'true' | 'false'                    (in any case)
    Unquoted         := [^"'\[\]\s]+
    Name             := [a-zA-Z_] [a-zA-Z0-9_-]*
    Identifier       := [0-9a-zA-Z_-]+
    Blank            := \s*                                 (Unicode white space)
-/

namespace ObjectQuery.Selector

inductive Symbol where
  | selector
  | filter
  | path
  | identifierFilter
  | propertyName
  | attributeFilter
  | typeTest
  | propertyTest
  | propertyPath
  | operator
  | operand
  | string
  | number
  | boolean
  | unquoted
  | name
  | identifier
  | blank

abbrev Symbol.Value : Symbol → Type
  | .selector => Selector
  | .filter => Filter
  | .path => Path
  | .identifierFilter => String
  | .propertyName => String
  | .attributeFilter => AttributeFilter
  | .typeTest => AttributeTest
  | .propertyTest => String × Option AttributeTest
  | .propertyPath => String
  | .operator => Operator
  | .operand => Operand
  | .string => Operand
  | .number => Operand
  | .boolean => Operand
  | .unquoted => Operand
  | .name => String
  | .identifier => String
  | .blank => List Char

/-- The right-hand side of a production, with the value that it gives. -/
inductive Production : Type → Type 1 where
  | oneOf (test : Char → Bool) : Production Char
  | literal (fold : Char → Char) (text : List Char) : Production Unit
  | seq {α β : Type} (first : Production α) (second : Production β) : Production (α × β)
  | choice {α : Type} (first second : Production α) : Production α
  | optional {α : Type} (item : Production α) : Production (Option α)
  | star {α : Type} (item : Production α) : Production (List α)
  | map {α β : Type} (f : α → β) (item : Production α) : Production β
  | taken {α : Type} (item : Production α) : Production (List Char × α)
  | ref (symbol : Symbol) : Production symbol.Value

namespace Production

variable {α β : Type}

def char (c : Char) : Production Char :=
  .oneOf (· == c)

def plus (item : Production α) : Production (List α) :=
  .map (fun (first, rest) => first :: rest) (.seq item (.star item))

/-- Two parts, of which the second one gives the value. -/
def before (first : Production α) (second : Production β) : Production β :=
  .map Prod.snd (.seq first second)

/-- Two parts, of which the first one gives the value. -/
def after (first : Production α) (second : Production β) : Production α :=
  .map Prod.fst (.seq first second)

def keyword (text : String) (value : α) : Production α :=
  .map (fun _ => value) (.literal id text.toList)

def alternatives : Production α → List (Production α) → Production α
  | first, [] => first
  | first, second :: rest => .choice first (alternatives second rest)

/-- The text between two of a quote, in which a backslash escapes that quote only. -/
def quotedBy (quote : Char) : Production (List Char) :=
  .before (.char quote) <|
    .after
      (.star (.choice (.before (.char '\\') (.char quote)) (.oneOf (· != quote))))
      (.char quote)

end Production

def Production.of : (symbol : Symbol) → Production symbol.Value
  | .selector => .map (fun (first, rest) => ⟨first :: rest⟩) <|
      .seq (.ref .filter) <|
        .star <|
          .before (.seq (.ref .blank) (.seq (.char ',') (.ref .blank))) (.ref .filter)
  | .filter => .map (fun (primary, attributes) => ⟨primary, attributes⟩) <|
      .seq
        (.optional <|
          alternatives (.map .path (.ref .path))
            [.map .identifier (.ref .identifierFilter), .map .propertyName (.ref .propertyName)])
        (.star (.ref .attributeFilter))
  | .path => .choice
      (.map (fun segments => ⟨segments.getD [], true⟩) <|
        .before (.char '/') <|
          .optional <| .map (fun (first, rest) => first :: rest) <|
            .seq (.ref .name) (.star (.before (.char '/') (.ref .name))))
      (.map (fun (first, second, rest) => ⟨first :: second :: rest, false⟩) <|
        .seq (.ref .name) <|
          .before (.char '/') (.seq (.ref .name) (.star (.before (.char '/') (.ref .name)))))
  | .identifierFilter => .before (.char '#') (.ref .identifier)
  | .propertyName => .ref .name
  | .attributeFilter => .map (fun (text, path, test) => ⟨path, test, String.ofList text⟩) <|
      .taken <|
        .before (.seq (.char '[') (.ref .blank)) <|
          .after
            (.choice
              (.map (fun test => (none, some test)) (.ref .typeTest))
              (.map (fun found => (found.map Prod.fst, found.bind Prod.snd)) <|
                .optional (.ref .propertyTest)))
            (.seq (.ref .blank) (.char ']'))
  | .typeTest => .map (fun (operator, operand) => AttributeTest.mk operator operand) <|
      .seq
        (.choice (keyword "instanceof" (Operator.instanceOf false))
          (keyword "!instanceof" (Operator.instanceOf true)))
        (.before (.ref .blank)
          (.after (.choice (.ref .string) (.ref .unquoted)) (.ref .blank)))
  | .propertyTest => .seq (.after (.ref .propertyPath) (.ref .blank)) <|
      .optional <| .map (fun (operator, operand) => AttributeTest.mk operator operand) <|
        .seq (.ref .operator) (.before (.ref .blank) (.after (.ref .operand) (.ref .blank)))
  | .propertyPath => .map (fun (text, _) => String.ofList text) <|
      .taken (.seq (.ref .name) (.star (.before (.char '.') (.ref .name))))
  | .operator => alternatives (keyword "instanceof" (.instanceOf false))
      [keyword "!instanceof" (.instanceOf true),
        keyword "^=~" (.startsWith true), keyword "^=" (.startsWith false),
        keyword "$=~" (.endsWith true), keyword "$=" (.endsWith false),
        keyword "*=~" (.contains true), keyword "*=" (.contains false),
        keyword "=~" (.equal false true), keyword "=" (.equal false false),
        keyword "!=~" (.equal true true), keyword "!=" (.equal true false),
        keyword "<=" (.less true), keyword "<" (.less false),
        keyword ">=" (.greater true), keyword ">" (.greater false)]
  | .operand => alternatives (.ref .string) [.ref .number, .ref .boolean, .ref .unquoted]
  | .string => .map (fun text => .string (String.ofList text)) <|
      .choice (quotedBy '"') (quotedBy '\'')
  | .number => .map (fun (sign, whole, fraction) => numberOperand sign.isSome whole fraction) <|
      .seq (.optional (.char '-')) <|
        .seq (.plus (.oneOf (inClass [('0', '9')])))
          (.optional (.before (.char '.') (.plus (.oneOf (inClass [('0', '9')])))))
  | .boolean => .choice
      (.map (fun _ => .boolean true) (.literal Char.toLower "true".toList))
      (.map (fun _ => .boolean false) (.literal Char.toLower "false".toList))
  | .unquoted => .map (fun text => .unquoted (String.ofList text)) <|
      .plus (.oneOf fun c =>
        !inClass [('"', '"'), ('\'', '\''), ('[', '['), (']', ']')] c && !Text.isBlank c)
  | .name => .map (fun (c, rest) => String.ofList (c :: rest)) <|
      .seq (.oneOf (inClass [('a', 'z'), ('A', 'Z'), ('_', '_')]))
        (.star (.oneOf (inClass [('a', 'z'), ('A', 'Z'), ('0', '9'), ('_', '_'), ('-', '-')])))
  | .identifier => .map String.ofList <|
      .plus (.oneOf (inClass [('0', '9'), ('a', 'z'), ('A', 'Z'), ('_', '_'), ('-', '-')]))
  | .blank => .star (.oneOf Text.isBlank)

/-- What a production makes of a text: a value and the rest behind what it matches, or `none` where
it fails. -/
inductive Derives : {α : Type} → Production α → List Char → Option (α × List Char) → Prop
  | oneOf {test : Char → Bool} {c : Char} {rest : List Char} (htest : test c = true) :
      Derives (.oneOf test) (c :: rest) (some (c, rest))
  | oneOf_fails {test : Char → Bool} {text : List Char} (htest : ∀ c ∈ text.head?, test c = false) :
      Derives (.oneOf test) text none
  | literal {fold : Char → Char} {expected taken rest : List Char}
      (hfold : taken.map fold = expected) :
      Derives (.literal fold expected) (taken ++ rest) (some ((), rest))
  | literal_fails {fold : Char → Char} {expected text : List Char}
      (hfold : ∀ taken rest, text = taken ++ rest → taken.map fold ≠ expected) :
      Derives (.literal fold expected) text none
  | seq {α β : Type} {first : Production α} {second : Production β}
      {text middle rest : List Char} {x : α} {y : β}
      (hfirst : Derives first text (some (x, middle)))
      (hsecond : Derives second middle (some (y, rest))) :
      Derives (.seq first second) text (some ((x, y), rest))
  | seq_fails_first {α β : Type} {first : Production α} {second : Production β}
      {text : List Char} (hfirst : Derives first text none) :
      Derives (.seq first second) text none
  | seq_fails_second {α β : Type} {first : Production α} {second : Production β}
      {text middle : List Char} {x : α} (hfirst : Derives first text (some (x, middle)))
      (hsecond : Derives second middle none) : Derives (.seq first second) text none
  | choice_first {α : Type} {first second : Production α} {text rest : List Char} {x : α}
      (hfirst : Derives first text (some (x, rest))) :
      Derives (.choice first second) text (some (x, rest))
  | choice_second {α : Type} {first second : Production α} {text : List Char}
      {outcome : Option (α × List Char)} (hfirst : Derives first text none)
      (hsecond : Derives second text outcome) : Derives (.choice first second) text outcome
  | optional {α : Type} {item : Production α} {text rest : List Char} {x : α}
      (hitem : Derives item text (some (x, rest))) :
      Derives (.optional item) text (some (some x, rest))
  | optional_absent {α : Type} {item : Production α} {text : List Char}
      (hitem : Derives item text none) : Derives (.optional item) text (some (none, text))
  | star_next {α : Type} {item : Production α} {text rest last : List Char} {x : α} {xs : List α}
      (hitem : Derives item text (some (x, rest)))
      (hlater : Derives (.star item) rest (some (xs, last))) :
      Derives (.star item) text (some (x :: xs, last))
  | star_stops {α : Type} {item : Production α} {text : List Char}
      (hitem : Derives item text none) : Derives (.star item) text (some ([], text))
  | map {α β : Type} {f : α → β} {item : Production α} {text rest : List Char} {x : α}
      (hitem : Derives item text (some (x, rest))) :
      Derives (.map f item) text (some (f x, rest))
  | map_fails {α β : Type} {f : α → β} {item : Production α} {text : List Char}
      (hitem : Derives item text none) : Derives (.map f item) text none
  | taken {α : Type} {item : Production α} {taken rest : List Char} {x : α}
      (hitem : Derives item (taken ++ rest) (some (x, rest))) :
      Derives (.taken item) (taken ++ rest) (some ((taken, x), rest))
  | taken_fails {α : Type} {item : Production α} {text : List Char}
      (hitem : Derives item text none) : Derives (.taken item) text none
  | ref {symbol : Symbol} {text : List Char} {outcome : Option (symbol.Value × List Char)}
      (hproduction : Derives (.of symbol) text outcome) :
      Derives (.ref symbol) text outcome

/-! ## Derivations are unique -/

/-- The ways in which a production comes to an outcome, by its form. -/
def Explains : {α : Type} → Production α → List Char → Option (α × List Char) → Prop
  | _, .oneOf test, text, outcome =>
      (∃ c rest, text = c :: rest ∧ test c = true ∧ outcome = some (c, rest)) ∨
        (∀ c ∈ text.head?, test c = false) ∧ outcome = none
  | _, .literal fold expected, text, outcome =>
      (∃ taken rest, text = taken ++ rest ∧ taken.map fold = expected ∧
        outcome = some ((), rest)) ∨
        (∀ taken rest, text = taken ++ rest → taken.map fold ≠ expected) ∧ outcome = none
  | _, .seq first second, text, outcome =>
      (∃ x middle y rest, Derives first text (some (x, middle)) ∧
        Derives second middle (some (y, rest)) ∧ outcome = some ((x, y), rest)) ∨
        Derives first text none ∧ outcome = none ∨
        ∃ x middle, Derives first text (some (x, middle)) ∧ Derives second middle none ∧
          outcome = none
  | _, .choice first second, text, outcome =>
      (∃ x rest, Derives first text (some (x, rest)) ∧ outcome = some (x, rest)) ∨
        Derives first text none ∧ Derives second text outcome
  | _, .optional item, text, outcome =>
      (∃ x rest, Derives item text (some (x, rest)) ∧ outcome = some (some x, rest)) ∨
        Derives item text none ∧ outcome = some (none, text)
  | _, .star item, text, outcome =>
      (∃ x rest xs last, Derives item text (some (x, rest)) ∧
        Derives (.star item) rest (some (xs, last)) ∧ outcome = some (x :: xs, last)) ∨
        Derives item text none ∧ outcome = some ([], text)
  | _, .map f item, text, outcome =>
      (∃ x rest, Derives item text (some (x, rest)) ∧ outcome = some (f x, rest)) ∨
        Derives item text none ∧ outcome = none
  | _, .taken item, text, outcome =>
      (∃ taken x rest, text = taken ++ rest ∧ Derives item text (some (x, rest)) ∧
        outcome = some ((taken, x), rest)) ∨
        Derives item text none ∧ outcome = none
  | _, .ref symbol, text, outcome => Derives (.of symbol) text outcome

theorem Derives.explains {α : Type} {production : Production α} {text : List Char}
    {outcome : Option (α × List Char)} (h : Derives production text outcome) :
    Explains production text outcome := by
  cases h with
  | oneOf htest => exact Or.inl ⟨_, _, rfl, htest, rfl⟩
  | oneOf_fails htest => exact Or.inr ⟨htest, rfl⟩
  | literal hfold => exact Or.inl ⟨_, _, rfl, hfold, rfl⟩
  | literal_fails hfold => exact Or.inr ⟨hfold, rfl⟩
  | seq hfirst hsecond => exact Or.inl ⟨_, _, _, _, hfirst, hsecond, rfl⟩
  | seq_fails_first hfirst => exact Or.inr (Or.inl ⟨hfirst, rfl⟩)
  | seq_fails_second hfirst hsecond => exact Or.inr (Or.inr ⟨_, _, hfirst, hsecond, rfl⟩)
  | choice_first hfirst => exact Or.inl ⟨_, _, hfirst, rfl⟩
  | choice_second hfirst hsecond => exact Or.inr ⟨hfirst, hsecond⟩
  | optional hitem => exact Or.inl ⟨_, _, hitem, rfl⟩
  | optional_absent hitem => exact Or.inr ⟨hitem, rfl⟩
  | star_next hitem hlater => exact Or.inl ⟨_, _, _, _, hitem, hlater, rfl⟩
  | star_stops hitem => exact Or.inr ⟨hitem, rfl⟩
  | map hitem => exact Or.inl ⟨_, _, hitem, rfl⟩
  | map_fails hitem => exact Or.inr ⟨hitem, rfl⟩
  | taken hitem => exact Or.inl ⟨_, _, _, rfl, hitem, rfl⟩
  | taken_fails hitem => exact Or.inr ⟨hitem, rfl⟩
  | ref hproduction => exact hproduction

/-- A production has at most one outcome at a text. -/
theorem Derives.unique {α : Type} {production : Production α} {text : List Char}
    {outcome other : Option (α × List Char)} (h : Derives production text outcome)
    (hother : Derives production text other) : outcome = other := by
  induction h with
  | oneOf htest =>
      rcases hother.explains with ⟨c, rest, heq, -, rfl⟩ | ⟨hnone, -⟩
      · cases heq
        rfl
      · rw [hnone _ (by simp)] at htest
        cases htest
  | oneOf_fails htest =>
      rcases hother.explains with ⟨c, rest, rfl, hc, -⟩ | ⟨-, rfl⟩
      · rw [htest c (by simp)] at hc
        cases hc
      · rfl
  | literal hfold =>
      rcases hother.explains with ⟨taken, rest, heq, htaken, rfl⟩ | ⟨hnone, -⟩
      · have hlength := congrArg List.length (hfold.trans htaken.symm)
        rw [List.length_map, List.length_map] at hlength
        rw [(List.append_inj heq hlength).2]
      · exact absurd hfold (hnone _ _ rfl)
  | literal_fails hfold =>
      rcases hother.explains with ⟨taken, rest, heq, htaken, -⟩ | ⟨-, rfl⟩
      · exact absurd htaken (hfold taken rest heq)
      · rfl
  | seq hfirst hsecond ihFirst ihSecond =>
      rcases hother.explains with ⟨x, middle, y, rest, hx, hy, rfl⟩ | ⟨hx, -⟩ |
        ⟨x, middle, hx, hy, -⟩
      · cases ihFirst hx
        cases ihSecond hy
        rfl
      · cases ihFirst hx
      · cases ihFirst hx
        cases ihSecond hy
  | seq_fails_first hfirst ihFirst =>
      rcases hother.explains with ⟨x, middle, y, rest, hx, hy, rfl⟩ | ⟨-, rfl⟩ |
        ⟨x, middle, hx, hy, rfl⟩
      · cases ihFirst hx
      · rfl
      · rfl
  | seq_fails_second hfirst hsecond ihFirst ihSecond =>
      rcases hother.explains with ⟨x, middle, y, rest, hx, hy, rfl⟩ | ⟨-, rfl⟩ |
        ⟨x, middle, hx, hy, rfl⟩
      · cases ihFirst hx
        cases ihSecond hy
      · rfl
      · rfl
  | choice_first hfirst ih =>
      rcases hother.explains with ⟨x, rest, hx, rfl⟩ | ⟨hx, -⟩
      · exact ih hx
      · cases ih hx
  | choice_second hfirst hsecond ihFirst ihSecond =>
      rcases hother.explains with ⟨x, rest, hx, rfl⟩ | ⟨-, hy⟩
      · cases ihFirst hx
      · exact ihSecond hy
  | optional hitem ih =>
      rcases hother.explains with ⟨x, rest, hx, rfl⟩ | ⟨hx, -⟩
      · cases ih hx
        rfl
      · cases ih hx
  | optional_absent hitem ih =>
      rcases hother.explains with ⟨x, rest, hx, rfl⟩ | ⟨-, rfl⟩
      · cases ih hx
      · rfl
  | star_next hitem hlater ihItem ihLater =>
      rcases hother.explains with ⟨x, rest, xs, last, hx, hxs, rfl⟩ | ⟨hx, -⟩
      · cases ihItem hx
        cases ihLater hxs
        rfl
      · cases ihItem hx
  | star_stops hitem ih =>
      rcases hother.explains with ⟨x, rest, xs, last, hx, -, -⟩ | ⟨-, rfl⟩
      · cases ih hx
      · rfl
  | map hitem ih =>
      rcases hother.explains with ⟨x, rest, hx, rfl⟩ | ⟨hx, -⟩
      · cases ih hx
        rfl
      · cases ih hx
  | map_fails hitem ih =>
      rcases hother.explains with ⟨x, rest, hx, rfl⟩ | ⟨-, rfl⟩
      · cases ih hx
      · rfl
  | taken hitem ih =>
      rcases hother.explains with ⟨taken, x, rest, heq, hx, rfl⟩ | ⟨hx, -⟩
      · cases ih hx
        rw [List.append_cancel_right heq]
      · cases ih hx
  | taken_fails hitem ih =>
      rcases hother.explains with ⟨taken, x, rest, -, hx, rfl⟩ | ⟨-, rfl⟩
      · cases ih hx
      · rfl
  | ref _ ih => exact ih hother.explains

end ObjectQuery.Selector
