import ObjectQuery.Proofs.Peg.Reading
/-!
# Progress of parsing expressions

Expressions that take something whenever they succeed, which is what keeps repetitions from
stalling, and expressions that take at least a given text in front of any other.
-/

namespace ObjectQuery.Peg

variable {R : Type} {V : R → Type} {α β : Type}

def Consumes (item : Peg V α) : Prop :=
  ∀ text x rest, item.read text = some (x, rest) → rest.length < text.length

/-- No repetition in the expression can come to a round that takes nothing. -/
def NeverStalls : {α : Type} → Peg V α → Prop
  | _, .satisfy _ => True
  | _, .word _ _ => True
  | _, .run _ => True
  | _, .seq first second => first.NeverStalls ∧ second.NeverStalls
  | _, .choice first second => first.NeverStalls ∧ second.NeverStalls
  | _, .optional item => item.NeverStalls
  | _, .many item => item.Consumes ∧ item.NeverStalls
  | _, .map _ item => item.NeverStalls
  | _, .consumed item => item.NeverStalls
  | _, .named _ body => body.NeverStalls

theorem length_le_of_read (item : Peg V α) {text rest : List Char} {x : α}
    (h : item.read text = some (x, rest)) : rest.length ≤ text.length :=
  (read_suffix item h).length_le

namespace Consumes

theorem satisfy (test : Char → Bool) : Consumes (.satisfy test : Peg V Char) := by
  intro text c rest h
  obtain ⟨rfl, -⟩ := read_satisfy_iff.1 h
  simp

theorem seq_left {first : Peg V α} (h : first.Consumes) (second : Peg V β) :
    Consumes (.seq first second) := by
  intro text value rest hread
  obtain ⟨middle, hfirst, hsecond⟩ := read_seq_iff.1 hread
  exact Nat.lt_of_le_of_lt (length_le_of_read second hsecond) (h _ _ _ hfirst)

theorem seq_right (first : Peg V α) {second : Peg V β} (h : second.Consumes) :
    Consumes (.seq first second) := by
  intro text value rest hread
  obtain ⟨middle, hfirst, hsecond⟩ := read_seq_iff.1 hread
  exact Nat.lt_of_lt_of_le (h _ _ _ hsecond) (length_le_of_read first hfirst)

theorem choice {first second : Peg V α} (hfirst : first.Consumes) (hsecond : second.Consumes) :
    Consumes (.choice first second) := by
  intro text value rest hread
  rcases read_choice_iff.1 hread with h | ⟨-, h⟩
  · exact hfirst _ _ _ h
  · exact hsecond _ _ _ h

theorem map {f : α → β} {item : Peg V α} (h : item.Consumes) : Consumes (.map f item) := by
  intro text value rest hread
  obtain ⟨x, hitem, -⟩ := read_map_iff.1 hread
  exact h _ _ _ hitem

theorem consumed {item : Peg V α} (h : item.Consumes) : Consumes (.consumed item) :=
  fun _ _ _ hread => h _ _ _ (read_consumed_iff.1 hread).1

end Consumes

/-- A repetition that cannot stall succeeds. -/
theorem exists_read_many {item : Peg V α} (h : item.Consumes) (text : List Char) :
    ∃ values rest, (many item).read text = some (values, rest) :=
  Reader.exists_many_eq_some h text

theorem read_many_of_none {item : Peg V α} {text : List Char} (h : item.read text = none) :
    (many item).read text = some ([], text) :=
  Reader.many_of_none h

theorem read_many_of_some {item : Peg V α} (hconsumes : item.Consumes)
    {text middle rest : List Char} {x : α} {xs : List α}
    (hfirst : item.read text = some (x, middle))
    (hlater : (many item).read middle = some (xs, rest)) :
    (many item).read text = some (x :: xs, rest) := by
  have hrounds := read_many_iff.1 hlater
  exact read_many_iff.2 (.next hfirst (hconsumes _ _ _ hfirst) hrounds)

theorem exists_read_optional (item : Peg V α) (text : List Char) :
    ∃ value rest, (optional item).read text = some (value, rest) := by
  cases h : item.read text with
  | none => exact ⟨none, text, read_optional_absent h⟩
  | some result =>
      obtain ⟨x, rest⟩ := result
      exact ⟨some x, rest, read_optional_present h⟩

/-! ## Texts that are taken at least -/

/-- In front of any text, the expression takes all that is written and perhaps some of the text. -/
def Covers (item : Peg V α) (written : List Char) : Prop :=
  ∀ text, ∃ x rest, item.read (written ++ text) = some (x, rest) ∧ rest <:+ text

namespace Covers

theorem char (c : Char) : (Peg.char c : Peg V Char).Covers [c] :=
  fun text => ⟨c, text, read_char c text, List.suffix_refl _⟩

theorem run1 {test : Char → Bool} {written : List Char} (hne : written ≠ [])
    (hwritten : ∀ c ∈ written, test c = true) :
    (Peg.run1 test : Peg V (List Char)).Covers written := by
  intro text
  refine ⟨written ++ text.takeWhile test, text.dropWhile test, read_run1_iff.2 ⟨?_, ?_, ?_, ?_⟩,
    List.dropWhile_suffix _⟩
  · rw [List.append_assoc, List.takeWhile_append_dropWhile]
  · simp [hne]
  · intro c hc
    rcases List.mem_append.1 hc with h | h
    · exact hwritten c h
    · exact List.mem_takeWhile_imp h
  · exact Stops.dropWhile test text

theorem map {f : α → β} {item : Peg V α} {written : List Char} (h : item.Covers written) :
    (Peg.map f item).Covers written := by
  intro text
  obtain ⟨x, rest, hread, hrest⟩ := h text
  exact ⟨f x, rest, read_map f hread, hrest⟩

theorem choice_left {first : Peg V α} (second : Peg V α) {written : List Char}
    (h : first.Covers written) : (Peg.choice first second).Covers written := by
  intro text
  obtain ⟨x, rest, hread, hrest⟩ := h text
  exact ⟨x, rest, read_choice_left second hread, hrest⟩

theorem choice_right {first second : Peg V α} {written : List Char}
    (hfirst : ∀ text, first.read (written ++ text) = none) (h : second.Covers written) :
    (Peg.choice first second).Covers written := by
  intro text
  obtain ⟨x, rest, hread, hrest⟩ := h text
  exact ⟨x, rest, read_choice_right (hfirst text) hread, hrest⟩

theorem optional {item : Peg V α} {written : List Char} (h : item.Covers written) :
    (Peg.optional item).Covers written := by
  intro text
  obtain ⟨x, rest, hread, hrest⟩ := h text
  exact ⟨some x, rest, read_optional_present hread, hrest⟩

theorem seq_left {first : Peg V α} {second : Peg V β} {written : List Char}
    (hfirst : first.Covers written)
    (hsecond : ∀ text, ∃ y rest, second.read text = some (y, rest)) :
    (Peg.seq first second).Covers written := by
  intro text
  obtain ⟨x, middle, hread, hmiddle⟩ := hfirst text
  obtain ⟨y, rest, hlater⟩ := hsecond middle
  exact ⟨(x, y), rest, read_seq hread hlater,
    (read_suffix second hlater).trans hmiddle⟩

theorem seq_right {first : Peg V α} {second : Peg V β} {before after : List Char} {x : α}
    (hfirst : ∀ text, first.read (before ++ (after ++ text)) = some (x, after ++ text))
    (hsecond : second.Covers after) : (Peg.seq first second).Covers (before ++ after) := by
  intro text
  obtain ⟨y, rest, hlater, hrest⟩ := hsecond text
  rw [List.append_assoc]
  exact ⟨(x, y), rest, read_seq (hfirst text) hlater, hrest⟩

theorem dropLeft_char (c : Char) {item : Peg V α} {written : List Char}
    (h : item.Covers written) : (Peg.dropLeft (.char c) item).Covers (c :: written) :=
  have hread : ∀ text, (Peg.char c : Peg V Char).read ([c] ++ (written ++ text)) =
      some (c, written ++ text) := fun text => read_char c (written ++ text)
  .map (.seq_right hread h)

theorem nil {item : Peg V α} (h : ∀ text, ∃ x rest, item.read text = some (x, rest)) :
    item.Covers [] := by
  intro text
  obtain ⟨x, rest, hread⟩ := h text
  exact ⟨x, rest, hread, read_suffix item hread⟩

theorem many_nil {item : Peg V α} (hconsumes : item.Consumes) : (Peg.many item).Covers [] :=
  nil (exists_read_many hconsumes)

theorem many_first {item : Peg V α} (hconsumes : item.Consumes) {written : List Char}
    (h : item.Covers written) : (Peg.many item).Covers written := by
  intro text
  obtain ⟨x, middle, hread, hmiddle⟩ := h text
  obtain ⟨xs, rest, hlater, hrest⟩ := many_nil hconsumes middle
  exact ⟨x :: xs, rest, read_many_of_some hconsumes hread hlater, hrest.trans hmiddle⟩

theorem many_next {item : Peg V α} (hconsumes : item.Consumes) {before after : List Char} {x : α}
    (hfirst : ∀ text, item.read (before ++ (after ++ text)) = some (x, after ++ text))
    (hlater : (Peg.many item).Covers after) : (Peg.many item).Covers (before ++ after) := by
  intro text
  obtain ⟨xs, rest, hread, hrest⟩ := hlater text
  rw [List.append_assoc]
  exact ⟨x :: xs, rest, read_many_of_some hconsumes (hfirst text) hread, hrest⟩

end Covers

end ObjectQuery.Peg
