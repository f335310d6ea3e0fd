import Mathlib.Data.List.TakeWhile
import ObjectQuery.Peg.Reading
/-!
# What parsing expressions read

One equivalence for each form of expression says what it means that a text is read with a value and
a rest. They carry all later reasoning about the grammar, which never unfolds the reader.
-/

namespace ObjectQuery

namespace Reader

variable {α : Type} {read : Reader α}

/-- The rounds of a repetition: as many as succeed, each of which shortens the text. -/
inductive Rounds (read : Reader α) : List Char → List α → List Char → Prop
  | stop {text : List Char} (hread : read text = none) : Rounds read text [] text
  | next {text rest last : List Char} {value : α} {values : List α}
      (hread : read text = some (value, rest)) (hshort : rest.length < text.length)
      (hrounds : Rounds read rest values last) : Rounds read text (value :: values) last

theorem many_of_none {text : List Char} (h : read text = none) :
    many read text = some ([], text) := by
  rw [many, h]

theorem many_of_some {text rest : List Char} {value : α} (h : read text = some (value, rest))
    (hshort : rest.length < text.length) :
    many read text = (many read rest).map fun (values, last) => (value :: values, last) := by
  rw [many, h]
  simp only [hshort, if_true]
  cases many read rest <;> rfl

theorem many_eq_some_iff {text last : List Char} {values : List α} :
    many read text = some (values, last) ↔ Rounds read text values last := by
  constructor
  · intro h
    induction hlength : text.length using Nat.strong_induction_on generalizing text values with
    | _ length ih =>
        cases hread : read text with
        | none =>
            rw [many_of_none hread] at h
            cases h
            exact .stop hread
        | some result =>
            obtain ⟨value, rest⟩ := result
            by_cases hshort : rest.length < text.length
            · rw [many_of_some hread hshort] at h
              obtain ⟨⟨later, final⟩, hmany, heq⟩ := Option.map_eq_some_iff.1 h
              cases heq
              exact .next hread hshort (ih rest.length (hlength ▸ hshort) hmany rfl)
            · rw [many, hread] at h
              simp only [hshort, if_false] at h
              cases h
  · intro h
    induction h with
    | stop hread => exact many_of_none hread
    | next hread hshort _ ih => rw [many_of_some hread hshort, ih]; rfl

theorem exists_many_eq_some
    (hshort : ∀ text value rest, read text = some (value, rest) → rest.length < text.length)
    (text : List Char) : ∃ values last, many read text = some (values, last) := by
  induction hlength : text.length using Nat.strong_induction_on generalizing text with
  | _ length ih =>
      cases hread : read text with
      | none => exact ⟨[], text, many_of_none hread⟩
      | some result =>
          obtain ⟨value, rest⟩ := result
          have hrest := hshort text value rest hread
          obtain ⟨values, last, hmany⟩ := ih rest.length (hlength ▸ hrest) rest rfl
          exact ⟨value :: values, last, by rw [many_of_some hread hrest, hmany]; rfl⟩

theorem Rounds.suffix {text last : List Char} {values : List α}
    (hsuffix : ∀ text value rest, read text = some (value, rest) → rest <:+ text)
    (h : Rounds read text values last) : last <:+ text := by
  induction h with
  | stop _ => exact List.suffix_refl _
  | next hread _ _ ih => exact ih.trans (hsuffix _ _ _ hread)

@[simp] theorem consumed_append (taken rest : List Char) :
    consumed (taken ++ rest) rest = taken := by
  simp [consumed]

end Reader

def Stops (test : Char → Bool) (text : List Char) : Prop :=
  ∀ c ∈ text.head?, test c = false

namespace Stops

variable {test : Char → Bool}

theorem nil : Stops test [] := by
  simp [Stops]

theorem cons_iff {c : Char} {rest : List Char} : Stops test (c :: rest) ↔ test c = false := by
  simp [Stops]

theorem mono {other : Char → Bool} (hother : ∀ c, other c = true → test c = true) {text : List Char}
    (h : Stops test text) : Stops other text := by
  intro c hc
  cases hcontra : other c with
  | false => rfl
  | true =>
      have htrue := hother c hcontra
      rw [h c hc] at htrue
      cases htrue

theorem dropWhile (test : Char → Bool) (text : List Char) : Stops test (text.dropWhile test) := by
  induction text with
  | nil => exact nil
  | cons c rest ih =>
      by_cases hc : test c = true
      · rwa [List.dropWhile_cons_of_pos hc]
      · rw [List.dropWhile_cons_of_neg hc, cons_iff]
        simpa using hc

theorem takeWhile_append {taken rest : List Char} (htaken : ∀ c ∈ taken, test c = true)
    (hrest : Stops test rest) : (taken ++ rest).takeWhile test = taken := by
  rw [List.takeWhile_append_of_pos htaken]
  cases rest with
  | nil => simp
  | cons c rest => simp [cons_iff.1 hrest]

theorem dropWhile_append {taken rest : List Char} (htaken : ∀ c ∈ taken, test c = true)
    (hrest : Stops test rest) : (taken ++ rest).dropWhile test = rest := by
  rw [List.dropWhile_append_of_pos htaken]
  cases rest with
  | nil => simp
  | cons c rest => simp [cons_iff.1 hrest]

end Stops

namespace Peg

variable {R : Type} {V : R → Type} {α β : Type}

attribute [local simp] read

theorem read_satisfy_iff {test : Char → Bool} {text rest : List Char} {c : Char} :
    (satisfy test : Peg V Char).read text = some (c, rest) ↔
      text = c :: rest ∧ test c = true := by
  cases text with
  | nil => simp [Reader.satisfy]
  | cons d tail =>
      by_cases hd : test d = true
      · simp only [read, Reader.satisfy, hd, if_true, Option.some.injEq, Prod.mk.injEq,
          List.cons.injEq]
        constructor
        · rintro ⟨rfl, rfl⟩
          exact ⟨⟨rfl, rfl⟩, hd⟩
        · rintro ⟨⟨rfl, rfl⟩, -⟩
          exact ⟨rfl, rfl⟩
      · simp only [read, Reader.satisfy, hd, List.cons.injEq]
        constructor
        · intro h
          cases h
        · rintro ⟨⟨rfl, rfl⟩, hc⟩
          exact absurd hc hd

theorem read_satisfy_eq_none_iff {test : Char → Bool} {text : List Char} :
    (satisfy test : Peg V Char).read text = none ↔ Stops test text := by
  cases text with
  | nil => simp [Reader.satisfy, Stops.nil]
  | cons c rest =>
      rw [Stops.cons_iff]
      by_cases hc : test c = true <;> simp [Reader.satisfy, hc]

theorem read_char_iff {expected c : Char} {text rest : List Char} :
    (char expected : Peg V Char).read text = some (c, rest) ↔
      text = expected :: rest ∧ c = expected := by
  unfold char
  rw [read_satisfy_iff]
  constructor
  · rintro ⟨rfl, hc⟩
    rw [eq_of_beq hc]
    exact ⟨rfl, rfl⟩
  · rintro ⟨rfl, rfl⟩
    exact ⟨rfl, by simp⟩

theorem read_run_iff {test : Char → Bool} {text taken rest : List Char} :
    (run test : Peg V (List Char)).read text = some (taken, rest) ↔
      text = taken ++ rest ∧ (∀ c ∈ taken, test c = true) ∧ Stops test rest := by
  simp only [read, Option.some.injEq, Prod.mk.injEq]
  constructor
  · rintro ⟨rfl, rfl⟩
    exact ⟨List.takeWhile_append_dropWhile.symm, fun c hc => List.mem_takeWhile_imp hc,
      Stops.dropWhile test text⟩
  · rintro ⟨rfl, htaken, hrest⟩
    exact ⟨Stops.takeWhile_append htaken hrest, Stops.dropWhile_append htaken hrest⟩

theorem read_seq_iff {first : Peg V α} {second : Peg V β} {text rest : List Char} {x : α} {y : β} :
    (seq first second).read text = some ((x, y), rest) ↔
      ∃ middle, first.read text = some (x, middle) ∧ second.read middle = some (y, rest) := by
  simp only [read]
  cases first.read text with
  | none => simp
  | some result =>
      obtain ⟨x', middle⟩ := result
      cases hsecond : second.read middle with
      | none =>
          constructor
          · intro h
            simp [hsecond] at h
          · rintro ⟨other, hfirst, hother⟩
            cases hfirst
            rw [hsecond] at hother
            cases hother
      | some result =>
          obtain ⟨y', last⟩ := result
          constructor
          · intro h
            simp only [hsecond] at h
            cases h
            exact ⟨middle, rfl, hsecond⟩
          · rintro ⟨other, hfirst, hother⟩
            cases hfirst
            rw [hsecond] at hother
            cases hother
            simp only [hsecond]

theorem read_seq_eq_none_iff {first : Peg V α} {second : Peg V β} {text : List Char} :
    (seq first second).read text = none ↔
      ∀ x middle, first.read text = some (x, middle) → second.read middle = none := by
  constructor
  · intro h x middle hfirst
    cases hsecond : second.read middle with
    | none => rfl
    | some result =>
        have hseq := read_seq_iff.2 ⟨middle, hfirst, hsecond⟩
        rw [h] at hseq
        cases hseq
  · intro h
    cases hseq : (seq first second).read text with
    | none => rfl
    | some result =>
        obtain ⟨middle, hfirst, hsecond⟩ := read_seq_iff.1 hseq
        rw [h _ _ hfirst] at hsecond
        cases hsecond

theorem read_choice_iff {first second : Peg V α} {text : List Char} {result : α × List Char} :
    (choice first second).read text = some result ↔
      first.read text = some result ∨
        first.read text = none ∧ second.read text = some result := by
  simp only [read]
  cases first.read text <;> simp

theorem read_choice_eq_none_iff {first second : Peg V α} {text : List Char} :
    (choice first second).read text = none ↔
      first.read text = none ∧ second.read text = none := by
  simp only [read]
  cases first.read text <;> simp

theorem read_oneOf (first : Peg V α) (others : List (Peg V α)) (text : List Char) :
    (oneOf first others).read text = (first :: others).findSome? fun item => item.read text := by
  induction others generalizing first with
  | nil => simp [oneOf]
  | cons second others ih =>
      unfold oneOf
      rw [List.findSome?_cons, ← ih second]
      simp only [read]
      cases first.read text <;> rfl

theorem read_optional_iff {item : Peg V α} {text rest : List Char} {value : Option α} :
    (optional item).read text = some (value, rest) ↔
      (∃ x, value = some x ∧ item.read text = some (x, rest)) ∨
        value = none ∧ rest = text ∧ item.read text = none := by
  simp only [read]
  cases hitem : item.read text with
  | none =>
      constructor
      · intro h
        cases h
        exact Or.inr ⟨rfl, rfl, rfl⟩
      · rintro (⟨x, -, hx⟩ | ⟨rfl, rfl, -⟩)
        · cases hx
        · rfl
  | some result =>
      obtain ⟨x, last⟩ := result
      constructor
      · intro h
        cases h
        exact Or.inl ⟨x, rfl, rfl⟩
      · rintro (⟨y, rfl, hy⟩ | ⟨-, -, hnone⟩)
        · cases hy
          rfl
        · cases hnone

theorem read_many_iff {item : Peg V α} {text rest : List Char} {values : List α} :
    (many item).read text = some (values, rest) ↔ Reader.Rounds item.read text values rest :=
  Reader.many_eq_some_iff

theorem read_map_iff {f : α → β} {item : Peg V α} {text rest : List Char} {y : β} :
    (map f item).read text = some (y, rest) ↔
      ∃ x, item.read text = some (x, rest) ∧ y = f x := by
  simp only [read]
  cases item.read text with
  | none => simp
  | some result =>
      obtain ⟨x, last⟩ := result
      constructor
      · intro h
        cases h
        exact ⟨x, rfl, rfl⟩
      · rintro ⟨x', hx, rfl⟩
        cases hx
        rfl

theorem read_map_eq_none_iff {f : α → β} {item : Peg V α} {text : List Char} :
    (map f item).read text = none ↔ item.read text = none := by
  simp only [read]
  cases item.read text <;> simp

theorem read_consumed_iff {item : Peg V α} {text taken rest : List Char} {x : α} :
    (consumed item).read text = some ((taken, x), rest) ↔
      item.read text = some (x, rest) ∧ taken = Reader.consumed text rest := by
  simp only [read]
  cases item.read text with
  | none => simp
  | some result =>
      obtain ⟨y, last⟩ := result
      simp only [Option.some.injEq, Prod.mk.injEq]
      constructor
      · rintro ⟨⟨rfl, rfl⟩, rfl⟩
        exact ⟨⟨rfl, rfl⟩, rfl⟩
      · rintro ⟨⟨rfl, rfl⟩, rfl⟩
        exact ⟨⟨rfl, rfl⟩, rfl⟩

theorem read_consumed_eq_none_iff {item : Peg V α} {text : List Char} :
    (consumed item).read text = none ↔ item.read text = none := by
  simp only [read]
  cases item.read text <;> simp

@[simp] theorem read_named (rule : R) (body : Peg V (V rule)) :
    (named rule body).read = body.read :=
  rfl

theorem read_dropLeft_iff {first : Peg V α} {second : Peg V β} {text rest : List Char} {y : β} :
    (dropLeft first second).read text = some (y, rest) ↔
      ∃ x middle, first.read text = some (x, middle) ∧ second.read middle = some (y, rest) := by
  unfold dropLeft
  rw [read_map_iff]
  constructor
  · rintro ⟨⟨x, y'⟩, hseq, rfl⟩
    obtain ⟨middle, hfirst, hsecond⟩ := read_seq_iff.1 hseq
    exact ⟨x, middle, hfirst, hsecond⟩
  · rintro ⟨x, middle, hfirst, hsecond⟩
    exact ⟨(x, y), read_seq_iff.2 ⟨middle, hfirst, hsecond⟩, rfl⟩

theorem read_dropLeft_eq_none_iff {first : Peg V α} {second : Peg V β} {text : List Char} :
    (dropLeft first second).read text = none ↔
      ∀ x middle, first.read text = some (x, middle) → second.read middle = none := by
  unfold dropLeft
  rw [read_map_eq_none_iff, read_seq_eq_none_iff]

theorem read_dropLeft_map {γ : Type} (f : α → γ) (first : Peg V α) (second : Peg V β)
    (text : List Char) :
    (dropLeft (map f first) second).read text = (dropLeft first second).read text := by
  simp only [dropLeft, read]
  cases first.read text with
  | none => rfl
  | some result =>
      obtain ⟨x, middle⟩ := result
      dsimp only
      cases second.read middle <;> rfl

theorem read_dropRight_iff {first : Peg V α} {second : Peg V β} {text rest : List Char} {x : α} :
    (dropRight first second).read text = some (x, rest) ↔
      ∃ y middle, first.read text = some (x, middle) ∧ second.read middle = some (y, rest) := by
  unfold dropRight
  rw [read_map_iff]
  constructor
  · rintro ⟨⟨x', y⟩, hseq, rfl⟩
    obtain ⟨middle, hfirst, hsecond⟩ := read_seq_iff.1 hseq
    exact ⟨y, middle, hfirst, hsecond⟩
  · rintro ⟨y, middle, hfirst, hsecond⟩
    exact ⟨(x, y), read_seq_iff.2 ⟨middle, hfirst, hsecond⟩, rfl⟩

theorem read_dropRight_eq_none_iff {first : Peg V α} {second : Peg V β} {text : List Char} :
    (dropRight first second).read text = none ↔
      ∀ x middle, first.read text = some (x, middle) → second.read middle = none := by
  unfold dropRight
  rw [read_map_eq_none_iff, read_seq_eq_none_iff]

theorem read_run1_iff {test : Char → Bool} {text taken rest : List Char} :
    (run1 test : Peg V (List Char)).read text = some (taken, rest) ↔
      text = taken ++ rest ∧ taken ≠ [] ∧ (∀ c ∈ taken, test c = true) ∧ Stops test rest := by
  rw [run1, read_map_iff]
  constructor
  · rintro ⟨⟨c, tail⟩, hseq, rfl⟩
    obtain ⟨middle, hfirst, hsecond⟩ := read_seq_iff.1 hseq
    obtain ⟨rfl, hc⟩ := read_satisfy_iff.1 hfirst
    obtain ⟨rfl, htail, hrest⟩ := read_run_iff.1 hsecond
    exact ⟨rfl, by simp, by simpa using ⟨hc, htail⟩, hrest⟩
  · rintro ⟨rfl, hne, htaken, hrest⟩
    obtain ⟨c, tail, rfl⟩ := List.exists_cons_of_ne_nil hne
    obtain ⟨hc, htail⟩ := List.forall_mem_cons.1 htaken
    exact ⟨(c, tail), read_seq_iff.2 ⟨tail ++ rest, read_satisfy_iff.2 ⟨rfl, hc⟩,
      read_run_iff.2 ⟨rfl, htail, hrest⟩⟩, rfl⟩

theorem read_run1_eq_none_iff {test : Char → Bool} {text : List Char} :
    (run1 test : Peg V (List Char)).read text = none ↔ Stops test text := by
  rw [run1, read_map_eq_none_iff, ← read_satisfy_eq_none_iff (V := V)]
  simp only [read]
  cases Reader.satisfy test text <;> simp

theorem read_char_eq_none_iff {c : Char} {text : List Char} :
    (char c : Peg V Char).read text = none ↔ ∀ rest, text ≠ c :: rest := by
  unfold char
  rw [read_satisfy_eq_none_iff]
  cases text with
  | nil => simp [Stops.nil]
  | cons d rest => simp [Stops.cons_iff]

theorem read_word_iff {fold : Char → Char} {expected text rest : List Char} :
    (word fold expected : Peg V Unit).read text = some ((), rest) ↔
      ∃ taken, text = taken ++ rest ∧ taken.map fold = expected := by
  simp only [read]
  induction expected generalizing text with
  | nil => simp [Reader.word, eq_comm]
  | cons c expected ih =>
      cases text with
      | nil => simp [Reader.word]
      | cons d tail =>
          by_cases hd : fold d = c
          · simp only [Reader.word, hd, if_true, ih]
            constructor
            · rintro ⟨taken, rfl, rfl⟩
              exact ⟨d :: taken, rfl, by simp [hd]⟩
            · rintro ⟨taken, htext, hmap⟩
              cases taken with
              | nil => cases hmap
              | cons d' taken =>
                  cases htext
                  exact ⟨taken, rfl, (List.cons.inj hmap).2⟩
          · simp only [Reader.word, hd, if_false, reduceCtorEq, false_iff, not_exists]
            rintro taken ⟨htext, hmap⟩
            cases taken with
            | nil => cases hmap
            | cons d' taken =>
                cases htext
                exact hd (List.cons.inj hmap).1

theorem read_word_eq_none_iff {fold : Char → Char} {expected text : List Char} :
    (word fold expected : Peg V Unit).read text = none ↔
      ∀ taken rest, text = taken ++ rest → taken.map fold ≠ expected := by
  constructor
  · rintro h taken rest rfl hfold
    rw [read_word_iff.2 ⟨taken, rfl, hfold⟩] at h
    cases h
  · intro h
    cases hread : (word fold expected : Peg V Unit).read text with
    | none => rfl
    | some result =>
        obtain ⟨taken, htext, hfold⟩ := read_word_iff.1 hread
        exact absurd hfold (h taken _ htext)

/-! ## What is left -/

theorem read_suffix (item : Peg V α) {text rest : List Char} {x : α}
    (h : item.read text = some (x, rest)) : rest <:+ text := by
  induction item generalizing text rest with
  | satisfy test =>
      obtain ⟨rfl, -⟩ := read_satisfy_iff.1 h
      exact List.suffix_cons _ _
  | word fold expected =>
      obtain ⟨taken, rfl, -⟩ := read_word_iff.1 h
      exact List.suffix_append _ _
  | run test =>
      obtain ⟨rfl, -⟩ := read_run_iff.1 h
      exact List.suffix_append _ _
  | seq first second ihFirst ihSecond =>
      obtain ⟨middle, hfirst, hsecond⟩ := read_seq_iff.1 h
      exact (ihSecond hsecond).trans (ihFirst hfirst)
  | choice first second ihFirst ihSecond =>
      rcases read_choice_iff.1 h with hfirst | ⟨-, hsecond⟩
      · exact ihFirst hfirst
      · exact ihSecond hsecond
  | optional item ih =>
      rcases read_optional_iff.1 h with ⟨y, -, hitem⟩ | ⟨-, rfl, -⟩
      · exact ih hitem
      · exact List.suffix_refl _
  | many item ih => exact (read_many_iff.1 h).suffix fun _ _ _ hread => ih hread
  | map f item ih =>
      obtain ⟨y, hitem, -⟩ := read_map_iff.1 h
      exact ih hitem
  | consumed item ih => exact ih (read_consumed_iff.1 h).1
  | named rule body ih => exact ih h

/-! ## Reading part by part -/

section Parts

variable {text middle rest : List Char} {x : α} {y : β}

theorem read_char (c : Char) (rest : List Char) :
    (char c : Peg V Char).read (c :: rest) = some (c, rest) := by
  apply read_char_iff.2
  exact ⟨rfl, rfl⟩

theorem read_satisfy {test : Char → Bool} {c : Char} (hc : test c = true) (rest : List Char) :
    (satisfy test : Peg V Char).read (c :: rest) = some (c, rest) := by
  apply read_satisfy_iff.2
  exact ⟨rfl, hc⟩

theorem read_run1 {test : Char → Bool} {taken : List Char} (hne : taken ≠ [])
    (htaken : ∀ c ∈ taken, test c = true) (hrest : Stops test rest) :
    (run1 test : Peg V (List Char)).read (taken ++ rest) = some (taken, rest) := by
  apply read_run1_iff.2
  exact ⟨rfl, hne, htaken, hrest⟩

theorem read_seq {first : Peg V α} {second : Peg V β} (hfirst : first.read text = some (x, middle))
    (hsecond : second.read middle = some (y, rest)) :
    (seq first second).read text = some ((x, y), rest) := by
  apply read_seq_iff.2
  exact ⟨middle, hfirst, hsecond⟩

theorem read_dropLeft {first : Peg V α} {second : Peg V β}
    (hfirst : first.read text = some (x, middle)) (hsecond : second.read middle = some (y, rest)) :
    (dropLeft first second).read text = some (y, rest) := by
  apply read_dropLeft_iff.2
  exact ⟨x, middle, hfirst, hsecond⟩

theorem read_dropRight {first : Peg V α} {second : Peg V β}
    (hfirst : first.read text = some (x, middle)) (hsecond : second.read middle = some (y, rest)) :
    (dropRight first second).read text = some (x, rest) := by
  apply read_dropRight_iff.2
  exact ⟨y, middle, hfirst, hsecond⟩

theorem read_map (f : α → β) {item : Peg V α} (h : item.read text = some (x, rest)) :
    (map f item).read text = some (f x, rest) := by
  apply read_map_iff.2
  exact ⟨x, h, rfl⟩

theorem read_choice_left {first : Peg V α} (second : Peg V α)
    (h : first.read text = some (x, rest)) : (choice first second).read text = some (x, rest) := by
  apply read_choice_iff.2
  exact Or.inl h

theorem read_choice_right {first second : Peg V α} (hnone : first.read text = none)
    (h : second.read text = some (x, rest)) : (choice first second).read text = some (x, rest) := by
  apply read_choice_iff.2
  exact Or.inr ⟨hnone, h⟩

theorem read_optional_present {item : Peg V α} (h : item.read text = some (x, rest)) :
    (optional item).read text = some (some x, rest) := by
  apply read_optional_iff.2
  exact Or.inl ⟨x, rfl, h⟩

theorem read_optional_absent {item : Peg V α} (h : item.read text = none) :
    (optional item).read text = some (none, text) := by
  apply read_optional_iff.2
  exact Or.inr ⟨rfl, rfl, h⟩

theorem read_consumed {item : Peg V α} {taken : List Char}
    (h : item.read (taken ++ rest) = some (x, rest)) :
    (consumed item).read (taken ++ rest) = some ((taken, x), rest) := by
  apply read_consumed_iff.2
  exact ⟨h, (Reader.consumed_append taken rest).symm⟩

end Parts

end Peg

end ObjectQuery
