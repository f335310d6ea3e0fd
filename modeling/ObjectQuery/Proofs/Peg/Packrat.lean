import ObjectQuery.Peg.Packrat
import ObjectQuery.Proofs.Peg.Reading
import Std.Data.DHashMap.Lemmas
/-!
# Reading with a table is reading

A table that records what the rules read without one stays so under every read, and a read with it
gives what the read without it gives. Entries are recalled by offset, so a table is tied to one
source text, of which every text read is a suffix.
-/

namespace ObjectQuery.Peg

variable {R : Type} {V : R → Type} {α : Type}

/-- Every named part of an expression is the body of the rule whose name it bears. -/
def Follows (bodies : (rule : R) → Peg V (V rule)) : {α : Type} → Peg V α → Prop
  | _, .satisfy _ => True
  | _, .word _ _ => True
  | _, .run _ => True
  | _, .seq first second => first.Follows bodies ∧ second.Follows bodies
  | _, .choice first second => first.Follows bodies ∧ second.Follows bodies
  | _, .optional item => item.Follows bodies
  | _, .many item => item.Follows bodies
  | _, .map _ item => item.Follows bodies
  | _, .consumed item => item.Follows bodies
  | _, .named rule body => body = bodies rule ∧ body.Follows bodies

variable [DecidableEq R] [Hashable R]

/-! ## Offsets and entries -/

theorem offset_le (source text : List Char) : offset source text ≤ source.length :=
  Nat.sub_le _ _

theorem drop_offset {source text : List Char} (h : text <:+ source) :
    source.drop (offset source text) = text :=
  (List.suffix_iff_eq_drop.1 h).symm

theorem Entry.toResult_ofResult {source : List Char} {result : Option (α × List Char)}
    (h : ∀ value rest, result = some (value, rest) → rest <:+ source) :
    Entry.toResult source (Entry.ofResult source result) = result := by
  cases result with
  | none => rfl
  | some found =>
      obtain ⟨value, rest⟩ := found
      have hrest : source.drop (offset source rest) = rest := drop_offset (h value rest rfl)
      show some (value, source.drop (offset source rest)) = some (value, rest)
      rw [hrest]

/-! ## Tables -/

/-- Every entry of a table is for an offset of a source text and says what its rule reads there
without a table. -/
structure Table.Records (bodies : (rule : R) → Peg V (V rule)) (source : List Char)
    (table : Table V) : Prop where
  le_length : ∀ rule place entry, table.get? (rule, place) = some entry → place ≤ source.length
  eq_ofResult : ∀ rule place entry, table.get? (rule, place) = some entry →
    entry = Entry.ofResult source ((bodies rule).read (source.drop place))

variable {bodies : (rule : R) → Peg V (V rule)} {source : List Char}

theorem Table.records_empty : Table.Records bodies source ∅ where
  le_length rule place entry h := by simp at h
  eq_ofResult rule place entry h := by simp at h

theorem Table.Records.insert {table : Table V} (h : table.Records bodies source) (rule : R)
    {text : List Char} (htext : text <:+ source) :
    Table.Records bodies source
      (Std.DHashMap.insert table (rule, offset source text)
        (Entry.ofResult source ((bodies rule).read text))) := by
  constructor
  · intro other place entry hget
    rw [Std.DHashMap.get?_insert] at hget
    split at hget
    · rename_i hkey
      obtain ⟨rfl, rfl⟩ := Prod.mk.inj (eq_of_beq hkey)
      exact offset_le source text
    · exact h.le_length other place entry hget
  · intro other place entry hget
    rw [Std.DHashMap.get?_insert] at hget
    split at hget
    · rename_i hkey
      obtain ⟨rfl, rfl⟩ := Prod.mk.inj (eq_of_beq hkey)
      rw [drop_offset htext]
      simpa using hget.symm
    · exact h.eq_ofResult other place entry hget

theorem Table.Records.toResult_eq {table : Table V} (h : table.Records bodies source) {rule : R}
    {text : List Char} (htext : text <:+ source) {entry : Entry (V rule)}
    (hget : table.get? (rule, offset source text) = some entry) :
    entry.toResult source = (bodies rule).read text := by
  have hentry := h.eq_ofResult rule _ entry hget
  rw [drop_offset htext] at hentry
  rw [hentry]
  apply Entry.toResult_ofResult
  intro value rest hread
  exact (read_suffix _ hread).trans htext

/-- A read with a table gives what the read without it gives, and the table stays right. -/
def Agrees (bodies : (rule : R) → Peg V (V rule)) (source : List Char) (read : Reader α)
    (readWith : TableReader V α) : Prop :=
  ∀ text table, text <:+ source → table.Records bodies source →
    (readWith text table).1 = read text ∧ (readWith text table).2.Records bodies source

theorem Agrees.manyWith {read : Reader α} {readWith : TableReader V α}
    (hsuffix : ∀ text value rest, read text = some (value, rest) → rest <:+ text)
    (h : Agrees bodies source read readWith) :
    Agrees bodies source (Reader.many read) (manyWith readWith) := by
  intro text
  induction hlength : text.length using Nat.strong_induction_on generalizing text with
  | _ length ih =>
      intro table htext htable
      obtain ⟨hread, hrecords⟩ := h text table htext htable
      rw [Peg.manyWith, Reader.many]
      rw [← hread]
      cases hfirst : readWith text table with
      | mk result next =>
          rw [hfirst] at hread hrecords
          cases result with
          | none => exact ⟨rfl, hrecords⟩
          | some result =>
              obtain ⟨value, rest⟩ := result
              by_cases hshort : rest.length < text.length
              · have hrest : rest <:+ source := (hsuffix _ _ _ hread.symm).trans htext
                obtain ⟨hlater, hlast⟩ :=
                  ih rest.length (hlength ▸ hshort) rest rfl next hrest hrecords
                simp only [hshort, if_true]
                rw [← hlater]
                cases hmany : Peg.manyWith readWith rest next with
                | mk later last =>
                    rw [hmany] at hlast
                    cases later <;> exact ⟨rfl, hlast⟩
              · simp only [hshort, if_false]
                exact ⟨trivial, hrecords⟩

/-- Remembering the results of rules changes nothing about what is read. -/
theorem agrees_readWith {item : Peg V α} (hfollows : item.Follows bodies) :
    Agrees bodies source item.read (item.readWith source) := by
  induction item with
  | satisfy test => exact fun text table _ htable => ⟨rfl, htable⟩
  | word fold expected => exact fun text table _ htable => ⟨rfl, htable⟩
  | run test => exact fun text table _ htable => ⟨rfl, htable⟩
  | seq first second ihFirst ihSecond =>
      intro text table htext htable
      obtain ⟨hread, hrecords⟩ := ihFirst hfollows.1 text table htext htable
      simp only [readWith, read]
      rw [← hread]
      cases hfirst : first.readWith source text table with
      | mk result next =>
          rw [hfirst] at hread hrecords
          cases result with
          | none => exact ⟨rfl, hrecords⟩
          | some result =>
              obtain ⟨x, middle⟩ := result
              have hmiddle : middle <:+ source := (read_suffix first hread.symm).trans htext
              obtain ⟨hlater, hlast⟩ := ihSecond hfollows.2 middle next hmiddle hrecords
              simp only
              rw [← hlater]
              cases hsecond : second.readWith source middle next with
              | mk result last =>
                  rw [hsecond] at hlast
                  cases result <;> exact ⟨rfl, hlast⟩
  | choice first second ihFirst ihSecond =>
      intro text table htext htable
      obtain ⟨hread, hrecords⟩ := ihFirst hfollows.1 text table htext htable
      simp only [readWith, read]
      rw [← hread]
      cases hfirst : first.readWith source text table with
      | mk result next =>
          rw [hfirst] at hrecords
          cases result with
          | none => exact ihSecond hfollows.2 text next htext hrecords
          | some result => exact ⟨rfl, hrecords⟩
  | many item ih => exact (ih hfollows).manyWith fun _ _ _ => read_suffix item
  | optional item ih =>
      intro text table htext htable
      obtain ⟨hread, hrecords⟩ := ih hfollows text table htext htable
      simp only [readWith, read]
      rw [← hread]
      cases hitem : item.readWith source text table with
      | mk result next =>
          rw [hitem] at hrecords
          cases result <;> exact ⟨rfl, hrecords⟩
  | map f item ih =>
      intro text table htext htable
      obtain ⟨hread, hrecords⟩ := ih hfollows text table htext htable
      simp only [readWith, read]
      rw [← hread]
      cases hitem : item.readWith source text table with
      | mk result next =>
          rw [hitem] at hrecords
          cases result <;> exact ⟨rfl, hrecords⟩
  | consumed item ih =>
      intro text table htext htable
      obtain ⟨hread, hrecords⟩ := ih hfollows text table htext htable
      simp only [readWith, read]
      rw [← hread]
      cases hitem : item.readWith source text table with
      | mk result next =>
          rw [hitem] at hrecords
          cases result <;> exact ⟨rfl, hrecords⟩
  | named rule body ih =>
      intro text table htext htable
      obtain ⟨rfl, hbody⟩ := hfollows
      simp only [readWith, read]
      cases hget : table.get? (rule, offset source text) with
      | some entry => exact ⟨htable.toResult_eq htext hget, htable⟩
      | none =>
          obtain ⟨hread, hrecords⟩ := ih hbody text table htext htable
          cases hresult : (bodies rule).readWith source text table with
          | mk result next =>
              rw [hresult] at hread hrecords
              have hinsert := hrecords.insert rule htext
              rw [← hread] at hinsert
              exact ⟨hread, hinsert⟩

/-! ## Tables on the way -/

/-- The tables that reading an expression comes by: the one that it starts with, those that reading
its parts comes by, and the one that it leaves. -/
inductive Passes (source : List Char) :
    {α : Type} → Peg V α → List Char → Table V → Table V → Prop
  | start {α : Type} (item : Peg V α) (text : List Char) (table : Table V) :
      Passes source item text table table
  | finish {α : Type} (item : Peg V α) (text : List Char) (table : Table V) :
      Passes source item text table (item.readWith source text table).2
  | seq_first {α β : Type} {first : Peg V α} {second : Peg V β} {text : List Char}
      {table passed : Table V} (h : Passes source first text table passed) :
      Passes source (.seq first second) text table passed
  | seq_second {α β : Type} {first : Peg V α} {second : Peg V β} {text middle : List Char} {x : α}
      {table next passed : Table V}
      (hfirst : first.readWith source text table = (some (x, middle), next))
      (h : Passes source second middle next passed) :
      Passes source (.seq first second) text table passed
  | choice_first {α : Type} {first second : Peg V α} {text : List Char} {table passed : Table V}
      (h : Passes source first text table passed) :
      Passes source (.choice first second) text table passed
  | choice_second {α : Type} {first second : Peg V α} {text : List Char}
      {table next passed : Table V} (hfirst : first.readWith source text table = (none, next))
      (h : Passes source second text next passed) :
      Passes source (.choice first second) text table passed
  | optional {α : Type} {item : Peg V α} {text : List Char} {table passed : Table V}
      (h : Passes source item text table passed) : Passes source (.optional item) text table passed
  | many_round {α : Type} {item : Peg V α} {text : List Char} {table passed : Table V}
      (h : Passes source item text table passed) : Passes source (.many item) text table passed
  | many_later {α : Type} {item : Peg V α} {text rest : List Char} {x : α}
      {table next passed : Table V}
      (hround : item.readWith source text table = (some (x, rest), next))
      (hshort : rest.length < text.length) (h : Passes source (.many item) rest next passed) :
      Passes source (.many item) text table passed
  | map {α β : Type} {f : α → β} {item : Peg V α} {text : List Char} {table passed : Table V}
      (h : Passes source item text table passed) : Passes source (.map f item) text table passed
  | consumed {α : Type} {item : Peg V α} {text : List Char} {table passed : Table V}
      (h : Passes source item text table passed) : Passes source (.consumed item) text table passed
  | named {rule : R} {body : Peg V (V rule)} {text : List Char} {table passed : Table V}
      (hget : table.get? (rule, offset source text) = none)
      (h : Passes source body text table passed) :
      Passes source (.named rule body) text table passed

theorem records_of_readWith {item : Peg V α} (hfollows : item.Follows bodies) {text : List Char}
    {table next : Table V} (htext : text <:+ source) (htable : table.Records bodies source)
    {result : Option (α × List Char)} (h : item.readWith source text table = (result, next)) :
    next.Records bodies source ∧ ∀ x rest, result = some (x, rest) → rest <:+ source := by
  obtain ⟨hread, hrecords⟩ := agrees_readWith hfollows text table htext htable
  rw [h] at hread hrecords
  refine ⟨hrecords, ?_⟩
  intro x rest hresult
  have hitem : item.read text = some (x, rest) := hread.symm.trans hresult
  exact (read_suffix item hitem).trans htext

/-- Every table on the way of a read is right if the first one is. -/
theorem Passes.records {item : Peg V α} {text : List Char} {table passed : Table V}
    (h : Passes source item text table passed) (hfollows : item.Follows bodies)
    (htext : text <:+ source) (htable : table.Records bodies source) :
    passed.Records bodies source := by
  induction h with
  | start => exact htable
  | finish item text table => exact (agrees_readWith hfollows text table htext htable).2
  | seq_first _ ih => exact ih hfollows.1 htext htable
  | seq_second hfirst _ ih =>
      obtain ⟨hnext, hsuffix⟩ := records_of_readWith hfollows.1 htext htable hfirst
      exact ih hfollows.2 (hsuffix _ _ rfl) hnext
  | choice_first _ ih => exact ih hfollows.1 htext htable
  | choice_second hfirst _ ih =>
      obtain ⟨hnext, -⟩ := records_of_readWith hfollows.1 htext htable hfirst
      exact ih hfollows.2 htext hnext
  | optional _ ih => exact ih hfollows htext htable
  | many_round _ ih => exact ih hfollows htext htable
  | @many_later _ item _ _ _ _ _ _ hround _ _ ih =>
      have hitem : item.Follows bodies := hfollows
      obtain ⟨hnext, hsuffix⟩ := records_of_readWith hitem htext htable hround
      exact ih hfollows (hsuffix _ _ rfl) hnext
  | map _ ih => exact ih hfollows htext htable
  | consumed _ ih => exact ih hfollows htext htable
  | named _ _ ih =>
      obtain ⟨rfl, hbody⟩ := hfollows
      exact ih hbody htext htable

end ObjectQuery.Peg
