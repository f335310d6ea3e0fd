import ObjectQuery.Proofs.Peg.Reading
import ObjectQuery.Selector.Grammar
/-!
# Operators as they are written

An operator is read back from its symbol unless the text behind it makes it a longer one. The order
in which operators are tried puts the longer ones first.
-/

namespace ObjectQuery

namespace Operator

/-- The character that turns the symbol of an operator into a longer one. -/
def continuation : Operator → Option Char
  | .equal _ false | .startsWith false | .endsWith false | .contains false => some '~'
  | .less false | .greater false => some '='
  | _ => none

def EndsAt (operator : Operator) (text : List Char) : Prop :=
  ∀ c rest, text = c :: rest → operator.continuation ≠ some c

/-- One of two operators may be tried before the other: where both fit, it is the longer one. -/
def Precedes (earlier later : Operator) : Prop :=
  ¬ earlier.symbol.toList <+: later.symbol.toList ∧
    (later.symbol.toList <+: earlier.symbol.toList →
      later.continuation.map (fun c => later.symbol.toList ++ [c]) = some earlier.symbol.toList)

instance (earlier later : Operator) : Decidable (Precedes earlier later) :=
  inferInstanceAs (Decidable (_ ∧ _))

theorem all_pairwise_precedes : all.Pairwise Precedes := by
  decide +kernel

theorem mem_all (operator : Operator) : operator ∈ all := by
  cases operator with
  | equal negated ignoreCase => cases negated <;> cases ignoreCase <;> decide
  | instanceOf flag | startsWith flag | endsWith flag | contains flag | less flag | greater flag =>
      cases flag <;> decide

theorem exists_longer {operator : Operator} {c : Char} (h : operator.continuation = some c) :
    ∃ longer : Operator, longer.symbol.toList = operator.symbol.toList ++ [c] ∧
      longer.continuation = none := by
  have hlonger : ∀ operator ∈ all, operator.continuation.all fun c => decide (∃ longer ∈ all,
      longer.symbol.toList = operator.symbol.toList ++ [c] ∧ longer.continuation = none) := by
    decide +kernel
  have hfound := hlonger operator (mem_all operator)
  rw [h, Option.all_some, decide_eq_true_eq] at hfound
  obtain ⟨longer, -, hparts⟩ := hfound
  exact ⟨longer, hparts⟩

theorem Precedes.not_prefix {earlier later : Operator} (h : Precedes earlier later)
    {rest : List Char} (hrest : later.EndsAt rest) :
    ¬ earlier.symbol.toList <+: later.symbol.toList ++ rest := by
  intro hearlier
  obtain ⟨hshort, hlong⟩ := h
  have hprefix : later.symbol.toList <+: earlier.symbol.toList := by
    rcases List.prefix_or_prefix_of_prefix hearlier (List.prefix_append _ rest) with hle | hle
    · exact absurd hle hshort
    · exact hle
  obtain ⟨c, hc, hsymbol⟩ := Option.map_eq_some_iff.1 (hlong hprefix)
  rw [← hsymbol] at hearlier
  obtain ⟨tail, htail⟩ := (List.prefix_append_right_inj _).1 hearlier
  exact hrest c tail htail.symm hc

end Operator

namespace Selector

open Grammar

theorem read_symbol_iff {operator found : Operator} {text rest : List Char} :
    (symbol operator).read text = some (found, rest) ↔
      text = operator.symbol.toList ++ rest ∧ found = operator := by
  unfold symbol
  rw [Peg.read_map_iff]
  constructor
  · rintro ⟨⟨⟩, hread, rfl⟩
    obtain ⟨taken, rfl, htaken⟩ := Peg.read_word_iff.1 hread
    rw [List.map_id] at htaken
    rw [htaken]
    exact ⟨rfl, rfl⟩
  · rintro ⟨rfl, rfl⟩
    exact ⟨(), Peg.read_word_iff.2 ⟨_, rfl, List.map_id _⟩, rfl⟩

theorem read_symbol (operator : Operator) (rest : List Char) :
    (symbol operator).read (operator.symbol.toList ++ rest) = some (operator, rest) := by
  apply read_symbol_iff.2
  exact ⟨rfl, rfl⟩

theorem read_symbol_eq_none {operator : Operator} {text : List Char}
    (h : ¬ operator.symbol.toList <+: text) : (symbol operator).read text = none := by
  cases hread : (symbol operator).read text with
  | none => rfl
  | some result =>
      obtain ⟨found, rest⟩ := result
      obtain ⟨rfl, -⟩ := read_symbol_iff.1 hread
      exact absurd (List.prefix_append _ _) h

theorem read_operator_eq (text : List Char) :
    operator.read text = Operator.all.findSome? fun found => (symbol found).read text := by
  unfold operator
  rw [Peg.read_oneOf]
  exact List.findSome?_map (l := Operator.all)

theorem read_operator {found : Operator} {rest : List Char} (h : found.EndsAt rest) :
    operator.read (found.symbol.toList ++ rest) = some (found, rest) := by
  obtain ⟨before, after, hall⟩ := List.append_of_mem found.mem_all
  rw [read_operator_eq, List.findSome?_eq_some_iff]
  refine ⟨before, found, after, hall, read_symbol found rest, ?_⟩
  intro earlier hearlier
  have hpairwise := Operator.all_pairwise_precedes
  rw [hall, List.pairwise_append] at hpairwise
  have hprecedes := hpairwise.2.2 earlier hearlier found (by simp)
  exact read_symbol_eq_none (hprecedes.not_prefix h)

/-- An operator is read where its symbol stands and no longer one does. -/
theorem read_operator_iff {found : Operator} {text rest : List Char} :
    operator.read text = some (found, rest) ↔
      text = found.symbol.toList ++ rest ∧ found.EndsAt rest := by
  constructor
  · intro h
    have hfind := h
    rw [read_operator_eq, List.findSome?_eq_some_iff] at hfind
    obtain ⟨before, other, after, -, hsymbol, -⟩ := hfind
    obtain ⟨rfl, rfl⟩ := read_symbol_iff.1 hsymbol
    refine ⟨rfl, ?_⟩
    rintro c tail rfl hc
    obtain ⟨longer, hlonger, hlast⟩ := Operator.exists_longer hc
    have hends : longer.EndsAt tail := by
      intro d _ _ hd
      rw [hlast] at hd
      cases hd
    have hread := read_operator hends
    rw [hlonger, List.append_assoc, List.singleton_append, h] at hread
    cases hread
  · rintro ⟨rfl, hrest⟩
    exact read_operator hrest

end Selector

end ObjectQuery
