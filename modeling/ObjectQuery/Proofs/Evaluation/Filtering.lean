import ObjectQuery.Proofs.Evaluation.Builtins
import ObjectQuery.Proofs.Matching
import ObjectQuery.Proofs.Selector.Rules
import ObjectQuery.Proofs.Selector.Tiling
/-!
# Filtering

What a `filter` with a selector does at any point of an evaluation: it keeps the objects that the
selector accepts, or the evaluation fails because the selector cannot be asked of one of them.
A filter with several attribute filters keeps what successive calls with one of them each keep.
-/

namespace ObjectQuery

namespace Filter

theorem refusal?_of_primary_eq_none {filter : Filter} (h : filter.primary = none) :
    filter.refusal? = none := by
  simp [refusal?, h]

end Filter

namespace Progress

def withPending (progress : Progress) (pending : List Call) : Progress :=
  { progress with frame := ⟨progress.frame.context, pending⟩ }

/-- The progress after a number of calls that kept some objects, with the rest of the calls left to
make. -/
def keeping (progress : Progress) (keeps : Json → Bool) (made : Nat) (rest : List Call) :
    Progress :=
  ⟨⟨progress.frame.context.filter keeps, rest⟩, none, progress.executed + made, progress.journal⟩

theorem keeping_all {progress : Progress} (h : progress.outcome = none) (rest : List Call) :
    progress.keeping (fun _ => true) 0 rest = progress.withPending rest := by
  simp [keeping, withPending, h]

theorem keeping_keeping (progress : Progress) (first second : Json → Bool) (made more : Nat)
    (behind rest : List Call) :
    (progress.keeping first made behind).keeping second more rest =
      progress.keeping (fun object => first object && second object) (made + more) rest := by
  simp [keeping, List.filter_filter, Bool.and_comm, Nat.add_assoc]

end Progress

namespace Selector

theorem text_ne_empty_of_wellFormed {condition : AttributeFilter} (h : condition.WellFormed) :
    condition.text ≠ "" := by
  obtain ⟨rest, htext⟩ := exists_cons_of_wellFormed h
  intro hempty
  rw [hempty] at htext
  cases htext

theorem ofList_written_ne_empty {filter : Filter} (h : filter.WellFormed)
    (hne : filter.attributes ≠ []) : String.ofList filter.written ≠ "" := by
  obtain ⟨condition, others, hattributes⟩ := List.exists_cons_of_ne_nil hne
  obtain ⟨rest, htext⟩ := exists_cons_of_wellFormed
    (h.2 condition (hattributes ▸ List.mem_cons_self))
  intro hempty
  have hwritten : filter.written = [] := by
    simpa using congrArg String.toList hempty
  simp [Filter.written, hattributes, htext] at hwritten

end Selector

namespace Evaluation

open Builtin

variable {config : Config} {progress : Progress} {rest : List Call}

/-- A selector that can be asked of every object, or that decides on it before, filters. -/
theorem advance_filterCall_of_accepted {text : String} {selector : Selector}
    (htext : text ≠ "") (hparse : Selector.parse text = .ok selector)
    (hpending : progress.frame.pending = filterCall text :: rest)
    (hbound : exhausts config progress.executed = none)
    (h : selector.refusal? = none ∨ ∀ object ∈ progress.frame.context,
      ∃ filter ∈ selector.askable, filter.accepts config object = true) :
    advance (.builtin config) progress =
      .ok (progress.keeping (fun object => selector.askable.any (·.accepts config object)) 1
        rest) := by
  have hrun := run_filter htext config ⟨progress.frame.context, rest⟩
  simp only [hparse, Context.matching_of_accepted h] at hrun
  exact advance_builtin_of_ok hrun hpending hbound

/-- A selector that is refused before it decides on some object fails the evaluation. -/
theorem drain_filterCall_of_refusal {text : String} {selector : Selector} {cause : Misuse}
    (htext : text ≠ "") (hparse : Selector.parse text = .ok selector)
    (hpending : progress.frame.pending = filterCall text :: rest)
    (hbound : exhausts config progress.executed = none)
    (hrefusal : selector.refusal? = some cause)
    (h : ∃ object ∈ progress.frame.context,
      ∀ filter ∈ selector.askable, filter.accepts config object = false) :
    drain (.builtin config) progress =
      some ⟨.error (.misuse cause), progress.executed + 1, progress.journal.reverse⟩ := by
  have hrun := run_filter htext config ⟨progress.frame.context, rest⟩
  simp only [hparse, Context.matching_of_refusal hrefusal h] at hrun
  exact drain_of_advance_error (advance_builtin_of_error hrun hpending hbound)

theorem advance_filterCall_alone {text : String} {filter : Filter} (htext : text ≠ "")
    (hparse : Selector.parse text = .ok ⟨[filter]⟩) (hprimary : filter.primary = none)
    (hpending : progress.frame.pending = filterCall text :: rest)
    (hbound : exhausts config progress.executed = none) :
    advance (.builtin config) progress =
      .ok (progress.keeping (filter.accepts config) 1 rest) := by
  have hrefusal := Filter.refusal?_of_primary_eq_none hprimary
  have hnone : Selector.refusal? ⟨[filter]⟩ = none := by
    simp [Selector.refusal?, hrefusal]
  have hkeeps := advance_filterCall_of_accepted htext hparse hpending hbound (Or.inl hnone)
  rw [hkeeps, Selector.askable_singleton hrefusal]
  simp

/-- Calls with one attribute filter each keep what satisfies all of them. -/
theorem reaches_filterCalls (progress : Progress) (rest : List Call)
    {attributes : List AttributeFilter}
    (hparse : ∀ condition ∈ attributes,
      condition.text ≠ "" ∧ Selector.parse condition.text = .ok ⟨[⟨none, [condition]⟩]⟩)
    (houtcome : attributes = [] → progress.outcome = none)
    (hbound : ∀ limit ∈ config.maxOperations,
      progress.executed + attributes.length ≤ limit.toNat) :
    Reaches (.builtin config)
      (progress.withPending
        (attributes.map (fun condition => filterCall condition.text) ++ rest))
      (progress.keeping (fun object => attributes.all (·.holds config object)) attributes.length
        rest) := by
  -- The calls behind the first one see the context that it leaves.
  induction attributes generalizing progress with
  | nil =>
      simp only [List.all_nil, List.length_nil, List.map_nil, List.nil_append,
        Progress.keeping_all (houtcome rfl)]
      exact .refl _
  | cons condition others ih =>
      obtain ⟨⟨htext, hcondition⟩, hothers⟩ := List.forall_mem_cons.1 hparse
      simp only [List.length_cons] at hbound
      have hfirst : exhausts config progress.executed = none :=
        exhausts_eq_none_iff.2 fun limit hlimit => by
          have hle := hbound limit hlimit
          omega
      have hcall : advance (.builtin config) (progress.withPending
          ((condition :: others).map (fun condition => filterCall condition.text) ++ rest)) = _ :=
        advance_filterCall_alone htext hcondition rfl rfl hfirst
      have hrest := ih (progress.keeping (condition.holds config) 1
        (others.map (fun condition => filterCall condition.text) ++ rest)) hothers (fun _ => rfl)
        fun limit hlimit => by
          have hle := hbound limit hlimit
          simp only [Progress.keeping]
          omega
      rw [Progress.keeping_keeping, Nat.add_comm 1] at hrest
      have hkeeps : Filter.accepts config ⟨none, [condition]⟩ = condition.holds config := by
        funext object
        simp [Filter.accepts_of_primary_eq_none]
      rw [hkeeps] at hcall
      exact .step hcall hrest

/-- What a selector keeps wherever a `filter` with it is called. -/
theorem filter_keeps_accepted {text : String} {selector : Selector} (htext : text ≠ "")
    (hparse : Selector.parse text = .ok selector)
    (hpending : progress.frame.pending = filterCall text :: rest)
    (hbound : exhausts config progress.executed = none) :
    (∀ cause, selector.refusal? = some cause →
      (∃ object ∈ progress.frame.context,
        ∀ filter ∈ selector.askable, filter.accepts config object = false) →
      drain (.builtin config) progress =
        some ⟨.error (.misuse cause), progress.executed + 1, progress.journal.reverse⟩) ∧
    ((selector.refusal? = none ∨ ∀ object ∈ progress.frame.context,
        ∃ filter ∈ selector.askable, filter.accepts config object = true) →
      advance (.builtin config) progress =
        .ok (progress.keeping (fun object => selector.askable.any (·.accepts config object)) 1
          rest)) ∧
    ∀ filter ∈ selector.filters, filter.primary = none → filter.attributes ≠ [] →
      (∀ limit ∈ config.maxOperations,
        progress.executed + filter.attributes.length ≤ limit.toNat) →
      advance (.builtin config)
          (progress.withPending (filterCall (String.ofList filter.written) :: rest)) =
        .ok (progress.keeping (filter.accepts config) 1 rest) ∧
      Reaches (.builtin config)
        (progress.withPending
          (filter.attributes.map (fun condition => filterCall condition.text) ++ rest))
        (progress.keeping (filter.accepts config) filter.attributes.length rest) := by
  refine ⟨fun cause => drain_filterCall_of_refusal htext hparse hpending hbound,
    advance_filterCall_of_accepted htext hparse hpending hbound, ?_⟩
  intro filter hmem hprimary hne hlimit
  obtain ⟨-, hfilters, -⟩ := Selector.selectorText_iff.1
    (Selector.parse_eq_ok_iff_selectorText.1 hparse)
  have hfilter := hfilters filter hmem
  refine ⟨advance_filterCall_alone (Selector.ofList_written_ne_empty hfilter hne)
    (Selector.parse_written_of_wellFormed hfilter) hprimary rfl hbound, ?_⟩
  have hconditions : ∀ condition ∈ filter.attributes,
      condition.text ≠ "" ∧ Selector.parse condition.text = .ok ⟨[⟨none, [condition]⟩]⟩ := by
    intro condition hcondition
    have hwell := hfilter.2 condition hcondition
    exact ⟨Selector.text_ne_empty_of_wellFormed hwell, Selector.parse_text_of_wellFormed hwell⟩
  have hreach := reaches_filterCalls progress rest hconditions
    (fun hempty => absurd hempty hne) hlimit
  have hkeeps : filter.accepts config =
      fun object => filter.attributes.all (·.holds config object) := by
    funext object
    exact Filter.accepts_of_primary_eq_none hprimary object
  rw [hkeeps]
  exact hreach

def numbered : Json :=
  .object [("__identity", .string "7")]

def sized : Json :=
  .object [("size", .integer 2), ("tag", .bool true)]

def unsized : Json :=
  .object [("tag", .bool true)]

/-- An identifier, two conditions, and a path that no object can be asked for. -/
def numberOrSize : Selector :=
  ⟨[⟨some (.identifier "7"), []⟩,
    ⟨none, [⟨some "tag", none, "[tag]"⟩, ⟨some "size", some ⟨.equal false false, .integer 2⟩,
      "[size=2]"⟩]⟩,
    ⟨some (.path ⟨["main"], true⟩), []⟩]⟩

/-- The path fails the evaluation only if there is an object that is not accepted before. -/
theorem filter_keeps_accepted_numberOrSize :
    drain (.builtin {}) (start [sized, unsized] [filterCall "#7, [tag][size=2], /main"]) =
      some ⟨.error (.misuse .pathOfObject), 1, []⟩ ∧
    advance (.builtin {}) (start [sized, numbered, sized]
        [filterCall "#7, [tag][size=2], /main", ⟨"first", []⟩]) =
      .ok ⟨⟨[sized, numbered, sized], [⟨"first", []⟩]⟩, none, 1, []⟩ ∧
    advance (.builtin {}) (start [sized, unsized] [filterCall "[tag][size=2]"]) =
      .ok ⟨⟨[sized], []⟩, none, 1, []⟩ ∧
    Reaches (.builtin {}) (start [sized, unsized] [filterCall "[tag]", filterCall "[size=2]"])
      ⟨⟨[sized], []⟩, none, 2, []⟩ := by
  have htext : "#7, [tag][size=2], /main" ≠ "" := by decide
  have hparse : Selector.parse "#7, [tag][size=2], /main" = .ok numberOrSize := by
    rw [Selector.parse_eq]
    decide +kernel
  have hbound : exhausts {} 0 = none := rfl
  have hunaccepted :
      (start [sized, unsized] [filterCall "#7, [tag][size=2], /main"]).frame.pending =
        [filterCall "#7, [tag][size=2], /main"] := rfl
  have haccepted : (start [sized, numbered, sized]
      [filterCall "#7, [tag][size=2], /main", ⟨"first", []⟩]).frame.pending =
        [filterCall "#7, [tag][size=2], /main", ⟨"first", []⟩] := rfl
  obtain ⟨hfails, -, hsplit⟩ := filter_keeps_accepted htext hparse hunaccepted hbound
  obtain ⟨-, hkeeps, -⟩ := filter_keeps_accepted htext hparse haccepted hbound
  have hlimit : ∀ limit ∈ ({} : Config).maxOperations, 0 + 2 ≤ limit.toNat := by
    intro limit hmem
    cases hmem
    decide
  obtain ⟨hjoined, hsplitted⟩ := hsplit numberOrSize.filters[1] (List.mem_of_getElem rfl) rfl
    (List.cons_ne_nil _ _) hlimit
  refine ⟨hfails _ rfl ⟨unsized, by simp [start], by decide +kernel⟩, ?_, hjoined, hsplitted⟩
  exact hkeeps (Or.inr (by decide +kernel))

end Evaluation

end ObjectQuery
