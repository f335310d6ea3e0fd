import ObjectQuery.Proofs.Evaluation.Splitting
import ObjectQuery.Proofs.Query.Invocations
import ObjectQuery.Proofs.Selector.Rules
/-!
# Applying a selector

A selector may be passed to `count` or to `is`, or to a `filter` in front of them or of `get`. All
see the objects that the selector leaves of the context to which the pending calls lead, and all
fail where it cannot be applied to this context.
-/

namespace ObjectQuery

theorem Registry.builtin_furtherPushOnly (config : Config) :
    (Registry.builtin config).FurtherPushOnly := by
  intro operation hmem
  obtain ⟨builtin, -, rfl⟩ := List.mem_map.1 hmem
  exact Or.inl ⟨builtin, rfl⟩

/-- What a selector leaves of a context. An empty selector leaves all of it. -/
def Context.selected (config : Config) (selector : String) (context : Context) :
    Except Failure Context :=
  if selector = "" then .ok context
  else (Builtin.readSelector selector).bind (context.matching config)

theorem Context.selected_fails (config : Config) (selector : String) (context : Context) :
    FailsOnly Failure.OfArguments (context.selected config selector) := by
  unfold selected
  split
  · exact .ok _
  · exact (Builtin.readSelector_fails selector).bind fun read => matching_fails config read context

namespace Builtin

theorem run_filter_selected (config : Config) (selector : String) (frame : Frame) :
    filter.run config [.string selector] frame =
      (frame.context.selected config selector).map fun kept => (none, frame.withContext kept) := by
  unfold Context.selected
  by_cases hempty : selector = ""
  · subst hempty
    rfl
  · rw [run_filter hempty, if_neg hempty, readSelector]
    cases Selector.parse selector <;> rfl

theorem run_summary_of_ne {builtin : Builtin} (hbuiltin : builtin = .count ∨ builtin = .is)
    {selector : String} (hselector : selector ≠ "") (config : Config) (frame : Frame) :
    builtin.run config [.string selector] frame =
      .ok (none, filterThen builtin.name selector frame) := by
  have hargument (operation : String) :
      selectorArgument operation [.string selector] = .ok (some selector) :=
    selectorArgument_eq_some_iff.2 ⟨rfl, hselector⟩
  rcases hbuiltin with rfl | rfl
  · simp only [run, hargument]
    rfl
  · simp only [run, hargument]
    rfl

end Builtin

namespace Evaluation

open Builtin

section

variable {config : Config}

/-- A `filter` in front of a queue has the queue evaluated in what its selector leaves. -/
theorem run_filterCall_cons (hbound : config.maxOperations = none) (selector : String)
    (context : Context) (pending : List Call) :
    (run (.builtin config) context (filterCall selector :: pending)).result =
      (context.selected config selector).bind
        fun kept => (run (.builtin config) kept pending).result := by
  have hrun := run_filter_selected config selector ⟨context, pending⟩
  have hunbounded := exhausts_of_unbounded hbound 0
  rw [run_result]
  cases hselected : context.selected config selector with
  | error failure =>
      rw [hselected] at hrun
      rw [drain_of_advance_error (advance_builtin_of_error hrun rfl hunbounded)]
      rfl
  | ok kept =>
      rw [hselected] at hrun
      rw [drain_of_advance_ok (advance_builtin_of_ok hrun rfl hunbounded)]
      exact resultOf_drain_eq_run hbound fun _ => rfl

theorem run_singleton (hbound : config.maxOperations = none) {builtin : Builtin}
    {arguments : List Json} {context final : Context} {outcome : Option Outcome}
    (hrun : builtin.run config arguments ⟨context, []⟩ = .ok (outcome, ⟨final, []⟩)) :
    (run (.builtin config) context [⟨builtin.name, arguments⟩]).result = .ok (final, outcome) := by
  have hunbounded := exhausts_of_unbounded hbound 0
  rw [run_result, drain_of_advance_ok (advance_builtin_of_ok hrun rfl hunbounded),
    drain_of_advance_error (advance_nil rfl)]
  rfl

/-- `count` and `is` with a selector do what they do without one behind a `filter`. -/
theorem run_summary (hbound : config.maxOperations = none) {builtin : Builtin}
    (hbuiltin : builtin = .count ∨ builtin = .is) {selector : String} (hselector : selector ≠ "")
    (context : Context) :
    (run (.builtin config) context [⟨builtin.name, [.string selector]⟩]).result =
      (run (.builtin config) context [filterCall selector, ⟨builtin.name, []⟩]).result := by
  have hrun := run_summary_of_ne hbuiltin hselector config ⟨context, []⟩
  have hunbounded := exhausts_of_unbounded hbound 0
  rw [run_result, drain_of_advance_ok (advance_builtin_of_ok hrun rfl hunbounded)]
  exact resultOf_drain_eq_run hbound fun _ => rfl

theorem run_filter_then (hbound : config.maxOperations = none) {builtin : Builtin}
    {answer : Context → Outcome} {left : Context → Context}
    (hrun : ∀ kept, builtin.run config [] ⟨kept, []⟩ = .ok (some (answer kept), ⟨left kept, []⟩))
    (selector : String) (context : Context) :
    (run (.builtin config) context [filterCall selector, ⟨builtin.name, []⟩]).result =
      (context.selected config selector).map fun kept => (left kept, some (answer kept)) := by
  rw [run_filterCall_cons hbound]
  cases context.selected config selector with
  | error failure => rfl
  | ok kept => exact run_singleton hbound (hrun kept)

theorem run_count_selected (hbound : config.maxOperations = none) (selector : String)
    (context : Context) :
    (run (.builtin config) context [⟨"count", [.string selector]⟩]).result =
      (context.selected config selector).map fun kept => (kept, some (.count kept.length)) := by
  by_cases hempty : selector = ""
  · subst hempty
    have hrun : count.run config [.string ""] ⟨context, []⟩ =
        .ok (some (.count context.length), ⟨context, []⟩) := rfl
    exact run_singleton hbound hrun
  · exact (run_summary hbound (Or.inl rfl) hempty context).trans
      (run_filter_then hbound (fun _ => rfl) selector context)

theorem run_is_selected (hbound : config.maxOperations = none) (selector : String)
    (context : Context) :
    (run (.builtin config) context [⟨"is", Query.selectorArguments selector⟩]).result =
      (context.selected config selector).map fun kept => (kept, some (.bool !kept.isEmpty)) := by
  by_cases hempty : selector = ""
  · subst hempty
    have hrun : is.run config [] ⟨context, []⟩ =
        .ok (some (.bool !context.isEmpty), ⟨context, []⟩) := rfl
    exact run_singleton hbound hrun
  · rw [Query.selectorArguments, if_neg hempty]
    exact (run_summary hbound (Or.inr rfl) hempty context).trans
      (run_filter_then hbound (fun _ => rfl) selector context)

end

end Evaluation

namespace Query

open Builtin

section

variable {query : Query} {config : Config} {final : Context} {outcome : Option Outcome}

/-- Further calls are made in the context to which the pending ones lead. -/
theorem evaluate_append (hregistry : query.registry = .builtin config)
    (hbound : config.maxOperations = none)
    (hpending : (query.evaluate query.pending).result = .ok (final, outcome)) {calls : List Call}
    (hcalls : calls ≠ []) :
    (query.evaluate (query.pending ++ calls)).result =
      (Evaluation.run (.builtin config) final calls).result := by
  rw [evaluate_result hregistry] at hpending ⊢
  rcases Evaluation.run_append_of_ok (Registry.builtin_furtherPushOnly config) hpending hcalls with
    ⟨limit, hlimit, -⟩ | hsame
  · replace hlimit : config.maxOperations = some limit := hlimit
    rw [hbound] at hlimit
    cases hlimit
  · exact hsame

theorem invoke_count_selected (hregistry : query.registry = .builtin config)
    (hbound : config.maxOperations = none)
    (hpending : (query.evaluate query.pending).result = .ok (final, outcome))
    (selector : String) :
    (query.invoke "count" [.string selector]).result =
      (final.selected config selector).map fun kept => .completed (.count kept.length) := by
  have hrun := (evaluate_append hregistry hbound hpending (List.cons_ne_nil _ [])).trans
    (Evaluation.run_count_selected hbound selector final)
  refine (invoke_result hregistry .count rfl [.string selector]).trans ?_
  refine (congrArg (Except.map _) hrun).trans ?_
  cases final.selected config selector <;> rfl

theorem is_selected (hregistry : query.registry = .builtin config)
    (hbound : config.maxOperations = none)
    (hpending : (query.evaluate query.pending).result = .ok (final, outcome))
    (selector : String) :
    (query.is selector).result =
      (final.selected config selector).map fun kept => !kept.isEmpty := by
  have hrun := (evaluate_append hregistry hbound hpending (List.cons_ne_nil _ [])).trans
    (Evaluation.run_is_selected hbound selector final)
  have hcomplete := (complete_result hregistry .is rfl (selectorArguments selector)).trans
    (congrArg (Except.map _) hrun)
  simp only [is, Report.andThen]
  refine (congrArg (Except.bind · _) hcomplete).trans ?_
  cases final.selected config selector <;> rfl

theorem complete_filtered (hregistry : query.registry = .builtin config)
    (hbound : config.maxOperations = none)
    (hpending : (query.evaluate query.pending).result = .ok (final, outcome)) (builtin : Builtin)
    (hfinal : builtin.isFinal = true) (selector : String)
    {answer : Context → Outcome} {left : Context → Context}
    (hrun : ∀ kept, builtin.run config [] ⟨kept, []⟩ = .ok (some (answer kept), ⟨left kept, []⟩)) :
    ((query.queued (filterCall selector)).complete builtin.name []).result =
      (final.selected config selector).map answer := by
  have hqueued : (query.queued (filterCall selector)).registry = .builtin config := hregistry
  have hcalls : ((query.queued (filterCall selector)).evaluate
      ((query.queued (filterCall selector)).pending ++ [⟨builtin.name, []⟩])).result =
        (query.evaluate (query.pending ++ [filterCall selector, ⟨builtin.name, []⟩])).result := by
    simp [queued, evaluate]
  rw [complete_result hqueued builtin hfinal, hcalls,
    evaluate_append hregistry hbound hpending (by simp), Evaluation.run_filter_then hbound hrun]
  cases final.selected config selector <;> rfl

theorem filter_result (hregistry : query.registry = .builtin config) (selector : String) :
    (query.filter selector).result = .ok (query.queued (filterCall selector)) :=
  congrArg Report.result (chain_eq hregistry .filter rfl [.string selector])

theorem count_filtered (hregistry : query.registry = .builtin config)
    (hbound : config.maxOperations = none)
    (hpending : (query.evaluate query.pending).result = .ok (final, outcome))
    (selector : String) :
    (query.queued (filterCall selector)).count.result =
      (final.selected config selector).map List.length := by
  have hcomplete := complete_filtered hregistry hbound hpending .count rfl selector fun _ => rfl
  simp only [count, Report.andThen]
  refine (congrArg (Except.bind · _) hcomplete).trans ?_
  cases final.selected config selector <;> rfl

theorem getAll_filtered (hregistry : query.registry = .builtin config)
    (hbound : config.maxOperations = none)
    (hpending : (query.evaluate query.pending).result = .ok (final, outcome))
    (selector : String) :
    (query.queued (filterCall selector)).getAll.result = final.selected config selector := by
  have hcomplete := complete_filtered hregistry hbound hpending .get rfl selector fun _ => rfl
  simp only [getAll, Report.andThen]
  refine (congrArg (Except.bind · _) hcomplete).trans ?_
  cases final.selected config selector <;> rfl

/-- Without a bound, a query whose pending calls succeed answers in one way about a selector.
Counting with the selector, filtering and then counting, and the length of all that is left after
filtering are one number, and the query has a match if this is positive; or the selector cannot be
applied, and all of them fail for the same reason. -/
theorem selector_calls_agree (hregistry : query.registry = .builtin config)
    (hbound : config.maxOperations = none)
    (hpending : (query.evaluate query.pending).result = .ok (final, outcome))
    (selector : String) :
    (∃ n,
      (query.invoke "count" [.string selector]).result = .ok (.completed (.count n)) ∧
      ((query.filter selector).result.bind fun filtered => filtered.count.result) = .ok n ∧
      ((query.filter selector).result.bind fun filtered =>
        filtered.getAll.result.map List.length) = .ok n ∧
      (query.is selector).result = .ok (decide (0 < n))) ∨
    ∃ failure, failure.OfArguments ∧
      (query.invoke "count" [.string selector]).result = .error failure ∧
      ((query.filter selector).result.bind fun filtered => filtered.count.result) =
        .error failure ∧
      ((query.filter selector).result.bind fun filtered =>
        filtered.getAll.result.map List.length) = .error failure ∧
      (query.is selector).result = .error failure := by
  have hcount := count_filtered hregistry hbound hpending selector
  have hgetAll := getAll_filtered hregistry hbound hpending selector
  rw [filter_result hregistry, invoke_count_selected hregistry hbound hpending,
    is_selected hregistry hbound hpending]
  simp only [Except.bind, hcount, hgetAll]
  cases hselected : final.selected config selector with
  | ok kept =>
      refine Or.inl ⟨kept.length, rfl, rfl, rfl, ?_⟩
      cases kept <;> simp [Except.map]
  | error failure =>
      have hfailure := Context.selected_fails config selector final failure hselected
      exact Or.inr ⟨failure, hfailure, rfl, rfl, rfl, rfl⟩

end

def labelled : Json :=
  .object [("tag", .bool true)]

def firstOfTwo : Query :=
  ⟨.builtin { maxOperations := none }, [labelled, .null], [⟨"first", []⟩]⟩

/-- The first object has the tag, and this is said in all four ways. -/
theorem selector_calls_agree_tag :
    firstOfTwo.registry = .builtin { maxOperations := none } ∧
    (firstOfTwo.evaluate firstOfTwo.pending).result = .ok ([labelled], none) ∧
    (firstOfTwo.invoke "count" [.string "[tag]"]).result = .ok (.completed (.count 1)) ∧
    ((firstOfTwo.filter "[tag]").result.bind fun filtered => filtered.count.result) = .ok 1 ∧
    ((firstOfTwo.filter "[tag]").result.bind fun filtered =>
      filtered.getAll.result.map List.length) = .ok 1 ∧
    (firstOfTwo.is "[tag]").result = .ok true := by
  have hregistry : firstOfTwo.registry = .builtin { maxOperations := none } := rfl
  have hbound : ({ maxOperations := none } : Config).maxOperations = none := rfl
  have hpending : (firstOfTwo.evaluate firstOfTwo.pending).result = .ok ([labelled], none) := by
    rw [evaluate, Evaluation.run_result, Evaluation.drain_of_advance_ok rfl,
      Evaluation.drain_of_advance_error rfl]
    rfl
  have hparse : Selector.parse "[tag]" = .ok ⟨[⟨none, [⟨some "tag", none, "[tag]"⟩]⟩]⟩ := by
    rw [Selector.parse_eq]
    decide +kernel
  have hselected : Context.selected { maxOperations := none } "[tag]" [labelled] =
      .ok [labelled] := by
    rw [Context.selected, if_neg (by decide), readSelector, hparse]
    rfl
  have hcount := invoke_count_selected hregistry hbound hpending "[tag]"
  rw [hselected] at hcount
  rcases selector_calls_agree hregistry hbound hpending "[tag]" with
    ⟨n, hinvoke, hrest⟩ | ⟨failure, -, hinvoke, -⟩
  · rw [hcount] at hinvoke
    cases hinvoke
    exact ⟨hregistry, hpending, hcount, hrest⟩
  · rw [hcount] at hinvoke
    cases hinvoke

end Query

end ObjectQuery
