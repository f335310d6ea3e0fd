import ObjectQuery.Proofs.Evaluation.Pushing
import ObjectQuery.Proofs.Evaluation.Steps
import ObjectQuery.Query
/-!
# Evaluating a queue in two parts

A queue may be cut anywhere: evaluating its first part and then the rest in the context that this
leaves gives what evaluating it at once gives (`run_append`). The evaluation of the whole queue is
that of the first part with more calls behind every frame. It differs where the first part fails for
want of a call to look at, and it counts on against the bound where the rest alone starts anew.
-/

namespace ObjectQuery

def Progress.append (progress : Progress) (calls : List Call) : Progress :=
  { progress with frame := progress.frame.append calls }

namespace Evaluation

/-! ## More calls behind the queue -/

theorem start_append (context : Context) (first second : List Call) :
    start context (first ++ second) = (start context first).append second := rfl

/-- The next call is one of the built-in `children` without a selector, made in a context with
objects and with no call behind it. -/
def LacksSelector (registry : Registry) (progress : Progress) : Prop :=
  exhausts registry.config progress.executed = none ∧
    ∃ call, progress.frame.pending = [call] ∧
      registry.resolve call.name progress.frame.context = .ok Builtin.children.operation ∧
      Builtin.TakesSelector call.arguments progress.frame.context

variable {registry : Registry}

theorem step_append {call : Call} {rest : List Call} {progress : Progress}
    (h : ∀ operation, registry.resolve call.name progress.frame.context = .ok operation →
      operation.PushesOnlyAt registry.config call.arguments ⟨progress.frame.context, rest⟩)
    (calls : List Call) :
    step registry call (rest ++ calls) (progress.append calls) =
      (step registry call rest progress).map fun next => next.append calls := by
  have hcontext : (progress.append calls).frame.context = progress.frame.context := rfl
  cases hresolve : registry.resolve call.name progress.frame.context with
  | error failure =>
      simp only [step, hcontext, hresolve]
      rfl
  | ok operation =>
      have happend : step registry call (rest ++ calls) (progress.append calls) = _ :=
        step_of_resolve hresolve (h operation hresolve calls)
      rw [happend, step_of_resolve hresolve rfl]
      simp only [Report.append]
      cases (operation.run registry.config call.arguments
        ⟨progress.frame.context, rest⟩).result <;> rfl

/-- Calls behind a queue that is not empty do not change what the next call does. -/
theorem advance_append (hregistry : registry.FurtherPushOnly) {progress : Progress}
    (hpending : progress.frame.pending ≠ []) (hselector : ¬ LacksSelector registry progress)
    (calls : List Call) :
    advance registry (progress.append calls) =
      (advance registry progress).map fun next => next.append calls := by
  obtain ⟨call, rest, hcons⟩ := List.exists_cons_of_ne_nil hpending
  have happend : (progress.append calls).frame.pending = call :: (rest ++ calls) := by
    simp [Progress.append, Frame.append, hcons]
  cases hbound : exhausts registry.config progress.executed with
  | some limit =>
      rw [advance_exhausted hcons hbound, advance_exhausted happend hbound]
      rfl
  | none =>
      rw [advance_cons hcons hbound, advance_cons happend hbound]
      apply step_append
      intro operation hresolve
      apply hregistry.pushesOnlyAt (Registry.mem_of_resolve hresolve)
      intro hchildren htakes hrest
      subst hchildren
      replace hrest : rest = [] := hrest
      exact hselector ⟨hbound, call, by rw [hcons, hrest], hresolve, htakes⟩

theorem advance_of_lacksSelector {progress : Progress} (h : LacksSelector registry progress) :
    ∃ evaluation, advance registry progress = .error evaluation := by
  obtain ⟨hbound, call, hpending, hresolve, hargument, hcontext⟩ := h
  rw [advance_cons hpending hbound, step_of_resolve hresolve rfl]
  have hisEmpty : progress.frame.context.isEmpty = false := by simpa using hcontext
  simp only [Builtin.operation, Builtin.run, Builtin.runChildren, Report.silent,
    Builtin.childrenSelector, hargument, hisEmpty]
  exact ⟨_, rfl⟩

theorem advance_append_of_ok (hregistry : registry.FurtherPushOnly) {progress next : Progress}
    (h : advance registry progress = .ok next) (calls : List Call) :
    advance registry (progress.append calls) = .ok (next.append calls) := by
  have hpending : progress.frame.pending ≠ [] := by
    intro hnil
    rw [advance_nil hnil] at h
    cases h
  have hselector : ¬ LacksSelector registry progress := by
    intro hlacks
    obtain ⟨evaluation, hend⟩ := advance_of_lacksSelector hlacks
    rw [hend] at h
    cases h
  rw [advance_append hregistry hpending hselector, h]
  rfl

theorem Reaches.append (hregistry : registry.FurtherPushOnly) {first last : Progress}
    (h : Reaches registry first last) (calls : List Call) :
    Reaches registry (first.append calls) (last.append calls) := by
  induction h with
  | refl progress => exact .refl _
  | step made _ ih => exact .step (advance_append_of_ok hregistry made calls) ih

theorem drain_append_of_none (hregistry : registry.FurtherPushOnly) {progress : Progress}
    (h : drain registry progress = none) (calls : List Call) :
    drain registry (progress.append calls) = none := by
  cases hdrain : drain registry (progress.append calls) with
  | none => rfl
  | some evaluation =>
      obtain ⟨last, hreach, hend⟩ := drain_eq_some_iff.1 hdrain
      -- Without an end every progress goes on, so the chain with more calls never stops.
      generalize hfirst : progress.append calls = first at hreach
      induction hreach generalizing progress with
      | refl =>
          cases hadvance : advance registry progress with
          | error ended =>
              rw [drain_of_advance_error hadvance] at h
              cases h
          | ok next =>
              rw [← hfirst, advance_append_of_ok hregistry hadvance] at hend
              cases hend
      | step made _ ih =>
          cases hadvance : advance registry progress with
          | error ended =>
              rw [drain_of_advance_error hadvance] at h
              cases h
          | ok next =>
              have happend := advance_append_of_ok hregistry hadvance calls
              rw [hfirst, made] at happend
              cases happend
              rw [drain_of_advance_ok hadvance] at h
              rw [drain_of_advance_ok (advance_append_of_ok hregistry hadvance calls)] at hdrain
              exact ih h hdrain hend rfl

/-! ## Counting on -/

/-- The same frame after at least as many calls. An outcome of earlier calls shows only if none is
left to make. -/
structure CountsOn (first second : Progress) : Prop where
  frame : second.frame = first.frame
  outcome : first.frame.pending = [] → second.outcome = first.outcome
  executed : first.executed ≤ second.executed

def ExceedsLimit (registry : Registry) (result : Except Failure (Context × Option Outcome)) :
    Prop :=
  ∃ limit, registry.config.maxOperations = some limit ∧
    result = .error (.operationLimitExceeded limit)

theorem exhausts_eq_some {config : Config} {executed : Nat} {limit : UInt64}
    (h : exhausts config executed = some limit) :
    config.maxOperations = some limit ∧ limit.toNat ≤ executed := by
  obtain ⟨hlimit, hle⟩ := Option.filter_eq_some_iff.1 h
  exact ⟨hlimit, by simpa using hle⟩

theorem exhausts_of_le {config : Config} {executed more : Nat} {limit : UInt64}
    (h : exhausts config executed = some limit) (hle : executed ≤ more) :
    exhausts config more = some limit := by
  obtain ⟨hlimit, hexecuted⟩ := exhausts_eq_some h
  unfold exhausts
  rw [Option.filter_eq_some_iff]
  exact ⟨hlimit, by simpa using Nat.le_trans hexecuted hle⟩

/-- One call from the same frame does the same, unless the later one is stopped by the bound. -/
theorem CountsOn.advance (registry : Registry) {first second : Progress}
    (h : CountsOn first second) :
    (∃ evaluation, advance registry second = .error evaluation ∧
      ExceedsLimit registry evaluation.result) ∨
    (∃ early late, advance registry first = .error early ∧
      advance registry second = .error late ∧ late.result = early.result) ∨
    (∃ early late, advance registry first = .ok early ∧
      advance registry second = .ok late ∧ CountsOn early late) := by
  cases hpending : first.frame.pending with
  | nil =>
      refine Or.inr (Or.inl ⟨_, _, advance_nil hpending, advance_nil (h.frame ▸ hpending), ?_⟩)
      simp [finish, h.frame, h.outcome hpending]
  | cons call rest =>
      have hlate : second.frame.pending = call :: rest := by rw [h.frame, hpending]
      cases hbound : exhausts registry.config second.executed with
      | some limit =>
          exact Or.inl ⟨_, advance_exhausted hlate hbound, limit,
            (exhausts_eq_some hbound).1, rfl⟩
      | none =>
          have hfirst : exhausts registry.config first.executed = none := by
            cases hearly : exhausts registry.config first.executed with
            | none => rfl
            | some limit =>
                rw [exhausts_of_le hearly h.executed] at hbound
                cases hbound
          rw [advance_cons hpending hfirst, advance_cons hlate hbound]
          cases hresolve : registry.resolve call.name first.frame.context with
          | error failure =>
              have hsecond : registry.resolve call.name second.frame.context = .error failure := by
                rw [h.frame, hresolve]
              refine Or.inr (Or.inl ?_)
              simp only [step, hresolve, hsecond]
              exact ⟨_, _, rfl, rfl, rfl⟩
          | ok operation =>
              have hsecond : registry.resolve call.name second.frame.context = .ok operation := by
                rw [h.frame, hresolve]
              rw [step_of_resolve hresolve rfl, step_of_resolve hsecond rfl, h.frame]
              cases (operation.run registry.config call.arguments
                ⟨first.frame.context, rest⟩).result with
              | error failure => exact Or.inr (Or.inl ⟨_, _, rfl, rfl, rfl⟩)
              | ok made =>
                  obtain ⟨outcome, frame⟩ := made
                  have hexecuted := Nat.succ_le_succ h.executed
                  exact Or.inr (Or.inr ⟨_, _, rfl, rfl, rfl, fun _ => rfl, hexecuted⟩)

theorem CountsOn.of_reaches {first last second : Progress} {evaluation : Evaluation}
    (h : CountsOn first second) (hreach : Reaches registry first last)
    (hend : Evaluation.advance registry last = .error evaluation) :
    ∃ late, drain registry second = some late ∧
      (ExceedsLimit registry late.result ∨ late.result = evaluation.result) := by
  induction hreach generalizing second with
  | refl progress =>
      rcases h.advance registry with
        ⟨late, hlate, hlimit⟩ | ⟨early, late, hearly, hlate, hresult⟩ | ⟨early, _, hearly, _⟩
      · exact ⟨late, drain_of_advance_error hlate, Or.inl hlimit⟩
      · rw [hend] at hearly
        cases hearly
        exact ⟨late, drain_of_advance_error hlate, Or.inr hresult⟩
      · rw [hend] at hearly
        cases hearly
  | step made _ ih =>
      rcases h.advance registry with
        ⟨late, hlate, hlimit⟩ | ⟨early, _, hearly, _⟩ | ⟨early, late, hearly, hlate, hcounts⟩
      · exact ⟨late, drain_of_advance_error hlate, Or.inl hlimit⟩
      · rw [made] at hearly
        cases hearly
      · rw [made] at hearly
        cases hearly
        rw [drain_of_advance_ok hlate]
        exact ih hcounts hend

/-- The later evaluation ends only where the earlier one does, the bound apart. -/
theorem CountsOn.of_reaches_later {first second last : Progress} {evaluation : Evaluation}
    (h : CountsOn first second) (hreach : Reaches registry second last)
    (hend : Evaluation.advance registry last = .error evaluation) :
    ExceedsLimit registry evaluation.result ∨ drain registry first ≠ none := by
  induction hreach generalizing first with
  | refl progress =>
      rcases h.advance registry with
        ⟨late, hlate, hlimit⟩ | ⟨early, late, hearly, hlate, hresult⟩ | ⟨_, late, _, hlate, _⟩
      · rw [hend] at hlate
        cases hlate
        exact Or.inl hlimit
      · rw [drain_of_advance_error hearly]
        exact Or.inr (by simp)
      · rw [hend] at hlate
        cases hlate
  | step made _ ih =>
      rcases h.advance registry with
        ⟨late, hlate, _⟩ | ⟨_, late, _, hlate, _⟩ | ⟨early, late, hearly, hlate, hcounts⟩
      · rw [made] at hlate
        cases hlate
      · rw [made] at hlate
        cases hlate
      · rw [made] at hlate
        cases hlate
        rw [drain_of_advance_ok hearly]
        exact ih hcounts hend

theorem CountsOn.resultOf_drain {first second : Progress} (h : CountsOn first second) :
    ExceedsLimit registry (resultOf (drain registry second)) ∨
      resultOf (drain registry second) = resultOf (drain registry first) := by
  cases hfirst : drain registry first with
  | some evaluation =>
      obtain ⟨last, hreach, hend⟩ := drain_eq_some_iff.1 hfirst
      obtain ⟨late, hlate, hresult⟩ := h.of_reaches hreach hend
      rw [hlate]
      exact hresult
  | none =>
      cases hsecond : drain registry second with
      | none => exact Or.inr rfl
      | some evaluation =>
          obtain ⟨last, hreach, hend⟩ := drain_eq_some_iff.1 hsecond
          rcases h.of_reaches_later hreach hend with hlimit | hends
          · exact Or.inl hlimit
          · exact absurd hfirst hends

/-- Without a bound, an evaluation gives what evaluating its frame from the start gives, if no
outcome of an earlier call shows. -/
theorem resultOf_drain_eq_run (hbound : registry.config.maxOperations = none)
    {progress : Progress} (houtcome : progress.frame.pending = [] → progress.outcome = none) :
    resultOf (drain registry progress) =
      (run registry progress.frame.context progress.frame.pending).result := by
  have hcounts : CountsOn (start progress.frame.context progress.frame.pending) progress :=
    ⟨rfl, houtcome, Nat.zero_le _⟩
  rw [run_result]
  rcases hcounts.resultOf_drain with ⟨limit, hlimit, -⟩ | hsame
  · rw [hbound] at hlimit
    cases hlimit
  · exact hsame

/-! ## The whole queue -/

/-- The evaluation of a queue fails at a call of the built-in `children` without a selector that is
the last of its queue. -/
def FailsForLackOfSelector (registry : Registry) (context : Context) (calls : List Call)
    (failure : Failure) : Prop :=
  ∃ progress evaluation, Reaches registry (start context calls) progress ∧
    LacksSelector registry progress ∧ advance registry progress = .error evaluation ∧
    evaluation.result = .error failure

/-- The whole queue goes on from wherever its first part arrives, with the second part behind. -/
theorem run_append_result (hregistry : registry.FurtherPushOnly) {context : Context}
    {first : List Call} {last : Progress} (hreach : Reaches registry (start context first) last)
    (second : List Call) :
    (run registry context (first ++ second)).result =
      resultOf (drain registry (last.append second)) :=
  calc
    (run registry context (first ++ second)).result
        = resultOf (drain registry ((start context first).append second)) := by
          rw [run_result, start_append]
    _ = resultOf (drain registry (last.append second)) := by
          rw [(hreach.append hregistry second).drain_eq]

theorem run_append_of_ok (hregistry : registry.FurtherPushOnly) {context final : Context}
    {first second : List Call} {outcome : Option Outcome}
    (h : (run registry context first).result = .ok (final, outcome)) (hsecond : second ≠ []) :
    ExceedsLimit registry (run registry context (first ++ second)).result ∨
      (run registry context (first ++ second)).result = (run registry final second).result := by
  obtain ⟨last, hreach, hframe, -⟩ := exists_reaches_of_run_ok h
  have hcounts : CountsOn (start final second) (last.append second) := by
    refine ⟨?_, fun hnil => absurd hnil hsecond, Nat.zero_le _⟩
    simp [Progress.append, Frame.append, start, hframe]
  rw [run_append_result hregistry hreach, run_result]
  exact hcounts.resultOf_drain

theorem run_append_of_error (hregistry : registry.FurtherPushOnly) {context : Context}
    {first : List Call} {failure : Failure}
    (h : (run registry context first).result = .error failure) (second : List Call) :
    (run registry context (first ++ second)).result = .error failure ∨
      FailsForLackOfSelector registry context first failure := by
  rw [run_result] at h
  cases hdrain : drain registry (start context first) with
  | none =>
      rw [run_result, start_append, drain_append_of_none hregistry hdrain, ← h, hdrain]
      exact Or.inl rfl
  | some evaluation =>
      rw [hdrain] at h
      obtain ⟨last, hreach, hend⟩ := drain_eq_some_iff.1 hdrain
      by_cases hselector : LacksSelector registry last
      · exact Or.inr ⟨last, evaluation, hreach, hselector, hend, h⟩
      · have hpending : last.frame.pending ≠ [] := by
          intro hnil
          rw [advance_nil hnil] at hend
          cases hend
          cases h
        have hlast := advance_append hregistry hpending hselector second
        rw [hend] at hlast
        rw [run_append_result hregistry hreach, drain_of_advance_error hlast]
        exact Or.inl h

/-- A queue may be evaluated in two parts. If its first part succeeds, the whole gives what the
second part gives in the context left by the first, unless only the whole exceeds the bound. So a
query that is materialized gives the same answers later. If the first part fails, the whole fails
in the same way, unless it fails for want of a call to look at. -/
theorem run_append (hregistry : registry.FurtherPushOnly) (context : Context)
    (first second : List Call) :
    (∀ final outcome, (run registry context first).result = .ok (final, outcome) →
      second ≠ [] →
      ExceedsLimit registry (run registry context (first ++ second)).result ∨
        (run registry context (first ++ second)).result = (run registry final second).result) ∧
    (∀ materialized, (Query.materialize ⟨registry, context, first⟩).result = .ok materialized →
      second ≠ [] →
      ExceedsLimit registry (Query.evaluate ⟨registry, context, first⟩ (first ++ second)).result ∨
        (Query.evaluate ⟨registry, context, first⟩ (first ++ second)).result =
          (materialized.evaluate (materialized.pending ++ second)).result) ∧
    (∀ failure, (run registry context first).result = .error failure →
      (run registry context (first ++ second)).result = .error failure ∨
        FailsForLackOfSelector registry context first failure) := by
  refine ⟨?_, ?_, ?_⟩
  · intro final outcome hfirst hsecond
    exact run_append_of_ok hregistry hfirst hsecond
  · intro materialized hmaterialize hsecond
    unfold Query.materialize at hmaterialize
    split at hmaterialize
    · cases hmaterialize
      exact Or.inr rfl
    · simp only [Report.andThen, Query.evaluate] at hmaterialize
      cases hfirst : (run registry context first).result with
      | error failure =>
          rw [hfirst] at hmaterialize
          cases hmaterialize
      | ok made =>
          rw [hfirst] at hmaterialize
          cases hmaterialize
          exact run_append_of_ok hregistry hfirst hsecond
  · intro failure hfirst
    exact run_append_of_error hregistry hfirst second

/-- The built-in operations and a script that queues `first`. -/
def headRegistry : Registry :=
  ⟨Script.operation ⟨"head", 2, false, 0, none, [.push ⟨"first", []⟩], .silent⟩ ::
    Builtin.all.map Builtin.operation, {}⟩

theorem headRegistry_furtherPushOnly : headRegistry.FurtherPushOnly := by
  intro operation hmem
  rcases List.mem_cons.1 hmem with rfl | hbuiltin
  · exact Or.inr (Script.operation_pushesOnly (by simp [Action.readsQueue]))
  · obtain ⟨builtin, -, rfl⟩ := List.mem_map.1 hbuiltin
    exact Or.inl ⟨builtin, rfl⟩

/-- The script leaves one object for a `count` behind it. In front of `count`, `children` fails with
or without it. -/
theorem run_append_head :
    headRegistry.FurtherPushOnly ∧
    (run headRegistry [.null, .bool true] [⟨"head", []⟩]).result = .ok ([.null], none) ∧
    (ExceedsLimit headRegistry
        (run headRegistry [.null, .bool true] [⟨"head", []⟩, ⟨"count", []⟩]).result ∨
      (run headRegistry [.null, .bool true] [⟨"head", []⟩, ⟨"count", []⟩]).result =
        (run headRegistry [.null] [⟨"count", []⟩]).result) ∧
    (run headRegistry [.null] [⟨"children", []⟩, ⟨"count", []⟩]).result =
      .error (.misuse .childrenAlone) ∧
    ((run headRegistry [.null] [⟨"children", []⟩, ⟨"count", []⟩, ⟨"filter", []⟩]).result =
        .error (.misuse .childrenAlone) ∨
      FailsForLackOfSelector headRegistry [.null] [⟨"children", []⟩, ⟨"count", []⟩]
        (.misuse .childrenAlone)) := by
  have hhead : (run headRegistry [.null, .bool true] [⟨"head", []⟩]).result =
      .ok ([.null], none) := by
    rw [run_result, drain_of_advance_ok rfl, drain_of_advance_ok rfl, drain_of_advance_error rfl]
    rfl
  have hchildren : (run headRegistry [.null] [⟨"children", []⟩, ⟨"count", []⟩]).result =
      .error (.misuse .childrenAlone) := by
    rw [run_result, drain_of_advance_error rfl]
    rfl
  exact ⟨headRegistry_furtherPushOnly, hhead,
    (run_append headRegistry_furtherPushOnly [.null, .bool true] [⟨"head", []⟩]
      [⟨"count", []⟩]).1 [.null] none hhead (by simp),
    hchildren,
    (run_append headRegistry_furtherPushOnly [.null] [⟨"children", []⟩, ⟨"count", []⟩]
      [⟨"filter", []⟩]).2.2 (.misuse .childrenAlone) hchildren⟩

end Evaluation

end ObjectQuery
