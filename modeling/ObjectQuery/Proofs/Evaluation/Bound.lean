import ObjectQuery.Proofs.Evaluation.Termination
import ObjectQuery.Proofs.Selector.Rules
/-!
# The bound on the calls of an evaluation

No built-in operation looks at the bound, so evaluations with and without one make the same calls
until the bound stops one of them. It does so exactly if the evaluation without a bound makes more
calls than it allows.
-/

namespace ObjectQuery

/-! ## Operations that do not look at the bound -/

def Config.withBound (bound : Option UInt64) (config : Config) : Config :=
  { config with maxOperations := bound }

def Registry.withBound (bound : Option UInt64) (registry : Registry) : Registry :=
  { registry with config := registry.config.withBound bound }

/-- The operation does the same under every bound. -/
def Operation.IgnoresBound (operation : Operation) : Prop :=
  ∀ bound config arguments frame,
    operation.run (config.withBound bound) arguments frame = operation.run config arguments frame

def Registry.IgnoresBound (registry : Registry) : Prop :=
  ∀ operation ∈ registry.operations, operation.IgnoresBound

theorem Selector.matchesObject_withBound (bound : Option UInt64) (config : Config)
    (selector : Selector) (object : Json) :
    selector.matchesObject (config.withBound bound) object =
      selector.matchesObject config object := by
  unfold matchesObject
  induction selector.filters with
  | nil => rfl
  | cons filter rest ih =>
      have hfilter : filter.matchesObject (config.withBound bound) object =
          filter.matchesObject config object := rfl
      simp only [anyMatches, hfilter, ih]

theorem Context.matching_withBound (bound : Option UInt64) (config : Config)
    (selector : Selector) (context : Context) :
    context.matching (config.withBound bound) selector = context.matching config selector := by
  induction context with
  | nil => rfl
  | cons object rest ih => simp only [matching, Selector.matchesObject_withBound, ih]

theorem Builtin.operation_ignoresBound (builtin : Builtin) : builtin.operation.IgnoresBound := by
  intro bound config arguments frame
  cases builtin with
  | filter => simp only [operation, run, Context.matching_withBound]
  | _ => rfl

theorem Registry.builtin_ignoresBound (config : Config) : (builtin config).IgnoresBound := by
  intro operation hmem
  obtain ⟨builtin, -, rfl⟩ := List.mem_map.1 hmem
  exact builtin.operation_ignoresBound

namespace Evaluation

variable {registry : Registry}

/-! ## Evaluations with and without a bound -/

theorem exhausts_some_of_lt {config : Config} {limit : UInt64} {executed : Nat}
    (h : executed < limit.toNat) : exhausts (config.withBound (some limit)) executed = none := by
  simp [exhausts, Config.withBound, Option.filter, h]

theorem exhausts_some_of_le {config : Config} {limit : UInt64} {executed : Nat}
    (h : limit.toNat ≤ executed) :
    exhausts (config.withBound (some limit)) executed = some limit := by
  simp [exhausts, Config.withBound, Option.filter, h]

theorem step_withBound (hignores : registry.IgnoresBound) (bound : Option UInt64) (call : Call)
    (rest : List Call) (progress : Progress) :
    step (registry.withBound bound) call rest progress = step registry call rest progress := by
  have hresolve : (registry.withBound bound).resolve call.name progress.frame.context =
      registry.resolve call.name progress.frame.context := rfl
  cases hfound : registry.resolve call.name progress.frame.context with
  | error failure => simp only [step, hresolve, hfound]
  | ok operation =>
      have hrun := hignores operation (Registry.mem_of_resolve hfound) bound registry.config
        call.arguments ⟨progress.frame.context, rest⟩
      rw [step_of_resolve (hresolve.trans hfound) hrun, step_of_resolve hfound rfl]

theorem advance_withBound_of_lt (hignores : registry.IgnoresBound) {limit : UInt64}
    {progress : Progress} (h : progress.executed < limit.toNat) :
    advance (registry.withBound (some limit)) progress =
      advance (registry.withBound none) progress := by
  cases hpending : progress.frame.pending with
  | nil => rw [advance_nil hpending, advance_nil hpending]
  | cons call rest =>
      rw [advance_cons hpending (exhausts_some_of_lt h),
        advance_cons hpending (exhausts_of_unbounded rfl progress.executed),
        step_withBound hignores, step_withBound hignores]

/-! ## The limit as a cut-off -/

theorem resultOf_drain_at_limit {limit : UInt64} {progress : Progress} {call : Call}
    {rest : List Call} (hpending : progress.frame.pending = call :: rest)
    (hlimit : limit.toNat = progress.executed) :
    resultOf (drain (registry.withBound (some limit)) progress) =
      .error (.operationLimitExceeded limit) := by
  have hbound : exhausts (registry.withBound (some limit)).config progress.executed = some limit :=
    exhausts_some_of_le (Nat.le_of_eq hlimit)
  rw [drain_of_advance_error (advance_exhausted hpending hbound)]
  rfl

/-- An evaluation under a limit follows that without one as far as the limit allows. -/
theorem resultOf_drain_withBound (hignores : registry.IgnoresBound) {limit : UInt64} {count : Nat}
    {progress : Progress} {evaluation : Evaluation} (hle : progress.executed ≤ limit.toNat)
    (h : EndsAfter (registry.withBound none) count progress evaluation) :
    resultOf (drain (registry.withBound (some limit)) progress) =
      if progress.executed + count ≤ limit.toNat then evaluation.result
      else .error (.operationLimitExceeded limit) := by
  -- The induction follows the calls made without a limit; `hle` says that none was too many yet.
  induction h with
  | emptied hpending =>
      rw [drain_of_advance_error (advance_nil hpending), if_pos (by omega)]
      rfl
  | stopped _ hbound => cases hbound
  | @failed progress call rest evaluation hpending hbound hend =>
      rcases Nat.lt_or_eq_of_le hle with hless | hlimit
      · have hsame := advance_withBound_of_lt hignores hless
        rw [advance_cons hpending hbound, hend] at hsame
        rw [drain_of_advance_error hsame, if_pos (by omega)]
        rfl
      · rw [resultOf_drain_at_limit hpending hlimit.symm, if_neg (by omega)]
  | @called count progress next evaluation hnext hrest ih =>
      rcases Nat.lt_or_eq_of_le hle with hless | hlimit
      · have hexecuted := executed_of_advance_ok hnext
        have hsame := (advance_withBound_of_lt hignores hless).trans hnext
        have hsum : next.executed + count = progress.executed + (count + 1) := by omega
        rw [drain_of_advance_ok hsame, ih (by omega), hsum]
      · obtain ⟨call, rest, _, hpending, -⟩ := exists_run_of_advance_ok hnext
        rw [resultOf_drain_at_limit hpending hlimit.symm, if_neg (by omega)]

/-- The limit is an exact cut-off. Without one, an evaluation with the built-in operations ends
after some number of calls, the failing one and those that were queued on the way included. A limit
that allows as many calls changes nothing about its result, and under any other limit it fails for
exceeding this. So a result that is not this failure stays when the limit is raised or lifted. -/
theorem run_limited (config : Config) (context : Context) (calls : List Call) :
    ∃ count : Nat,
      EndsAfter (.builtin { config with maxOperations := none }) count (start context calls)
        (run (.builtin { config with maxOperations := none }) context calls) ∧
      (∀ limit : UInt64,
        (run (.builtin { config with maxOperations := some limit }) context calls).result =
          if count ≤ limit.toNat then
            (run (.builtin { config with maxOperations := none }) context calls).result
          else .error (.operationLimitExceeded limit)) ∧
      ∀ (limit : UInt64) (bound : Option UInt64), (∀ higher ∈ bound, limit ≤ higher) →
        (run (.builtin { config with maxOperations := some limit }) context calls).result ≠
          .error (.operationLimitExceeded limit) →
        (run (.builtin { config with maxOperations := bound }) context calls).result =
          (run (.builtin { config with maxOperations := some limit }) context calls).result := by
  obtain ⟨count, unlimited, hends, -⟩ :=
    exists_endsAfter_builtin (config.withBound none) (start context calls)
  have hrun : run (.builtin { config with maxOperations := none }) context calls = unlimited :=
    run_of_endsAfter hends
  have hlimited : ∀ limit : UInt64,
      (run (.builtin { config with maxOperations := some limit }) context calls).result =
        if count ≤ limit.toNat then unlimited.result
        else .error (.operationLimitExceeded limit) := by
    intro limit
    have hresult := resultOf_drain_withBound (Registry.builtin_ignoresBound config)
      (Nat.zero_le limit.toNat) hends
    rw [start, Nat.zero_add] at hresult
    exact (run_result context calls).trans hresult
  rw [hrun]
  refine ⟨count, hends, hlimited, ?_⟩
  intro limit bound hraised hresult
  have hallowed : count ≤ limit.toNat := by
    by_contra hexceeds
    exact hresult ((hlimited limit).trans (if_neg hexceeds))
  rw [hlimited limit, if_pos hallowed]
  cases bound with
  | none => rw [hrun]
  | some higher =>
      have hhigher : limit.toNat ≤ higher.toNat := UInt64.le_iff_toNat_le.1 (hraised higher rfl)
      rw [hlimited higher, if_pos (Nat.le_trans hallowed hhigher)]

def tagged : Json :=
  .object [("tag", .bool true)]

theorem run_count_tagged :
    run (.builtin { maxOperations := none }) [tagged, .null] [⟨"count", [.string "[tag]"]⟩] =
      ⟨.ok ([tagged], some (.count 1)), 3, []⟩ := by
  have hparse : Selector.parse "[tag]" = .ok ⟨[⟨none, [⟨some "tag", none, "[tag]"⟩]⟩]⟩ := by
    rw [Selector.parse_eq]
    decide +kernel
  have hrun : Builtin.filter.run { maxOperations := none } [.string "[tag]"]
      ⟨[tagged, .null], [⟨"count", []⟩]⟩ = .ok (none, ⟨[tagged], [⟨"count", []⟩]⟩) := by
    rw [Builtin.run_filter (by decide), hparse]
    rfl
  have hcount : advance (.builtin { maxOperations := none })
      (start [tagged, .null] [⟨"count", [.string "[tag]"]⟩]) =
        .ok ⟨⟨[tagged, .null], [Builtin.filterCall "[tag]", ⟨"count", []⟩]⟩, none, 1, []⟩ := rfl
  have hfilter : advance (.builtin { maxOperations := none })
      ⟨⟨[tagged, .null], [Builtin.filterCall "[tag]", ⟨"count", []⟩]⟩, none, 1, []⟩ =
        .ok ⟨⟨[tagged], [⟨"count", []⟩]⟩, none, 2, []⟩ := advance_builtin_of_ok hrun rfl rfl
  unfold run
  rw [drain_of_advance_ok hcount, drain_of_advance_ok hfilter, drain_of_advance_ok rfl,
    drain_of_advance_error rfl]
  rfl

/-- Three calls are just enough for it, and more change nothing. -/
theorem run_limited_count :
    (∀ higher ∈ some (10000 : UInt64), (3 : UInt64) ≤ higher) ∧
    (run (.builtin { maxOperations := some 3 }) [tagged, .null]
      [⟨"count", [.string "[tag]"]⟩]).result = .ok ([tagged], some (.count 1)) ∧
    (run (.builtin { maxOperations := some 10000 }) [tagged, .null]
      [⟨"count", [.string "[tag]"]⟩]).result = .ok ([tagged], some (.count 1)) ∧
    (run (.builtin { maxOperations := some 2 }) [tagged, .null]
      [⟨"count", [.string "[tag]"]⟩]).result = .error (.operationLimitExceeded 2) := by
  obtain ⟨count, hends, hlimited, hraised⟩ :=
    run_limited {} [tagged, .null] [⟨"count", [.string "[tag]"]⟩]
  have hexecuted : 3 = 0 + count :=
    (congrArg Evaluation.executed run_count_tagged).symm.trans hends.executed_eq
  obtain rfl : count = 3 := by omega
  have henough := ((hlimited 3).trans (if_pos (by decide))).trans
    (congrArg Evaluation.result run_count_tagged)
  have hhigher : ∀ higher ∈ some (10000 : UInt64), (3 : UInt64) ≤ higher := by
    intro higher hmem
    cases hmem
    decide
  have hmore := hraised 3 (some 10000) hhigher (by
    rw [henough]
    simp)
  exact ⟨hhigher, henough, hmore.trans henough, (hlimited 2).trans (if_neg (by decide))⟩

end Evaluation

end ObjectQuery
