import ObjectQuery.Evaluation
/-!
# Evaluations step by step

An evaluation that ends is a finite chain of calls followed by an end. The chain is the relation
`Reaches`, and `drain_eq_some_iff` reads an evaluation as one: it is the form in which results about
single calls are lifted to whole evaluations. `EndsAfter` also counts the calls of the chain.
-/

namespace ObjectQuery.Evaluation

variable {registry : Registry}

theorem endsWith_of_advance_error {progress : Progress} {evaluation : Evaluation}
    (hend : advance registry progress = .error evaluation) :
    EndsWith registry progress evaluation :=
  ⟨progress, .refl progress, hend⟩

theorem endsWith_iff_of_advance_ok {progress next : Progress}
    (hnext : advance registry progress = .ok next) {evaluation : Evaluation} :
    EndsWith registry progress evaluation ↔ EndsWith registry next evaluation := by
  constructor
  · rintro ⟨last, hreach, hend⟩
    cases hreach with
    | refl =>
        rw [hnext] at hend
        cases hend
    | step made hreach =>
        rw [hnext] at made
        cases made
        exact ⟨last, hreach, hend⟩
  · rintro ⟨last, hreach, hend⟩
    exact ⟨last, .step hnext hreach, hend⟩

theorem found_proceed {first : Progress}
    {progress : { progress // Reaches registry first progress }} {evaluation : Evaluation}
    (hend : advance registry progress = .error evaluation) :
    (repeatM (proceed registry first) progress).run.found = some evaluation := by
  rw [repeatM_eq_of_monadTail]
  unfold repeatM.body proceed
  split
  · rename_i hended
    rw [hend] at hended
    cases hended
    rfl
  · rename_i hnext
    rw [hend] at hnext
    cases hnext

theorem proceed_of_advance_ok {first next : Progress}
    {progress : { progress // Reaches registry first progress }}
    (hnext : advance registry progress = .ok next) :
    proceed registry first progress = .inl ⟨next, progress.2.next hnext⟩ := by
  unfold proceed
  split
  · rename_i hended
    rw [hnext] at hended
    cases hended
  · rename_i hother
    rw [hnext] at hother
    cases hother
    rfl

theorem repeatM_proceed {first next : Progress}
    {progress : { progress // Reaches registry first progress }}
    (hnext : advance registry progress = .ok next) :
    repeatM (proceed registry first) progress =
      repeatM (proceed registry first) ⟨next, progress.2.next hnext⟩ := by
  rw [repeatM_eq_of_monadTail]
  unfold repeatM.body
  rw [proceed_of_advance_ok hnext]
  rfl

theorem found_of_reaches {first progress last : Progress} {evaluation : Evaluation}
    (hfirst : Reaches registry first progress) (hreach : Reaches registry progress last)
    (hend : advance registry last = .error evaluation) :
    (repeatM (proceed registry first) ⟨progress, hfirst⟩).run.found = some evaluation := by
  induction hreach with
  | refl => exact found_proceed hend
  | step made _ ih =>
      rw [repeatM_proceed made]
      exact ih _ hend

/-- An evaluation ends with what the last call of a chain of calls ends with. -/
theorem drain_eq_some_iff {progress : Progress} {evaluation : Evaluation} :
    drain registry progress = some evaluation ↔ EndsWith registry progress evaluation := by
  constructor
  · intro h
    exact (repeatM (proceed registry progress) ⟨progress, .refl progress⟩).run.endsWith _ h
  · rintro ⟨last, hreach, hend⟩
    exact found_of_reaches (.refl progress) hreach hend

theorem drain_of_advance_error {progress : Progress} {evaluation : Evaluation}
    (hend : advance registry progress = .error evaluation) :
    drain registry progress = some evaluation :=
  drain_eq_some_iff.2 (endsWith_of_advance_error hend)

theorem drain_of_advance_ok {progress next : Progress}
    (hnext : advance registry progress = .ok next) :
    drain registry progress = drain registry next := by
  ext evaluation
  rw [drain_eq_some_iff, drain_eq_some_iff, endsWith_iff_of_advance_ok hnext]

theorem drain_congr {first second : Progress}
    (h : advance registry first = advance registry second) :
    drain registry first = drain registry second := by
  cases hsecond : advance registry second with
  | error evaluation =>
      rw [drain_of_advance_error hsecond, drain_of_advance_error (h.trans hsecond)]
  | ok next => rw [drain_of_advance_ok hsecond, drain_of_advance_ok (h.trans hsecond)]

theorem Reaches.drain_eq {first last : Progress} (h : Reaches registry first last) :
    drain registry first = drain registry last := by
  induction h with
  | refl => rfl
  | step made _ ih => rw [drain_of_advance_ok made, ih]

/-- What every call keeps holds wherever an evaluation arrives. -/
theorem Reaches.invariant {first last : Progress} {holds : Progress → Prop}
    (hcall : ∀ progress next, advance registry progress = .ok next → holds progress → holds next)
    (hreach : Reaches registry first last) (hfirst : holds first) : holds last := by
  induction hreach with
  | refl => exact hfirst
  | step made _ ih => exact ih (hcall _ _ made hfirst)

theorem Reaches.to_end {first progress last : Progress} {evaluation : Evaluation}
    (hreach : Reaches registry first progress) (hlast : Reaches registry first last)
    (hend : advance registry last = .error evaluation) : Reaches registry progress last := by
  induction hreach with
  | refl => exact hlast
  | step made _ ih =>
      cases hlast with
      | refl =>
          rw [hend] at made
          cases made
      | step other hrest =>
          rw [made] at other
          cases other
          exact ih hrest

/-! ## What one call does -/

theorem exhausts_of_unbounded {config : Config} (hbound : config.maxOperations = none)
    (executed : Nat) : exhausts config executed = none := by
  simp [exhausts, hbound]

theorem exhausts_eq_none_iff {config : Config} {executed : Nat} :
    exhausts config executed = none ↔ ∀ limit ∈ config.maxOperations, executed < limit.toNat := by
  simp [exhausts, Option.filter_eq_none_iff]

theorem advance_nil {progress : Progress} (hpending : progress.frame.pending = []) :
    advance registry progress =
      .error (finish progress (.ok (progress.frame.context, progress.outcome))) := by
  unfold advance
  rw [hpending]

theorem advance_cons {progress : Progress} {call : Call} {rest : List Call}
    (hpending : progress.frame.pending = call :: rest)
    (hbound : exhausts registry.config progress.executed = none) :
    advance registry progress = step registry call rest progress := by
  unfold advance
  rw [hpending]
  simp only [hbound]

theorem advance_exhausted {progress : Progress} {call : Call} {rest : List Call} {limit : UInt64}
    (hpending : progress.frame.pending = call :: rest)
    (hbound : exhausts registry.config progress.executed = some limit) :
    advance registry progress =
      .error (finish progress (.error (.operationLimitExceeded limit))) := by
  unfold advance
  rw [hpending]
  simp only [hbound]

theorem step_of_resolve {progress : Progress} {call : Call} {rest : List Call}
    {operation : Operation} {report : Report (Option Outcome × Frame)}
    (hresolve : registry.resolve call.name progress.frame.context = .ok operation)
    (hrun : operation.run registry.config call.arguments ⟨progress.frame.context, rest⟩ = report) :
    step registry call rest progress =
      match report.result with
      | .error failure => .error
          ⟨.error failure, progress.executed + 1,
            (report.journal.reverse ++ progress.journal).reverse⟩
      | .ok (outcome, frame) => .ok
          ⟨frame, outcome, progress.executed + 1, report.journal.reverse ++ progress.journal⟩ := by
  rw [step, hresolve, ← hrun]
  dsimp only
  cases (operation.run registry.config call.arguments ⟨progress.frame.context, rest⟩).result <;> rfl

theorem exists_run_of_advance_ok {progress next : Progress}
    (h : advance registry progress = .ok next) :
    ∃ call rest operation, progress.frame.pending = call :: rest ∧
      registry.resolve call.name progress.frame.context = .ok operation ∧
      (operation.run registry.config call.arguments ⟨progress.frame.context, rest⟩).result =
        .ok (next.outcome, next.frame) ∧
      next.executed = progress.executed + 1 := by
  unfold advance at h
  split at h
  · cases h
  · rename_i call rest hpending
    split at h
    · cases h
    · rw [step] at h
      split at h
      · cases h
      · rename_i operation hresolve
        dsimp only at h
        split at h
        · cases h
        · rename_i outcome frame hresult
          cases h
          exact ⟨call, rest, operation, hpending, hresolve, hresult, rfl⟩

theorem executed_of_advance_ok {progress next : Progress}
    (h : advance registry progress = .ok next) : next.executed = progress.executed + 1 := by
  obtain ⟨_, _, _, -, -, -, hexecuted⟩ := exists_run_of_advance_ok h
  exact hexecuted

theorem executed_of_step_error {progress : Progress} {call : Call} {rest : List Call}
    {evaluation : Evaluation} (h : step registry call rest progress = .error evaluation) :
    evaluation.executed = progress.executed + 1 := by
  rw [step] at h
  split at h
  · cases h
    rfl
  · dsimp only at h
    split at h
    · cases h
      rfl
    · cases h

theorem result_of_step_error {progress : Progress} {call : Call} {rest : List Call}
    {evaluation : Evaluation} (h : step registry call rest progress = .error evaluation) :
    ∃ failure, evaluation.result = .error failure := by
  rw [step] at h
  split at h
  · rename_i failure _
    cases h
    exact ⟨failure, rfl⟩
  · dsimp only at h
    split at h
    · rename_i failure _
      cases h
      exact ⟨failure, rfl⟩
    · cases h

theorem pending_eq_nil_of_result_ok {progress : Progress} {evaluation : Evaluation}
    {context : Context} {outcome : Option Outcome}
    (hend : advance registry progress = .error evaluation)
    (hresult : evaluation.result = .ok (context, outcome)) :
    progress.frame.pending = [] ∧ progress.frame.context = context ∧
      progress.outcome = outcome := by
  unfold advance at hend
  split at hend
  · rename_i hpending
    cases hend
    cases hresult
    exact ⟨hpending, rfl, rfl⟩
  · split at hend
    · cases hend
      cases hresult
    · obtain ⟨failure, hfailure⟩ := result_of_step_error hend
      rw [hfailure] at hresult
      cases hresult

/-! ## Counting the calls -/

/-- An evaluation ends after a number of calls. A call that fails is one of them. -/
inductive EndsAfter (registry : Registry) : Nat → Progress → Evaluation → Prop
  /-- No call is left. -/
  | emptied {progress : Progress} (hpending : progress.frame.pending = []) :
      EndsAfter registry 0 progress
        (finish progress (.ok (progress.frame.context, progress.outcome)))
  /-- The bound does not allow the next call. -/
  | stopped {progress : Progress} {call : Call} {rest : List Call} {limit : UInt64}
      (hpending : progress.frame.pending = call :: rest)
      (hbound : exhausts registry.config progress.executed = some limit) :
      EndsAfter registry 0 progress (finish progress (.error (.operationLimitExceeded limit)))
  /-- The next call fails. -/
  | failed {progress : Progress} {call : Call} {rest : List Call} {evaluation : Evaluation}
      (hpending : progress.frame.pending = call :: rest)
      (hbound : exhausts registry.config progress.executed = none)
      (hend : step registry call rest progress = .error evaluation) :
      EndsAfter registry 1 progress evaluation
  /-- The next call is made, and the evaluation goes on. -/
  | called {count : Nat} {progress next : Progress} {evaluation : Evaluation}
      (hnext : advance registry progress = .ok next)
      (hrest : EndsAfter registry count next evaluation) :
      EndsAfter registry (count + 1) progress evaluation

theorem EndsAfter.drain_eq {count : Nat} {progress : Progress} {evaluation : Evaluation}
    (h : EndsAfter registry count progress evaluation) :
    drain registry progress = some evaluation := by
  induction h with
  | emptied hpending => exact drain_of_advance_error (advance_nil hpending)
  | stopped hpending hbound => exact drain_of_advance_error (advance_exhausted hpending hbound)
  | failed hpending hbound hend =>
      exact drain_of_advance_error ((advance_cons hpending hbound).trans hend)
  | called hnext _ ih => rw [drain_of_advance_ok hnext, ih]

theorem EndsAfter.executed_eq {count : Nat} {progress : Progress} {evaluation : Evaluation}
    (h : EndsAfter registry count progress evaluation) :
    evaluation.executed = progress.executed + count := by
  induction h with
  | emptied => rfl
  | stopped => rfl
  | failed _ _ hend => exact executed_of_step_error hend
  | called hnext _ ih =>
      have hexecuted := executed_of_advance_ok hnext
      omega

theorem exists_endsAfter_of_advance_error {progress : Progress} {evaluation : Evaluation}
    (h : advance registry progress = .error evaluation) :
    ∃ count, EndsAfter registry count progress evaluation ∧
      count ≤ progress.frame.pending.length := by
  unfold advance at h
  split at h
  · rename_i hpending
    cases h
    exact ⟨0, .emptied hpending, Nat.zero_le _⟩
  · rename_i call rest hpending
    split at h
    · rename_i limit hbound
      cases h
      exact ⟨0, .stopped hpending hbound, Nat.zero_le _⟩
    · rename_i hbound
      refine ⟨1, .failed hpending hbound h, ?_⟩
      simp [hpending]

/-! ## Whole evaluations -/

def resultOf (evaluation : Option Evaluation) : Except Failure (Context × Option Outcome) :=
  match evaluation with
  | some evaluation => evaluation.result
  | none => .error .unfinished

theorem run_result (context : Context) (calls : List Call) :
    (run registry context calls).result = resultOf (drain registry (start context calls)) := by
  unfold run
  cases drain registry (start context calls) <;> rfl

theorem run_of_endsAfter {context : Context} {calls : List Call} {count : Nat}
    {evaluation : Evaluation} (h : EndsAfter registry count (start context calls) evaluation) :
    run registry context calls = evaluation := by
  unfold run
  rw [h.drain_eq]

theorem exists_reaches_of_run_ok {context final : Context} {calls : List Call}
    {outcome : Option Outcome} (h : (run registry context calls).result = .ok (final, outcome)) :
    ∃ last, Reaches registry (start context calls) last ∧ last.frame = ⟨final, []⟩ ∧
      last.outcome = outcome := by
  rw [run_result] at h
  cases hdrain : drain registry (start context calls) with
  | none =>
      rw [hdrain] at h
      cases h
  | some evaluation =>
      rw [hdrain] at h
      obtain ⟨last, hreach, hend⟩ := drain_eq_some_iff.1 hdrain
      obtain ⟨hpending, hcontext, houtcome⟩ := pending_eq_nil_of_result_ok hend h
      refine ⟨last, hreach, ?_, houtcome⟩
      rw [← hcontext, ← hpending]

end ObjectQuery.Evaluation
