import ObjectQuery.Proofs.Evaluation.Steps
import ObjectQuery.Proofs.Registration
/-!
# Evaluations with the built-in operations

The registry of the built-in operations has one operation to a name, so the name of a call decides
what the call does. Of the queue, a built-in operation that succeeds changes little: most leave it
as it is, `count` and `is` with a selector queue two calls, and `children` queues its attribute
filters.
-/

namespace ObjectQuery

namespace Registry

/-- The registry of the built-in operations with a configuration. -/
def builtin (config : Config) : Registry :=
  ⟨Builtin.all.map Builtin.operation, config⟩

/-- Registering the built-in operations and building gives this registry: all have the same
priority, so their order is kept. -/
theorem build_registerBuiltins {config : Config} (hvalid : config.validate = .ok ()) :
    ({ config := config } : Draft).registerBuiltins.bind Draft.build = .ok (builtin config) := by
  have hregister : ({ config := config } : Draft).registerBuiltins =
      .ok ⟨Builtin.all.map Builtin.operation, config⟩ := rfl
  have hsorted : (Builtin.all.map Builtin.operation).mergeSort
      (fun x y => decide (y.priority ≤ x.priority)) = Builtin.all.map Builtin.operation := by
    apply List.mergeSort_of_pairwise
    exact List.pairwise_map.2 (List.pairwise_of_forall fun _ _ => by simp [Builtin.operation])
  simp only [hregister, Except.bind, Draft.build, hvalid, hsorted]
  rfl

theorem resolve_builtin (config : Config) (builtin : Builtin) (context : Context) :
    (Registry.builtin config).resolve builtin.name context = .ok builtin.operation := by
  cases builtin <;> rfl

theorem exists_builtin_of_resolve {config : Config} {name : String} {context : Context}
    {operation : Operation} (h : (builtin config).resolve name context = .ok operation) :
    ∃ builtin : Builtin, builtin.name = name ∧ operation = builtin.operation := by
  obtain ⟨builtin, -, rfl⟩ := List.mem_map.1 (mem_of_resolve h)
  exact ⟨builtin, name_of_resolve h, rfl⟩

theorem resolve_builtin_eq_error {config : Config} {name : String} {context : Context}
    {failure : Failure} (h : (builtin config).resolve name context = .error failure) :
    failure = .unknownOperation name ∧ ∀ builtin : Builtin, builtin.name ≠ name := by
  have hunknown : ∀ builtin : Builtin, builtin.name ≠ name := by
    rintro builtin rfl
    rw [resolve_builtin] at h
    cases h
  have hnone : (Registry.builtin config).candidates name = [] := by
    simp only [candidates, Registry.builtin, List.filter_eq_nil_iff, beq_iff_eq]
    intro operation hmem
    obtain ⟨builtin, -, rfl⟩ := List.mem_map.1 hmem
    exact hunknown builtin
  unfold resolve at h
  rw [hnone] at h
  cases h
  exact ⟨rfl, hunknown⟩

end Registry

namespace Builtin

theorem name_injective {x y : Builtin} (h : x.name = y.name) : x = y := by
  cases x <;> cases y <;> simp_all [name]

/-! ## Selectors of calls -/

/-- A selector is missing if the first argument is missing, null or the empty text. -/
theorem selectorArgument_eq_none_iff {operation : String} {arguments : List Json} :
    selectorArgument operation arguments = .ok none ↔
      arguments.head? ∈ [none, some .null, some (.string "")] := by
  cases hhead : arguments.head? with
  | none => simp [selectorArgument, hhead]
  | some first =>
      cases first with
      | string text => by_cases hempty : text = "" <;> simp [selectorArgument, hhead, hempty]
      | _ => simp [selectorArgument, hhead]

theorem selectorArgument_eq_some_iff {operation text : String} {arguments : List Json} :
    selectorArgument operation arguments = .ok (some text) ↔
      arguments.head? = some (.string text) ∧ text ≠ "" := by
  cases hhead : arguments.head? with
  | none => simp [selectorArgument, hhead]
  | some first =>
      cases first with
      | string found =>
          by_cases hempty : found = ""
          · simp [selectorArgument, hhead, hempty, eq_comm]
          · simp only [selectorArgument, hhead, hempty, if_false, Except.ok.injEq,
              Option.some.injEq, Json.string.injEq]
            exact ⟨fun hfound => ⟨hfound, hfound ▸ hempty⟩, And.left⟩
      | _ => simp [selectorArgument, hhead]

theorem parse_of_readSelector {text : String} {selector : Selector}
    (h : readSelector text = .ok selector) : Selector.parse text = .ok selector := by
  unfold readSelector at h
  split at h
  · rename_i found hparse
    cases h
    exact hparse
  · cases h

theorem bind_eq_ok {α β : Type} {result : Except Failure α} {next : α → Except Failure β}
    {value : β} (h : (result >>= next) = .ok value) :
    ∃ first, result = .ok first ∧ next first = .ok value := by
  cases result with
  | error failure => cases h
  | ok first => exact ⟨first, rfl, h⟩

/-- The selector of `children` is its own, or that of a `filter` directly behind it. -/
theorem childrenSelector_cases {arguments : List Json} {pending behind : List Call} {text : String}
    (h : childrenSelector arguments pending = .ok (text, behind)) :
    (arguments.head? = some (.string text) ∧ behind = pending) ∨
      ∃ next, pending = next :: behind ∧ next.name = filter.name ∧
        next.arguments.head? = some (.string text) := by
  obtain ⟨own, hown, hrest⟩ := bind_eq_ok h
  cases own with
  | some found =>
      cases hrest
      exact Or.inl ⟨(selectorArgument_eq_some_iff.1 hown).1, rfl⟩
  | none =>
      cases pending with
      | nil => cases hrest
      | cons next rest =>
          by_cases hname : next.name = "filter"
          · simp only [hname, if_true] at hrest
            obtain ⟨found, hfound, hrest⟩ := bind_eq_ok hrest
            cases found with
            | none => cases hrest
            | some found =>
                cases hrest
                exact Or.inr ⟨next, rfl, hname, (selectorArgument_eq_some_iff.1 hfound).1⟩
          · simp only [hname, if_false] at hrest
            cases hrest

theorem propertyName?_eq_some {found : Filter} {name : String}
    (h : found.propertyName? = some name) : found.primary = some (.propertyName name) := by
  unfold Filter.propertyName? at h
  split at h
  · rename_i primary hprimary
    rw [hprimary, Option.some.inj h]
  · cases h

theorem filters_of_childrenParts {text name : String} {selector : Selector}
    {attributes : List AttributeFilter}
    (h : childrenParts text selector = .ok (name, attributes)) :
    selector.filters = [⟨some (.propertyName name), attributes⟩] := by
  unfold childrenParts at h
  split at h
  · cases h
  · rename_i only honly
    split at h
    · cases h
    · split at h
      · rename_i found hname
        have hprimary := propertyName?_eq_some hname
        cases h
        rw [honly, ← hprimary]
      · cases h
  · cases h

theorem run_filter {text : String} (htext : text ≠ "") (config : Config) (frame : Frame) :
    filter.run config [.string text] frame =
      match Selector.parse text with
      | .error error => .error (.selector error)
      | .ok selector => (frame.context.matching config selector).map fun kept =>
          (none, frame.withContext kept) := by
  have hselector : selectorArgument "filter" [.string text] = .ok (some text) :=
    selectorArgument_eq_some_iff.2 ⟨rfl, htext⟩
  simp only [run, hselector, bind, Except.bind, readSelector]
  cases Selector.parse text with
  | error error => rfl
  | ok selector => cases frame.context.matching config selector <;> rfl

/-! ## The queue behind a call -/

/-- How a built-in operation that succeeds leaves the queue behind it. -/
inductive Leaves (arguments : List Json) (pending : List Call) : Builtin → List Call → Prop
  /-- Nothing is queued or removed. -/
  | same (builtin : Builtin) : Leaves arguments pending builtin pending
  /-- `count` and `is` filter first and are then made without a selector. -/
  | filtering {builtin : Builtin} {text : String} (hbuiltin : builtin = .count ∨ builtin = .is)
      (hselector : selectorArgument builtin.name arguments = .ok (some text)) :
      Leaves arguments pending builtin (filterCall text :: ⟨builtin.name, []⟩ :: pending)
  /-- `children` queues its attribute filters, behind which a `filter` may be gone. -/
  | stepping {text name : String} {behind : List Call} {selector : Selector}
      {attributes : List AttributeFilter}
      (hselector : childrenSelector arguments pending = .ok (text, behind))
      (hparse : Selector.parse text = .ok selector)
      (hparts : childrenParts text selector = .ok (name, attributes)) :
      Leaves arguments pending .children
        (attributes.map (fun condition => filterCall condition.text) ++ behind)

theorem leaves_of_runChildren {arguments : List Json} {frame next : Frame}
    {outcome : Option Outcome} (h : runChildren arguments frame = .ok (outcome, next)) :
    Leaves arguments frame.pending .children next.pending := by
  unfold runChildren at h
  by_cases hempty : frame.context.isEmpty
  · rw [if_pos hempty] at h
    cases h
    exact .same _
  · rw [if_neg hempty] at h
    obtain ⟨⟨text, behind⟩, hselector, hrest⟩ := bind_eq_ok h
    obtain ⟨selector, hread, hrest⟩ := bind_eq_ok hrest
    obtain ⟨⟨name, attributes⟩, hparts, hrest⟩ := bind_eq_ok hrest
    cases hrest
    exact .stepping hselector (parse_of_readSelector hread) hparts

theorem leaves_of_run {config : Config} {arguments : List Json} {frame next : Frame}
    {outcome : Option Outcome} {builtin : Builtin}
    (h : builtin.run config arguments frame = .ok (outcome, next)) :
    Leaves arguments frame.pending builtin next.pending := by
  cases builtin with
  | count =>
      obtain ⟨selector, hselector, hrest⟩ := bind_eq_ok h
      cases selector <;> cases hrest
      · exact .same _
      · exact .filtering (Or.inl rfl) hselector
  | is =>
      obtain ⟨selector, hselector, hrest⟩ := bind_eq_ok h
      cases selector <;> cases hrest
      · exact .same _
      · exact .filtering (Or.inr rfl) hselector
  | get =>
      obtain ⟨index, -, hrest⟩ := bind_eq_ok h
      cases index <;> cases hrest <;> exact .same _
  | property =>
      obtain ⟨path, -, hrest⟩ := bind_eq_ok h
      cases hrest
      exact .same _
  | slice =>
      obtain ⟨start, -, hrest⟩ := bind_eq_ok h
      obtain ⟨stop, -, hrest⟩ := bind_eq_ok hrest
      cases hrest
      exact .same _
  | filter =>
      obtain ⟨selector, -, hrest⟩ := bind_eq_ok h
      cases selector with
      | none =>
          cases hrest
          exact .same _
      | some text =>
          obtain ⟨selector, -, hrest⟩ := bind_eq_ok hrest
          obtain ⟨kept, -, hrest⟩ := bind_eq_ok hrest
          cases hrest
          exact .same _
  | children => exact leaves_of_runChildren h
  | _ =>
      cases h
      exact .same _

end Builtin

namespace Evaluation

/-! ## Calls of built-in operations -/

section

variable {config : Config} {progress : Progress} {builtin : Builtin} {arguments : List Json}
  {rest : List Call}

/-- The next call of a built-in operation does what the operation does. -/
theorem advance_builtin (hpending : progress.frame.pending = ⟨builtin.name, arguments⟩ :: rest)
    (hbound : exhausts config progress.executed = none) :
    advance (.builtin config) progress =
      match builtin.run config arguments ⟨progress.frame.context, rest⟩ with
      | .error failure => .error
          ⟨.error failure, progress.executed + 1, progress.journal.reverse⟩
      | .ok (outcome, frame) => .ok
          ⟨frame, outcome, progress.executed + 1, progress.journal⟩ := by
  rw [advance_cons hpending hbound, step_of_resolve (Registry.resolve_builtin config builtin _) rfl]
  rfl

theorem advance_builtin_of_ok {outcome : Option Outcome} {frame : Frame}
    (hrun : builtin.run config arguments ⟨progress.frame.context, rest⟩ = .ok (outcome, frame))
    (hpending : progress.frame.pending = ⟨builtin.name, arguments⟩ :: rest)
    (hbound : exhausts config progress.executed = none) :
    advance (.builtin config) progress =
      .ok ⟨frame, outcome, progress.executed + 1, progress.journal⟩ := by
  rw [advance_builtin hpending hbound, hrun]

theorem advance_builtin_of_error {failure : Failure}
    (hrun : builtin.run config arguments ⟨progress.frame.context, rest⟩ = .error failure)
    (hpending : progress.frame.pending = ⟨builtin.name, arguments⟩ :: rest)
    (hbound : exhausts config progress.executed = none) :
    advance (.builtin config) progress =
      .error ⟨.error failure, progress.executed + 1, progress.journal.reverse⟩ := by
  rw [advance_builtin hpending hbound, hrun]

end

theorem exists_builtin_of_advance_ok {config : Config} {progress next : Progress}
    (h : advance (.builtin config) progress = .ok next) :
    ∃ builtin arguments rest,
      progress.frame.pending = ⟨Builtin.name builtin, arguments⟩ :: rest ∧
      builtin.run config arguments ⟨progress.frame.context, rest⟩ =
        .ok (next.outcome, next.frame) ∧
      next.executed = progress.executed + 1 := by
  obtain ⟨⟨name, arguments⟩, rest, operation, hpending, hresolve, hrun, hexecuted⟩ :=
    exists_run_of_advance_ok h
  obtain ⟨builtin, rfl, rfl⟩ := Registry.exists_builtin_of_resolve hresolve
  exact ⟨builtin, arguments, rest, hpending, hrun, hexecuted⟩

/-- The results with which an evaluation with the built-in operations ends instead of a call. -/
inductive BuiltinEnding (config : Config) (progress : Progress) :
    Except Failure (Context × Option Outcome) → Prop
  /-- No call is left. -/
  | emptied (hpending : progress.frame.pending = []) :
      BuiltinEnding config progress (.ok (progress.frame.context, progress.outcome))
  /-- The bound does not allow the next call. -/
  | exceeded {limit : UInt64} (hlimit : config.maxOperations = some limit) :
      BuiltinEnding config progress (.error (.operationLimitExceeded limit))
  /-- No built-in operation has the name of the next call. -/
  | unknown {call : Call} (hmem : call ∈ progress.frame.pending)
      (hunknown : ∀ builtin : Builtin, builtin.name ≠ call.name) :
      BuiltinEnding config progress (.error (.unknownOperation call.name))
  /-- The operation of the next call fails. -/
  | failed {builtin : Builtin} {arguments : List Json} {frame : Frame} {failure : Failure}
      (hrun : builtin.run config arguments frame = .error failure) :
      BuiltinEnding config progress (.error failure)

theorem builtinEnding_of_advance_error {config : Config} {progress : Progress}
    {evaluation : Evaluation} (h : advance (.builtin config) progress = .error evaluation) :
    BuiltinEnding config progress evaluation.result := by
  cases hpending : progress.frame.pending with
  | nil =>
      rw [advance_nil hpending] at h
      cases h
      exact .emptied hpending
  | cons call rest =>
      cases hbound : exhausts config progress.executed with
      | some limit =>
          rw [advance_exhausted hpending hbound] at h
          cases h
          exact .exceeded (Option.filter_eq_some_iff.1 hbound).1
      | none =>
          cases hresolve : (Registry.builtin config).resolve call.name progress.frame.context with
          | error failure =>
              obtain ⟨rfl, hunknown⟩ := Registry.resolve_builtin_eq_error hresolve
              rw [advance_cons hpending hbound] at h
              simp only [step, hresolve] at h
              cases h
              exact .unknown (by simp [hpending]) hunknown
          | ok operation =>
              obtain ⟨name, arguments⟩ := call
              obtain ⟨builtin, rfl, rfl⟩ := Registry.exists_builtin_of_resolve hresolve
              rw [advance_builtin hpending hbound] at h
              cases hrun : builtin.run config arguments ⟨progress.frame.context, rest⟩ with
              | error failure =>
                  rw [hrun] at h
                  cases h
                  exact .failed hrun
              | ok made =>
                  rw [hrun] at h
                  cases h

end Evaluation

end ObjectQuery
