import ObjectQuery.Proofs.Evaluation.Termination
/-!
# How evaluations with the built-in operations fail

A built-in operation fails only for its arguments. An evaluation also fails for a call of a name
that none of them has, and for too many calls. As operations queue only calls of built-in
operations, an unknown name is one of those that were queued from the start.
-/

namespace ObjectQuery

/-! ## Results that fail in expected ways -/

/-- If the result is a failure, it is an allowed one. -/
def FailsOnly {α : Type} (allowed : Failure → Prop) (result : Except Failure α) : Prop :=
  ∀ failure, result = .error failure → allowed failure

namespace FailsOnly

variable {α β : Type} {allowed : Failure → Prop}

theorem ok (value : α) : FailsOnly allowed (.ok value) := by
  intro failure h
  cases h

theorem error {failure : Failure} (h : allowed failure) :
    FailsOnly allowed (.error failure : Except Failure α) := by
  intro other hother
  cases hother
  exact h

theorem bind {result : Except Failure α} {next : α → Except Failure β}
    (hresult : FailsOnly allowed result) (hnext : ∀ value, FailsOnly allowed (next value)) :
    FailsOnly allowed (result >>= next) := by
  cases result with
  | error failure => exact .error (hresult failure rfl)
  | ok value => exact hnext value

end FailsOnly

inductive Failure.OfArguments : Failure → Prop
  /-- A text is no selector. -/
  | selector (error : Selector.SyntaxError) : OfArguments (.selector error)
  /-- A selector is of no use to the operation. -/
  | misuse (cause : Misuse) : OfArguments (.misuse cause)
  /-- An argument is none that the operation takes. -/
  | invalidArgument (operation : String) (fault : ArgumentFault) :
      OfArguments (.invalidArgument operation fault)

/-- The failures of an evaluation of calls with the built-in operations. -/
inductive Failure.OfEvaluation (config : Config) (calls : List Call) : Failure → Prop
  /-- A call fails for its arguments. -/
  | called {failure : Failure} (h : failure.OfArguments) : OfEvaluation config calls failure
  /-- A call is of a name that no built-in operation has. -/
  | unknown {call : Call} (hmem : call ∈ calls)
      (h : ∀ builtin : Builtin, builtin.name ≠ call.name) :
      OfEvaluation config calls (.unknownOperation call.name)
  /-- The bound does not allow as many calls. -/
  | exceeded {limit : UInt64} (h : config.maxOperations = some limit) :
      OfEvaluation config calls (.operationLimitExceeded limit)

theorem Failure.OfEvaluation.of_append {config : Config} {calls : List Call} {builtin : Builtin}
    {arguments : List Json} {failure : Failure}
    (h : failure.OfEvaluation config (calls ++ [⟨builtin.name, arguments⟩])) :
    failure.OfEvaluation config calls := by
  cases h with
  | called harguments => exact .called harguments
  | exceeded hlimit => exact .exceeded hlimit
  | unknown hmem hunknown =>
      rcases List.mem_append.1 hmem with hcalls | hlast
      · exact .unknown hcalls hunknown
      · obtain rfl := List.mem_singleton.1 hlast
        exact absurd rfl (hunknown builtin)

/-! ## Failures of a call -/

theorem Filter.matchesObject_fails (config : Config) (filter : Filter) (object : Json) :
    FailsOnly Failure.OfArguments (filter.matchesObject config object) := by
  unfold matchesObject
  split
  · exact .ok _
  · exact .ok _
  · exact .error (.misuse _)
  · exact .error (.misuse _)

theorem Selector.anyMatches_fails (config : Config) (object : Json) (filters : List Filter) :
    FailsOnly Failure.OfArguments (anyMatches config object filters) := by
  induction filters with
  | nil => exact .ok _
  | cons filter rest ih =>
      unfold anyMatches
      split
      · rename_i failure hfilter
        exact .error (Filter.matchesObject_fails config filter object failure hfilter)
      · exact .ok _
      · exact ih

theorem Context.matching_fails (config : Config) (selector : Selector) (context : Context) :
    FailsOnly Failure.OfArguments (context.matching config selector) := by
  induction context with
  | nil => exact .ok _
  | cons object rest ih =>
      unfold matching
      split
      · rename_i failure hobject
        exact .error (Selector.anyMatches_fails config object selector.filters failure hobject)
      · split
        · rename_i failure hrest
          exact .error (ih failure hrest)
        · exact .ok _

namespace Builtin

theorem selectorArgument_fails (operation : String) (arguments : List Json) :
    FailsOnly Failure.OfArguments (selectorArgument operation arguments) := by
  unfold selectorArgument
  split
  · exact .ok _
  · exact .ok _
  · exact .ok _
  · exact .error (.invalidArgument _ _)

theorem indexArgument_fails (operation : String) (arguments : List Json) (position : Nat) :
    FailsOnly Failure.OfArguments (indexArgument operation arguments position) := by
  unfold indexArgument
  split
  · exact .ok _
  · exact .ok _
  · split
    · exact .ok _
    · exact .error (.invalidArgument _ _)
  · exact .error (.invalidArgument _ _)

theorem pathArgument_fails (operation : String) (arguments : List Json) :
    FailsOnly Failure.OfArguments (pathArgument operation arguments) := by
  unfold pathArgument
  split
  · split
    · exact .error (.invalidArgument _ _)
    · exact .ok _
  · exact .error (.invalidArgument _ _)

theorem readSelector_fails (text : String) :
    FailsOnly Failure.OfArguments (readSelector text) := by
  unfold readSelector
  split
  · exact .ok _
  · exact .error (.selector _)

theorem childrenSelector_fails (arguments : List Json) (pending : List Call) :
    FailsOnly Failure.OfArguments (childrenSelector arguments pending) := by
  refine (selectorArgument_fails _ _).bind fun own => ?_
  cases own with
  | some text => exact .ok _
  | none =>
      cases pending with
      | nil => exact .error (.misuse _)
      | cons next rest =>
          dsimp only
          split
          · refine (selectorArgument_fails _ _).bind fun taken => ?_
            cases taken with
            | some text => exact .ok _
            | none => exact .error (.misuse _)
          · exact .error (.misuse _)

theorem childrenParts_fails (text : String) (selector : Selector) :
    FailsOnly Failure.OfArguments (childrenParts text selector) := by
  unfold childrenParts
  split
  · exact .error (.misuse _)
  · split
    · exact .error (.misuse _)
    · split
      · exact .ok _
      · exact .error (.misuse _)
  · exact .error (.misuse _)

theorem runChildren_fails (arguments : List Json) (frame : Frame) :
    FailsOnly Failure.OfArguments (runChildren arguments frame) := by
  unfold runChildren
  split
  · exact .ok _
  · refine (childrenSelector_fails _ _).bind fun found => ?_
    refine (readSelector_fails _).bind fun selector => ?_
    exact (childrenParts_fails _ _).bind fun parts => .ok _

/-- A built-in operation fails only for its arguments. -/
theorem run_fails (config : Config) (arguments : List Json) (frame : Frame) (builtin : Builtin) :
    FailsOnly Failure.OfArguments (builtin.run config arguments frame) := by
  cases builtin with
  | count =>
      refine (selectorArgument_fails _ _).bind fun selector => ?_
      cases selector <;> exact .ok _
  | is =>
      refine (selectorArgument_fails _ _).bind fun selector => ?_
      cases selector <;> exact .ok _
  | get =>
      refine (indexArgument_fails _ _ _).bind fun index => ?_
      cases index <;> exact .ok _
  | property => exact (pathArgument_fails _ _).bind fun path => .ok _
  | slice =>
      refine (indexArgument_fails _ _ _).bind fun start => ?_
      exact (indexArgument_fails _ _ _).bind fun stop => .ok _
  | filter =>
      refine (selectorArgument_fails _ _).bind fun selector => ?_
      cases selector with
      | none => exact .ok _
      | some text =>
          refine (readSelector_fails _).bind fun selector => ?_
          exact (Context.matching_fails _ _ _).bind fun kept => .ok _
  | children => exact runChildren_fails arguments frame
  | _ => exact .ok _

/-! ## Names in the queue -/

theorem Leaves.names {arguments : List Json} {pending next : List Call} {builtin : Builtin}
    (h : Leaves arguments pending builtin next) {call : Call} (hmem : call ∈ next) :
    call ∈ pending ∨ ∃ queued : Builtin, queued.name = call.name := by
  cases h with
  | same => exact Or.inl hmem
  | filtering =>
      rcases List.mem_cons.1 hmem with rfl | hmem
      · exact Or.inr ⟨filter, rfl⟩
      · rcases List.mem_cons.1 hmem with rfl | hmem
        · exact Or.inr ⟨builtin, rfl⟩
        · exact Or.inl hmem
  | stepping hselector =>
      rcases List.mem_append.1 hmem with hfilter | hbehind
      · obtain ⟨condition, -, rfl⟩ := List.mem_map.1 hfilter
        exact Or.inr ⟨filter, rfl⟩
      · rcases childrenSelector_cases hselector with ⟨-, rfl⟩ | ⟨taken, rfl, -⟩
        · exact Or.inl hbehind
        · exact Or.inl (List.mem_cons_of_mem _ hbehind)

end Builtin

namespace Evaluation

variable {config : Config}

/-- Every pending call was queued from the start or is of a built-in operation. -/
def NamesKnown (calls : List Call) (progress : Progress) : Prop :=
  ∀ call ∈ progress.frame.pending, call ∈ calls ∨ ∃ builtin : Builtin, builtin.name = call.name

theorem NamesKnown.advance {calls : List Call} {progress next : Progress}
    (hnext : advance (.builtin config) progress = .ok next) (h : NamesKnown calls progress) :
    NamesKnown calls next := by
  obtain ⟨builtin, arguments, rest, hpending, hrun, -⟩ := exists_builtin_of_advance_ok hnext
  intro call hmem
  rcases (Builtin.leaves_of_run hrun).names hmem with hrest | hbuiltin
  · exact h call (hpending ▸ List.mem_cons_of_mem _ hrest)
  · exact Or.inr hbuiltin

/-- An evaluation in which all names are known ends without a failure or with one that is
allowed. -/
theorem NamesKnown.fails {calls : List Call} {progress : Progress}
    {result : Except Failure (Context × Option Outcome)} (h : NamesKnown calls progress)
    (hending : BuiltinEnding config progress result) :
    FailsOnly (Failure.OfEvaluation config calls) result := by
  cases hending with
  | emptied hpending => exact .ok _
  | exceeded hlimit => exact .error (.exceeded hlimit)
  | failed hrun => exact .error (.called (Builtin.run_fails _ _ _ _ _ hrun))
  | unknown hmem hunknown =>
      rcases h _ hmem with hqueued | ⟨builtin, hname⟩
      · exact .error (.unknown hqueued hunknown)
      · exact absurd hname (hunknown builtin)

/-- An evaluation with the built-in operations fails only for the arguments of a call, for an
unknown name in its queue, or for reaching the bound. -/
theorem run_builtin_fails (config : Config) (context : Context) (calls : List Call) :
    FailsOnly (Failure.OfEvaluation config calls) (run (.builtin config) context calls).result := by
  obtain ⟨count, evaluation, hends, -⟩ := exists_endsAfter_builtin config (start context calls)
  obtain ⟨last, hreach, hend⟩ := drain_eq_some_iff.1 hends.drain_eq
  have hstart : NamesKnown calls (start context calls) := fun call hmem => Or.inl hmem
  have hlast : NamesKnown calls last :=
    hreach.invariant (fun _ _ hnext hknown => hknown.advance hnext) hstart
  rw [run_of_endsAfter hends]
  exact hlast.fails (builtinEnding_of_advance_error hend)

end Evaluation

end ObjectQuery
