import ObjectQuery.Operation.Scripted
import ObjectQuery.Proofs.Registration
/-!
# Operations that only push

Most operations touch the queue in one way: they push calls ahead of everything that waits. What
waits behind them then makes no difference to what they do. The one built-in that looks further is
`children` without a selector, which takes the `filter` behind it.
-/

namespace ObjectQuery

namespace Frame

def append (frame : Frame) (calls : List Call) : Frame :=
  { frame with pending := frame.pending ++ calls }

@[simp] theorem append_mk (context : Context) (pending calls : List Call) :
    append ⟨context, pending⟩ calls = ⟨context, pending ++ calls⟩ := rfl

end Frame

/-- What an operation does, with calls behind everything that it leaves pending. -/
def Report.append (report : Report (Option Outcome × Frame)) (calls : List Call) :
    Report (Option Outcome × Frame) :=
  ⟨report.result.map fun (outcome, frame) => (outcome, frame.append calls), report.journal⟩

namespace Operation

/-- One run of an operation does the same whatever waits behind the frame. -/
def PushesOnlyAt (operation : Operation) (config : Config) (arguments : List Json)
    (frame : Frame) : Prop :=
  ∀ calls, operation.run config arguments (frame.append calls) =
    (operation.run config arguments frame).append calls

/-- The operation touches the queue only by pushing calls ahead of it. -/
def PushesOnly (operation : Operation) : Prop :=
  ∀ config arguments frame, operation.PushesOnlyAt config arguments frame

end Operation

/-- Beside built-in operations, the registry holds only operations that push. -/
def Registry.FurtherPushOnly (registry : Registry) : Prop :=
  ∀ operation ∈ registry.operations,
    (∃ builtin : Builtin, operation = builtin.operation) ∨ operation.PushesOnly

/-! ## Scripts -/

namespace Action

def readsQueue : Action → Bool
  | .pop => true
  | .peek => true
  | _ => false

theorem perform_append {action : Action} (haction : action.readsQueue = false)
    (config : Config) (arguments : List Json) (frame : Frame) (calls : List Call) :
    action.perform config arguments (frame.append calls) =
      ((action.perform config arguments frame).1.append calls,
        (action.perform config arguments frame).2) := by
  cases action with
  | pop => cases haction
  | peek => cases haction
  | pushWhileShorter length call =>
      by_cases hshort : frame.context.length < length
      · simp [perform, Frame.append, Frame.push, hshort]
      · simp [perform, Frame.append, hshort]
  | _ => rfl

theorem performAll_append {actions : List Action}
    (hactions : ∀ action ∈ actions, action.readsQueue = false)
    (config : Config) (arguments : List Json) (frame : Frame) (calls : List Call) :
    performAll config arguments actions (frame.append calls) =
      ((performAll config arguments actions frame).1.append calls,
        (performAll config arguments actions frame).2) := by
  induction actions generalizing frame with
  | nil => rfl
  | cons action rest ih =>
      have hfirst := perform_append (hactions action (by simp)) config arguments frame calls
      have hrest := ih fun other hother => hactions other (by simp [hother])
      simp only [performAll, hfirst, hrest]

end Action

theorem Script.operation_pushesOnly {script : Script}
    (hactions : ∀ action ∈ script.actions, action.readsQueue = false) :
    script.operation.PushesOnly := by
  intro config arguments frame calls
  have hall := Action.performAll_append hactions config arguments frame calls
  simp only [Script.operation, hall, Report.append]
  cases script.ending <;> rfl

/-! ## Built-in operations -/

namespace Builtin

/-- Whether a call of the built-in `children` would take its selector from the call behind it. -/
def TakesSelector (arguments : List Json) (context : Context) : Prop :=
  selectorArgument "children" arguments = .ok none ∧ context ≠ []

theorem childrenSelector_append {arguments : List Json} {pending : List Call}
    (h : selectorArgument "children" arguments ≠ .ok none ∨ pending ≠ []) (calls : List Call) :
    childrenSelector arguments (pending ++ calls) =
      (childrenSelector arguments pending).map fun (text, rest) => (text, rest ++ calls) := by
  unfold childrenSelector
  cases hargument : selectorArgument "children" arguments with
  | error failure => rfl
  | ok selector =>
      cases selector with
      | some text => rfl
      | none =>
          obtain ⟨next, rest, rfl⟩ : ∃ next rest, pending = next :: rest :=
            List.exists_cons_of_ne_nil (h.resolve_left fun hne => hne hargument)
          simp only [List.cons_append, bind, Except.bind]
          by_cases hname : next.name = "filter"
          · simp only [hname, if_true]
            cases selectorArgument "filter" next.arguments with
            | error failure => rfl
            | ok selector => cases selector <;> rfl
          · simp only [hname, if_false]
            rfl

theorem children_pushesOnlyAt {config : Config} {arguments : List Json} {frame : Frame}
    (h : TakesSelector arguments frame.context → frame.pending ≠ []) :
    children.operation.PushesOnlyAt config arguments frame := by
  intro calls
  obtain ⟨context, pending⟩ := frame
  simp only [operation, run, runChildren, Frame.append_mk, Report.silent, Report.append]
  by_cases hempty : context = []
  · simp [hempty, Except.map]
  · have hlook : selectorArgument "children" arguments ≠ .ok none ∨ pending ≠ [] := by
      by_cases hargument : selectorArgument "children" arguments = .ok none
      · exact Or.inr (h ⟨hargument, hempty⟩)
      · exact Or.inl hargument
    have hselector := childrenSelector_append hlook calls
    have hisEmpty : context.isEmpty = false := by simpa using hempty
    simp only [hisEmpty, hselector, bind, Except.bind, Except.map]
    cases childrenSelector arguments pending with
    | error failure => rfl
    | ok found =>
        obtain ⟨text, rest⟩ := found
        simp only
        cases readSelector text with
        | error failure => rfl
        | ok selector =>
            simp only
            cases childrenParts text selector with
            | error failure => rfl
            | ok parts => simp [pure, Except.pure, Frame.append]

theorem pushesOnly_of_ne_children {builtin : Builtin} (h : builtin ≠ .children) :
    builtin.operation.PushesOnly := by
  intro config arguments frame calls
  simp only [operation, run, Report.silent, Report.append]
  cases builtin with
  | children => exact absurd rfl h
  | count =>
      cases selectorArgument "count" arguments with
      | error failure => rfl
      | ok selector => cases selector <;> rfl
  | is =>
      cases selectorArgument "is" arguments with
      | error failure => rfl
      | ok selector => cases selector <;> rfl
  | get =>
      cases indexArgument "get" arguments 0 with
      | error failure => rfl
      | ok index => cases index <;> rfl
  | property => cases pathArgument "property" arguments <;> rfl
  | slice =>
      cases indexArgument "slice" arguments 0 with
      | error failure => rfl
      | ok first => cases indexArgument "slice" arguments 1 <;> rfl
  | filter =>
      cases selectorArgument "filter" arguments with
      | error failure => rfl
      | ok selector =>
          cases selector with
          | none => rfl
          | some text =>
              simp only [bind, Except.bind]
              cases readSelector text with
              | error failure => rfl
              | ok selector =>
                  simp only [Frame.append]
                  cases frame.context.matching config selector <;> rfl
  | _ => rfl

end Builtin

theorem Registry.furtherPushOnly_of_build {operations : List Operation} {config : Config}
    {draft : Draft} {registry : Registry}
    (hoperations : ∀ operation ∈ operations,
      (∃ builtin : Builtin, operation = builtin.operation) ∨ operation.PushesOnly)
    (hregister : Draft.registerAll operations { config := config } = .ok draft)
    (hbuild : draft.build = .ok registry) : registry.FurtherPushOnly := by
  intro operation hmem
  apply hoperations
  have hdraft := (Draft.mem_operations_of_build hbuild).1 hmem
  rw [Draft.operations_of_registerAll hregister] at hdraft
  simpa using hdraft

/-- An operation of such a registry does the same whatever waits behind the frame, unless it is
`children` about to take a selector from there. -/
theorem Registry.FurtherPushOnly.pushesOnlyAt {registry : Registry}
    (hregistry : registry.FurtherPushOnly) {operation : Operation}
    (hmem : operation ∈ registry.operations) {arguments : List Json} {frame : Frame}
    (h : operation = Builtin.children.operation →
      Builtin.TakesSelector arguments frame.context → frame.pending ≠ []) :
    operation.PushesOnlyAt registry.config arguments frame := by
  rcases hregistry operation hmem with ⟨builtin, rfl⟩ | hpush
  · by_cases hchildren : builtin = .children
    · subst hchildren
      exact Builtin.children_pushesOnlyAt (h rfl)
    · exact Builtin.pushesOnly_of_ne_children hchildren registry.config arguments frame
  · exact hpush registry.config arguments frame

end ObjectQuery
