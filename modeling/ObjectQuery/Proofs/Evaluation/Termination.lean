import ObjectQuery.Proofs.Evaluation.Builtins
/-!
# Built-in evaluations end

A queue has a workload: a bound on the calls that it takes to empty it. Every call of a built-in
operation leaves a queue of a smaller workload, although it may queue more calls than it removes.
So an evaluation with the built-in operations ends, whether or not the configuration bounds it.
-/

namespace ObjectQuery

namespace Builtin

/-! ## The workload of a queue -/

def attributeCount (arguments : List Json) : Nat :=
  match arguments.head? with
  | some (.string text) =>
      match Selector.parse text with
      | .ok selector => (selector.filters.flatMap (·.attributes)).length
      | .error _ => 0
  | _ => 0

/-- The number of attribute filters in the selectors that are first arguments of the calls. -/
def attributeTotal : List Call → Nat
  | [] => 0
  | call :: behind => attributeCount call.arguments + attributeTotal behind

/-- The number of attribute filters that `children` may take from the calls behind it. -/
def takenCount : List Call → Nat
  | [] => 0
  | next :: _ => if next.name = filter.name then attributeCount next.arguments else 0

/-- The most calls that a call stands for: itself and what it queues. -/
def callWork (call : Call) (behind : List Call) : Nat :=
  if call.name = children.name then 1 + attributeCount call.arguments + takenCount behind
  else if call.name = filter.name ∨ call.arguments = [] then 1
  else 3

def workload : List Call → Nat
  | [] => 0
  | call :: behind => callWork call behind + workload behind

theorem callWork_pos (call : Call) (behind : List Call) : 0 < callWork call behind := by
  unfold callWork
  split
  · omega
  · split <;> omega

theorem length_le_workload (calls : List Call) : calls.length ≤ workload calls := by
  induction calls with
  | nil => exact Nat.le_refl _
  | cons call behind ih =>
      have hpositive := callWork_pos call behind
      simp only [List.length_cons, workload]
      omega

theorem workload_filterCalls (attributes : List AttributeFilter) (behind : List Call) :
    workload (attributes.map (fun condition => filterCall condition.text) ++ behind) =
      attributes.length + workload behind := by
  induction attributes with
  | nil => simp
  | cons condition rest ih =>
      have hfilter : ∀ pending, callWork (filterCall condition.text) pending = 1 := fun _ => rfl
      simp only [List.map_cons, List.cons_append, workload, hfilter, ih, List.length_cons]
      omega

theorem attributeCount_of_filters {arguments : List Json} {text : String} {selector : Selector}
    {filter : Filter} (hhead : arguments.head? = some (.string text))
    (hparse : Selector.parse text = .ok selector) (hfilters : selector.filters = [filter]) :
    attributeCount arguments = filter.attributes.length := by
  simp [attributeCount, hhead, hparse, hfilters]

theorem length_add_workload_le {arguments : List Json} {pending behind : List Call}
    {text name : String} {selector : Selector} {attributes : List AttributeFilter}
    (hselector : childrenSelector arguments pending = .ok (text, behind))
    (hparse : Selector.parse text = .ok selector)
    (hparts : childrenParts text selector = .ok (name, attributes)) :
    attributes.length + workload behind ≤
      attributeCount arguments + takenCount pending + workload pending := by
  have hfilters := filters_of_childrenParts hparts
  rcases childrenSelector_cases hselector with ⟨hhead, rfl⟩ | ⟨next, rfl, hname, hhead⟩
  · have hcount : attributeCount arguments = attributes.length :=
      attributeCount_of_filters hhead hparse hfilters
    omega
  · have hcount : attributeCount next.arguments = attributes.length :=
      attributeCount_of_filters hhead hparse hfilters
    have htaken : takenCount (next :: behind) = attributes.length := by
      simp [takenCount, hname, hcount]
    have hwork : workload (next :: behind) = callWork next behind + workload behind := rfl
    omega

/-- A call of a built-in operation leaves a smaller workload. -/
theorem workload_lt_of_leaves {builtin : Builtin} {arguments : List Json}
    {pending next : List Call} (h : Leaves arguments pending builtin next) :
    workload next < workload (⟨builtin.name, arguments⟩ :: pending) := by
  have hpositive := callWork_pos ⟨builtin.name, arguments⟩ pending
  cases h with
  | same =>
      simp only [workload]
      omega
  | @filtering _ text hbuiltin hselector =>
      have harguments : arguments ≠ [] := by
        rintro rfl
        cases hselector
      have hcall : callWork ⟨builtin.name, arguments⟩ pending = 3 := by
        rcases hbuiltin with rfl | rfl <;> simp [callWork, name, harguments]
      have hfilter : callWork (filterCall text) (⟨builtin.name, []⟩ :: pending) = 1 := rfl
      have hagain : callWork ⟨builtin.name, []⟩ pending = 1 := by
        rcases hbuiltin with rfl | rfl <;> rfl
      simp only [workload, hcall, hfilter, hagain]
      omega
  | @stepping text name behind selector attributes hselector hparse hparts =>
      have hle := length_add_workload_le hselector hparse hparts
      have hcall : callWork ⟨children.name, arguments⟩ pending =
          1 + attributeCount arguments + takenCount pending := rfl
      calc
        workload (attributes.map (fun condition => filterCall condition.text) ++ behind)
            = attributes.length + workload behind := workload_filterCalls attributes behind
        _ < callWork ⟨children.name, arguments⟩ pending + workload pending := by omega
        _ = workload (⟨children.name, arguments⟩ :: pending) := rfl

/-- The workload of a queue is at most three for each call and one for each attribute filter in the
selectors of the calls. -/
theorem workload_add_takenCount_le (calls : List Call) :
    workload calls + takenCount calls ≤ 3 * calls.length + attributeTotal calls := by
  -- A `filter` stands for one call, so its attribute filters are left to the `children` in front
  -- of it: this is what `takenCount` keeps free.
  induction calls with
  | nil => exact Nat.le_refl _
  | cons call behind ih =>
      have htaken : takenCount (call :: behind) =
          if call.name = filter.name then attributeCount call.arguments else 0 := rfl
      simp only [htaken, List.length_cons, attributeTotal, workload, callWork]
      by_cases hchildren : call.name = children.name
      · have hfilter : call.name ≠ filter.name := by simp [hchildren, name]
        rw [if_pos hchildren, if_neg hfilter]
        omega
      · rw [if_neg hchildren]
        split <;> split <;> omega

end Builtin

namespace Evaluation

open Builtin

/-! ## Evaluations -/

theorem workload_lt_of_advance_ok {config : Config} {progress next : Progress}
    (h : advance (.builtin config) progress = .ok next) :
    workload next.frame.pending < workload progress.frame.pending := by
  obtain ⟨builtin, arguments, rest, hpending, hrun, -⟩ := exists_builtin_of_advance_ok h
  have hleaves := leaves_of_run hrun
  rw [hpending]
  exact workload_lt_of_leaves hleaves

/-- An evaluation with the built-in operations ends, after no more calls than the workload of its
queue. -/
theorem exists_endsAfter_builtin (config : Config) (progress : Progress) :
    ∃ count evaluation, EndsAfter (.builtin config) count progress evaluation ∧
      count ≤ workload progress.frame.pending := by
  -- Each call leaves a workload that is at least one less.
  induction hwork : workload progress.frame.pending using Nat.strongRecOn
    generalizing progress with
  | _ work ih =>
      cases hadvance : advance (.builtin config) progress with
      | error evaluation =>
          obtain ⟨count, hends, hcount⟩ := exists_endsAfter_of_advance_error hadvance
          have hlength := length_le_workload progress.frame.pending
          exact ⟨count, evaluation, hends, by omega⟩
      | ok next =>
          have hless := workload_lt_of_advance_ok hadvance
          obtain ⟨count, evaluation, hends, hcount⟩ := ih _ (hwork ▸ hless) next rfl
          exact ⟨count + 1, evaluation, .called hadvance hends, by omega⟩

/-- An evaluation with the built-in operations ends, also without a bound. For each call of its
queue it makes at most three calls, and one more for each attribute filter in the selectors that
are the first arguments of these calls. -/
theorem run_builtin_ends (config : Config) (context : Context) (calls : List Call) :
    EndsAfter (.builtin config) (run (.builtin config) context calls).executed
      (start context calls) (run (.builtin config) context calls) ∧
    (run (.builtin config) context calls).executed ≤
      3 * calls.length + attributeTotal calls := by
  obtain ⟨count, evaluation, hends, hcount⟩ :=
    exists_endsAfter_builtin config (start context calls)
  have hexecuted : evaluation.executed = 0 + count := hends.executed_eq
  have hallowed := workload_add_takenCount_le calls
  rw [run_of_endsAfter hends, hexecuted, Nat.zero_add]
  refine ⟨hends, ?_⟩
  calc
    count ≤ workload calls := hcount
    _ ≤ 3 * calls.length + attributeTotal calls := by omega

end Evaluation

end ObjectQuery
