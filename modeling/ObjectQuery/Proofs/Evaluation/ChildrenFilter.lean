import ObjectQuery.Proofs.Evaluation.Splitting
import ObjectQuery.Proofs.Evaluation.Termination
import ObjectQuery.Proofs.Selector.Rules
/-!
# Stepping into a property, with the selector in a filter

A `children` without a selector takes that of the `filter` behind it and so does what `children`
with this selector does. In an empty context it takes nothing and the `filter` is called, which
reads its selector where `children` with one would not.
-/

namespace ObjectQuery

namespace Builtin

theorem childrenSelector_filterCall {arguments : List Json} {text : String} {pending : List Call}
    (harguments : selectorArgument "children" arguments = .ok none) (htext : text ≠ "") :
    childrenSelector arguments (filterCall text :: pending) = .ok (text, pending) := by
  have hfilter : selectorArgument "filter" (filterCall text).arguments = .ok (some text) :=
    selectorArgument_eq_some_iff.2 ⟨rfl, htext⟩
  have hname : (filterCall text).name = "filter" := rfl
  simp only [childrenSelector, harguments, bind, Except.bind, hname, if_true, hfilter]
  rfl

theorem childrenSelector_own {text : String} {pending : List Call} (htext : text ≠ "") :
    childrenSelector [.string text] pending = .ok (text, pending) := by
  have hselector : selectorArgument "children" [.string text] = .ok (some text) :=
    selectorArgument_eq_some_iff.2 ⟨rfl, htext⟩
  simp only [childrenSelector, hselector, bind, Except.bind]
  rfl

theorem runChildren_filterCall {arguments : List Json} {text : String} {context : Context}
    {pending : List Call} (harguments : selectorArgument "children" arguments = .ok none)
    (htext : text ≠ "") (hcontext : context ≠ []) :
    runChildren arguments ⟨context, filterCall text :: pending⟩ =
      runChildren [.string text] ⟨context, pending⟩ := by
  have hisEmpty : context.isEmpty = false := by simpa using hcontext
  simp only [runChildren, hisEmpty, Bool.false_eq_true, if_false,
    childrenSelector_filterCall harguments htext, childrenSelector_own htext]

end Builtin

namespace Evaluation

open Builtin

section

variable {config : Config} {arguments : List Json} {text : String} {context : Context}
  {pending : List Call}

theorem drain_children_filterCall (hbound : config.maxOperations = none)
    (harguments : selectorArgument "children" arguments = .ok none) (htext : text ≠ "")
    (hcontext : context ≠ []) :
    drain (.builtin config)
        (start context (⟨"children", arguments⟩ :: filterCall text :: pending)) =
      drain (.builtin config) (start context (⟨"children", [.string text]⟩ :: pending)) := by
  have hrun : children.run config arguments ⟨context, filterCall text :: pending⟩ =
      children.run config [.string text] ⟨context, pending⟩ :=
    runChildren_filterCall harguments htext hcontext
  apply drain_congr
  cases hown : children.run config [.string text] ⟨context, pending⟩ with
  | error failure =>
      rw [advance_builtin_of_error (hrun.trans hown) rfl (exhausts_of_unbounded hbound 0),
        advance_builtin_of_error hown rfl (exhausts_of_unbounded hbound 0)]
      rfl
  | ok made =>
      rw [advance_builtin_of_ok (hrun.trans hown) rfl (exhausts_of_unbounded hbound 0),
        advance_builtin_of_ok hown rfl (exhausts_of_unbounded hbound 0)]
      rfl

theorem drain_children_nil (hbound : config.maxOperations = none) (arguments : List Json)
    (pending : List Call) :
    drain (.builtin config) (start [] (⟨"children", arguments⟩ :: pending)) =
      drain (.builtin config) ⟨⟨[], pending⟩, none, 1, []⟩ := by
  have hrun : children.run config arguments ⟨[], pending⟩ = .ok (none, ⟨[], pending⟩) := rfl
  exact drain_of_advance_ok (advance_builtin_of_ok hrun rfl (exhausts_of_unbounded hbound 0))

theorem resultOf_drain_filterCall_nil (hbound : config.maxOperations = none) (htext : text ≠ "")
    (executed : Nat) (pending : List Call) :
    resultOf (drain (.builtin config) ⟨⟨[], filterCall text :: pending⟩, none, executed, []⟩) =
      match Selector.parse text with
      | .error error => .error (.selector error)
      | .ok _ => (run (.builtin config) [] pending).result := by
  have hrun := run_filter htext config ⟨[], pending⟩
  cases hparse : Selector.parse text with
  | error error =>
      rw [hparse] at hrun
      rw [drain_of_advance_error
        (advance_builtin_of_error hrun rfl (exhausts_of_unbounded hbound executed))]
      rfl
  | ok selector =>
      rw [hparse] at hrun
      rw [drain_of_advance_ok
        (advance_builtin_of_ok hrun rfl (exhausts_of_unbounded hbound executed))]
      exact resultOf_drain_eq_run hbound fun _ => rfl

end

/-- Without a bound, `children` without a selector and `filter` behind it give what `children` with
the selector of the `filter` gives, for every queue behind them, and both evaluations end. There is
one exception: in an empty context the `filter` fails if its text is no selector, while `children`
does nothing. -/
theorem run_children_filter {config : Config} (hbound : config.maxOperations = none)
    {arguments : List Json} (harguments : arguments.head? ∈ [none, some .null, some (.string "")])
    {text : String} (htext : text ≠ "") (context : Context) (pending : List Call) :
    ∃ apart joined : Evaluation,
      drain (.builtin config) (start context
          (⟨"children", arguments⟩ :: ⟨"filter", [.string text]⟩ :: pending)) = some apart ∧
      drain (.builtin config) (start context (⟨"children", [.string text]⟩ :: pending)) =
        some joined ∧
      ((context ≠ [] ∨ ∃ selector, Selector.parse text = .ok selector) →
        apart.result = joined.result) ∧
      ∀ error, context = [] → Selector.parse text = .error error →
        apart.result = .error (.selector error) ∧
          joined.result = (run (.builtin config) [] pending).result := by
  obtain ⟨_, apart, hends, -⟩ := exists_endsAfter_builtin config
    (start context (⟨"children", arguments⟩ :: filterCall text :: pending))
  have hapart := hends.drain_eq
  obtain ⟨_, joined, hends, -⟩ := exists_endsAfter_builtin config
    (start context (⟨"children", [.string text]⟩ :: pending))
  have hjoined := hends.drain_eq
  refine ⟨apart, joined, hapart, hjoined, ?_⟩
  by_cases hcontext : context = []
  · subst hcontext
    rw [drain_children_nil hbound] at hapart hjoined
    have hfilter := resultOf_drain_filterCall_nil hbound htext 1 pending
    rw [hapart] at hfilter
    have hrest : joined.result = (run (.builtin config) [] pending).result :=
      calc
        joined.result = resultOf (drain (.builtin config) ⟨⟨[], pending⟩, none, 1, []⟩) := by
          rw [hjoined, resultOf]
        _ = (run (.builtin config) [] pending).result :=
          resultOf_drain_eq_run hbound fun _ => rfl
    refine ⟨?_, ?_⟩
    · rintro (hne | ⟨selector, hparse⟩)
      · exact absurd rfl hne
      · rw [hparse] at hfilter
        exact hfilter.trans hrest.symm
    · intro error _ hparse
      rw [hparse] at hfilter
      exact ⟨hfilter, hrest⟩
  · have hselector : selectorArgument "children" arguments = .ok none :=
      selectorArgument_eq_none_iff.2 harguments
    rw [drain_children_filterCall hbound hselector htext hcontext, hjoined] at hapart
    refine ⟨fun _ => ?_, fun _ hempty => absurd hempty hcontext⟩
    rw [Option.some.inj hapart]

def whole : Json :=
  .object [("part", .object [("tag", .bool true)])]

/-- A bracket alone fails as the selector of a `filter`, but not of `children`, if there is no
object. -/
theorem run_children_filter_bracket :
    (∃ apart joined : Evaluation,
      drain (.builtin { maxOperations := none }) (start [whole]
          [⟨"children", []⟩, ⟨"filter", [.string "part[tag]"]⟩, ⟨"count", []⟩]) = some apart ∧
      drain (.builtin { maxOperations := none }) (start [whole]
          [⟨"children", [.string "part[tag]"]⟩, ⟨"count", []⟩]) = some joined ∧
      apart.result = joined.result) ∧
    ∃ apart joined : Evaluation,
      drain (.builtin { maxOperations := none }) (start []
          [⟨"children", [.null]⟩, ⟨"filter", [.string "["]⟩, ⟨"count", []⟩]) = some apart ∧
      drain (.builtin { maxOperations := none }) (start []
          [⟨"children", [.string "["]⟩, ⟨"count", []⟩]) = some joined ∧
      apart.result = .error (.selector ⟨"[", 1⟩) ∧
      joined.result = .ok ([], some (.count 0)) := by
  have hparse : Selector.parse "[" = .error ⟨"[", 1⟩ := by
    rw [Selector.parse_eq]
    decide +kernel
  have hcount : (run (.builtin { maxOperations := none }) [] [⟨"count", []⟩]).result =
      .ok ([], some (.count 0)) := by
    rw [run_result, drain_of_advance_ok rfl, drain_of_advance_error rfl]
    rfl
  have hbound : ({ maxOperations := none } : Config).maxOperations = none := rfl
  have hmissing : ([] : List Json).head? ∈ [none, some .null, some (.string "")] := by simp
  have hnull : [Json.null].head? ∈ [none, some .null, some (.string "")] := by simp
  have hpart : "part[tag]" ≠ "" := by decide
  have hbracket : "[" ≠ "" := by decide
  obtain ⟨apart, joined, hapart, hjoined, hsame, -⟩ :=
    run_children_filter hbound hmissing hpart [whole] [⟨"count", []⟩]
  obtain ⟨failing, empty, hfailing, hempty, -, hexception⟩ :=
    run_children_filter hbound hnull hbracket [] [⟨"count", []⟩]
  obtain ⟨hfailed, hrest⟩ := hexception _ rfl hparse
  exact ⟨⟨apart, joined, hapart, hjoined, hsame (Or.inl (by simp))⟩,
    failing, empty, hfailing, hempty, hfailed, hrest.trans hcount⟩

end Evaluation

end ObjectQuery
