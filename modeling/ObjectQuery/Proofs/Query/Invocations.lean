import ObjectQuery.Proofs.Evaluation.Failures
import ObjectQuery.Proofs.Evaluation.Outcomes
import ObjectQuery.Query
/-!
# Queries with the built-in operations

An invocation of a built-in operation queues it, or, if it is final, evaluates the queue with it at
the end. Its outcome is then of the kind that the operation gives, so the calls that expect an
outcome of some kind never find another one.
-/

namespace ObjectQuery

namespace Registry

theorem isFinal_builtin (config : Config) (builtin : Builtin) :
    (Registry.builtin config).isFinal builtin.name = builtin.isFinal := by
  cases builtin <;> rfl

theorem withBuiltins_eq : withBuiltins = .ok (builtin {}) :=
  build_registerBuiltins rfl

end Registry

namespace Query

def queued (query : Query) (call : Call) : Query :=
  { query with pending := query.pending ++ [call] }

section

variable {query : Query} {config : Config}

theorem chain_eq (hregistry : query.registry = .builtin config) (builtin : Builtin)
    (hfinal : builtin.isFinal = false) (arguments : List Json) :
    query.chain builtin.name arguments =
      .silent (.ok (query.queued ⟨builtin.name, arguments⟩)) := by
  have hdeferred : query.registry.isFinal builtin.name = false := by
    rw [hregistry, Registry.isFinal_builtin, hfinal]
  simp only [chain, invoke, hdeferred, Bool.false_eq_true, if_false]
  rfl

theorem invoke_result (hregistry : query.registry = .builtin config) (builtin : Builtin)
    (hfinal : builtin.isFinal = true) (arguments : List Json) :
    (query.invoke builtin.name arguments).result =
      (query.evaluate (query.pending ++ [⟨builtin.name, arguments⟩])).result.map
        fun (final, outcome) => .completed (outcome.getD (.objects final)) := by
  have hcompleted : query.registry.isFinal builtin.name = true := by
    rw [hregistry, Registry.isFinal_builtin, hfinal]
  simp only [invoke, hcompleted, if_true, Report.andThen]
  cases (query.evaluate (query.pending ++ [⟨builtin.name, arguments⟩])).result <;> rfl

theorem complete_result (hregistry : query.registry = .builtin config) (builtin : Builtin)
    (hfinal : builtin.isFinal = true) (arguments : List Json) :
    (query.complete builtin.name arguments).result =
      (query.evaluate (query.pending ++ [⟨builtin.name, arguments⟩])).result.map
        fun (final, outcome) => outcome.getD (.objects final) := by
  simp only [complete, Report.andThen, invoke_result hregistry builtin hfinal]
  cases (query.evaluate (query.pending ++ [⟨builtin.name, arguments⟩])).result <;> rfl

theorem evaluate_result (hregistry : query.registry = .builtin config) (calls : List Call) :
    (query.evaluate calls).result =
      (Evaluation.run (.builtin config) query.context calls).result := by
  rw [evaluate, hregistry]

/-! ## Kinds of outcomes -/

theorem exists_outcome_of_invoke (hregistry : query.registry = .builtin config)
    (builtin : Builtin) {arguments : List Json} {kind : ResultKind} {invocation : Invocation}
    (hkind : builtin.outcomeKind? arguments = some kind)
    (h : (query.invoke builtin.name arguments).result = .ok invocation) :
    ∃ outcome, invocation = .completed outcome ∧ outcome.kind = kind := by
  rw [invoke_result hregistry builtin (Builtin.isFinal_of_outcomeKind? hkind),
    evaluate_result hregistry] at h
  cases hrun : (Evaluation.run (.builtin config) query.context
      (query.pending ++ [⟨builtin.name, arguments⟩])).result with
  | error failure =>
      rw [hrun] at h
      cases h
  | ok made =>
      obtain ⟨final, outcome⟩ := made
      have houtcome := Evaluation.outcome_of_run_append hkind hrun
      obtain ⟨found, rfl, hfound⟩ := Option.map_eq_some_iff.1 houtcome
      rw [hrun] at h
      cases h
      exact ⟨found, rfl, hfound⟩

/-! ## Failures of invocations -/

theorem evaluate_fails (hregistry : query.registry = .builtin config) (calls : List Call) :
    FailsOnly (Failure.OfEvaluation config calls) (query.evaluate calls).result := by
  rw [evaluate_result hregistry]
  exact Evaluation.run_builtin_fails config query.context calls

theorem invoke_fails (hregistry : query.registry = .builtin config) (name : String)
    (arguments : List Json) :
    FailsOnly (Failure.OfEvaluation config (query.pending ++ [⟨name, arguments⟩]))
      (query.invoke name arguments).result := by
  unfold invoke
  dsimp only
  split
  · exact (evaluate_fails hregistry _).bind fun made => .ok _
  · exact .ok _

theorem complete_fails (hregistry : query.registry = .builtin config) (builtin : Builtin)
    (arguments : List Json) {kind : ResultKind}
    (hkind : builtin.outcomeKind? arguments = some kind) {α : Type}
    {next : Outcome → Except Failure α}
    (hnext : ∀ outcome, outcome.kind = kind → ∃ value, next outcome = .ok value) :
    FailsOnly (Failure.OfEvaluation config query.pending)
      ((query.complete builtin.name arguments).andThen next).result := by
  intro failure h
  cases hinvoke : (query.invoke builtin.name arguments).result with
  | error found =>
      simp only [complete, Report.andThen, hinvoke] at h
      cases h
      exact (invoke_fails hregistry builtin.name arguments _ hinvoke).of_append
  | ok invocation =>
      obtain ⟨outcome, rfl, houtcome⟩ := exists_outcome_of_invoke hregistry builtin hkind hinvoke
      obtain ⟨value, hvalue⟩ := hnext outcome houtcome
      have hcomplete :
          ((query.complete builtin.name arguments).andThen next).result = .ok value := by
        simp only [complete, Report.andThen, hinvoke, Except.bind, Invocation.outcome, hvalue]
      rw [hcomplete] at h
      cases h

theorem count_fails (hregistry : query.registry = .builtin config) :
    FailsOnly (Failure.OfEvaluation config query.pending) query.count.result := by
  refine complete_fails hregistry .count [] rfl ?_
  intro outcome hkind
  obtain ⟨n, rfl⟩ := Outcome.eq_count_of_kind hkind
  exact ⟨n, rfl⟩

theorem is_fails (hregistry : query.registry = .builtin config) (selector : String) :
    FailsOnly (Failure.OfEvaluation config query.pending) (query.is selector).result := by
  refine complete_fails hregistry .is (selectorArguments selector) rfl ?_
  intro outcome hkind
  obtain ⟨value, rfl⟩ := Outcome.eq_bool_of_kind hkind
  exact ⟨value, rfl⟩

theorem getAll_fails (hregistry : query.registry = .builtin config) :
    FailsOnly (Failure.OfEvaluation config query.pending) query.getAll.result := by
  refine complete_fails hregistry .get [] rfl ?_
  intro outcome hkind
  obtain ⟨objects, rfl⟩ := Outcome.eq_objects_of_kind hkind
  exact ⟨objects, rfl⟩

theorem get_fails (hregistry : query.registry = .builtin config) (index : Int64) :
    FailsOnly (Failure.OfEvaluation config query.pending) (query.get index).result := by
  refine complete_fails hregistry .get [indexJson index] rfl ?_
  intro outcome hkind
  obtain ⟨value, rfl⟩ := Outcome.eq_object_of_kind hkind
  exact ⟨value, rfl⟩

theorem property_fails (hregistry : query.registry = .builtin config) (path : String) :
    FailsOnly (Failure.OfEvaluation config query.pending) (query.property path).result := by
  refine complete_fails hregistry .property [.string path] rfl ?_
  intro outcome hkind
  obtain ⟨value, rfl⟩ := Outcome.eq_object_of_kind hkind
  exact ⟨value, rfl⟩

theorem materialize_fails (hregistry : query.registry = .builtin config) :
    FailsOnly (Failure.OfEvaluation config query.pending) query.materialize.result := by
  unfold materialize
  split
  · exact .ok _
  · exact (evaluate_fails hregistry query.pending).bind fun made => .ok _

theorem toContext_fails (hregistry : query.registry = .builtin config) :
    FailsOnly (Failure.OfEvaluation config query.pending) query.toContext.result :=
  (materialize_fails hregistry).bind fun _ => .ok _

/-! ## What invocations give -/

theorem invoke_count (hregistry : query.registry = .builtin config) {arguments : List Json}
    {invocation : Invocation} (h : (query.invoke "count" arguments).result = .ok invocation) :
    ∃ n, invocation = .completed (.count n) := by
  obtain ⟨outcome, rfl, hkind⟩ := exists_outcome_of_invoke hregistry .count rfl h
  obtain ⟨n, rfl⟩ := Outcome.eq_count_of_kind hkind
  exact ⟨n, rfl⟩

theorem invoke_is (hregistry : query.registry = .builtin config) {arguments : List Json}
    {invocation : Invocation} (h : (query.invoke "is" arguments).result = .ok invocation) :
    ∃ value, invocation = .completed (.bool value) := by
  obtain ⟨outcome, rfl, hkind⟩ := exists_outcome_of_invoke hregistry .is rfl h
  obtain ⟨value, rfl⟩ := Outcome.eq_bool_of_kind hkind
  exact ⟨value, rfl⟩

theorem invoke_property (hregistry : query.registry = .builtin config) {arguments : List Json}
    {invocation : Invocation} (h : (query.invoke "property" arguments).result = .ok invocation) :
    ∃ value, invocation = .completed (.object value) := by
  obtain ⟨outcome, rfl, hkind⟩ := exists_outcome_of_invoke hregistry .property rfl h
  obtain ⟨value, rfl⟩ := Outcome.eq_object_of_kind hkind
  exact ⟨value, rfl⟩

theorem invoke_get (hregistry : query.registry = .builtin config) {arguments : List Json}
    {invocation : Invocation} (h : (query.invoke "get" arguments).result = .ok invocation) :
    (arguments.head? ∈ [none, some .null] →
      ∃ objects, invocation = .completed (.objects objects)) ∧
    (arguments.head? ∉ [none, some .null] →
      ∃ value, invocation = .completed (.object value)) := by
  obtain ⟨outcome, rfl, hkind⟩ := exists_outcome_of_invoke hregistry .get rfl h
  constructor
  · intro hmissing
    rw [Builtin.getKind_of_mem hmissing] at hkind
    obtain ⟨objects, rfl⟩ := Outcome.eq_objects_of_kind hkind
    exact ⟨objects, rfl⟩
  · intro hindex
    rw [Builtin.getKind_of_not_mem hindex] at hkind
    obtain ⟨value, rfl⟩ := Outcome.eq_object_of_kind hkind
    exact ⟨value, rfl⟩

theorem eq_queued_of_invoke {name : String} {arguments : List Json} {next : Query}
    (h : (query.invoke name arguments).result = .ok (.deferred next)) :
    next = query.queued ⟨name, arguments⟩ := by
  unfold invoke at h
  dsimp only at h
  split at h
  · unfold Report.andThen at h
    cases hrun : (query.evaluate (query.pending ++ [⟨name, arguments⟩])).result with
    | error failure =>
        rw [hrun] at h
        cases h
    | ok made =>
        rw [hrun] at h
        cases h
  · cases h
    rfl

end

/-! ## Typed calls -/

def Failing (query : Query) : Failure → Prop :=
  Failure.OfEvaluation query.registry.config query.pending

/-- What the calls of a query give, each of its own type: those that ask for an outcome fail only as
evaluations do, those of operations that are not final only make the queue longer, and an outcome is
of the kind of the operation that was invoked. -/
structure Typed (query : Query) : Prop where
  count_fails : FailsOnly query.Failing query.count.result
  is_fails : ∀ selector, FailsOnly query.Failing (query.is selector).result
  getAll_fails : FailsOnly query.Failing query.getAll.result
  get_fails : ∀ index, FailsOnly query.Failing (query.get index).result
  property_fails : ∀ path, FailsOnly query.Failing (query.property path).result
  materialize_fails : FailsOnly query.Failing query.materialize.result
  toContext_fails : FailsOnly query.Failing query.toContext.result
  filter_deferred : ∀ selector,
    (query.filter selector).result = .ok (query.queued ⟨"filter", [.string selector]⟩)
  children_deferred : ∀ selector,
    (query.children selector).result = .ok (query.queued ⟨"children", selectorArguments selector⟩)
  first_deferred : query.first.result = .ok (query.queued ⟨"first", []⟩)
  last_deferred : query.last.result = .ok (query.queued ⟨"last", []⟩)
  slice_deferred : ∀ start stop,
    (query.slice start stop).result = .ok (query.queued ⟨"slice", sliceArguments start stop⟩)
  unique_deferred : query.unique.result = .ok (query.queued ⟨"unique", []⟩)
  count_outcome : ∀ arguments invocation,
    (query.invoke "count" arguments).result = .ok invocation →
      ∃ n, invocation = .completed (.count n)
  is_outcome : ∀ arguments invocation,
    (query.invoke "is" arguments).result = .ok invocation →
      ∃ value, invocation = .completed (.bool value)
  property_outcome : ∀ arguments invocation,
    (query.invoke "property" arguments).result = .ok invocation →
      ∃ value, invocation = .completed (.object value)
  get_outcome : ∀ arguments invocation,
    (query.invoke "get" arguments).result = .ok invocation →
      (arguments.head? ∈ [none, some .null] →
        ∃ objects, invocation = .completed (.objects objects)) ∧
      (arguments.head? ∉ [none, some .null] →
        ∃ value, invocation = .completed (.object value))
  invoke_fails : ∀ name arguments,
    FailsOnly (query.queued ⟨name, arguments⟩).Failing (query.invoke name arguments).result
  invoke_deferred : ∀ name arguments next,
    (query.invoke name arguments).result = .ok (.deferred next) →
      next = query.queued ⟨name, arguments⟩

/-- Queries over the built-in operations are typed, whatever is in their queues: no call fails for
an outcome of another kind or for the registry, and an unknown name is one that was queued and that
no built-in operation has. -/
theorem typed_of_withBuiltins {query : Query}
    (hregistry : Registry.withBuiltins = .ok query.registry) : query.Typed := by
  have hbuiltin : query.registry = .builtin query.registry.config := by
    rw [Registry.withBuiltins_eq] at hregistry
    rw [← Except.ok.inj hregistry]
    rfl
  exact
    { count_fails := count_fails hbuiltin
      is_fails := is_fails hbuiltin
      getAll_fails := getAll_fails hbuiltin
      get_fails := get_fails hbuiltin
      property_fails := property_fails hbuiltin
      materialize_fails := materialize_fails hbuiltin
      toContext_fails := toContext_fails hbuiltin
      filter_deferred := fun _ => congrArg Report.result (chain_eq hbuiltin .filter rfl _)
      children_deferred := fun _ => congrArg Report.result (chain_eq hbuiltin .children rfl _)
      first_deferred := congrArg Report.result (chain_eq hbuiltin .first rfl _)
      last_deferred := congrArg Report.result (chain_eq hbuiltin .last rfl _)
      slice_deferred := fun _ _ => congrArg Report.result (chain_eq hbuiltin .slice rfl _)
      unique_deferred := congrArg Report.result (chain_eq hbuiltin .unique rfl _)
      count_outcome := fun _ _ => invoke_count hbuiltin
      is_outcome := fun _ _ => invoke_is hbuiltin
      property_outcome := fun _ _ => invoke_property hbuiltin
      get_outcome := fun _ _ => invoke_get hbuiltin
      invoke_fails := invoke_fails hbuiltin
      invoke_deferred := fun _ _ _ => eq_queued_of_invoke }

def parents : Query :=
  ⟨.builtin {}, [.null], [⟨"parents", []⟩]⟩

/-- The unknown name is found when the query is counted, and is one of those that were queued. -/
theorem typed_parents :
    Registry.withBuiltins = .ok parents.registry ∧
    parents.count.result = .error (.unknownOperation "parents") ∧
    parents.Failing (.unknownOperation "parents") ∧
    parents.first.result = .ok (parents.queued ⟨"first", []⟩) := by
  have hregistry : Registry.withBuiltins = .ok parents.registry := Registry.withBuiltins_eq
  have hevaluate : (parents.evaluate [⟨"parents", []⟩, ⟨"count", []⟩]).result =
      .error (.unknownOperation "parents") := by
    rw [evaluate, Evaluation.run_result, Evaluation.drain_of_advance_error rfl]
    rfl
  have hcount : parents.count.result = .error (.unknownOperation "parents") := by
    have hcomplete : (parents.complete "count" []).result =
        .error (.unknownOperation "parents") := by
      refine (complete_result rfl .count rfl []).trans ?_
      exact congrArg (Except.map _) hevaluate
    simp only [count, Report.andThen, hcomplete]
    rfl
  have htyped := typed_of_withBuiltins hregistry
  exact ⟨hregistry, hcount, htyped.count_fails _ hcount, htyped.first_deferred⟩

end Query

end ObjectQuery
