import ObjectQuery.Operation.Scripted
import ObjectQuery.Proofs.Registration
/-!
# What a registry answers

The order of registration leaves no trace in a registry: the operations of a name have different
priorities, so sorting by priority puts them in one possible order. What a registry answers about a
name is therefore a matter of the set of operations that were registered
(`registration_in_any_order`).
-/

namespace ObjectQuery

/-- Of the operations of a name that accept a context, this one has the highest priority. -/
structure Operation.Leads (operation : Operation) (operations : List Operation) (name : String)
    (context : Context) : Prop where
  mem : operation ∈ operations
  named : operation.name = name
  accepting : operation.accepts context = true
  highest : ∀ other ∈ operations, other.name = name → other.accepts context = true →
    other.priority ≤ operation.priority

namespace Registry

/-! ## The operations of a name, highest priority first -/

/-- The registry consists of some operations of distinct keys, in descending order of priority. -/
structure Holds (registry : Registry) (operations : List Operation) : Prop where
  perm : registry.operations.Perm operations
  descending : registry.operations.Pairwise fun x y => y.priority ≤ x.priority
  distinct : (registry.operations.map Operation.key).Nodup

theorem holds_of_build {operations : List Operation} {config : Config} {registry : Registry}
    (hdistinct : (operations.map Operation.key).Nodup)
    (hbuild : Draft.build ⟨operations, config⟩ = .ok registry) : registry.Holds operations := by
  unfold Draft.build at hbuild
  split at hbuild
  · cases hbuild
  · cases hbuild
    have hperm : (operations.mergeSort fun x y => y.priority ≤ x.priority).Perm operations :=
      List.mergeSort_perm _ _
    refine ⟨hperm, ?_, (hperm.map Operation.key).nodup_iff.2 hdistinct⟩
    have hsorted := @List.pairwise_mergeSort Operation (fun x y => y.priority ≤ x.priority)
      (by simp only [decide_eq_true_eq]; omega)
      (by simp only [Bool.or_eq_true, decide_eq_true_eq]; omega) operations
    simpa only [decide_eq_true_eq] using hsorted

theorem Holds.of_perm {registry : Registry} {operations order : List Operation}
    (h : registry.Holds order) (hperm : order.Perm operations) : registry.Holds operations :=
  ⟨h.perm.trans hperm, h.descending, h.distinct⟩

section

variable {registry : Registry} {operations : List Operation}

theorem Holds.mem_candidates_iff (h : registry.Holds operations) {name : String}
    {operation : Operation} :
    operation ∈ registry.candidates name ↔ operation ∈ operations ∧ operation.name = name := by
  simp [candidates, h.perm.mem_iff]

theorem Holds.candidates_pairwise (h : registry.Holds operations) (name : String) :
    (registry.candidates name).Pairwise fun x y => y.priority < x.priority := by
  have hkeys : registry.operations.Pairwise fun x y => x.key ≠ y.key :=
    List.pairwise_map.1 h.distinct
  have hboth := (h.descending.and hkeys).filter (·.name == name)
  refine hboth.imp_of_mem ?_
  intro x y hx hy hxy
  have hnames : x.name = y.name := by
    simp only [List.mem_filter, beq_iff_eq] at hx hy
    rw [hx.2, hy.2]
  have hpriorities : x.priority ≠ y.priority := by
    intro hsame
    exact hxy.2 (Prod.ext hnames hsame)
  have hle := hxy.1
  omega

theorem Holds.priorities_pairwise (h : registry.Holds operations) (name : String) :
    (registry.priorities name).Pairwise fun x y => y < x :=
  List.pairwise_map.2 (h.candidates_pairwise name)

theorem Holds.mem_priorities_iff (h : registry.Holds operations) {name : String}
    {priority : Int} :
    priority ∈ registry.priorities name ↔
      ∃ operation ∈ operations, operation.name = name ∧ operation.priority = priority := by
  simp [priorities, h.mem_candidates_iff, and_assoc]

theorem Holds.isFinal_iff (h : registry.Holds operations) {name : String} :
    registry.isFinal name = true ↔
      ∃ operation ∈ operations, operation.name = name ∧ operation.isFinal = true := by
  simp [isFinal, h.mem_candidates_iff, and_assoc]

/-! ## Resolving a name -/

theorem resolve_eq (registry : Registry) (name : String) (context : Context) :
    registry.resolve name context =
      if registry.candidates name = [] then .error (.unknownOperation name)
      else
        match (registry.candidates name).find? (·.accepts context) with
        | some operation => .ok operation
        | none => .error (.noApplicableOperation name) := by
  unfold resolve
  cases registry.candidates name <;> rfl

theorem resolve_eq_ok_iff {name : String} {context : Context} {operation : Operation} :
    registry.resolve name context = .ok operation ↔
      (registry.candidates name).find? (·.accepts context) = some operation := by
  rw [resolve_eq]
  split
  · rename_i hnone
    simp [hnone]
  · cases (registry.candidates name).find? (·.accepts context) <;> simp

theorem resolve_eq_unknown_iff {name : String} {context : Context} :
    registry.resolve name context = .error (.unknownOperation name) ↔
      registry.candidates name = [] := by
  rw [resolve_eq]
  split
  · rename_i hnone
    simp [hnone]
  · rename_i hsome
    cases (registry.candidates name).find? (·.accepts context) <;> simp [hsome]

theorem resolve_eq_noApplicable_iff {name : String} {context : Context} :
    registry.resolve name context = .error (.noApplicableOperation name) ↔
      registry.candidates name ≠ [] ∧
        (registry.candidates name).find? (·.accepts context) = none := by
  rw [resolve_eq]
  split
  · rename_i hnone
    simp [hnone]
  · rename_i hsome
    cases (registry.candidates name).find? (·.accepts context) <;> simp [hsome]

/-- In descending order of priority, the first operation that passes a test has the highest priority
of those that pass it. -/
theorem find?_eq_some_iff_of_pairwise {ordered : List Operation}
    (h : ordered.Pairwise fun x y => y.priority < x.priority) {test : Operation → Bool}
    {operation : Operation} :
    ordered.find? test = some operation ↔
      operation ∈ ordered ∧ test operation = true ∧
        ∀ other ∈ ordered, test other = true → other.priority ≤ operation.priority := by
  induction ordered with
  | nil => simp
  | cons first rest ih =>
      obtain ⟨hfirst, hrest⟩ := List.pairwise_cons.1 h
      by_cases htest : test first = true
      · rw [List.find?_cons_of_pos htest]
        constructor
        · rintro ⟨⟩
          refine ⟨by simp, htest, ?_⟩
          intro other hother _
          rcases List.mem_cons.1 hother with rfl | hmem
          · exact Int.le_refl _
          · exact Int.le_of_lt (hfirst other hmem)
        · rintro ⟨hmem, -, hhighest⟩
          rcases List.mem_cons.1 hmem with rfl | hmem
          · rfl
          · have hless := hfirst operation hmem
            have hle := hhighest first (by simp) htest
            omega
      · rw [List.find?_cons_of_neg htest, ih hrest]
        constructor
        · rintro ⟨hmem, hpasses, hhighest⟩
          refine ⟨List.mem_cons_of_mem _ hmem, hpasses, ?_⟩
          intro other hother hpass
          rcases List.mem_cons.1 hother with rfl | hother
          · exact absurd hpass htest
          · exact hhighest other hother hpass
        · rintro ⟨hmem, hpasses, hhighest⟩
          rcases List.mem_cons.1 hmem with rfl | hmem
          · exact absurd hpasses htest
          · exact ⟨hmem, hpasses, fun other hother => hhighest other (by simp [hother])⟩

theorem Holds.candidates_eq_nil_iff (h : registry.Holds operations) {name : String} :
    registry.candidates name = [] ↔ ∀ operation ∈ operations, operation.name ≠ name := by
  simp [List.eq_nil_iff_forall_not_mem, h.mem_candidates_iff]

theorem Holds.resolve_eq_ok_iff (h : registry.Holds operations) {name : String}
    {context : Context} {operation : Operation} :
    registry.resolve name context = .ok operation ↔ operation.Leads operations name context := by
  rw [Registry.resolve_eq_ok_iff, find?_eq_some_iff_of_pairwise (h.candidates_pairwise name)]
  simp only [h.mem_candidates_iff]
  constructor
  · rintro ⟨⟨hmem, hname⟩, haccepts, hhighest⟩
    exact ⟨hmem, hname, haccepts, fun other hother hnamed => hhighest other ⟨hother, hnamed⟩⟩
  · rintro ⟨hmem, hname, haccepts, hhighest⟩
    exact ⟨⟨hmem, hname⟩, haccepts, fun other hother => hhighest other hother.1 hother.2⟩

theorem Holds.resolve_eq_unknown_iff (h : registry.Holds operations) {name : String}
    {context : Context} :
    registry.resolve name context = .error (.unknownOperation name) ↔
      ∀ operation ∈ operations, operation.name ≠ name := by
  rw [Registry.resolve_eq_unknown_iff, h.candidates_eq_nil_iff]

theorem Holds.resolve_eq_noApplicable_iff (h : registry.Holds operations) {name : String}
    {context : Context} :
    registry.resolve name context = .error (.noApplicableOperation name) ↔
      (∃ operation ∈ operations, operation.name = name) ∧
        ∀ operation ∈ operations, operation.name = name → operation.accepts context = false := by
  rw [Registry.resolve_eq_noApplicable_iff, Ne, h.candidates_eq_nil_iff, List.find?_eq_none]
  simp only [h.mem_candidates_iff, Bool.not_eq_true, and_imp]
  constructor
  · rintro ⟨hsome, hnone⟩
    refine ⟨?_, hnone⟩
    by_contra hmissing
    exact hsome fun operation hmem hname => hmissing ⟨operation, hmem, hname⟩
  · rintro ⟨⟨operation, hmem, hname⟩, hnone⟩
    exact ⟨fun hmissing => hmissing operation hmem hname, hnone⟩

end

/-! ## The names of a registry -/

theorem mem_insertName_iff {name other : String} {names : List String} :
    other ∈ insertName name names ↔ other = name ∨ other ∈ names := by
  induction names with
  | nil => simp [insertName]
  | cons first rest ih =>
      unfold insertName
      split
      · rename_i hsame
        simp [hsame]
      · split
        · simp
        · simp [ih, or_left_comm]

theorem insertName_pairwise {name : String} {names : List String}
    (h : names.Pairwise (· < ·)) : (insertName name names).Pairwise (· < ·) := by
  induction names with
  | nil => simp [insertName]
  | cons first rest ih =>
      obtain ⟨hfirst, hrest⟩ := List.pairwise_cons.1 h
      unfold insertName
      split
      · exact h
      · rename_i hne
        split
        · rename_i hless
          refine List.pairwise_cons.2 ⟨?_, h⟩
          intro other hother
          rcases List.mem_cons.1 hother with rfl | hmem
          · exact hless
          · exact String.lt_trans hless (hfirst other hmem)
        · rename_i hnotless
          have hless : first < name :=
            Std.lt_of_le_of_ne (String.not_lt.1 hnotless) (Ne.symm hne)
          refine List.pairwise_cons.2 ⟨?_, ih hrest⟩
          intro other hother
          rcases mem_insertName_iff.1 hother with rfl | hmem
          · exact hless
          · exact hfirst other hmem

theorem operationNames_pairwise (registry : Registry) :
    registry.operationNames.Pairwise (· < ·) := by
  unfold operationNames
  induction registry.operations with
  | nil => exact .nil
  | cons operation rest ih => exact insertName_pairwise ih

theorem mem_operationNames_iff {registry : Registry} {name : String} :
    name ∈ registry.operationNames ↔ ∃ operation ∈ registry.operations, operation.name = name := by
  unfold operationNames
  induction registry.operations with
  | nil => simp
  | cons operation rest ih => simp [mem_insertName_iff, ih, eq_comm]

/-! ## What a registry answers -/

/-- What a registry answers about its operations, said of these as a set. -/
structure Answers (registry : Registry) (operations : List Operation) : Prop where
  priorities_descending : ∀ name, (registry.priorities name).Pairwise fun x y => y < x
  mem_priorities : ∀ name priority, priority ∈ registry.priorities name ↔
    ∃ operation ∈ operations, operation.name = name ∧ operation.priority = priority
  final : ∀ name, registry.isFinal name = true ↔
    ∃ operation ∈ operations, operation.name = name ∧ operation.isFinal = true
  resolved : ∀ name context operation,
    registry.resolve name context = .ok operation ↔ operation.Leads operations name context
  unknown : ∀ name context, registry.resolve name context = .error (.unknownOperation name) ↔
    ∀ operation ∈ operations, operation.name ≠ name
  inapplicable : ∀ name context,
    registry.resolve name context = .error (.noApplicableOperation name) ↔
      (∃ operation ∈ operations, operation.name = name) ∧
        ∀ operation ∈ operations, operation.name = name → operation.accepts context = false
  names_ascending : registry.operationNames.Pairwise fun x y => x < y
  mem_names : ∀ name, name ∈ registry.operationNames ↔
    ∃ operation ∈ operations, operation.name = name

theorem Holds.answers {registry : Registry} {operations : List Operation}
    (h : registry.Holds operations) : registry.Answers operations where
  priorities_descending := h.priorities_pairwise
  mem_priorities _ _ := h.mem_priorities_iff
  final _ := h.isFinal_iff
  resolved _ _ _ := h.resolve_eq_ok_iff
  unknown _ _ := h.resolve_eq_unknown_iff
  inapplicable _ _ := h.resolve_eq_noApplicable_iff
  names_ascending := registry.operationNames_pairwise
  mem_names name := by simp [mem_operationNames_iff, h.perm.mem_iff]

/-- Operations of distinct keys are registered and built in any order, and the registry answers for
them whatever this order was. -/
theorem exists_build_answers {config : Config} {operations order : List Operation}
    (hdistinct : (operations.map Operation.key).Nodup) (hvalid : config.validate = .ok ())
    (hperm : order.Perm operations) :
    ∃ registry, (Draft.registerAll order { config := config }).bind Draft.build = .ok registry ∧
      registry.config = config ∧ registry.Answers operations := by
  have horder : (order.map Operation.key).Nodup := (hperm.map Operation.key).nodup_iff.2 hdistinct
  have hregister : Draft.registerAll order { config := config } = .ok ⟨order, config⟩ :=
    Draft.registerAll_of_nodup horder
  have hbuild : Draft.build ⟨order, config⟩ =
      .ok ⟨order.mergeSort fun x y => y.priority ≤ x.priority, config⟩ := by
    rw [Draft.build]
    simp only [hvalid]
  refine ⟨_, ?_, rfl, ((holds_of_build horder hbuild).of_perm hperm).answers⟩
  rw [hregister]
  exact hbuild

/-- Operations can be registered one after another exactly if no two of them share name and
priority; otherwise registering fails at the first that shares them with an earlier one. With a
valid configuration, the registry built from them answers in the same way whatever the order of
registration was: a name is resolved to the operation of highest priority that accepts the
context. -/
theorem registration_in_any_order (config : Config) (operations : List Operation) :
    ((∃ draft, Draft.registerAll operations { config := config } = .ok draft) ↔
      (operations.map Operation.key).Nodup) ∧
    (∀ failure, Draft.registerAll operations { config := config } = .error failure ↔
      ∃ before repeated after, operations = before ++ repeated :: after ∧
        (before.map Operation.key).Nodup ∧ repeated.key ∈ before.map Operation.key ∧
        failure = .duplicatePriority repeated.name repeated.priority) ∧
    ∀ draft, Draft.registerAll operations { config := config } = .ok draft →
      config.validate = .ok () → ∀ order : List Operation, order.Perm operations →
        ∃ registry,
          (Draft.registerAll order { config := config }).bind Draft.build = .ok registry ∧
          registry.config = config ∧ registry.Answers operations := by
  refine ⟨Draft.exists_registerAll_eq_ok_iff config,
    fun failure => Draft.registerAll_eq_error_iff, ?_⟩
  intro draft hdraft hvalid order hperm
  have hdistinct := (Draft.exists_registerAll_eq_ok_iff config).1 ⟨draft, hdraft⟩
  exact exists_build_answers hdistinct hvalid hperm

/-- An operation that does nothing. It is final and accepts at most one object. -/
def narrow : Operation :=
  Script.operation ⟨"ranked", 20, true, 0, some 1, [], .silent⟩

/-- An operation of the same name that accepts every context, with a lower priority. -/
def wide : Operation :=
  Script.operation ⟨"ranked", 10, false, 0, none, [], .silent⟩

/-- Two objects are too many for the operation of higher priority, whichever of the two was
registered first. -/
theorem registration_in_any_order_ranked :
    Draft.registerAll [narrow, wide] {} = .ok ⟨[narrow, wide], {}⟩ ∧
    ({} : Config).validate = .ok () ∧ [wide, narrow].Perm [narrow, wide] ∧
    ∃ registry, (Draft.registerAll [wide, narrow] {}).bind Draft.build = .ok registry ∧
      registry.isFinal "ranked" = true ∧
      registry.resolve "ranked" [.null] = .ok narrow ∧
      registry.resolve "ranked" [.null, .null] = .ok wide := by
  have hregister : Draft.registerAll [narrow, wide] {} = .ok ⟨[narrow, wide], {}⟩ := rfl
  have hvalid : ({} : Config).validate = .ok () := rfl
  have hperm : [wide, narrow].Perm [narrow, wide] := .swap narrow wide []
  obtain ⟨registry, hbuild, -, hanswers⟩ :=
    (registration_in_any_order {} [narrow, wide]).2.2 _ hregister hvalid _ hperm
  refine ⟨hregister, hvalid, hperm, registry, hbuild, ?_, ?_, ?_⟩
  · exact (hanswers.final "ranked").2 ⟨narrow, by simp, rfl, rfl⟩
  · refine (hanswers.resolved _ _ _).2 ⟨by simp, rfl, rfl, ?_⟩
    intro other hother _ _
    simp only [List.mem_cons, List.not_mem_nil, or_false] at hother
    rcases hother with rfl | rfl <;> decide
  · refine (hanswers.resolved _ _ _).2 ⟨by simp, rfl, rfl, ?_⟩
    intro other hother _ haccepts
    simp only [List.mem_cons, List.not_mem_nil, or_false] at hother
    rcases hother with rfl | rfl
    · cases haccepts
    · decide

end Registry

end ObjectQuery
