import Mathlib.Data.List.Induction
import ObjectQuery.Operation.Registry
/-!
# Registered operations

Registering succeeds as long as no operation has the name and the priority of an earlier one. A
registry then holds exactly the operations that were registered, and a call reaches only those.
-/

namespace ObjectQuery

/-- What no two operations of a registry have in common: the name together with the priority. -/
def Operation.key (operation : Operation) : String × Int :=
  (operation.name, operation.priority)

namespace Registry

namespace Draft

/-! ## Registering one operation after another -/

theorem register_of_fresh {operation : Operation} {draft : Draft}
    (h : operation.key ∉ draft.operations.map Operation.key) :
    draft.register operation =
      .ok { draft with operations := draft.operations ++ [operation] } := by
  rw [register, if_neg]
  intro hany
  obtain ⟨other, hmem, hclash⟩ := List.any_eq_true.1 hany
  have hsame : other.name = operation.name ∧ other.priority = operation.priority := by
    simpa using hclash
  exact h (List.mem_map.2 ⟨other, hmem, Prod.ext hsame.1 hsame.2⟩)

theorem register_of_repeated {operation : Operation} {draft : Draft}
    (h : operation.key ∈ draft.operations.map Operation.key) :
    draft.register operation =
      .error (.duplicatePriority operation.name operation.priority) := by
  obtain ⟨other, hmem, hkey⟩ := List.mem_map.1 h
  have hsame : other.name = operation.name ∧ other.priority = operation.priority :=
    Prod.ext_iff.1 hkey
  rw [register, if_pos]
  exact List.any_eq_true.2 ⟨other, hmem, by simp [hsame]⟩

theorem registerAll_of_nodup {operations : List Operation} {draft : Draft}
    (h : ((draft.operations ++ operations).map Operation.key).Nodup) :
    draft.registerAll operations =
      .ok { draft with operations := draft.operations ++ operations } := by
  induction operations generalizing draft with
  | nil => simp [registerAll]
  | cons operation rest ih =>
      have hfresh : operation.key ∉ draft.operations.map Operation.key := by
        intro hmem
        rw [List.map_append, List.nodup_append] at h
        exact h.2.2 _ hmem _ (by simp) rfl
      have hrest : registerAll rest { draft with operations := draft.operations ++ [operation] } =
          .ok { draft with operations := draft.operations ++ [operation] ++ rest } :=
        ih (by simpa using h)
      simp only [registerAll, register_of_fresh hfresh, hrest, List.append_assoc,
        List.singleton_append]

theorem registerAll_append (first second : List Operation) (draft : Draft) :
    draft.registerAll (first ++ second) =
      (draft.registerAll first).bind (registerAll second) := by
  induction first generalizing draft with
  | nil => rfl
  | cons operation rest ih =>
      simp only [List.cons_append, registerAll]
      cases draft.register operation with
      | error failure => rfl
      | ok registered => exact ih registered

theorem registerAll_of_repeated {before after : List Operation} {operation : Operation}
    {draft : Draft} (hbefore : ((draft.operations ++ before).map Operation.key).Nodup)
    (h : operation.key ∈ (draft.operations ++ before).map Operation.key) :
    draft.registerAll (before ++ operation :: after) =
      .error (.duplicatePriority operation.name operation.priority) := by
  have hrepeated : register operation { draft with operations := draft.operations ++ before } =
      .error (.duplicatePriority operation.name operation.priority) := register_of_repeated h
  rw [registerAll_append, registerAll_of_nodup hbefore]
  simp only [Except.bind, registerAll, hrepeated]

theorem exists_repeated {operations : List Operation}
    (h : ¬ (operations.map Operation.key).Nodup) :
    ∃ before repeated after, operations = before ++ repeated :: after ∧
      (before.map Operation.key).Nodup ∧ repeated.key ∈ before.map Operation.key := by
  -- Taking operations off the end: either some are repeated before the last, or it is the first.
  induction operations using List.reverseRecOn with
  | nil => simp at h
  | append_singleton front last ih =>
      by_cases hfront : (front.map Operation.key).Nodup
      · refine ⟨front, last, [], rfl, hfront, ?_⟩
        by_contra hfresh
        apply h
        rw [List.map_append, List.nodup_append]
        refine ⟨hfront, by simp, ?_⟩
        rintro key hkey other hother rfl
        rw [List.map_singleton, List.mem_singleton] at hother
        exact hfresh (hother ▸ hkey)
      · obtain ⟨before, repeated, after, rfl, hbefore, hrepeated⟩ := ih hfront
        exact ⟨before, repeated, after ++ [last], by simp, hbefore, hrepeated⟩

/-- Registering succeeds exactly if no two operations share name and priority. -/
theorem exists_registerAll_eq_ok_iff (config : Config) {operations : List Operation} :
    (∃ draft, registerAll operations { config := config } = .ok draft) ↔
      (operations.map Operation.key).Nodup := by
  constructor
  · rintro ⟨draft, hdraft⟩
    by_contra hrepeats
    obtain ⟨before, repeated, after, rfl, hbefore, hrepeated⟩ := exists_repeated hrepeats
    rw [registerAll_of_repeated (by simpa using hbefore) (by simpa using hrepeated)] at hdraft
    cases hdraft
  · intro h
    exact ⟨_, registerAll_of_nodup (by simpa using h)⟩

/-- Registering fails exactly at the first operation that shares name and priority with an earlier
one. -/
theorem registerAll_eq_error_iff {config : Config} {operations : List Operation}
    {failure : Failure} :
    registerAll operations { config := config } = .error failure ↔
      ∃ before repeated after, operations = before ++ repeated :: after ∧
        (before.map Operation.key).Nodup ∧ repeated.key ∈ before.map Operation.key ∧
        failure = .duplicatePriority repeated.name repeated.priority := by
  constructor
  · intro h
    have hrepeats : ¬ (operations.map Operation.key).Nodup := by
      intro hdistinct
      obtain ⟨draft, hdraft⟩ := (exists_registerAll_eq_ok_iff config).2 hdistinct
      rw [hdraft] at h
      cases h
    obtain ⟨before, repeated, after, rfl, hbefore, hrepeated⟩ := exists_repeated hrepeats
    rw [registerAll_of_repeated (by simpa using hbefore) (by simpa using hrepeated)] at h
    cases h
    exact ⟨before, repeated, after, rfl, hbefore, hrepeated, rfl⟩
  · rintro ⟨before, repeated, after, rfl, hbefore, hrepeated, rfl⟩
    exact registerAll_of_repeated (by simpa using hbefore) (by simpa using hrepeated)

/-! ## The operations of a registry -/

theorem operations_of_register {operation : Operation} {draft next : Draft}
    (h : draft.register operation = .ok next) :
    next.operations = draft.operations ++ [operation] := by
  simp only [register] at h
  split at h
  · cases h
  · cases h
    rfl

theorem operations_of_registerAll {operations : List Operation} {draft next : Draft}
    (h : draft.registerAll operations = .ok next) :
    next.operations = draft.operations ++ operations := by
  induction operations generalizing draft with
  | nil =>
      cases h
      simp
  | cons operation rest ih =>
      unfold registerAll at h
      split at h
      · cases h
      · rename_i registered hregister
        rw [ih h, operations_of_register hregister]
        simp

theorem mem_operations_of_build {draft : Draft} {registry : Registry}
    (h : draft.build = .ok registry) {operation : Operation} :
    operation ∈ registry.operations ↔ operation ∈ draft.operations := by
  unfold build at h
  split at h
  · cases h
  · cases h
    exact List.mem_mergeSort

end Draft

theorem mem_candidates_of_resolve {registry : Registry} {name : String} {context : Context}
    {operation : Operation} (h : registry.resolve name context = .ok operation) :
    operation ∈ registry.candidates name := by
  unfold resolve at h
  split at h
  · cases h
  · split at h
    · rename_i hfound
      cases h
      exact List.mem_of_find?_eq_some hfound
    · cases h

theorem mem_of_resolve {registry : Registry} {name : String} {context : Context}
    {operation : Operation} (h : registry.resolve name context = .ok operation) :
    operation ∈ registry.operations :=
  (List.mem_filter.1 (mem_candidates_of_resolve h)).1

theorem name_of_resolve {registry : Registry} {name : String} {context : Context}
    {operation : Operation} (h : registry.resolve name context = .ok operation) :
    operation.name = name := by
  simpa using (List.mem_filter.1 (mem_candidates_of_resolve h)).2

end Registry

end ObjectQuery
