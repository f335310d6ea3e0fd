import ObjectQuery.Proofs.Evaluation.Builtins
/-!
# Outcomes of final operations

A final operation at the end of a queue is the last to run. No `children` in front of it takes it
away, as that takes only a `filter`, and what operations queue goes ahead of it. If it has a
selector it is queued once more, without one. So the outcome of the whole evaluation is of its
kind.
-/

namespace ObjectQuery

namespace Outcome

theorem eq_objects_of_kind {outcome : Outcome} (h : outcome.kind = .objects) :
    ∃ context, outcome = .objects context := by
  cases outcome <;> cases h
  exact ⟨_, rfl⟩

theorem eq_object_of_kind {outcome : Outcome} (h : outcome.kind = .object) :
    ∃ value, outcome = .object value := by
  cases outcome <;> cases h
  exact ⟨_, rfl⟩

theorem eq_count_of_kind {outcome : Outcome} (h : outcome.kind = .count) :
    ∃ n, outcome = .count n := by
  cases outcome <;> cases h
  exact ⟨_, rfl⟩

theorem eq_bool_of_kind {outcome : Outcome} (h : outcome.kind = .bool) :
    ∃ value, outcome = .bool value := by
  cases outcome <;> cases h
  exact ⟨_, rfl⟩

end Outcome

namespace Builtin

/-- The kind of the outcome of `get`: a list, or one object if there is an index. -/
def getKind (arguments : List Json) : ResultKind :=
  match arguments.head? with
  | none => .objects
  | some .null => .objects
  | some _ => .object

def outcomeKind? (arguments : List Json) : Builtin → Option ResultKind
  | .count => some .count
  | .is => some .bool
  | .get => some (getKind arguments)
  | .property => some .object
  | _ => none

theorem getKind_of_mem {arguments : List Json} (h : arguments.head? ∈ [none, some .null]) :
    getKind arguments = .objects := by
  simp only [List.mem_cons, List.not_mem_nil, or_false] at h
  rcases h with hhead | hhead <;> simp only [getKind, hhead]

theorem getKind_of_not_mem {arguments : List Json} (h : arguments.head? ∉ [none, some .null]) :
    getKind arguments = .object := by
  unfold getKind
  split
  · rename_i hhead
    simp [hhead] at h
  · rename_i hhead
    simp [hhead] at h
  · rfl

theorem isFinal_of_outcomeKind? {arguments : List Json} {builtin : Builtin} {kind : ResultKind}
    (h : builtin.outcomeKind? arguments = some kind) : builtin.isFinal = true := by
  cases builtin with
  | count => rfl
  | is => rfl
  | get => rfl
  | property => rfl
  | _ => cases h

theorem getKind_of_indexArgument {arguments : List Json} {index : Option Int64}
    (h : indexArgument "get" arguments 0 = .ok index) :
    getKind arguments = if index.isSome then .object else .objects := by
  rw [indexArgument, ← List.head?_eq_getElem?] at h
  unfold getKind
  cases hhead : arguments.head? with
  | none =>
      rw [hhead] at h
      cases h
      rfl
  | some first =>
      rw [hhead] at h
      cases first with
      | null =>
          cases h
          rfl
      | integer value =>
          dsimp only at h
          split at h <;> cases h
          rfl
      | _ => cases h

theorem outcome_of_run {config : Config} {arguments : List Json} {frame next : Frame}
    {outcome : Option Outcome} {builtin : Builtin} {kind : ResultKind}
    (hkind : builtin.outcomeKind? arguments = some kind)
    (h : builtin.run config arguments frame = .ok (outcome, next)) :
    (next.pending = frame.pending ∧ outcome.map Outcome.kind = some kind) ∨
      ∃ text, next.pending = filterCall text :: ⟨builtin.name, []⟩ :: frame.pending ∧
        builtin.outcomeKind? [] = some kind := by
  cases builtin with
  | count =>
      obtain ⟨selector, -, hrest⟩ := bind_eq_ok h
      cases selector <;> cases hrest
      · exact Or.inl ⟨rfl, hkind⟩
      · exact Or.inr ⟨_, rfl, hkind⟩
  | is =>
      obtain ⟨selector, -, hrest⟩ := bind_eq_ok h
      cases selector <;> cases hrest
      · exact Or.inl ⟨rfl, hkind⟩
      · exact Or.inr ⟨_, rfl, hkind⟩
  | get =>
      obtain ⟨index, hindex, hrest⟩ := bind_eq_ok h
      rw [outcomeKind?, getKind_of_indexArgument hindex] at hkind
      cases index <;> cases hrest <;> exact Or.inl ⟨rfl, hkind⟩
  | property =>
      obtain ⟨path, -, hrest⟩ := bind_eq_ok h
      cases hrest
      exact Or.inl ⟨rfl, hkind⟩
  | _ => cases hkind

theorem Leaves.exists_append {arguments : List Json} {front next : List Call} {last : Call}
    {builtin : Builtin} (h : Leaves arguments (front ++ [last]) builtin next)
    (hlast : last.name ≠ filter.name) : ∃ queued, next = queued ++ [last] := by
  cases h with
  | same => exact ⟨front, rfl⟩
  | @filtering _ text => exact ⟨filterCall text :: ⟨builtin.name, []⟩ :: front, rfl⟩
  | @stepping _ _ behind _ attributes hselector =>
      obtain ⟨left, rfl⟩ : ∃ left, behind = left ++ [last] := by
        rcases childrenSelector_cases hselector with ⟨-, rfl⟩ | ⟨taken, hpending, hname, -⟩
        · exact ⟨front, rfl⟩
        · cases front with
          | nil =>
              cases hpending
              exact absurd hname hlast
          | cons first rest =>
              cases hpending
              exact ⟨rest, rfl⟩
      exact ⟨attributes.map (fun condition => filterCall condition.text) ++ left, by simp⟩

end Builtin

namespace Evaluation

variable {config : Config}

/-- A final operation with an outcome of some kind is the last call of the queue, or it was made and
its outcome is there. -/
def Concludes (builtin : Builtin) (kind : ResultKind) (progress : Progress) : Prop :=
  (∃ front arguments, progress.frame.pending = front ++ [⟨builtin.name, arguments⟩] ∧
    builtin.outcomeKind? arguments = some kind) ∨
  (progress.frame.pending = [] ∧ progress.outcome.map Outcome.kind = some kind)

theorem Concludes.advance {builtin : Builtin} {kind : ResultKind} {progress next : Progress}
    (hnext : advance (.builtin config) progress = .ok next)
    (h : Concludes builtin kind progress) : Concludes builtin kind next := by
  obtain ⟨made, given, rest, hpending, hrun, -⟩ := exists_builtin_of_advance_ok hnext
  rcases h with ⟨front, arguments, hlast, hkind⟩ | ⟨hnil, -⟩
  · rw [hpending] at hlast
    cases front with
    | nil =>
        -- The final operation itself is called.
        simp only [List.nil_append, List.cons.injEq, Call.mk.injEq] at hlast
        obtain ⟨⟨hname, rfl⟩, rfl⟩ := hlast
        obtain rfl := Builtin.name_injective hname
        rcases Builtin.outcome_of_run hkind hrun with ⟨hleft, houtcome⟩ | ⟨text, hleft, hkind⟩
        · exact Or.inr ⟨hleft, houtcome⟩
        · exact Or.inl ⟨[Builtin.filterCall text], [], hleft, hkind⟩
    | cons first front =>
        -- An operation in front of it is called.
        obtain rfl : rest = front ++ [⟨builtin.name, arguments⟩] := by
          simpa using congrArg List.tail hlast
        have hname : builtin.name ≠ Builtin.filter.name := by
          intro hfilter
          rw [Builtin.name_injective hfilter] at hkind
          cases hkind
        obtain ⟨queued, hqueued⟩ := (Builtin.leaves_of_run hrun).exists_append hname
        exact Or.inl ⟨queued, arguments, hqueued, hkind⟩
  · rw [hnil] at hpending
    cases hpending

/-- If a final operation is the last call of a queue, the evaluation of the queue has an outcome of
its kind. -/
theorem outcome_of_run_append {context final : Context} {front : List Call} {builtin : Builtin}
    {arguments : List Json} {kind : ResultKind} {outcome : Option Outcome}
    (hkind : builtin.outcomeKind? arguments = some kind)
    (h : (run (.builtin config) context (front ++ [⟨builtin.name, arguments⟩])).result =
      .ok (final, outcome)) : outcome.map Outcome.kind = some kind := by
  obtain ⟨last, hreach, hframe, rfl⟩ := exists_reaches_of_run_ok h
  have hstart : Concludes builtin kind
      (start context (front ++ [⟨builtin.name, arguments⟩])) :=
    Or.inl ⟨front, arguments, rfl, hkind⟩
  have hlast : Concludes builtin kind last :=
    hreach.invariant (fun _ _ hnext hconcludes => hconcludes.advance hnext) hstart
  rcases hlast with ⟨_, _, hpending, -⟩ | ⟨-, houtcome⟩
  · rw [hframe] at hpending
    simp at hpending
  · exact houtcome

end Evaluation

end ObjectQuery
