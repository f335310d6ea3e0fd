import Mathlib.Data.List.Induction
import ObjectQuery.Proofs.Context
import ObjectQuery.Proofs.Json.Canonical
import ObjectQuery.Proofs.Matching
/-!
# Dropping repetitions

Of equal objects the first one is left. If a test does not tell equal objects apart, it makes no
difference whether repetitions are dropped before or behind it.
-/

namespace ObjectQuery

namespace Context

theorem keepNew_of_holds {kept : Context} {object : Json} (h : kept.holds object = true) :
    keepNew kept object = kept :=
  if_pos h

theorem keepNew_of_not_holds {kept : Context} {object : Json} (h : kept.holds object = false) :
    keepNew kept object = kept ++ [object] :=
  if_neg (Bool.eq_false_iff.1 h)

theorem holds_iff {context : Context} {object : Json} :
    context.holds object = true ↔ ∃ kept ∈ context, kept.equal object = true :=
  List.any_eq_true

/-! ## The first of equal objects -/

theorem unique_append_singleton (context : Context) (object : Json) :
    unique (context ++ [object]) = keepNew context.unique object := by
  rw [unique, List.foldl_append]
  rfl

theorem holds_keepNew_iff {kept : Context} {object other : Json} :
    (keepNew kept object).holds other = true ↔
      kept.holds other = true ∨ object.equal other = true := by
  cases hholds : kept.holds object with
  | true =>
      rw [keepNew_of_holds hholds]
      refine ⟨Or.inl, fun h => h.elim id fun hequal => ?_⟩
      obtain ⟨first, hmem, hfirst⟩ := holds_iff.1 hholds
      exact holds_iff.2 ⟨first, hmem, Json.equal_trans hfirst hequal⟩
  | false =>
      rw [keepNew_of_not_holds hholds]
      simp [holds]

theorem holds_unique (context : Context) (object : Json) :
    context.unique.holds object = context.holds object := by
  induction context using List.reverseRecOn with
  | nil => rfl
  | append_singleton before last ih =>
      rw [Bool.eq_iff_iff, unique_append_singleton, holds_keepNew_iff, ih]
      simp [holds]

theorem unique_append_singleton_eq_ite (context : Context) (object : Json) :
    unique (context ++ [object]) =
      if context.holds object then context.unique else context.unique ++ [object] := by
  rw [unique_append_singleton, keepNew, holds_unique]

/-- The objects that equal none of those in front of them. -/
def firstOccurrences (context : Context) : Context :=
  (context.zipIdx.filter fun (object, index) => !holds (context.take index) object).map Prod.fst

theorem firstOccurrences_append_singleton (context : Context) (object : Json) :
    firstOccurrences (context ++ [object]) =
      if context.holds object then firstOccurrences context
      else firstOccurrences context ++ [object] := by
  have hbefore : context.zipIdx.filter
        (fun (other, index) => !holds ((context ++ [object]).take index) other) =
      context.zipIdx.filter fun (other, index) => !holds (context.take index) other := by
    apply List.filter_congr
    rintro ⟨other, index⟩ hmem
    have hle : index ≤ context.length := Nat.le_of_lt (List.mem_zipIdx' hmem).1
    simp only [List.take_append_of_le_length hle]
  unfold firstOccurrences
  rw [List.zipIdx_append, List.filter_append, hbefore, List.map_append]
  cases hholds : context.holds object <;> simp [hholds]

/-- `unique` leaves the first of equal objects, in order. -/
theorem unique_eq_firstOccurrences (context : Context) :
    context.unique = context.firstOccurrences := by
  induction context using List.reverseRecOn with
  | nil => rfl
  | append_singleton before last ih =>
      rw [unique_append_singleton_eq_ite, firstOccurrences_append_singleton, ih]

theorem Distinct.unique_eq {context : Context} (h : context.Distinct) :
    context.unique = context := by
  rw [distinct_iff_pairwise] at h
  induction context using List.reverseRecOn with
  | nil => rfl
  | append_singleton before last ih =>
      obtain ⟨hbefore, -, hlast⟩ := List.pairwise_append.1 h
      have hnew : holds before last = false :=
        holds_eq_false_iff.2 fun kept hmem => hlast kept hmem last (List.mem_singleton_self last)
      rw [unique_append_singleton_eq_ite, ih hbefore, hnew]
      rfl

/-- A context behind another one adds its first occurrences, but for those that the other holds. -/
theorem unique_append (context behind : Context) :
    unique (context ++ behind) =
      context.unique ++ behind.unique.filter fun object => !context.holds object := by
  induction behind using List.reverseRecOn with
  | nil => simp [unique]
  | append_singleton before last ih =>
      have hholds : holds (context ++ before) last = (context.holds last || holds before last) :=
        List.any_append
      rw [← List.append_assoc, unique_append_singleton_eq_ite, unique_append_singleton_eq_ite, ih,
        hholds]
      cases hcontext : context.holds last with
      | true => cases holds before last <;> simp [hcontext]
      | false => cases holds before last <;> simp [hcontext]

/-- Equality divides objects into classes, and `unique` leaves the first object of each class in
order: no two objects that are left are equal, and each object equals one of them. Nothing is left
out of such a context again, and contexts in a row are divided one after the other. -/
theorem unique_leaves_first (context : Context) :
    Equivalence (fun x y : Json => x.equal y = true) ∧
    context.unique = context.firstOccurrences ∧
    context.unique.Distinct ∧
    (∀ object ∈ context, ∃ kept ∈ context.unique, kept.equal object = true) ∧
    context.unique.Sublist context ∧
    context.unique.unique = context.unique ∧
    ∀ behind, unique (context ++ behind) =
      context.unique ++ behind.unique.filter fun object => !context.holds object := by
  refine ⟨Json.equal_equivalence, unique_eq_firstOccurrences context, unique_distinct context, ?_,
    unique_sublist context, (unique_distinct context).unique_eq, unique_append context⟩
  intro object hmem
  rw [← holds_iff, holds_unique, holds_iff]
  exact ⟨object, hmem, Json.equal_refl object⟩

def zeros : Context :=
  [.null, .float (.zero true), .float (.zero false), .null]

/-- Of two zeros the first one is left, whatever its sign. -/
theorem unique_leaves_first_zeros :
    zeros.unique = [.null, .float (.zero true)] ∧ zeros.unique.Distinct ∧
    Json.float (.zero false) ∈ zeros ∧
    ∃ kept ∈ zeros.unique, kept.equal (.float (.zero false)) = true := by
  obtain ⟨-, hfirst, hdistinct, hkept, -⟩ := unique_leaves_first zeros
  have hmem : Json.float (.zero false) ∈ zeros := by simp [zeros]
  exact ⟨hfirst.trans rfl, hdistinct, hmem, hkept _ hmem⟩

/-! ## Tests in front of and behind it -/

/-- A test tells no equal objects apart. -/
def Respects (keep : Json → Bool) (context : Context) : Prop :=
  ∀ x ∈ context, ∀ y ∈ context, x.equal y = true → keep x = keep y

theorem Respects.mono {keep : Json → Bool} {context part : Context} (h : Respects keep context)
    (hsubset : part ⊆ context) : Respects keep part :=
  fun x hx y hy => h x (hsubset hx) y (hsubset hy)

theorem filter_keepNew {keep : Json → Bool} {kept : Context} {object : Json}
    (h : Respects keep (kept ++ [object])) :
    (keepNew kept object).filter keep =
      if keep object then keepNew (kept.filter keep) object else kept.filter keep := by
  cases hholds : kept.holds object with
  | true =>
      rw [keepNew_of_holds hholds]
      obtain ⟨other, hmem, hequal⟩ := holds_iff.1 hholds
      have hsame : keep other = keep object :=
        h other (by simp [hmem]) object (by simp) hequal
      split
      · rename_i hkeep
        rw [keepNew_of_holds]
        exact holds_iff.2 ⟨other, List.mem_filter.2 ⟨hmem, hsame.trans hkeep⟩, hequal⟩
      · rfl
  | false =>
      have hnone : holds (kept.filter keep) object = false :=
        holds_eq_false_iff.2 fun other hmem =>
          holds_eq_false_iff.1 hholds other (List.mem_filter.1 hmem).1
      rw [keepNew_of_not_holds hholds, keepNew_of_not_holds hnone, List.filter_append]
      cases hkeep : keep object <;> simp [hkeep]

/-- A test that tells no equal objects apart can be made before or behind `unique`. -/
theorem filter_unique {keep : Json → Bool} {context : Context} (h : Respects keep context) :
    context.unique.filter keep = unique (context.filter keep) := by
  -- The induction is from the end, where `unique` puts a new object.
  induction context using List.reverseRecOn with
  | nil => rfl
  | append_singleton before last ih =>
      have hbefore : Respects keep before := h.mono (List.subset_append_left _ _)
      have hlast : Respects keep (unique before ++ [last]) :=
        h.mono ((unique_sublist before).append_right [last]).subset
      rw [unique_append_singleton, filter_keepNew hlast, ih hbefore, List.filter_append,
        List.filter_cons, List.filter_nil]
      split
      · rw [unique_append_singleton]
      · rw [List.append_nil]

/-! ## Selectors in front of and behind it -/

theorem Respects.any {α : Type} {keeps : α → Json → Bool} {choices : List α} {context : Context}
    (h : ∀ choice ∈ choices, Respects (keeps choice) context) :
    Respects (fun object => choices.any fun choice => keeps choice object) context := by
  intro x hx y hy hequal
  rw [Bool.eq_iff_iff, List.any_eq_true, List.any_eq_true]
  refine exists_congr fun choice => and_congr_right fun hmem => ?_
  rw [h choice hmem x hx y hy hequal]

end Context

end ObjectQuery
