import ObjectQuery.Context
import ObjectQuery.Proofs.Json.Equality
/-!
# What contexts hold

Cutting and filtering a context leaves some of its objects in their order. Stepping into a property
finds values that occur in the objects, all of them objects or lists, and each only once.
-/

namespace ObjectQuery

namespace Json

/-- A value occurs in another one: it is that value, or it is nested inside it at any depth. -/
inductive Within (value : Json) : Json → Prop
  | refl : Within value value
  | item {item : Json} {items : List Json} (hmem : item ∈ items) (hwithin : Within value item) :
      Within value (.array items)
  | field {name : String} {item : Json} {fields : List (String × Json)}
      (hmem : (name, item) ∈ fields) (hwithin : Within value item) : Within value (.object fields)

theorem Within.trans {inner value outer : Json} (hinner : inner.Within value)
    (houter : value.Within outer) : inner.Within outer := by
  induction houter with
  | refl => exact hinner
  | item hmem _ ih => exact .item hmem ih
  | field hmem _ ih => exact .field hmem ih

def IsComposite (value : Json) : Prop :=
  (∃ fields, value = .object fields) ∨ ∃ items, value = .array items

theorem isContainer_iff {value : Json} : Context.isContainer value = true ↔ value.IsComposite := by
  cases value <;> simp [Context.isContainer, scalar?, IsComposite]

theorem within_of_property? {name : String} {value found : Json}
    (h : value.property? name = some found) : found.Within value := by
  cases value with
  | object fields =>
      obtain ⟨before, after, hfields, -⟩ := List.lookup_eq_some_iff.1 h
      exact .field (hfields ▸ List.mem_append_cons_self) .refl
  | array items =>
      obtain ⟨index, -, hitem⟩ := Option.bind_eq_some_iff.1 h
      exact .item (List.mem_of_getElem? hitem) .refl
  | _ => cases h

theorem within_of_follow? {names : List String} {value found : Json}
    (h : value.follow? names = some found) : found.Within value := by
  induction names generalizing value with
  | nil =>
      cases h
      exact .refl
  | cons name rest ih =>
      obtain ⟨inner, hinner, hfound⟩ := Option.bind_eq_some_iff.1 h
      exact (ih hfound).trans (within_of_property? hinner)

theorem within_of_propertyPath? {path : String} {value found : Json}
    (h : value.propertyPath? path = some found) : found.Within value :=
  within_of_follow? h

end Json

namespace Context

/-! ## Repetitions -/

def Distinct (context : Context) : Prop :=
  ∀ i j (hi : i < context.length) (hj : j < context.length), i ≠ j →
    context[i].equal context[j] = false

theorem distinct_iff_pairwise {context : Context} :
    context.Distinct ↔ context.Pairwise fun x y => x.equal y = false := by
  rw [List.pairwise_iff_getElem]
  constructor
  · intro h i j hi hj hlt
    exact h i j hi hj (Nat.ne_of_lt hlt)
  · intro h i j hi hj hne
    rcases Nat.lt_or_gt_of_ne hne with hlt | hgt
    · exact h i j hi hj hlt
    · rw [Json.equal_comm]
      exact h j i hj hi hgt

theorem Distinct.sublist {context kept : Context} (h : context.Distinct)
    (hsublist : kept.Sublist context) : kept.Distinct :=
  distinct_iff_pairwise.2 ((distinct_iff_pairwise.1 h).sublist hsublist)

theorem holds_eq_false_iff {context : Context} {object : Json} :
    context.holds object = false ↔ ∀ kept ∈ context, kept.equal object = false := by
  simp [holds]

/-- Keeps an object of which there is none yet. -/
def keepNew (kept : Context) (object : Json) : Context :=
  if holds kept object then kept else kept ++ [object]

theorem keepNew_sublist (kept : Context) (object : Json) :
    (keepNew kept object).Sublist (kept ++ [object]) := by
  unfold keepNew
  split
  · exact List.sublist_append_left kept [object]
  · exact List.Sublist.refl _

theorem Distinct.keepNew {kept : Context} (h : kept.Distinct) (object : Json) :
    (keepNew kept object).Distinct := by
  unfold Context.keepNew
  split
  · exact h
  · rename_i hnew
    have hunequal := holds_eq_false_iff.1 (Bool.eq_false_iff.2 hnew)
    refine distinct_iff_pairwise.2 (List.pairwise_append.2
      ⟨distinct_iff_pairwise.1 h, List.pairwise_singleton _ _, ?_⟩)
    simpa using hunequal

theorem foldl_keepNew_sublist (kept context : Context) :
    (context.foldl keepNew kept).Sublist (kept ++ context) := by
  induction context generalizing kept with
  | nil => simp
  | cons object rest ih =>
      have hfirst : (keepNew kept object ++ rest).Sublist (kept ++ [object] ++ rest) :=
        (keepNew_sublist kept object).append_right rest
      rw [List.append_assoc] at hfirst
      exact (ih _).trans hfirst

theorem unique_sublist (context : Context) : context.unique.Sublist context :=
  foldl_keepNew_sublist [] context

theorem unique_distinct (context : Context) : context.unique.Distinct := by
  suffices ∀ kept : Context, kept.Distinct → (context.foldl keepNew kept).Distinct from
    this [] (distinct_iff_pairwise.2 .nil)
  induction context with
  | nil => exact fun _ h => h
  | cons object rest ih => exact fun kept h => ih _ (h.keepNew object)

/-! ## Cutting and filtering -/

theorem slice_sublist (start stop : Option Int64) (context : Context) :
    (context.slice start stop).Sublist context :=
  (List.drop_sublist _ _).trans (List.take_sublist _ _)

theorem getLast?_sublist (context : Context) : context.getLast?.toList.Sublist context := by
  cases hlast : context.getLast? with
  | none => exact List.nil_sublist _
  | some last => exact List.singleton_sublist.2 (List.mem_of_getLast? hlast)

theorem mem_of_at? {index : Int64} {context : Context} {object : Json}
    (h : context.at? index = some object) : object ∈ context := by
  unfold at? at h
  dsimp only at h
  split at h
  · exact List.mem_of_getElem? h
  · split at h
    · exact List.mem_of_getElem? h
    · cases h

theorem matching_sublist {config : Config} {selector : Selector} {context kept : Context}
    (h : context.matching config selector = .ok kept) : kept.Sublist context := by
  induction context generalizing kept with
  | nil =>
      cases h
      exact List.Sublist.refl _
  | cons object rest ih =>
      rw [matching] at h
      split at h
      · cases h
      · rename_i keep _
        split at h
        · cases h
        · rename_i others hothers
          cases h
          cases keep with
          | true => exact (ih hothers).cons_cons object
          | false => exact (ih hothers).cons object

/-! ## Stepping into a property -/

theorem mem_childrenOf {name : String} {object child : Json}
    (h : child ∈ childrenOf name object) : child.Within object ∧ child.IsComposite := by
  unfold childrenOf at h
  split at h
  · cases h
  · rename_i value hvalue
    obtain ⟨hmem, hcontainer⟩ := List.mem_filter.1 h
    refine ⟨?_, Json.isContainer_iff.1 hcontainer⟩
    have hproperty := Json.within_of_property? hvalue
    cases value with
    | array items => exact Json.Within.trans (.item hmem .refl) hproperty
    | _ =>
        obtain rfl := List.mem_singleton.1 hmem
        exact hproperty

/-- A child occurs in an object of the context and is an object or a list. -/
theorem mem_children {name : String} {context : Context} {child : Json}
    (h : child ∈ context.children name) :
    (∃ object ∈ context, child.Within object) ∧ child.IsComposite := by
  obtain ⟨object, hmem, hchild⟩ := List.mem_flatMap.1 ((unique_sublist _).subset h)
  obtain ⟨hwithin, hcomposite⟩ := mem_childrenOf hchild
  exact ⟨⟨object, hmem, hwithin⟩, hcomposite⟩

theorem children_distinct (name : String) (context : Context) : (context.children name).Distinct :=
  unique_distinct _

end Context

end ObjectQuery
