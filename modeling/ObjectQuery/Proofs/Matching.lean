import ObjectQuery.Context
/-!
# What a selector keeps

An object matches a selector if one of its filters accepts it. A filter by a path or by a property
name accepts nothing and refuses to be asked, so the filters in front of the first such one decide:
an object that they accept is kept, and any other one is a misuse of the selector.
-/

namespace ObjectQuery

namespace Filter

/-- Why the filter cannot be asked of an object, if it cannot. -/
def refusal? (filter : Filter) : Option Misuse :=
  match filter.primary with
  | some (.propertyName _) => some .propertyNameOfObject
  | some (.path _) => some .pathOfObject
  | _ => none

/-- Whether an object has the identifier of the filter, if there is one, and satisfies all attribute
filters. -/
def accepts (config : Config) (filter : Filter) (object : Json) : Bool :=
  filter.identifier?.all (fun name => object.identifier? config == some name) &&
    filter.attributes.all (·.holds config object)

variable {config : Config} {filter : Filter}

theorem matchesObject_of_refusal {cause : Misuse} (h : filter.refusal? = some cause)
    (object : Json) : filter.matchesObject config object = .error (.misuse cause) := by
  obtain ⟨primary, attributes⟩ := filter
  cases primary with
  | none => cases h
  | some found =>
      cases found with
      | identifier name => cases h
      | propertyName name =>
          cases h
          rfl
      | path path =>
          cases h
          rfl

theorem matchesObject_of_askable (h : filter.refusal? = none) (object : Json) :
    filter.matchesObject config object = .ok (filter.accepts config object) := by
  obtain ⟨primary, attributes⟩ := filter
  cases primary with
  | none => rfl
  | some found =>
      cases found with
      | identifier name => rfl
      | propertyName name => cases h
      | path path => cases h

theorem accepts_of_primary_eq_none (h : filter.primary = none) (object : Json) :
    filter.accepts config object = filter.attributes.all (·.holds config object) := by
  simp [accepts, identifier?, h]

end Filter

namespace Selector

/-- The filters in front of the first one that cannot be asked of an object. -/
def askable (selector : Selector) : List Filter :=
  selector.filters.takeWhile fun filter => filter.refusal?.isNone

def refusal? (selector : Selector) : Option Misuse :=
  selector.filters.findSome? Filter.refusal?

variable {config : Config} {selector : Selector}

/-- The filters of which an object can be asked accept it, or else the refusal decides. -/
theorem anyMatches_eq (object : Json) (filters : List Filter) :
    anyMatches config object filters =
      if askable ⟨filters⟩ |>.any (·.accepts config object) then .ok true
      else
        match refusal? ⟨filters⟩ with
        | some cause => .error (.misuse cause)
        | none => .ok false := by
  induction filters with
  | nil => rfl
  | cons filter rest ih =>
      cases hrefusal : filter.refusal? with
      | some cause =>
          simp [anyMatches, Filter.matchesObject_of_refusal hrefusal, askable, refusal?, hrefusal]
      | none =>
          have haskable : askable ⟨filter :: rest⟩ = filter :: askable ⟨rest⟩ := by
            simp [askable, hrefusal]
          have hrest : refusal? ⟨filter :: rest⟩ = refusal? ⟨rest⟩ := by
            simp [refusal?, hrefusal]
          rw [anyMatches, Filter.matchesObject_of_askable hrefusal, haskable, hrest, List.any_cons]
          cases filter.accepts config object with
          | true => rfl
          | false => exact ih

theorem matchesObject_of_accepted {object : Json} {filter : Filter}
    (hmem : filter ∈ selector.askable) (h : filter.accepts config object = true) :
    selector.matchesObject config object = .ok true := by
  have hany : selector.askable.any (·.accepts config object) = true :=
    List.any_eq_true.2 ⟨filter, hmem, h⟩
  rw [matchesObject, anyMatches_eq, if_pos hany]

theorem matchesObject_of_refusal {object : Json} {cause : Misuse}
    (hrefusal : selector.refusal? = some cause)
    (h : ∀ filter ∈ selector.askable, filter.accepts config object = false) :
    selector.matchesObject config object = .error (.misuse cause) := by
  have hany : ¬ selector.askable.any (·.accepts config object) = true := by
    simpa using h
  rw [matchesObject, anyMatches_eq, if_neg hany]
  simp only [hrefusal]

theorem matchesObject_of_askable (hrefusal : selector.refusal? = none) (object : Json) :
    selector.matchesObject config object =
      .ok (selector.askable.any (·.accepts config object)) := by
  rw [matchesObject, anyMatches_eq]
  simp only [hrefusal]
  cases selector.askable.any (·.accepts config object) <;> rfl

theorem askable_singleton {filter : Filter} (h : filter.refusal? = none) :
    askable ⟨[filter]⟩ = [filter] := by
  simp [askable, h]

end Selector

namespace Context

variable {config : Config} {selector : Selector}

theorem matching_eq_ok {context : Context} {keep : Json → Bool}
    (h : ∀ object ∈ context, selector.matchesObject config object = .ok (keep object)) :
    context.matching config selector = .ok (context.filter keep) := by
  induction context with
  | nil => rfl
  | cons object rest ih =>
      obtain ⟨hobject, hrest⟩ := List.forall_mem_cons.1 h
      rw [matching, hobject, ih hrest, List.filter_cons]

theorem matching_eq_error {context : Context} {failure : Failure}
    (h : ∀ object ∈ context, selector.matchesObject config object = .ok true ∨
      selector.matchesObject config object = .error failure)
    (hfails : ∃ object ∈ context, selector.matchesObject config object = .error failure) :
    context.matching config selector = .error failure := by
  induction context with
  | nil =>
      obtain ⟨object, hmem, -⟩ := hfails
      cases hmem
  | cons object rest ih =>
      obtain ⟨hobject, hrest⟩ := List.forall_mem_cons.1 h
      rcases hobject with hmatches | hrefused
      · have hlater : ∃ other ∈ rest, selector.matchesObject config other = .error failure := by
          obtain ⟨other, hmem, hother⟩ := hfails
          rcases List.mem_cons.1 hmem with rfl | hmem
          · rw [hmatches] at hother
            cases hother
          · exact ⟨other, hmem, hother⟩
        rw [matching, hmatches, ih hrest hlater]
      · rw [matching, hrefused]

/-- An object that no filter in front of the refusal accepts makes the selector fail. -/
theorem matching_of_refusal {context : Context} {cause : Misuse}
    (hrefusal : selector.refusal? = some cause)
    (h : ∃ object ∈ context, ∀ filter ∈ selector.askable, filter.accepts config object = false) :
    context.matching config selector = .error (.misuse cause) := by
  apply matching_eq_error
  · intro object _
    by_cases haccepted : ∃ filter ∈ selector.askable, filter.accepts config object = true
    · obtain ⟨filter, hmem, hfilter⟩ := haccepted
      exact Or.inl (Selector.matchesObject_of_accepted hmem hfilter)
    · refine Or.inr (Selector.matchesObject_of_refusal hrefusal fun filter hmem => ?_)
      exact Bool.eq_false_iff.2 fun hfilter => haccepted ⟨filter, hmem, hfilter⟩
  · obtain ⟨object, hmem, hobject⟩ := h
    exact ⟨object, hmem, Selector.matchesObject_of_refusal hrefusal hobject⟩

/-- Where a filter in front of the refusal accepts every object, the objects that such a filter
accepts are left, each as often as it was there. -/
theorem matching_of_accepted {context : Context}
    (h : selector.refusal? = none ∨
      ∀ object ∈ context, ∃ filter ∈ selector.askable, filter.accepts config object = true) :
    context.matching config selector =
      .ok (context.filter fun object => selector.askable.any (·.accepts config object)) := by
  apply matching_eq_ok
  intro object hmem
  rcases h with hrefusal | haccepted
  · exact Selector.matchesObject_of_askable hrefusal object
  · obtain ⟨filter, hfilter, haccepts⟩ := haccepted object hmem
    rw [Selector.matchesObject_of_accepted hfilter haccepts,
      List.any_eq_true.2 ⟨filter, hfilter, haccepts⟩]

end Context

end ObjectQuery
