import ObjectQuery.Proofs.Evaluation.ChildrenFilter
import ObjectQuery.Proofs.Evaluation.Repetitions
/-!
# Stepping into a property

A `children` with a selector finds the objects and lists that the objects of the context hold under
a property and drops repetitions among them. Only then the attribute filters of the selector are
called, one after another, and the calls behind them see what all of them left.
-/

namespace ObjectQuery

namespace Context

/-- The objects and lists that one object holds under a property: the value, or the items of a list
in their order. -/
def heldBy (name : String) (object : Json) : Context :=
  match object.property? name with
  | some (.object fields) => [.object fields]
  | some (.array items) =>
      items.filter fun item =>
        match item with
        | .object _ | .array _ => true
        | _ => false
  | _ => []

/-- What the objects of a context hold under a property, in their order and with repetitions. -/
def held (name : String) (context : Context) : Context :=
  context.flatMap (heldBy name)

theorem heldBy_eq (name : String) (object : Json) :
    heldBy name object = childrenOf name object := by
  unfold heldBy childrenOf
  cases object.property? name with
  | none => rfl
  | some value =>
      cases value with
      | array items =>
          refine List.filter_congr fun item _ => ?_
          cases item <;> rfl
      | _ => rfl

theorem held_eq (name : String) (context : Context) :
    context.held name = context.flatMap (childrenOf name) := by
  rw [held, funext (heldBy_eq name)]

theorem children_eq (name : String) (context : Context) :
    context.children name = firstOccurrences (context.held name) := by
  rw [held_eq]
  exact unique_eq_firstOccurrences _

theorem mem_getD_items?_iff {value child : Json} :
    child ∈ value.items?.getD [value] ↔
      (∃ items, value = .array items ∧ child ∈ items) ∨
        (∀ items, value ≠ .array items) ∧ child = value := by
  cases value <;> simp [Json.items?]

theorem mem_held_iff {name : String} {context : Context} {child : Json} :
    child ∈ context.held name ↔
      child.IsComposite ∧ ∃ object ∈ context, ∃ value, object.property? name = some value ∧
        ((∃ items, value = .array items ∧ child ∈ items) ∨
          (∀ items, value ≠ .array items) ∧ child = value) := by
  have hchild (object : Json) : child ∈ childrenOf name object ↔
      child.IsComposite ∧ ∃ value, object.property? name = some value ∧
        child ∈ value.items?.getD [value] := by
    unfold childrenOf
    cases object.property? name with
    | none => simp
    | some value => simp [Json.isContainer_iff, and_comm]
  simp only [held_eq, List.mem_flatMap, hchild, mem_getD_items?_iff]
  constructor
  · rintro ⟨object, hmem, hcomposite, hvalue⟩
    exact ⟨hcomposite, object, hmem, hvalue⟩
  · rintro ⟨hcomposite, object, hmem, hvalue⟩
    exact ⟨object, hmem, hcomposite, hvalue⟩

end Context

namespace Builtin

theorem misuse_of_childrenParts {text : String} {selector : Selector} {failure : Failure}
    (h : childrenParts text selector = .error failure) : ∃ cause, failure = .misuse cause := by
  unfold childrenParts at h
  split at h
  · cases h
    exact ⟨_, rfl⟩
  · split at h
    · cases h
      exact ⟨_, rfl⟩
    · split at h
      · cases h
      · cases h
        exact ⟨_, rfl⟩
  · cases h
    exact ⟨_, rfl⟩

/-- Any other selector than one filter by a property name is misused for `children`. -/
theorem childrenParts_eq_error (text : String) {selector : Selector}
    (h : ∀ name attributes, selector ≠ ⟨[⟨some (.propertyName name), attributes⟩]⟩) :
    ∃ cause, childrenParts text selector = .error (.misuse cause) := by
  cases hparts : childrenParts text selector with
  | ok parts =>
      have hfilters := filters_of_childrenParts hparts
      exact absurd (congrArg Selector.mk hfilters) (h parts.1 parts.2)
  | error failure =>
      obtain ⟨cause, rfl⟩ := misuse_of_childrenParts hparts
      exact ⟨cause, rfl⟩

theorem run_children {text : String} (htext : text ≠ "") {context : Context}
    (hcontext : context ≠ []) (config : Config) (pending : List Call) :
    children.run config [.string text] ⟨context, pending⟩ =
      match Selector.parse text with
      | .error error => .error (.selector error)
      | .ok selector => (childrenParts text selector).map fun (name, attributes) =>
          (none, ⟨context.children name,
            attributes.map (fun condition => filterCall condition.text) ++ pending⟩) := by
  have hisEmpty : context.isEmpty = false := by simpa using hcontext
  simp only [run, runChildren, hisEmpty, Bool.false_eq_true, if_false, childrenSelector_own htext,
    bind, Except.bind, readSelector]
  cases Selector.parse text with
  | error error => rfl
  | ok selector => cases childrenParts text selector <;> rfl

end Builtin

namespace Evaluation

open Builtin

variable {config : Config} {text : String} {progress : Progress} {rest : List Call}

theorem advance_childrenCall {name : String} {attributes : List AttributeFilter} (htext : text ≠ "")
    (hparse : Selector.parse text = .ok ⟨[⟨some (.propertyName name), attributes⟩]⟩)
    (hpending : progress.frame.pending = ⟨"children", [.string text]⟩ :: rest)
    (hcontext : progress.frame.context ≠ [])
    (hbound : exhausts config progress.executed = none) :
    advance (.builtin config) progress =
      .ok ⟨⟨progress.frame.context.children name,
          attributes.map (fun condition => filterCall condition.text) ++ rest⟩,
        none, progress.executed + 1, progress.journal⟩ := by
  have hrun := run_children htext hcontext config rest
  rw [hparse] at hrun
  exact advance_builtin_of_ok hrun hpending hbound

theorem reaches_of_childrenCall {name : String} {attributes : List AttributeFilter}
    (htext : text ≠ "")
    (hparse : Selector.parse text = .ok ⟨[⟨some (.propertyName name), attributes⟩]⟩)
    (hpending : progress.frame.pending = ⟨"children", [.string text]⟩ :: rest)
    (hcontext : progress.frame.context ≠ []) (hbound : config.maxOperations = none) :
    Reaches (.builtin config) progress
      ⟨⟨(progress.frame.context.children name).filter
          fun child => attributes.all (·.holds config child), rest⟩,
        none, progress.executed + 1 + attributes.length, progress.journal⟩ := by
  have hadvance := advance_childrenCall htext hparse hpending hcontext
    (exhausts_of_unbounded hbound progress.executed)
  obtain ⟨-, hwell, -⟩ := Selector.selectorText_iff.1
    (Selector.parse_eq_ok_iff_selectorText.1 hparse)
  have hconditions : ∀ condition ∈ attributes,
      condition.text ≠ "" ∧ Selector.parse condition.text = .ok ⟨[⟨none, [condition]⟩]⟩ := by
    intro condition hmem
    have hcondition := (hwell _ List.mem_cons_self).2 condition hmem
    exact ⟨Selector.text_ne_empty_of_wellFormed hcondition,
      Selector.parse_text_of_wellFormed hcondition⟩
  -- The queued calls see the context that `children` left, and nothing behind them.
  have hlimit : ∀ limit ∈ config.maxOperations,
      progress.executed + 1 + attributes.length ≤ limit.toNat := by
    simp [hbound]
  exact .step hadvance (reaches_filterCalls
    ⟨⟨progress.frame.context.children name, rest⟩, none, progress.executed + 1, progress.journal⟩
    rest hconditions (fun _ => rfl) hlimit)

theorem drain_childrenCall_of_error {error : Selector.SyntaxError} (htext : text ≠ "")
    (hparse : Selector.parse text = .error error)
    (hpending : progress.frame.pending = ⟨"children", [.string text]⟩ :: rest)
    (hcontext : progress.frame.context ≠ []) (hbound : config.maxOperations = none) :
    drain (.builtin config) progress =
      some ⟨.error (.selector error), progress.executed + 1, progress.journal.reverse⟩ := by
  have hrun := run_children htext hcontext config rest
  rw [hparse] at hrun
  exact drain_of_advance_error
    (advance_builtin_of_error hrun hpending (exhausts_of_unbounded hbound _))

theorem drain_childrenCall_of_misuse {selector : Selector} (htext : text ≠ "")
    (hparse : Selector.parse text = .ok selector)
    (hselector : ∀ name attributes, selector ≠ ⟨[⟨some (.propertyName name), attributes⟩]⟩)
    (hpending : progress.frame.pending = ⟨"children", [.string text]⟩ :: rest)
    (hcontext : progress.frame.context ≠ []) (hbound : config.maxOperations = none) :
    ∃ cause, drain (.builtin config) progress =
      some ⟨.error (.misuse cause), progress.executed + 1, progress.journal.reverse⟩ := by
  obtain ⟨cause, hparts⟩ := childrenParts_eq_error text hselector
  have hrun := run_children htext hcontext config rest
  simp only [hparse, hparts] at hrun
  exact ⟨cause, drain_of_advance_error
    (advance_builtin_of_error hrun hpending (exhausts_of_unbounded hbound _))⟩

/-- What `children` with a selector does, wherever it is called in a context with objects and
without a bound. With one filter by a property name, what the objects hold under the property is
left, the first of equal values each, as far as it satisfies the attribute filters. If they do not
take the texts of different zeros in equal values, this is the first each of those that satisfy
them. With a text that is no selector, and with any other selector, the evaluation fails. -/
theorem children_keeps_held (hbound : config.maxOperations = none) (htext : text ≠ "")
    {context : Context} (hcontext : context ≠ [])
    (hframe : progress.frame = ⟨context, ⟨"children", [.string text]⟩ :: rest⟩) :
    (∀ name attributes,
      Selector.parse text = .ok ⟨[⟨some (.propertyName name), attributes⟩]⟩ →
      Reaches (.builtin config) progress
        ⟨⟨(Context.firstOccurrences (context.held name)).filter
            fun child => attributes.all (·.holds config child), rest⟩,
          none, progress.executed + 1 + attributes.length, progress.journal⟩ ∧
      (∀ child, child ∈ context.held name ↔
        child.IsComposite ∧ ∃ object ∈ context, ∃ value, object.property? name = some value ∧
          ((∃ items, value = .array items ∧ child ∈ items) ∨
            (∀ items, value ≠ .array items) ∧ child = value)) ∧
      ((∀ x ∈ context.held name, ∀ y ∈ context.held name, x.equal y = true →
          ∀ condition ∈ attributes, ¬ condition.TellsZerosApart x y) →
        (Context.firstOccurrences (context.held name)).filter
            (fun child => attributes.all (·.holds config child)) =
          Context.firstOccurrences ((context.held name).filter
            fun child => attributes.all (·.holds config child)))) ∧
    (∀ error, Selector.parse text = .error error →
      drain (.builtin config) progress =
        some ⟨.error (.selector error), progress.executed + 1, progress.journal.reverse⟩) ∧
    ∀ selector, Selector.parse text = .ok selector →
      (∀ name attributes, selector ≠ ⟨[⟨some (.propertyName name), attributes⟩]⟩) →
      ∃ cause, drain (.builtin config) progress =
        some ⟨.error (.misuse cause), progress.executed + 1, progress.journal.reverse⟩ := by
  have hpending : progress.frame.pending = ⟨"children", [.string text]⟩ :: rest :=
    congrArg Frame.pending hframe
  obtain rfl : progress.frame.context = context := congrArg Frame.context hframe
  refine ⟨fun name attributes hparse => ⟨?_, fun child => Context.mem_held_iff, ?_⟩, ?_, ?_⟩
  · rw [← Context.children_eq]
    exact reaches_of_childrenCall htext hparse hpending hcontext hbound
  · intro hzeros
    have hrespects : Context.Respects (fun child => attributes.all (·.holds config child))
        (progress.frame.context.held name) := fun x hx y hy hequal =>
      AttributeFilter.all_holds_congr hequal (hzeros x hx y hy hequal) config
    rw [← Context.unique_eq_firstOccurrences, ← Context.unique_eq_firstOccurrences,
      Context.filter_unique hrespects]
  · exact fun error hparse => drain_childrenCall_of_error htext hparse hpending hcontext hbound
  · exact fun selector hparse hselector =>
      drain_childrenCall_of_misuse htext hparse hselector hpending hcontext hbound

def stocked : Json :=
  .object [("parts", .array [sized, .integer 1, unsized, sized, .array []])]

def withSize : AttributeFilter :=
  ⟨some "size", none, "[size]"⟩

/-- The part with a size is left, once. A bracket alone is no selector, and an identifier is none
for `children`. -/
theorem children_keeps_held_parts :
    (Reaches (.builtin { maxOperations := none })
        (start [stocked] [⟨"children", [.string "parts[size]"]⟩, ⟨"count", []⟩])
        ⟨⟨[sized], [⟨"count", []⟩]⟩, none, 2, []⟩ ∧
      [sized] = Context.firstOccurrences [sized, sized]) ∧
    drain (.builtin { maxOperations := none })
        (start [stocked] [⟨"children", [.string "["]⟩]) =
      some ⟨.error (.selector ⟨"[", 1⟩), 1, []⟩ ∧
    ∃ cause, drain (.builtin { maxOperations := none })
        (start [stocked] [⟨"children", [.string "#7"]⟩]) =
      some ⟨.error (.misuse cause), 1, []⟩ := by
  have hread : Selector.parse "parts[size]" =
      .ok ⟨[⟨some (.propertyName "parts"), [withSize]⟩]⟩ := by
    rw [Selector.parse_eq]
    decide +kernel
  have hbracket : Selector.parse "[" = .error ⟨"[", 1⟩ := by
    rw [Selector.parse_eq]
    decide +kernel
  have hidentifier : Selector.parse "#7" = .ok ⟨[⟨some (.identifier "7"), []⟩]⟩ := by
    rw [Selector.parse_eq]
    decide +kernel
  have hbound : ({ maxOperations := none } : Config).maxOperations = none := rfl
  have hcontext : [stocked] ≠ [] := List.cons_ne_nil _ _
  have hframe (text : String) (rest : List Call) :
      (start [stocked] (⟨"children", [.string text]⟩ :: rest)).frame =
        ⟨[stocked], ⟨"children", [.string text]⟩ :: rest⟩ := rfl
  obtain ⟨hsteps, -, -⟩ := children_keeps_held hbound (by decide) hcontext
    (hframe "parts[size]" [⟨"count", []⟩])
  obtain ⟨-, hfails, -⟩ := children_keeps_held hbound (by decide) hcontext (hframe "[" [])
  obtain ⟨-, -, hmisused⟩ := children_keeps_held hbound (by decide) hcontext (hframe "#7" [])
  obtain ⟨hreach, -, hfirst⟩ := hsteps _ _ hread
  have hheld : Context.held "parts" [stocked] = [sized, unsized, sized, .array []] := rfl
  have hoccurrences : Context.firstOccurrences [sized, unsized, sized, .array []] =
      [sized, unsized, .array []] := rfl
  have hsized : withSize.holds { maxOperations := none } sized = true := by decide +kernel
  have hunsized : withSize.holds { maxOperations := none } unsized = false := by decide +kernel
  have hempty : withSize.holds { maxOperations := none } (.array []) = false := by decide +kernel
  have hzeros : ∀ x ∈ Context.held "parts" [stocked], ∀ y ∈ Context.held "parts" [stocked],
      x.equal y = true → ∀ condition ∈ [withSize], ¬ condition.TellsZerosApart x y := by
    rintro x - y - - condition hmem ⟨test, htest, -⟩
    obtain rfl := List.mem_singleton.1 hmem
    cases htest
  have hkept := hfirst hzeros
  rw [hheld, hoccurrences] at hreach hkept
  simp only [List.filter_cons, List.filter_nil, List.all_cons, List.all_nil, hsized, hunsized,
    hempty, Bool.and_true, Bool.false_eq_true, if_true, if_false] at hreach hkept
  exact ⟨⟨hreach, hkept⟩, hfails _ hbracket, hmisused _ hidentifier (by simp)⟩

/-- Repetitions are dropped before the attribute filters are called. So a negative zero is lost that
satisfies them, for a positive zero that does not. -/
theorem children_keeps_first_held :
    (run (.builtin { maxOperations := none })
        [.object [("p", .array [positiveZero, negativeZero])]]
        [⟨"children", [.string "p[a^='-']"]⟩]).result = .ok ([], none) ∧
    Selector.parse "p[a^='-']" = .ok ⟨[⟨some (.propertyName "p"), signed.attributes⟩]⟩ ∧
    negativeZero.IsComposite ∧
    (Json.object [("p", .array [positiveZero, negativeZero])]).property? "p" =
      some (.array [positiveZero, negativeZero]) ∧
    signed.attributes.all (·.holds { maxOperations := none } negativeZero) = true := by
  have htext : "p[a^='-']" ≠ "" := by decide
  have hread : Selector.parse "p[a^='-']" =
      .ok ⟨[⟨some (.propertyName "p"), signed.attributes⟩]⟩ := by
    rw [Selector.parse_eq]
    decide +kernel
  refine ⟨?_, hread, Or.inl ⟨_, rfl⟩, rfl, by decide +kernel⟩
  have hreach : Reaches (.builtin { maxOperations := none })
      (start [.object [("p", .array [positiveZero, negativeZero])]]
        [⟨"children", [.string "p[a^='-']"]⟩])
      ⟨⟨[positiveZero].filter fun child =>
        signed.attributes.all (·.holds { maxOperations := none } child), []⟩, none, 2, []⟩ :=
    reaches_of_childrenCall htext hread rfl (List.cons_ne_nil _ _) rfl
  have hlost : signed.attributes.all (·.holds { maxOperations := none } positiveZero) = false := by
    decide +kernel
  rw [List.filter_cons, hlost] at hreach
  rw [run_result, hreach.drain_eq, drain_of_advance_error (advance_nil rfl)]
  rfl

end Evaluation

end ObjectQuery
