import ObjectQuery.Proofs.Context
import ObjectQuery.Proofs.Evaluation.Builtins
import ObjectQuery.Proofs.Selector.Rules
/-!
# Nothing is invented

A built-in operation selects some objects of its context or steps into a property of them, and an
outcome tells about the objects of the context. So what a whole evaluation finds occurs in the
context that it starts from.
-/

namespace ObjectQuery

namespace Outcome

def contents : Outcome → List Json
  | .objects context => context
  | .object value => value.toList
  | .count _ => []
  | .bool _ => []

end Outcome

namespace Context

/-- All are objects or lists, and no two are equal. -/
structure Settled (context : Context) : Prop where
  composite : ∀ object ∈ context, object.IsComposite
  distinct : context.Distinct

theorem Settled.sublist {context kept : Context} (h : context.Settled)
    (hsublist : kept.Sublist context) : kept.Settled :=
  ⟨fun object hmem => h.composite object (hsublist.subset hmem), h.distinct.sublist hsublist⟩

theorem children_settled (context : Context) (name : String) : (context.children name).Settled :=
  ⟨fun _ hmem => (mem_children hmem).2, children_distinct name context⟩

end Context

namespace Builtin

/-- The outcome that a built-in operation gives in a context, and the context that it leaves. -/
inductive Draws (context : Context) : Builtin → Option Outcome → Context → Prop
  /-- Some objects are kept. `children` keeps them only if there are none. -/
  | selected {builtin : Builtin} {kept : Context} (hkept : kept.Sublist context)
      (hchildren : builtin = .children → context = []) : Draws context builtin none kept
  | stepped (name : String) : Draws context .children none (context.children name)
  | taken : Draws context .get (some (.objects context)) []
  | found {builtin : Builtin} {value : Option Json} (hbuiltin : builtin ≠ .children)
      (hvalue : ∀ found ∈ value, ∃ object ∈ context, found.Within object) :
      Draws context builtin (some (.object value)) context
  | counted : Draws context .count (some (.count context.length)) context
  | asked : Draws context .is (some (.bool !context.isEmpty)) context

theorem draws_of_runChildren {arguments : List Json} {frame next : Frame}
    {outcome : Option Outcome} (h : runChildren arguments frame = .ok (outcome, next)) :
    Draws frame.context .children outcome next.context := by
  unfold runChildren at h
  by_cases hempty : frame.context.isEmpty
  · rw [if_pos hempty] at h
    cases h
    exact .selected (List.Sublist.refl _) fun _ => List.isEmpty_iff.1 hempty
  · rw [if_neg hempty] at h
    obtain ⟨⟨text, behind⟩, -, hrest⟩ := bind_eq_ok h
    obtain ⟨selector, -, hrest⟩ := bind_eq_ok hrest
    obtain ⟨⟨name, attributes⟩, -, hrest⟩ := bind_eq_ok hrest
    cases hrest
    exact .stepped name

theorem within_of_head?_bind {context : Context} {path : String} {found : Json}
    (h : found ∈ context.head?.bind (Json.propertyPath? path)) :
    ∃ object ∈ context, found.Within object := by
  obtain ⟨object, hhead, hfound⟩ := Option.bind_eq_some_iff.1 h
  exact ⟨object, List.mem_of_head? hhead, Json.within_of_propertyPath? hfound⟩

theorem draws_of_run {config : Config} {arguments : List Json} {frame next : Frame}
    {outcome : Option Outcome} {builtin : Builtin}
    (h : builtin.run config arguments frame = .ok (outcome, next)) :
    Draws frame.context builtin outcome next.context := by
  cases builtin with
  | count =>
      obtain ⟨selector, -, hrest⟩ := bind_eq_ok h
      cases selector <;> cases hrest
      · exact .counted
      · exact .selected (List.Sublist.refl _) nofun
  | is =>
      obtain ⟨selector, -, hrest⟩ := bind_eq_ok h
      cases selector <;> cases hrest
      · exact .asked
      · exact .selected (List.Sublist.refl _) nofun
  | get =>
      obtain ⟨index, -, hrest⟩ := bind_eq_ok h
      cases index <;> cases hrest
      · exact .taken
      · refine .found nofun fun found hfound => ?_
        exact ⟨found, Context.mem_of_at? hfound, .refl⟩
  | property =>
      obtain ⟨path, -, hrest⟩ := bind_eq_ok h
      cases hrest
      exact .found nofun fun found hfound => within_of_head?_bind hfound
  | first =>
      cases h
      exact .selected (List.take_sublist _ _) nofun
  | last =>
      cases h
      exact .selected (Context.getLast?_sublist _) nofun
  | slice =>
      obtain ⟨start, -, hrest⟩ := bind_eq_ok h
      obtain ⟨stop, -, hrest⟩ := bind_eq_ok hrest
      cases hrest
      exact .selected (Context.slice_sublist _ _ _) nofun
  | unique =>
      cases h
      exact .selected (Context.unique_sublist _) nofun
  | filter =>
      obtain ⟨selector, -, hrest⟩ := bind_eq_ok h
      cases selector with
      | none =>
          cases hrest
          exact .selected (List.Sublist.refl _) nofun
      | some text =>
          obtain ⟨selector, -, hrest⟩ := bind_eq_ok hrest
          obtain ⟨kept, hkept, hrest⟩ := bind_eq_ok hrest
          cases hrest
          exact .selected (Context.matching_sublist hkept) nofun
  | children => exact draws_of_runChildren h

/-- What an operation leaves and gives occurs in its context. -/
theorem Draws.within {context next : Context} {outcome : Option Outcome} {builtin : Builtin}
    (h : Draws context builtin outcome next) {value : Json}
    (hmem : value ∈ next ++ outcome.elim [] Outcome.contents) :
    ∃ object ∈ context, value.Within object := by
  have hkept {kept : Context} (hsublist : kept.Sublist context) (hvalue : value ∈ kept) :
      ∃ object ∈ context, value.Within object := ⟨value, hsublist.subset hvalue, .refl⟩
  cases h with
  | selected hsublist =>
      rw [Option.elim_none, List.append_nil] at hmem
      exact hkept hsublist hmem
  | stepped name =>
      rw [Option.elim_none, List.append_nil] at hmem
      exact (Context.mem_children hmem).1
  | taken => exact hkept (List.Sublist.refl _) hmem
  | found _ hvalue =>
      rcases List.mem_append.1 hmem with hrest | hfound
      · exact hkept (List.Sublist.refl _) hrest
      · exact hvalue value (Option.mem_toList.1 hfound)
  | counted =>
      rcases List.mem_append.1 hmem with hrest | hnone
      · exact hkept (List.Sublist.refl _) hrest
      · cases hnone
  | asked =>
      rcases List.mem_append.1 hmem with hrest | hnone
      · exact hkept (List.Sublist.refl _) hrest
      · cases hnone

/-- No other operation than `children` steps into a property. -/
theorem Draws.sublist {context next : Context} {outcome : Option Outcome} {builtin : Builtin}
    (h : Draws context builtin outcome next) (hbuiltin : builtin ≠ .children) :
    next.Sublist context := by
  cases h with
  | selected hsublist => exact hsublist
  | stepped name => exact absurd rfl hbuiltin
  | taken => exact List.nil_sublist _
  | _ => exact List.Sublist.refl _

theorem Draws.settled {context next : Context} {outcome : Option Outcome} {builtin : Builtin}
    (h : Draws context builtin outcome next) (hcontext : context.Settled) : next.Settled := by
  by_cases hbuiltin : builtin = .children
  · subst hbuiltin
    cases h with
    | selected hsublist => exact hcontext.sublist hsublist
    | stepped name => exact context.children_settled name
    | found hne => exact absurd rfl hne
  · exact hcontext.sublist (h.sublist hbuiltin)

theorem Draws.settled_of_ne_nil {context next : Context} {outcome : Option Outcome}
    (h : Draws context .children outcome next) (hne : context ≠ []) :
    next.Settled ∧ outcome = none := by
  cases h with
  | selected _ hempty => exact absurd (hempty rfl) hne
  | stepped name => exact ⟨context.children_settled name, rfl⟩
  | found hbuiltin => exact absurd rfl hbuiltin

theorem Draws.objects_sublist {context next objects : Context} {builtin : Builtin}
    (h : Draws context builtin (some (.objects objects)) next) : objects.Sublist context := by
  cases h
  exact List.Sublist.refl _

theorem Draws.count_eq {context next : Context} {n : Nat} {builtin : Builtin}
    (h : Draws context builtin (some (.count n)) next) : n = context.length := by
  cases h
  rfl

end Builtin

namespace Evaluation

open Builtin

variable {config : Config} {context : Context}

theorem exists_draws_of_advance_ok {progress next : Progress}
    (h : advance (.builtin config) progress = .ok next) :
    ∃ builtin arguments rest,
      progress.frame.pending = ⟨Builtin.name builtin, arguments⟩ :: rest ∧
      Draws progress.frame.context builtin next.outcome next.frame.context ∧
      Leaves arguments rest builtin next.frame.pending := by
  obtain ⟨builtin, arguments, rest, hpending, hrun, -⟩ := exists_builtin_of_advance_ok h
  have hdraws : Draws progress.frame.context builtin next.outcome next.frame.context :=
    @draws_of_run config arguments ⟨progress.frame.context, rest⟩ _ _ _ hrun
  exact ⟨builtin, arguments, rest, hpending, hdraws, leaves_of_run hrun⟩

/-! ## What occurs in the starting context -/

/-- All objects of the context and all values given occur in the objects of a context. -/
def Rooted (context : Context) (progress : Progress) : Prop :=
  ∀ value ∈ progress.frame.context ++ progress.outcome.elim [] Outcome.contents,
    ∃ source ∈ context, value.Within source

theorem Rooted.advance {progress next : Progress}
    (hnext : advance (.builtin config) progress = .ok next) (h : Rooted context progress) :
    Rooted context next := by
  obtain ⟨builtin, arguments, rest, -, hdraws, -⟩ := exists_draws_of_advance_ok hnext
  intro value hmem
  obtain ⟨object, hobject, hwithin⟩ := hdraws.within hmem
  obtain ⟨source, hsource, houter⟩ := h object (List.mem_append_left _ hobject)
  exact ⟨source, hsource, hwithin.trans houter⟩

theorem rooted_start (context : Context) (calls : List Call) :
    Rooted context (start context calls) := by
  intro value hmem
  exact ⟨value, (List.append_nil context) ▸ hmem, .refl⟩

/-! ## What is left without `children` -/

/-- No `children` is left to call, and what is there are objects of a context in their order. -/
structure Selects (context : Context) (progress : Progress) : Prop where
  pending : ∀ call ∈ progress.frame.pending, call.name ≠ children.name
  kept : progress.frame.context.Sublist context
  given : ∀ objects : Context, progress.outcome = some (.objects objects) → objects.Sublist context
  counted : ∀ n, progress.outcome = some (.count n) → n ≤ context.length

theorem filter_name_ne : filter.name ≠ children.name := by
  decide

theorem name_ne_of_leaves {builtin : Builtin} {arguments : List Json} {pending next : List Call}
    (h : Leaves arguments pending builtin next) (hbuiltin : builtin ≠ .children)
    (hpending : ∀ call ∈ pending, call.name ≠ children.name) :
    ∀ call ∈ next, call.name ≠ children.name := by
  cases h with
  | same => exact hpending
  | filtering =>
      refine List.forall_mem_cons.2 ⟨filter_name_ne, List.forall_mem_cons.2 ⟨?_, hpending⟩⟩
      exact fun hname => hbuiltin (name_injective hname)
  | stepping => exact absurd rfl hbuiltin

theorem Selects.advance {progress next : Progress}
    (hnext : advance (.builtin config) progress = .ok next) (h : Selects context progress) :
    Selects context next := by
  obtain ⟨builtin, arguments, rest, hpending, hdraws, hleaves⟩ := exists_draws_of_advance_ok hnext
  obtain ⟨hname, hrest⟩ := List.forall_mem_cons.1 (hpending ▸ h.pending)
  have hbuiltin : builtin ≠ .children := fun heq => hname (congrArg Builtin.name heq)
  refine ⟨name_ne_of_leaves hleaves hbuiltin hrest, (hdraws.sublist hbuiltin).trans h.kept, ?_, ?_⟩
  · intro objects houtcome
    exact (houtcome ▸ hdraws).objects_sublist.trans h.kept
  · intro n houtcome
    have hcount := (houtcome ▸ hdraws).count_eq
    exact hcount ▸ h.kept.length_le

theorem selects_start {calls : List Call} (h : ∀ call ∈ calls, call.name ≠ children.name) :
    Selects context (start context calls) :=
  ⟨h, List.Sublist.refl _, nofun, nofun⟩

/-! ## What is left behind `children` -/

/-- The objects of the context and those given are objects or lists without repetitions. -/
structure Settles (progress : Progress) : Prop where
  kept : progress.frame.context.Settled
  given : ∀ objects : Context, progress.outcome = some (.objects objects) → objects.Settled

theorem Settles.advance {progress next : Progress}
    (hnext : advance (.builtin config) progress = .ok next) (h : Settles progress) :
    Settles next := by
  obtain ⟨builtin, arguments, rest, -, hdraws, -⟩ := exists_draws_of_advance_ok hnext
  exact ⟨hdraws.settled h.kept,
    fun objects houtcome => h.kept.sublist (houtcome ▸ hdraws).objects_sublist⟩

/-- A `children` that is called in a context with objects settles it. -/
theorem settles_of_children {progress next : Progress} {arguments : List Json} {rest : List Call}
    (hnext : advance (.builtin config) progress = .ok next)
    (hpending : progress.frame.pending = ⟨children.name, arguments⟩ :: rest)
    (hcontext : progress.frame.context ≠ []) : Settles next := by
  obtain ⟨builtin, given, behind, hcalled, hdraws, -⟩ := exists_draws_of_advance_ok hnext
  have hname : builtin.name = children.name :=
    congrArg Call.name (List.cons.inj (hcalled.symm.trans hpending)).1
  obtain rfl := name_injective hname
  obtain ⟨hsettled, houtcome⟩ := hdraws.settled_of_ne_nil hcontext
  refine ⟨hsettled, fun objects hobjects => ?_⟩
  rw [houtcome] at hobjects
  cases hobjects

/-- An evaluation with the built-in operations that succeeds invents nothing. All objects that it
leaves, and all values that it gives, occur in the objects of the starting context. Without
`children` in the queue it leaves and gives objects of the starting context in their order, none
more often than it was there, and counts no more than there are. If a `children` was called when
there were objects, what it leaves and gives are objects or lists, and no two of them are equal. -/
theorem run_builtin_invents_nothing {final : Context} {calls : List Call}
    {outcome : Option Outcome}
    (h : (run (.builtin config) context calls).result = .ok (final, outcome)) :
    (∀ value ∈ final ++ outcome.elim [] Outcome.contents,
      ∃ source ∈ context, value.Within source) ∧
    ((∀ call ∈ calls, call.name ≠ "children") →
      final.Sublist context ∧
      (∀ objects : Context, outcome = some (.objects objects) → objects.Sublist context) ∧
      ∀ n, outcome = some (.count n) → n ≤ context.length) ∧
    ∀ progress arguments rest, Reaches (.builtin config) (start context calls) progress →
      progress.frame.pending = ⟨"children", arguments⟩ :: rest → progress.frame.context ≠ [] →
      final.Settled ∧
        ∀ objects : Context, outcome = some (.objects objects) → objects.Settled := by
  obtain ⟨last, hreach, hframe, rfl⟩ := exists_reaches_of_run_ok h
  obtain rfl : last.frame.context = final := congrArg Frame.context hframe
  refine ⟨?_, ?_, ?_⟩
  · exact hreach.invariant (fun _ _ hnext hrooted => hrooted.advance hnext)
      (rooted_start context calls)
  · intro hnames
    have hselects : Selects context last :=
      hreach.invariant (fun _ _ hnext hselects => hselects.advance hnext) (selects_start hnames)
    exact ⟨hselects.kept, hselects.given, hselects.counted⟩
  · intro progress arguments rest hprogress hpending hcontext
    have hend : advance (.builtin config) last = .error _ :=
      advance_nil (congrArg Frame.pending hframe)
    have hrest := hprogress.to_end hreach hend
    have hsettles : Settles last := by
      cases hrest with
      | refl =>
          rw [congrArg Frame.pending hframe] at hpending
          cases hpending
      | step hnext hlater =>
          exact hlater.invariant (fun _ _ hmade hsettles => hsettles.advance hmade)
            (settles_of_children hnext hpending hcontext)
    exact ⟨hsettles.kept, hsettles.given⟩

def part : Json :=
  .object [("size", .integer 1)]

/-- An object with parts, two of which are equal, and a number among them. -/
def assembled : Json :=
  .object [("parts", .array [part, .integer 1, part, .array []])]

/-- The parts occur in the object, and each is there once. Without `children` the object itself is
left, and counted once. -/
theorem run_builtin_invents_nothing_parts :
    ((run (.builtin {}) [assembled, .null]
        [⟨"children", [.string "parts"]⟩, ⟨"get", []⟩]).result =
      .ok ([], some (.objects [part, .array []])) ∧
      (∀ value ∈ [part, .array []], ∃ source ∈ [assembled, .null], value.Within source) ∧
      Context.Settled [part, .array []]) ∧
    (run (.builtin {}) [assembled, .null] [⟨"first", []⟩, ⟨"count", []⟩]).result =
      .ok ([assembled], some (.count 1)) ∧
    [assembled].Sublist [assembled, .null] ∧ 1 ≤ [assembled, Json.null].length := by
  have hparse : Selector.parse "parts" = .ok ⟨[⟨some (.propertyName "parts"), []⟩]⟩ := by
    rw [Selector.parse_eq]
    decide +kernel
  have hchildren : children.run {} [.string "parts"] ⟨[assembled, .null], [⟨"get", []⟩]⟩ =
      .ok (none, ⟨[part, .array []], [⟨"get", []⟩]⟩) := by
    have hselector : childrenSelector [.string "parts"] [⟨"get", []⟩] =
        .ok ("parts", [⟨"get", []⟩]) := rfl
    simp only [Builtin.run, runChildren, hselector, bind, Except.bind, readSelector, hparse]
    rfl
  have hparts : (run (.builtin {}) [assembled, .null]
      [⟨"children", [.string "parts"]⟩, ⟨"get", []⟩]).result =
        .ok ([], some (.objects [part, .array []])) := by
    rw [run_result, drain_of_advance_ok (advance_builtin_of_ok hchildren rfl rfl),
      drain_of_advance_ok rfl, drain_of_advance_error rfl]
    rfl
  have hfirst : (run (.builtin {}) [assembled, .null] [⟨"first", []⟩, ⟨"count", []⟩]).result =
      .ok ([assembled], some (.count 1)) := by
    rw [run_result, drain_of_advance_ok rfl, drain_of_advance_ok rfl, drain_of_advance_error rfl]
    rfl
  obtain ⟨hwithin, -, hsettled⟩ := run_builtin_invents_nothing hparts
  obtain ⟨-, hselects, -⟩ := run_builtin_invents_nothing hfirst
  obtain ⟨hsublist, -, hcount⟩ := hselects (by decide)
  obtain ⟨-, hgiven⟩ := hsettled _ _ _ (.refl _) rfl (List.cons_ne_nil _ _)
  exact ⟨⟨hparts, hwithin, hgiven _ rfl⟩, hfirst, hsublist, hcount 1 rfl⟩

end Evaluation

end ObjectQuery
