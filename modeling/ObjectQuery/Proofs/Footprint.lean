import ObjectQuery.Selector.Matching
/-!
# What a selector reads

A selector reads the identity property and the type property of an object and the properties from
which its paths start. Objects that agree on these are matched alike, whatever else they hold: a
path is followed from one property, and a test of the object itself sees no property but the types.
-/

namespace ObjectQuery

namespace Json

/-- The name in front of the first point of a path: that of the property from which it starts. -/
def firstName (path : String) : String :=
  String.ofList (path.toList.takeWhile (· != '.'))

/-- Whether two lists of fields have the same value, or none, under each of some names. -/
def AgreeOn (names : List String) (first second : List (String × Json)) : Prop :=
  ∀ name ∈ names, first.lookup name = second.lookup name

theorem AgreeOn.mono {names fewer : List String} {first second : List (String × Json)}
    (h : AgreeOn names first second) (hsubset : fewer ⊆ names) : AgreeOn fewer first second :=
  fun name hname => h name (hsubset hname)

theorem exists_splitOn_eq (c : Char) (text : List Char) :
    ∃ others, text.splitOn c = text.takeWhile (· != c) :: others := by
  induction text with
  | nil => exact ⟨[], rfl⟩
  | cons d text ih =>
      obtain ⟨others, hothers⟩ := ih
      rw [List.splitOn, List.splitOnP_cons_eq_if_modifyHead]
      by_cases hd : d = c
      · subst hd
        exact ⟨text.splitOn d, by simp [List.splitOn]⟩
      · rw [List.splitOn] at hothers
        exact ⟨others, by simp [hd, hothers]⟩

theorem exists_pathNames_eq (path : String) :
    ∃ others, pathNames path = firstName path :: others := by
  obtain ⟨others, hothers⟩ := exists_splitOn_eq '.' path.toList
  exact ⟨others.map String.ofList, by rw [pathNames, hothers, List.map_cons, firstName]⟩

variable {first second : List (String × Json)}

theorem propertyPath?_eq_of_lookup {path : String}
    (h : first.lookup (firstName path) = second.lookup (firstName path)) :
    (Json.object first).propertyPath? path = (Json.object second).propertyPath? path := by
  obtain ⟨others, hnames⟩ := exists_pathNames_eq path
  have hproperty : (Json.object first).property? (firstName path) =
      (Json.object second).property? (firstName path) := h
  rw [propertyPath?, propertyPath?, hnames, follow?, follow?, hproperty]

theorem identifier?_eq_of_lookup {config : Config}
    (h : first.lookup config.identityProperty = second.lookup config.identityProperty) :
    (Json.object first).identifier? config = (Json.object second).identifier? config := by
  have hfield : (Json.object first).field? config.identityProperty =
      (Json.object second).field? config.identityProperty := h
  rw [identifier?, identifier?, hfield]

/-- Of the properties of an object, its types are told by the type property alone. -/
theorem isInstanceOf_eq_of_lookup {config : Config}
    (h : first.lookup config.typeProperty = second.lookup config.typeProperty)
    (typeName : String) :
    (Json.object first).isInstanceOf config typeName =
      (Json.object second).isInstanceOf config typeName := by
  have hfield : (Json.object first).field? config.typeProperty =
      (Json.object second).field? config.typeProperty := h
  unfold isInstanceOf
  cases Kind.ofName? typeName with
  | some kind => rfl
  | none =>
      show declares config typeName (.object first) = declares config typeName (.object second)
      rw [declares, declares, hfield]

end Json

variable {config : Config} {first second : List (String × Json)}

/-- A test of objects themselves looks at no property but the types: an object has no scalar view
and no items. -/
theorem AttributeTest.accepts_object_eq
    (h : first.lookup config.typeProperty = second.lookup config.typeProperty)
    (test : AttributeTest) :
    test.accepts config (some (.object first)) = test.accepts config (some (.object second)) := by
  obtain ⟨operator, operand⟩ := test
  cases operator with
  | instanceOf negated =>
      cases htype : operand.string? with
      | none => simp only [accepts, htype]
      | some typeName => simp only [accepts, htype, Json.isInstanceOf_eq_of_lookup h typeName]
  | equal negated ignoreCase => rfl
  | startsWith ignoreCase => rfl
  | endsWith ignoreCase => rfl
  | contains ignoreCase => rfl
  | less orEqual => rfl
  | greater orEqual => rfl

namespace AttributeFilter

/-- The properties of an object that the filter reads: the one from which its path starts, or the
type property if it has none. -/
def reads (config : Config) (filter : AttributeFilter) : List String :=
  match filter.propertyPath with
  | some path => [Json.firstName path]
  | none => [config.typeProperty]

theorem holds_object_eq {filter : AttributeFilter}
    (h : Json.AgreeOn (filter.reads config) first second) :
    filter.holds config (.object first) = filter.holds config (.object second) := by
  obtain ⟨path, test, text⟩ := filter
  cases path with
  | some path =>
      have hvalue := Json.propertyPath?_eq_of_lookup (h (Json.firstName path) List.mem_cons_self)
      simp only [holds, subject, hvalue]
  | none =>
      cases test with
      | none => rfl
      | some test =>
          exact AttributeTest.accepts_object_eq (h config.typeProperty List.mem_cons_self) test

end AttributeFilter

namespace Filter

def reads (config : Config) (filter : Filter) : List String :=
  config.identityProperty :: filter.attributes.flatMap (·.reads config)

theorem attributesHold_object_eq {filter : Filter}
    (h : Json.AgreeOn (filter.reads config) first second) :
    filter.attributesHold config (.object first) =
      filter.attributesHold config (.object second) := by
  unfold attributesHold
  rw [Bool.eq_iff_iff, List.all_eq_true, List.all_eq_true]
  refine forall₂_congr fun condition hmem => ?_
  have hreads : condition.reads config ⊆ filter.reads config := fun name hname =>
    List.mem_cons_of_mem _ (List.mem_flatMap.2 ⟨condition, hmem, hname⟩)
  rw [AttributeFilter.holds_object_eq (h.mono hreads)]

theorem matchesObject_object_eq {filter : Filter}
    (h : Json.AgreeOn (filter.reads config) first second) :
    filter.matchesObject config (.object first) =
      filter.matchesObject config (.object second) := by
  have hattributes := attributesHold_object_eq h
  have hidentifier := Json.identifier?_eq_of_lookup (h config.identityProperty List.mem_cons_self)
  unfold matchesObject
  cases filter.primary with
  | none => rw [hattributes]
  | some primary =>
      cases primary with
      | identifier name => simp only [hidentifier, hattributes]
      | propertyName name => rfl
      | path path => rfl

end Filter

namespace Selector

def propertyPaths (selector : Selector) : List String :=
  selector.filters.flatMap fun filter => filter.attributes.filterMap (·.propertyPath)

/-- The properties that a selector names: those for identifiers and types, and the one from which
each of its paths starts. -/
def named (config : Config) (selector : Selector) : List String :=
  config.identityProperty :: config.typeProperty :: selector.propertyPaths.map Json.firstName

theorem reads_subset_named {selector : Selector} {filter : Filter}
    (hfilter : filter ∈ selector.filters) : filter.reads config ⊆ selector.named config := by
  intro name hname
  rcases List.mem_cons.1 hname with rfl | hname
  · exact List.mem_cons_self
  · obtain ⟨condition, hcondition, hread⟩ := List.mem_flatMap.1 hname
    unfold AttributeFilter.reads at hread
    split at hread
    · rename_i path hpath
      obtain rfl := List.mem_singleton.1 hread
      have hmem : path ∈ selector.propertyPaths :=
        List.mem_flatMap.2 ⟨filter, hfilter, List.mem_filterMap.2 ⟨condition, hcondition, hpath⟩⟩
      exact List.mem_cons_of_mem _ (List.mem_cons_of_mem _ (List.mem_map_of_mem hmem))
    · obtain rfl := List.mem_singleton.1 hread
      exact List.mem_cons_of_mem _ List.mem_cons_self

theorem anyMatches_object_eq {filters : List Filter}
    (h : ∀ filter ∈ filters, Json.AgreeOn (filter.reads config) first second) :
    anyMatches config (.object first) filters = anyMatches config (.object second) filters := by
  induction filters with
  | nil => rfl
  | cons filter rest ih =>
      obtain ⟨hfilter, hrest⟩ := List.forall_mem_cons.1 h
      rw [anyMatches, anyMatches, Filter.matchesObject_object_eq hfilter, ih hrest]

/-- Two objects that agree on the properties that a selector names are matched alike: both, neither,
or with the same failure. -/
theorem matchesObject_of_agreeOn {selector : Selector}
    (h : Json.AgreeOn (selector.named config) first second) :
    selector.matchesObject config (.object first) =
      selector.matchesObject config (.object second) :=
  anyMatches_object_eq fun _ hfilter => h.mono (reads_subset_named hfilter)

/-- The selector `#x[a.b=5][instanceof T]`. -/
def taggedPart : Selector :=
  ⟨[⟨some (.identifier "x"),
    [⟨some "a.b", some ⟨.equal false false, .integer 5⟩, "[a.b=5]"⟩,
      ⟨none, some ⟨.instanceOf false, .unquoted "T"⟩, "[instanceof T]"⟩]⟩]⟩

def partFields (other : Json) : List (String × Json) :=
  [("__identity", .string "x"), ("__type", .string "T"), ("a", .object [("b", .integer 5)]),
    ("b", other)]

/-- A property `b` of the object itself plays no part for the path `a.b`. -/
theorem matchesObject_of_agreeOn_taggedPart :
    Json.AgreeOn (taggedPart.named {}) (partFields (.integer 6)) (partFields .null) ∧
    taggedPart.matchesObject {} (.object (partFields (.integer 6))) = .ok true ∧
    taggedPart.matchesObject {} (.object (partFields .null)) = .ok true := by
  have hagree : Json.AgreeOn (taggedPart.named {}) (partFields (.integer 6))
      (partFields .null) := by
    have hnamed : taggedPart.named {} = ["__identity", "__type", "a"] := by decide +kernel
    rw [hnamed]
    exact List.forall_mem_cons.2 ⟨rfl, List.forall_mem_cons.2 ⟨rfl,
      List.forall_mem_singleton.2 rfl⟩⟩
  have hmatches : taggedPart.matchesObject {} (.object (partFields (.integer 6))) = .ok true := by
    rfl
  exact ⟨hagree, hmatches, (matchesObject_of_agreeOn hagree).symm.trans hmatches⟩

end Selector

end ObjectQuery
