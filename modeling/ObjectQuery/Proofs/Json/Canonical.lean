import ObjectQuery.Json.View
import ObjectQuery.Proofs.Scalar
/-!
# Canonical forms of values

Equal values differ at most in the signs of zeros. With all zeros made positive they are the same
(`equal_iff_canonical`), and what is asked of a value commutes with this.
-/

namespace ObjectQuery

namespace Binary64.Finite

def canonical (x : Finite) : Finite :=
  if x.units = 0 then .zero false else x

theorem units_canonical (x : Finite) : x.canonical.units = x.units := by
  unfold canonical
  split
  · rename_i hzero
    rw [units_zero, hzero]
  · rfl

theorem exists_zero_of_units {x : Finite} (h : x.units = 0) : ∃ negative, x = .zero negative := by
  rcases eq_or_zeros_of_units_eq (h.trans (units_zero false).symm) with rfl | ⟨negative, rfl, -⟩
  · exact ⟨false, rfl⟩
  · exact ⟨negative, rfl⟩

theorem equal_iff_canonical (x y : Finite) : x.equal y = true ↔ x.canonical = y.canonical := by
  rw [equal_iff]
  constructor
  · intro hunits
    rcases eq_or_zeros_of_units_eq hunits with rfl | ⟨negative, rfl, rfl⟩
    · rfl
    · simp only [canonical, units_zero, if_true]
  · intro hcanonical
    rw [← units_canonical x, hcanonical, units_canonical]

end Binary64.Finite

namespace Json

/-! ## The canonical form -/

mutual

/-- The value with all zeros in it made positive. -/
def canonical : Json → Json
  | .float x => .float x.canonical
  | .array items => .array (canonicalItems items)
  | .object fields => .object (canonicalFields fields)
  | value => value

def canonicalItems : List Json → List Json
  | [] => []
  | item :: rest => item.canonical :: canonicalItems rest

def canonicalFields : List (String × Json) → List (String × Json)
  | [] => []
  | (name, item) :: rest => (name, item.canonical) :: canonicalFields rest

end

theorem canonicalItems_eq_map (items : List Json) : canonicalItems items = items.map canonical := by
  induction items with
  | nil => rfl
  | cons item rest ih => rw [canonicalItems, ih, List.map_cons]

mutual

/-- Equal values have the same canonical form. -/
theorem equal_iff_canonical (x y : Json) : x.equal y = true ↔ x.canonical = y.canonical := by
  cases x with
  | float x => cases y <;> simp [equal, canonical, Binary64.Finite.equal_iff_canonical]
  | array xs => cases y <;> simp [equal, canonical, equalItems_iff_canonical]
  | object xs => cases y <;> simp [equal, canonical, equalFields_iff_canonical]
  | _ => cases y <;> simp [equal, canonical]

theorem equalItems_iff_canonical (xs ys : List Json) :
    equalItems xs ys = true ↔ canonicalItems xs = canonicalItems ys := by
  cases xs with
  | nil => cases ys <;> simp [equalItems, canonicalItems]
  | cons x xs =>
      cases ys with
      | nil => simp [equalItems, canonicalItems]
      | cons y ys =>
          simp [equalItems, canonicalItems, equal_iff_canonical x y, equalItems_iff_canonical xs ys]

theorem equalFields_iff_canonical (xs ys : List (String × Json)) :
    equalFields xs ys = true ↔ canonicalFields xs = canonicalFields ys := by
  cases xs with
  | nil => cases ys <;> simp [equalFields, canonicalFields]
  | cons x xs =>
      obtain ⟨name, x⟩ := x
      cases ys with
      | nil => simp [equalFields, canonicalFields]
      | cons y ys =>
          obtain ⟨other, y⟩ := y
          simp [equalFields, canonicalFields, equal_iff_canonical x y,
            equalFields_iff_canonical xs ys, and_assoc]

end

theorem equal_refl (x : Json) : x.equal x = true :=
  (equal_iff_canonical x x).2 rfl

theorem equal_trans {x y z : Json} (hxy : x.equal y = true) (hyz : y.equal z = true) :
    x.equal z = true := by
  rw [equal_iff_canonical] at *
  exact hxy.trans hyz

theorem equal_equivalence : Equivalence fun x y : Json => x.equal y = true :=
  ⟨equal_refl, fun {x y} h => (equal_iff_canonical y x).2 ((equal_iff_canonical x y).1 h).symm,
    equal_trans⟩

/-! ## What is asked of a canonical form -/

theorem lookup_canonicalFields (name : String) (fields : List (String × Json)) :
    (canonicalFields fields).lookup name = (fields.lookup name).map canonical := by
  induction fields with
  | nil => rfl
  | cons field rest ih =>
      obtain ⟨other, item⟩ := field
      rw [canonicalFields, List.lookup_cons, List.lookup_cons]
      cases name == other with
      | true => rfl
      | false => exact ih

theorem field?_canonical (name : String) (value : Json) :
    value.canonical.field? name = (value.field? name).map canonical := by
  cases value with
  | object fields => exact lookup_canonicalFields name fields
  | _ => rfl

theorem property?_canonical (name : String) (value : Json) :
    value.canonical.property? name = (value.property? name).map canonical := by
  cases value with
  | object fields => exact lookup_canonicalFields name fields
  | array items =>
      simp only [canonical, property?, canonicalItems_eq_map]
      cases index? name with
      | none => rfl
      | some index => exact List.getElem?_map
  | _ => rfl

theorem follow?_canonical (names : List String) (value : Json) :
    value.canonical.follow? names = (value.follow? names).map canonical := by
  induction names generalizing value with
  | nil => rfl
  | cons name rest ih =>
      rw [follow?, follow?, property?_canonical]
      cases value.property? name with
      | none => rfl
      | some found => exact ih found

theorem propertyPath?_canonical (path : String) (value : Json) :
    value.canonical.propertyPath? path = (value.propertyPath? path).map canonical :=
  follow?_canonical (pathNames path) value

theorem items?_canonical (value : Json) :
    value.canonical.items? = value.items?.map (List.map canonical) := by
  cases value with
  | array items => simp [canonical, items?, canonicalItems_eq_map]
  | _ => rfl

theorem isNull_canonical (value : Json) : value.canonical.isNull = value.isNull := by
  cases value <;> rfl

theorem kind_canonical (value : Json) : value.canonical.kind = value.kind := by
  cases value <;> rfl

theorem declares_canonical (config : Config) (typeName : String) (value : Json) :
    value.canonical.declares config typeName = value.declares config typeName := by
  simp only [declares, field?_canonical]
  cases value.field? config.typeProperty with
  | none => rfl
  | some declared =>
      cases declared with
      | array items =>
          simp only [Option.map_some, canonical, canonicalItems_eq_map, List.any_map]
          congr 1
          funext item
          cases item <;> rfl
      | _ => rfl

theorem isInstanceOf_canonical (config : Config) (typeName : String) (value : Json) :
    value.canonical.isInstanceOf config typeName = value.isInstanceOf config typeName := by
  rw [isInstanceOf, isInstanceOf, kind_canonical, declares_canonical]

theorem dot_mem_compact_zero (negative : Bool) :
    '.' ∈ (Json.float (.zero negative)).compact.toList := by
  cases negative <;> decide +kernel

theorem identifier?_canonical {config : Config} {name : String} (hname : '.' ∉ name.toList)
    (value : Json) :
    value.canonical.identifier? config = some name ↔ value.identifier? config = some name := by
  simp only [identifier?, field?_canonical]
  cases value.field? config.identityProperty with
  | none => rfl
  | some found =>
      cases found with
      | float x =>
          by_cases hzero : x.units = 0
          · obtain ⟨negative, rfl⟩ := Binary64.Finite.exists_zero_of_units hzero
            have hunnamed (sign : Bool) : some (Json.float (.zero sign)).compact ≠ some name :=
              fun htext => hname (Option.some.inj htext ▸ dot_mem_compact_zero sign)
            simp only [Option.map_some, canonical, Binary64.Finite.canonical, if_pos hzero]
            exact iff_of_false (hunnamed false) (hunnamed negative)
          · simp only [Option.map_some, canonical, Binary64.Finite.canonical, if_neg hzero]
      | _ => rfl

/-! ## Equal values -/

theorem isInstanceOf_of_equal {x y : Json} (h : x.equal y = true) (config : Config)
    (typeName : String) : x.isInstanceOf config typeName = y.isInstanceOf config typeName := by
  rw [← isInstanceOf_canonical, (equal_iff_canonical x y).1 h, isInstanceOf_canonical]

theorem identifier?_of_equal {x y : Json} (h : x.equal y = true) {config : Config} {name : String}
    (hname : '.' ∉ name.toList) :
    x.identifier? config = some name ↔ y.identifier? config = some name := by
  rw [← identifier?_canonical hname x, (equal_iff_canonical x y).1 h, identifier?_canonical hname]

theorem scalar?_of_equal {x y : Json} (h : x.equal y = true) :
    Option.Rel Scalar.Alike x.scalar? y.scalar? := by
  cases x with
  | null =>
      cases y with
      | null => exact .some (Or.inl rfl)
      | _ => cases h
  | bool x =>
      cases y with
      | bool y => exact .some (Scalar.alike_of_equal h)
      | _ => cases h
  | integer x =>
      cases y with
      | integer y =>
          obtain rfl : x = y := by simpa [equal] using h
          exact .some (Or.inl rfl)
      | _ => cases h
  | float x =>
      cases y with
      | float y =>
          have hunits : x.units = y.units := (Binary64.Finite.equal_iff x y).1 h
          refine .some ?_
          rcases Binary64.Finite.eq_or_zeros_of_units_eq hunits with rfl | ⟨negative, rfl, rfl⟩
          · exact Or.inl rfl
          · exact Or.inr ⟨negative, rfl, rfl⟩
      | _ => cases h
  | string x =>
      cases y with
      | string y => exact .some (Scalar.alike_of_equal h)
      | _ => cases h
  | array xs =>
      cases y with
      | array ys => exact .none
      | _ => cases h
  | object xs =>
      cases y with
      | object ys => exact .none
      | _ => cases h

end Json

end ObjectQuery
