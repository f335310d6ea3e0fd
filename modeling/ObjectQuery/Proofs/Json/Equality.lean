import ObjectQuery.Json.Basic
/-!
# Equality of JSON values

Values are compared field by field and item by item, so the order of the two does not matter.
-/

namespace ObjectQuery

theorem Binary64.Finite.equal_comm (x y : Finite) : x.equal y = y.equal x := by
  rw [equal, equal]
  exact BEq.comm

namespace Json

mutual

theorem equal_comm (x y : Json) : x.equal y = y.equal x := by
  cases x with
  | float x =>
      cases y with
      | float y => exact Binary64.Finite.equal_comm x y
      | _ => simp only [equal]
  | array xs =>
      cases y with
      | array ys => simpa only [equal] using equalItems_comm xs ys
      | _ => simp only [equal]
  | object xs =>
      cases y with
      | object ys => simpa only [equal] using equalFields_comm xs ys
      | _ => simp only [equal]
  | null => cases y <;> simp only [equal]
  | bool x => cases y <;> simp only [equal, BEq.comm (a := x)]
  | integer x => cases y <;> simp only [equal, BEq.comm (a := x)]
  | string x => cases y <;> simp only [equal, BEq.comm (a := x)]

theorem equalItems_comm (xs ys : List Json) : equalItems xs ys = equalItems ys xs := by
  cases xs with
  | nil => cases ys <;> simp only [equalItems]
  | cons x xs =>
      cases ys with
      | nil => simp only [equalItems]
      | cons y ys => simp only [equalItems, equal_comm x y, equalItems_comm xs ys]

theorem equalFields_comm (xs ys : List (String × Json)) :
    equalFields xs ys = equalFields ys xs := by
  cases xs with
  | nil => cases ys <;> simp only [equalFields]
  | cons x xs =>
      obtain ⟨name, x⟩ := x
      cases ys with
      | nil => simp only [equalFields]
      | cons y ys =>
          obtain ⟨other, y⟩ := y
          have hname : (name == other) = (other == name) := BEq.comm
          simp only [equalFields, hname, equal_comm x y, equalFields_comm xs ys]

end

end Json

end ObjectQuery
