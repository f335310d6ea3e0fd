import Mathlib.Data.List.Induction
import ObjectQuery.Query
/-!
# Objects by position

An index counts from the start of a context and a negative one from its end. `slice` moves an index
that stands outside to the nearer end, while `get` finds nothing there. In spite of that `get` gives
what the slice from its index to the next one leaves, and `first` and `last` are such slices.
-/

namespace ObjectQuery

namespace Context

/-! ## Slices -/

/-- The place that an index stands for in a context of some length. -/
def place (length : Nat) (index : Int64) : Int :=
  if 0 ≤ index.toInt then min index.toInt length else max (length + index.toInt) 0

/-- The objects at the positions from `first` up to, not including, `last`. -/
def between (first last : Int) (context : Context) : Context :=
  (context.zipIdx.filter fun (_, position) => first ≤ position ∧ position < last).map Prod.fst

theorem clamp_eq_place (length : Nat) (index : Int64) :
    (clamp index.toInt length : Int) = place length index := by
  unfold clamp place
  split <;> split <;> omega

theorem between_append_singleton (first last : Int) (context : Context) (object : Json) :
    between first last (context ++ [object]) =
      between first last context ++
        if first ≤ context.length ∧ context.length < last then [object] else [] := by
  unfold between
  rw [List.zipIdx_append, List.filter_append, List.map_append, Nat.zero_add, List.zipIdx_singleton,
    List.filter_cons, List.filter_nil]
  by_cases hplace : first ≤ context.length ∧ context.length < last
  · simp [hplace]
  · simp only [hplace, decide_false, Bool.false_eq_true, if_false, List.map_nil]

theorem drop_take_eq_between (first last : Nat) (context : Context) :
    (context.take last).drop first = between first last context := by
  induction context using List.reverseRecOn with
  | nil => simp [between]
  | append_singleton before object ih =>
      rw [between_append_singleton, ← ih]
      by_cases hlast : before.length < last
      · have hall : (before ++ [object]).take last = before.take last ++ [object] := by
          rw [List.take_of_length_le (by rw [List.length_append]; exact hlast),
            List.take_of_length_le (Nat.le_of_lt hlast)]
        have hwhole : (before.take last).length = before.length := by
          rw [List.length_take]
          omega
        rw [hall]
        by_cases hfirst : first ≤ before.length
        · rw [List.drop_append_of_le_length (hwhole ▸ hfirst), if_pos (by omega)]
        · rw [List.drop_eq_nil_of_le (by simp; omega), List.drop_eq_nil_of_le (by omega),
            if_neg (by omega)]
          rfl
      · rw [List.take_append_of_le_length (Nat.le_of_not_lt hlast), if_neg (by omega),
          List.append_nil]

theorem slice_eq_between (start stop : Option Int64) (context : Context) :
    context.slice start stop =
      between (start.elim 0 (place context.length))
        (stop.elim context.length (place context.length)) context := by
  have hplace (missing : Nat) (index : Option Int64) :
      (((index.map fun index => clamp index.toInt context.length).getD missing : Nat) : Int) =
        index.elim (missing : Int) (place context.length) := by
    cases index with
    | none => rfl
    | some index => exact clamp_eq_place context.length index
  unfold slice
  rw [drop_take_eq_between, hplace, hplace]
  rfl

/-! ## Single objects -/

/-- The index behind a given one, as the end of a slice. Behind the last object there is none. -/
def next? (index : Int64) : Option Int64 :=
  if index = -1 then none else some (index + 1)

theorem toInt_add_one {index : Int64} (h : index < Int64.maxValue) :
    (index + 1).toInt = index.toInt + 1 := by
  have hlower := index.le_toInt
  have hupper := Int64.lt_iff_toInt_lt.1 h
  rw [Int64.toInt_maxValue] at hupper
  rw [Int64.toInt_add]
  have hone : (1 : Int64).toInt = 1 := rfl
  rw [hone]
  exact Int.bmod_eq_of_le (by omega) (by omega)

theorem clamp_next {index : Int64} (h : index < Int64.maxValue) (length : Nat) :
    ((next? index).map fun index => clamp index.toInt length).getD length =
      if 0 ≤ index.toInt then min (index.toInt.toNat + 1) length
      else length + 1 - index.toInt.natAbs := by
  unfold next?
  split
  · rename_i hlast
    subst hlast
    rfl
  · rename_i hlast
    have hne : index.toInt ≠ -1 := fun heq => hlast (Int64.toInt_inj.1 heq)
    rw [Option.map_some, Option.getD_some, toInt_add_one h, clamp]
    split <;> split <;> omega

theorem toList_at? {index : Int64} (h : index < Int64.maxValue) (context : Context) :
    (context.at? index).toList = context.slice (some index) (next? index) := by
  have hsingle (position : Nat) :
      (context.take (position + 1)).drop position = context[position]?.toList := by
    rw [List.drop_take, Nat.add_sub_cancel_left, List.take_one, List.head?_drop]
  have hnothing {first last : Nat} (hle : last ≤ first) : (context.take last).drop first = [] :=
    List.drop_eq_nil_of_le (Nat.le_trans (List.length_take_le _ _) hle)
  unfold at? slice
  rw [clamp_next h]
  dsimp only [Option.map_some, Option.getD_some]
  unfold clamp
  by_cases hsign : 0 ≤ index.toInt
  · rw [if_pos hsign, if_pos hsign, if_neg (Int.not_lt.2 hsign)]
    by_cases hinside : index.toInt.toNat < context.length
    · rw [Nat.min_eq_left hinside, Nat.min_eq_left (Nat.le_of_lt hinside), hsingle]
    · rw [List.getElem?_eq_none (Nat.le_of_not_lt hinside), hnothing (by omega)]
      rfl
  · rw [if_neg hsign, if_neg hsign, if_pos (Int.not_le.1 hsign)]
    by_cases hinside : index.toInt.natAbs ≤ context.length
    · rw [if_pos hinside, Nat.sub_add_comm hinside, hsingle]
    · rw [if_neg hinside, hnothing (by omega)]
      rfl

theorem take_one_eq_slice (context : Context) :
    context.take 1 = context.slice (some 0) (some 1) := by
  have hfirst : (context.at? 0).toList = context.slice (some 0) (some 1) :=
    toList_at? (by decide) context
  rw [← hfirst, List.take_one, List.head?_eq_getElem?]
  rfl

theorem getLast?_eq_slice (context : Context) :
    context.getLast?.toList = context.slice (some (-1)) none := by
  have hlast : (context.at? (-1)).toList = context.slice (some (-1)) none :=
    toList_at? (by decide) context
  have hat : context.at? (-1) = if 1 ≤ context.length then context[context.length - 1]? else none :=
    rfl
  rw [← hlast, hat, List.getLast?_eq_getElem?]
  split
  · rfl
  · rw [List.getElem?_eq_none (by omega)]

/-! ## Indexes in words of 64 bits -/

/-- The distance of an index from zero. That of the least index is beyond the words with a sign. -/
def distance (index : Int64) : UInt64 :=
  if index < 0 then -index.toUInt64 else index.toUInt64

/-- `clamp` in words: a subtraction that stops at zero, or the lesser of two words. -/
def clampWord (index : Int64) (length : UInt64) : UInt64 :=
  if index < 0 then
    if distance index ≤ length then length - distance index else 0
  else min index.toUInt64 length

/-- The position of `at?` in words: a subtraction that gives nothing below zero, or the index. -/
def positionWord? (index : Int64) (length : UInt64) : Option UInt64 :=
  if index < 0 then
    if distance index ≤ length then some (length - distance index) else none
  else some index.toUInt64

theorem lt_zero_iff {index : Int64} : index < 0 ↔ index.toInt < 0 :=
  Int64.lt_iff_toInt_lt

theorem toNat_toUInt64 {index : Int64} (h : ¬ index < 0) :
    index.toUInt64.toNat = index.toInt.toNat := by
  rw [Int64.toNat_toUInt64_of_le (Int64.not_lt.1 h), Int64.toNat_toInt]

theorem toNat_distance (index : Int64) : (distance index).toNat = index.toInt.natAbs := by
  unfold distance
  split
  · rename_i hsign
    have hvalue : index.toInt =
        if 2 * index.toUInt64.toNat < 2 ^ 64 then (index.toUInt64.toNat : Int)
        else index.toUInt64.toNat - 2 ^ 64 :=
      BitVec.toInt_eq_toNat_cond index.toBitVec
    have hbound := index.toUInt64.toNat_lt
    rw [lt_zero_iff] at hsign
    rw [UInt64.toNat_neg, UInt64.size]
    split at hvalue <;> omega
  · rename_i hsign
    rw [toNat_toUInt64 hsign]
    rw [lt_zero_iff] at hsign
    omega

section

variable {index : Int64} {length : Nat} (h : length < 2 ^ 64)

include h

theorem distance_le_iff : distance index ≤ .ofNat length ↔ index.toInt.natAbs ≤ length := by
  rw [UInt64.le_iff_toNat_le, toNat_distance, UInt64.toNat_ofNat_of_lt' h]

theorem toNat_sub_distance (hle : index.toInt.natAbs ≤ length) :
    (UInt64.ofNat length - distance index).toNat = length - index.toInt.natAbs := by
  rw [UInt64.toNat_sub_of_le _ _ ((distance_le_iff h).2 hle), toNat_distance,
    UInt64.toNat_ofNat_of_lt' h]

theorem toNat_clampWord : (clampWord index (.ofNat length)).toNat = clamp index.toInt length := by
  unfold clampWord clamp
  by_cases hsign : index < 0
  · rw [if_pos hsign, if_pos (lt_zero_iff.1 hsign)]
    by_cases hinside : index.toInt.natAbs ≤ length
    · rw [if_pos ((distance_le_iff h).2 hinside), toNat_sub_distance h hinside]
    · rw [if_neg (hinside ∘ (distance_le_iff h).1), UInt64.toNat_zero]
      omega
  · rw [if_neg hsign, if_neg (hsign ∘ lt_zero_iff.2), UInt64.toNat_min, toNat_toUInt64 hsign,
      UInt64.toNat_ofNat_of_lt' h]

end

theorem at?_eq_positionWord? (index : Int64) {context : Context} (h : context.length < 2 ^ 64) :
    context.at? index =
      (positionWord? index (.ofNat context.length)).bind fun position =>
        context[position.toNat]? := by
  unfold at? positionWord?
  dsimp only
  by_cases hsign : index < 0
  · rw [if_pos hsign, if_neg (Int.not_le.2 (lt_zero_iff.1 hsign))]
    by_cases hinside : index.toInt.natAbs ≤ context.length
    · rw [if_pos hinside, if_pos ((distance_le_iff h).2 hinside), Option.bind_some,
        toNat_sub_distance h hinside]
    · rw [if_neg hinside, if_neg (hinside ∘ (distance_le_iff h).1), Option.bind_none]
  · rw [if_neg hsign, if_pos (Int.not_lt.1 (hsign ∘ lt_zero_iff.2)), Option.bind_some,
      toNat_toUInt64 hsign]

end Context

/-! ## Operations -/

namespace Builtin

open Context

theorem indexArgument_of_index (operation : String) {arguments : List Json} {position : Nat}
    {index : Int64} (h : arguments[position]? = some (Query.indexJson index)) :
    indexArgument operation arguments position = .ok (some index) := by
  unfold indexArgument
  rw [h]
  dsimp only [Query.indexJson]
  rw [if_pos (Json.fitsInt64_toInt index), Int64.ofInt_toInt]

theorem indexArgument_sliceArguments (operation : String) (start stop : Option Int64) :
    indexArgument operation (Query.sliceArguments start stop) 0 = .ok start ∧
      indexArgument operation (Query.sliceArguments start stop) 1 = .ok stop := by
  cases start with
  | none =>
      cases stop with
      | none => exact ⟨rfl, rfl⟩
      | some stop => exact ⟨rfl, indexArgument_of_index operation rfl⟩
  | some start =>
      have hstart (others : List Json) :
          indexArgument operation (Query.indexJson start :: others) 0 = .ok (some start) :=
        indexArgument_of_index operation rfl
      cases stop with
      | none => exact ⟨hstart _, rfl⟩
      | some stop => exact ⟨hstart _, indexArgument_of_index operation rfl⟩

variable (config : Config) (frame : Frame)

theorem run_slice (start stop : Option Int64) :
    slice.run config (Query.sliceArguments start stop) frame =
      .ok (none, frame.withContext (frame.context.slice start stop)) := by
  obtain ⟨hstart, hstop⟩ := indexArgument_sliceArguments "slice" start stop
  simp only [run, hstart, hstop]
  rfl

theorem run_get (index : Int64) :
    get.run config [Query.indexJson index] frame =
      .ok (some (.object (frame.context.at? index)), frame) := by
  have hindex : indexArgument "get" [Query.indexJson index] 0 = .ok (some index) :=
    indexArgument_of_index "get" rfl
  simp only [run, hindex]
  rfl

/-- A slice holds the objects from the place of its start up to that of its end, and `first`, `last`
and `get` give what slices leave. The places that words of 64 bits give are these too, for every
index down to the least one. -/
theorem indexing_law (hlength : frame.context.length < 2 ^ 63) :
    (∀ start stop : Option Int64,
      slice.run config (Query.sliceArguments start stop) frame =
        .ok (none, frame.withContext (frame.context.between
          (start.elim 0 (place frame.context.length))
          (stop.elim frame.context.length (place frame.context.length))))) ∧
    (∀ arguments, first.run config arguments frame =
      slice.run config (Query.sliceArguments (some 0) (some 1)) frame) ∧
    (∀ arguments, last.run config arguments frame =
      slice.run config (Query.sliceArguments (some (-1)) none) frame) ∧
    (∀ index < Int64.maxValue, ∃ value kept,
      get.run config [Query.indexJson index] frame = .ok (some (.object value), frame) ∧
      slice.run config (Query.sliceArguments (some index) (next? index)) frame =
        .ok (none, frame.withContext kept) ∧
      (∀ object, value = some object ↔ kept = [object]) ∧ (value = none ↔ kept = [])) ∧
    ∀ index,
      ((clampWord index (.ofNat frame.context.length)).toNat : Int) =
        place frame.context.length index ∧
      frame.context.at? index =
        (positionWord? index (.ofNat frame.context.length)).bind fun position =>
          frame.context[position.toNat]? := by
  have hword : frame.context.length < 2 ^ 64 := Nat.lt_trans hlength (by decide)
  refine ⟨fun start stop => ?_, fun arguments => ?_, fun arguments => ?_, fun index hindex => ?_,
    fun index => ⟨?_, at?_eq_positionWord? index hword⟩⟩
  · rw [run_slice, slice_eq_between]
  · rw [run_slice, ← take_one_eq_slice]
    rfl
  · rw [run_slice, ← getLast?_eq_slice]
    rfl
  · refine ⟨_, _, run_get config frame index, run_slice config frame _ _, ?_⟩
    rw [← toList_at? hindex]
    cases frame.context.at? index <;> simp
  · rw [toNat_clampWord hword, clamp_eq_place]

def threeObjects : Frame :=
  ⟨[.integer 1, .integer 2, .integer 3], []⟩

/-- The least index stands for the first place in a slice and for no object in `get`. -/
theorem indexing_law_leastIndex :
    threeObjects.context.length < 2 ^ 63 ∧
    slice.run {} (Query.sliceArguments (some Int64.minValue) (some (-1))) threeObjects =
      .ok (none, threeObjects.withContext [.integer 1, .integer 2]) ∧
    Int64.minValue < Int64.maxValue ∧
    get.run {} [Query.indexJson Int64.minValue] threeObjects =
      .ok (some (.object none), threeObjects) ∧
    slice.run {} (Query.sliceArguments (some Int64.minValue) (next? Int64.minValue)) threeObjects =
      .ok (none, threeObjects.withContext []) ∧
    ((clampWord Int64.minValue (.ofNat 3)).toNat : Int) = 0 := by
  have hlength : threeObjects.context.length < 2 ^ 63 := by decide
  have hleast : Int64.minValue < Int64.maxValue := by decide
  obtain ⟨hslice, -, -, hget, hword⟩ := indexing_law {} threeObjects hlength
  obtain ⟨value, kept, hvalue, hkept, -, hnothing⟩ := hget Int64.minValue hleast
  have hnone : get.run {} [Query.indexJson Int64.minValue] threeObjects =
      .ok (some (.object none), threeObjects) := rfl
  have hvalue : value = none := by
    rw [hnone] at hvalue
    cases hvalue
    rfl
  rw [hnothing.1 hvalue] at hkept
  exact ⟨hlength, hslice (some Int64.minValue) (some (-1)), hleast, hnone, hkept,
    (hword Int64.minValue).1⟩

end Builtin

end ObjectQuery
