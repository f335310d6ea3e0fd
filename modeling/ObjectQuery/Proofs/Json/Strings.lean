import Mathlib.Data.List.Basic
import ObjectQuery.Json.Decode
import ObjectQuery.Json.Text
import ObjectQuery.Proofs.Text.Digits
/-!
# JSON strings as written

A quoted string is read back as the string, whatever its characters: each character is read as one
piece, and that piece denotes the character.
-/

namespace ObjectQuery.Json

theorem digitValue?_hexDigit {n : Nat} (h : n < 16) :
    Text.digitValue? 16 (hexDigit n) = some n := by
  have hall : ∀ n < 16, Text.digitValue? 16 (hexDigit n) = some n := by decide
  exact hall n h

def writtenPiece (c : Char) : Piece :=
  if c ∈ ['"', '\\', '\x08', '\x0c', '\n', '\r', '\t'] ∨ 0x20 ≤ c.toNat then .char c
  else .unit c.toNat

namespace Piece

theorem decode?_unit {code : Nat} (h : code < 0xD800) (rest : List Piece) :
    decode? (.unit code :: rest) = (decode? rest).map (Char.ofNat code :: ·) := by
  have hlead : isLead code = false := by
    rw [isLead, decide_eq_false (by omega), Bool.false_and]
  have htrail : isTrail code = false := by
    rw [isTrail, decide_eq_false (by omega), Bool.false_and]
  rcases rest with _ | ⟨_ | trail, rest⟩ <;> simp [decode?, hlead, htrail]

theorem decode?_writtenPiece (c : Char) (rest : List Piece) :
    decode? (writtenPiece c :: rest) = (decode? rest).map (c :: ·) := by
  rw [writtenPiece]
  split
  · rw [decode?]
  · rename_i hc
    rw [decode?_unit (by omega), Char.ofNat_toNat]

theorem decode?_map_writtenPiece (text : List Char) :
    decode? (text.map writtenPiece) = some text := by
  induction text with
  | nil => rfl
  | cons c text ih => rw [List.map_cons, decode?_writtenPiece, ih, Option.map_some]

theorem toString?_map_writtenPiece (s : String) :
    toString? (s.toList.map writtenPiece) = some s := by
  rw [toString?, decode?_map_writtenPiece, Option.map_some, String.ofList_toList]

end Piece

namespace Tree

def prepend (piece : Piece) (read : Option (List Piece × List Char)) :
    Option (List Piece × List Char) :=
  read.map fun (pieces, rest) => (piece :: pieces, rest)

theorem readString_cons {c : Char} (hquote : c ≠ '"') (hslash : c ≠ '\\')
    (hplain : 0x20 ≤ c.toNat) (rest : List Char) :
    readString (c :: rest) = prepend (.char c) (readString rest) := by
  rw [readString, if_neg (by omega)]
  · cases readString rest <;> rfl
  all_goals simp [hquote, hslash]

theorem readString_code {c : Char} (h : c.toNat < 0x20) (rest : List Char) :
    readString ('\\' :: 'u' :: '0' :: '0' :: hexDigit (c.toNat / 16) :: hexDigit (c.toNat % 16) ::
      rest) = prepend (.unit c.toNat) (readString rest) := by
  have hvalue : Text.baseValue? 16
      ['0', '0', hexDigit (c.toNat / 16), hexDigit (c.toNat % 16)] = some c.toNat :=
    Text.baseValue?_of_digits (digitValue?_hexDigit (by omega)) (digitValue?_hexDigit (by omega))
  rw [readString, hvalue]
  cases readString rest <;> rfl

/-- A character is read back from inside a string. -/
theorem readString_escapeChar (c : Char) (rest : List Char) :
    readString (escapeChar c ++ rest) = prepend (writtenPiece c) (readString rest) := by
  by_cases hshort : c ∈ ['"', '\\', '\x08', '\x0c', '\n', '\r', '\t']
  · rw [writtenPiece, if_pos (Or.inl hshort)]
    simp only [List.mem_cons, List.not_mem_nil, or_false] at hshort
    rcases hshort with rfl | rfl | rfl | rfl | rfl | rfl | rfl <;>
      (cases hrest : readString rest <;> simp [escapeChar, readString, escaped?, prepend, hrest])
  · have hpiece : writtenPiece c = if 0x20 ≤ c.toNat then .char c else .unit c.toNat := by
      simp only [writtenPiece, hshort, false_or]
    simp only [List.mem_cons, List.not_mem_nil, or_false, not_or] at hshort
    obtain ⟨hquote, hslash, hback, hfeed, hline, hreturn, htab⟩ := hshort
    simp only [escapeChar, hquote, hslash, hback, hfeed, hline, hreturn, htab, if_false]
    by_cases hplain : c.toNat < 0x20
    · rw [if_pos hplain, hpiece, if_neg (by omega)]
      exact readString_code hplain rest
    · rw [if_neg hplain, hpiece, if_pos (by omega)]
      exact readString_cons hquote hslash (by omega) rest

theorem readString_flatMap_escapeChar (text rest : List Char) :
    readString (text.flatMap escapeChar ++ '"' :: rest) =
      some (text.map writtenPiece, rest) := by
  induction text with
  | nil => rfl
  | cons c text ih =>
      rw [List.flatMap_cons, List.append_assoc, readString_escapeChar, ih]
      rfl

end Tree

theorem quote_append (s : String) (rest : List Char) :
    quote s ++ rest = '"' :: (s.toList.flatMap escapeChar ++ '"' :: rest) := by
  simp [quote]

theorem quote_of_plain {s : String} (h : s.toList.all (fun c => escapeChar c == [c]) = true) :
    quote s = '"' :: s.toList ++ ['"'] := by
  have hplain : ∀ c ∈ s.toList, escapeChar c = [c] := fun c hc =>
    beq_iff_eq.1 (List.all_eq_true.1 h c hc)
  rw [quote, List.flatMap_congr hplain, List.flatMap_singleton']

end ObjectQuery.Json
