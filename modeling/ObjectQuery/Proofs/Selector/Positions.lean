import ObjectQuery.Proofs.Selector.Filters
/-!
# Where parsing stops

The position in a syntax error stands right behind the longest part of the text, from its start,
that is a selector by itself. More text may change how a part is read but never makes less of it
readable.
-/

namespace ObjectQuery.Selector

def Accepted (text : List Char) : Prop :=
  ∃ found, parse (String.ofList text) = .ok found

theorem accepted_iff {text : List Char} : Accepted text ↔ ∃ found, SelectorText text found := by
  simp only [Accepted, parse_eq_ok_iff_selectorText, String.toList_ofList]

/-- Whatever part of a text is a selector is taken when all of the text is read. -/
theorem exists_read_of_accepted {taken : List Char} (h : Accepted taken) (rest : List Char) :
    ∃ found remaining, Grammar.selector.read (taken ++ rest) = some (found, remaining) ∧
      remaining.length ≤ rest.length := by
  obtain ⟨found, htext⟩ := accepted_iff.1 h
  obtain ⟨longer, remaining, hread, hsuffix⟩ := htext.covers rest
  exact ⟨longer, remaining, hread, hsuffix.length_le⟩

theorem exists_accepted_of_read {text remaining : List Char} {found : Selector}
    (h : Grammar.selector.read text = some (found, remaining)) :
    ∃ taken, text = taken ++ remaining ∧ Accepted taken := by
  obtain ⟨taken, htaken, htext⟩ := selectorText_of_read h
  exact ⟨taken, htaken, accepted_iff.2 ⟨found, htext⟩⟩

/-- An error stands inside the text. What precedes it is a selector, no longer start of the text is
one, and reading the text always takes any start of it that is one. -/
theorem parse_error_position (text : String) :
    (∀ error, parse text = .error error →
      1 ≤ error.position ∧ error.position ≤ text.toList.length ∧
        Accepted (text.toList.take (error.position - 1)) ∧
        ∀ taken, taken <+: text.toList → Accepted taken → taken.length ≤ error.position - 1) ∧
    ∀ taken rest, text.toList = taken ++ rest → Accepted taken →
      ∃ found remaining, Grammar.selector.read text.toList = some (found, remaining) ∧
        remaining.length ≤ rest.length := by
  have hconsumes : ∀ taken rest, text.toList = taken ++ rest → Accepted taken →
      ∃ found remaining, Grammar.selector.read text.toList = some (found, remaining) ∧
        remaining.length ≤ rest.length := by
    intro taken rest htext htaken
    rw [htext]
    exact exists_read_of_accepted htaken rest
  refine ⟨?_, hconsumes⟩
  intro error herror
  obtain ⟨found, remaining, hread, hne, rfl⟩ := parse_eq_error_iff.1 herror
  obtain ⟨before, htext, hbefore⟩ := exists_accepted_of_read hread
  have hpos := List.length_pos_iff.2 hne
  have hposition : (SyntaxError.stoppedAt text remaining).position = before.length + 1 := by
    show text.toList.length - remaining.length + 1 = before.length + 1
    rw [htext, List.length_append]
    omega
  have hlength : text.toList.length = before.length + remaining.length := by
    rw [htext, List.length_append]
  rw [hposition]
  refine ⟨by omega, by omega, ?_, ?_⟩
  · rw [Nat.add_sub_cancel, htext, List.take_left]
    exact hbefore
  · rintro taken ⟨rest, hrest⟩ htaken
    obtain ⟨longer, last, hlast, hle⟩ := hconsumes taken rest hrest.symm htaken
    rw [hread] at hlast
    cases hlast
    have hsplit : text.toList.length = taken.length + rest.length := by
      rw [← hrest, List.length_append]
    omega

/-- The error behind a filter that holds a character of several bytes. -/
theorem parse_error_position_umlaut :
    (1 ≤ 6 ∧ 6 ≤ "[a=ü] ]".toList.length ∧ Accepted ("[a=ü] ]".toList.take (6 - 1)) ∧
      ∀ taken, taken <+: "[a=ü] ]".toList → Accepted taken → taken.length ≤ 6 - 1) ∧
    ∃ found remaining, Grammar.selector.read "[a=ü] ]".toList = some (found, remaining) ∧
      remaining.length ≤ [' ', ']'].length := by
  have herror : parse "[a=ü] ]" = .error ⟨"[a=ü] ]", 6⟩ := by
    rw [parse_eq]
    decide +kernel
  obtain ⟨herrors, hconsumes⟩ := parse_error_position "[a=ü] ]"
  have hposition := herrors _ herror
  have htext : "[a=ü] ]".toList = "[a=ü] ]".toList.take (6 - 1) ++ [' ', ']'] := by
    decide +kernel
  exact ⟨hposition, hconsumes _ _ htext hposition.2.2.1⟩

end ObjectQuery.Selector
