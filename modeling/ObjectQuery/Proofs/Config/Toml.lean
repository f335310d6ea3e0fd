import ObjectQuery.Config.Toml
import ObjectQuery.Proofs.Toml.Lines
/-!
# Reading back configurations from TOML

The TOML text of a configuration gives back the two property names and the bound. A missing bound
leaves no trace in the text, so the default bound is read in its place.
-/

namespace ObjectQuery.Config

open Toml

def nameLines (config : Config) : List Char :=
  line "identity_property" (quote config.identityProperty) ++
    line "type_property" (quote config.typeProperty)

theorem toList_of_toTomlText? {config : Config} {text : String}
    (h : config.toTomlText? = some text) :
    (config.maxOperations = none ∧ text.toList = config.nameLines) ∨
      ∃ bound, config.maxOperations = some bound ∧ bound.toNat < 2 ^ 63 ∧
        text.toList = line "max_operations" (Decimal.digitsOf bound.toNat) ++ config.nameLines := by
  have hidentity : "identity_property = ".toList = "identity_property".toList ++ [' ', '=', ' '] :=
    rfl
  have htype : "\ntype_property = ".toList = '\n' :: "type_property".toList ++ [' ', '=', ' '] :=
    rfl
  have hbound : "max_operations = ".toList = "max_operations".toList ++ [' ', '=', ' '] := rfl
  obtain ⟨written, hwritten, rfl⟩ := Option.map_eq_some_iff.1 h
  unfold boundLine? at hwritten
  split at hwritten
  · rename_i hnone
    cases hwritten
    refine Or.inl ⟨hnone, ?_⟩
    rw [String.toList_ofList, hidentity, htype]
    simp [nameLines, line]
  · rename_i bound hsome
    split at hwritten
    · rename_i hlt
      cases hwritten
      refine Or.inr ⟨bound, hsome, hlt, ?_⟩
      rw [String.toList_ofList, hidentity, htype, hbound]
      simp [nameLines, line]
    · cases hwritten

def nameEntries (config : Config) : Entries :=
  [("identity_property", .string config.identityProperty),
    ("type_property", .string config.typeProperty)]

theorem readLines_nameLines (config : Config) {entries : Entries}
    (hidentity : entries.lookup "identity_property" = none)
    (htype : entries.lookup "type_property" = none) (fuel : Nat) :
    readLines (fuel + 3) [] (.table .header entries) config.nameLines =
      some (.table .header (entries ++ config.nameEntries)) := by
  have hlater : (entries ++ [("identity_property", Item.string config.identityProperty)]).lookup
      "type_property" = none := by
    rw [List.lookup_append, htype]
    rfl
  have hkey : isPlainKey "type_property" = true := by decide +kernel
  have hlast := readLines_line hkey (valueText_quote config.typeProperty) hlater .header (fuel + 1)
    []
  rw [List.append_nil, List.append_assoc] at hlast
  rw [nameLines, readLines_line (by decide +kernel) (valueText_quote config.identityProperty)
    hidentity, hlast]
  rfl

def entries (config : Config) : Entries :=
  match config.maxOperations with
  | none => config.nameEntries
  | some bound => ("max_operations", .integer bound.toNat) :: config.nameEntries

theorem document?_of_toTomlText? {config : Config} {text : String}
    (h : config.toTomlText? = some text) : document? text = some config.entries := by
  have hlines : 3 ≤ config.nameLines.length := by
    have hidentity := four_le_length_line "identity_property" (quote config.identityProperty)
    rw [nameLines, List.length_append]
    omega
  rcases toList_of_toTomlText? h with ⟨hnone, htext⟩ | ⟨bound, hsome, hlt, htext⟩
  · obtain ⟨fuel, hfuel⟩ := Nat.exists_eq_add_of_le hlines
    have hkey : isPlainKey "identity_property" = true := by decide +kernel
    refine document?_line hkey htext ?_
    rw [htext, hfuel, Nat.add_comm 3, Nat.add_right_comm, readLines_nameLines config rfl rfl]
    simp [entries, hnone]
  · obtain ⟨fuel, hfuel⟩ := Nat.exists_eq_add_of_le hlines
    have hlength : text.toList.length + 1 =
        fuel + (line "max_operations" (Decimal.digitsOf bound.toNat)).length + 3 + 1 := by
      rw [htext, List.length_append]
      omega
    have hkey : isPlainKey "max_operations" = true := by decide +kernel
    refine document?_line hkey htext ?_
    rw [hlength, htext, readLines_line hkey (valueText_digitsOf hlt) rfl,
      readLines_nameLines config rfl rfl]
    simp [entries, hsome]

theorem ofSettings?_entries (config : Config) :
    (Setting.ofEntries? config.entries).bind ofSettings? =
      some { config with maxOperations := some (config.maxOperations.getD 10000) } := by
  obtain ⟨bound, identity, type⟩ := config
  cases bound with
  | none => rfl
  | some bound =>
      have hbound : Setting.ofEntry? "max_operations" (.integer bound.toNat) =
          some [.maxOperations (some bound)] := by
        show some [Setting.maxOperations (some (.ofNat bound.toNat))] = _
        rw [UInt64.ofNat_toNat]
      simp only [entries, Setting.ofEntries?, hbound]
      rfl

theorem toTomlText?_isSome_iff (config : Config) :
    config.toTomlText?.isSome = true ↔ ∀ bound ∈ config.maxOperations, bound.toNat < 2 ^ 63 := by
  rw [toTomlText?, Option.isSome_map]
  cases config.maxOperations with
  | none => simp [boundLine?]
  | some bound =>
      by_cases hbound : bound.toNat < 2 ^ 63
      · rw [boundLine?, if_pos hbound]
        exact ⟨fun _ _ heq => Option.some.inj heq ▸ hbound, fun _ => rfl⟩
      · rw [boundLine?, if_neg hbound]
        exact ⟨fun hsome => (by cases hsome), fun h => absurd (h bound rfl) hbound⟩

theorem ofTomlText?_of_toTomlText? {config : Config} {text : String}
    (h : config.toTomlText? = some text) :
    ofTomlText? text =
      some { config with maxOperations := some (config.maxOperations.getD 10000) } := by
  rw [ofTomlText?, document?_of_toTomlText? h]
  exact ofSettings?_entries config

/-- A configuration can be written as TOML unless its bound needs all 64 bits. Its text gives back
the configuration, with the default bound in place of a missing one: just the configurations with a
bound come back as they were, whatever the names of their properties. -/
theorem toml_read_back (config : Config) :
    (config.toTomlText?.isSome = true ↔ ∀ bound ∈ config.maxOperations, bound.toNat < 2 ^ 63) ∧
    ∀ text, config.toTomlText? = some text →
      ofTomlText? text =
        some { config with maxOperations := some (config.maxOperations.getD 10000) } ∧
      (ofTomlText? text = some config ↔ config.maxOperations ≠ none) := by
  refine ⟨toTomlText?_isSome_iff config, fun text htext => ?_⟩
  have hread := ofTomlText?_of_toTomlText? htext
  refine ⟨hread, ?_⟩
  rw [hread]
  obtain ⟨bound, identity, type⟩ := config
  cases bound <;> simp

def highestBound : Config :=
  ⟨some 9223372036854775807, "\"\\", "\x01"⟩

/-- Escaped characters and the highest bound come back. -/
theorem toml_read_back_highestBound :
    ∃ text, highestBound.toTomlText? = some text ∧ ofTomlText? text = some highestBound := by
  have hwritten : highestBound.toTomlText?.isSome = true := by decide +kernel
  obtain ⟨text, htext⟩ := Option.isSome_iff_exists.1 hwritten
  exact ⟨text, htext, ((toml_read_back highestBound).2 text htext).1⟩

/-- An unbounded configuration comes back from TOML with the default bound, and from JSON as it
was. -/
theorem toml_of_unbounded :
    ({ maxOperations := none } : Config).toTomlText? =
      some "identity_property = \"__identity\"\ntype_property = \"__type\"\n" ∧
    ofTomlText? "identity_property = \"__identity\"\ntype_property = \"__type\"\n" =
      some { maxOperations := some 10000 } ∧
    ({ maxOperations := some 10000 } : Config) ≠ { maxOperations := none } := by
  decide +kernel

end ObjectQuery.Config
