import ObjectQuery.Proofs.Selector.Rules
/-!
# Reading selectors without a table

The table that `parse` keeps changes nothing about what is read. At every moment of a parse, each
entry of the table is what its rule reads at its offset without any table, so a rule may be read
with the table of that moment at any place of the text.
-/

namespace ObjectQuery.Selector

namespace Grammar

def ofRule : (rule : Rule) → Grammar rule.Value
  | .filter => filter
  | .path => path
  | .identifierFilter => identifierFilter
  | .propertyName => propertyName
  | .attributeFilter => attributeFilter
  | .identifier => identifier
  | .propertyPath => propertyPath
  | .operand => operand

theorem ofRule_eq_named (rule : Rule) : ofRule rule = .named rule (body rule) := by
  cases rule <;> rfl

theorem ofRule_follows (rule : Rule) : (ofRule rule).Follows body := by
  cases rule <;> repeat' constructor

end Grammar

/-- Reads a selector without a table. -/
def parsePlain (text : String) : Except SyntaxError Selector :=
  match Grammar.selector.read text.toList with
  | some (selector, []) => .ok selector
  | some (_, c :: rest) => .error (.stoppedAt text (c :: rest))
  | none => .error (.stoppedAt text text.toList)

/-- A table that parsing a source text comes by. -/
def IsTableOf (source : List Char) (table : Peg.Table Rule.Value) : Prop :=
  Peg.Passes source Grammar.selector source ∅ table

theorem IsTableOf.records {source : List Char} {table : Peg.Table Rule.Value}
    (h : IsTableOf source table) : table.Records Grammar.body source := by
  have hempty : Peg.Table.Records Grammar.body source ∅ := Peg.Table.records_empty
  exact Peg.Passes.records h Grammar.selector_follows (List.suffix_refl source) hempty

theorem exists_entry_of_readWith (rule : Rule) (source text : List Char)
    (table : Peg.Table Rule.Value) :
    ∃ entry, ((Grammar.ofRule rule).readWith source text table).2.get?
      (rule, Peg.offset source text) = some entry := by
  rw [Grammar.ofRule_eq_named]
  simp only [Peg.readWith]
  cases hget : table.get? (rule, Peg.offset source text) with
  | some entry => exact ⟨entry, hget⟩
  | none =>
      cases hbody : (Grammar.body rule).readWith source text table with
      | mk result next => exact ⟨_, Std.DHashMap.get?_insert_self⟩

/-- With any table that parsing a text comes by, a rule reads of any suffix what its body reads
there without a table. The table that it leaves holds exactly such results, that of this read among
them. So parsing is the same with the table and without it. -/
theorem readWith_eq_read (source : String) :
    (∀ table, IsTableOf source.toList table → ∀ rule text, text <:+ source.toList →
      ((Grammar.ofRule rule).readWith source.toList text table).1 =
          (Grammar.body rule).read text ∧
        ((Grammar.ofRule rule).readWith source.toList text table).2.Records Grammar.body
          source.toList ∧
        ((Grammar.ofRule rule).readWith source.toList text table).2.get?
            (rule, Peg.offset source.toList text) =
          some (.ofResult source.toList ((Grammar.body rule).read text))) ∧
    parse source = parsePlain source := by
  refine ⟨?_, parse_eq source⟩
  intro table htable rule text htext
  have hagrees := Peg.agrees_readWith (Grammar.ofRule_follows rule) text table htext htable.records
  obtain ⟨hread, hrecords⟩ := hagrees
  have hbody : (Grammar.ofRule rule).read text = (Grammar.body rule).read text := by
    rw [Grammar.ofRule_eq_named, Peg.read_named]
  refine ⟨hread.trans hbody, hrecords, ?_⟩
  obtain ⟨entry, hentry⟩ := exists_entry_of_readWith rule source.toList text table
  have hresult := hrecords.eq_ofResult rule _ entry hentry
  rw [Peg.drop_offset htext] at hresult
  rw [hentry, hresult]

/-- The table behind a path that fails for want of a second segment. -/
def slashTable : Peg.Table Rule.Value :=
  ((Peg.map Primary.path Grammar.path).readWith "ab/".toList "ab/".toList ∅).2

/-- The failed path leaves its first segment in the table, where the property name finds it. -/
theorem readWith_eq_read_slash :
    IsTableOf "ab/".toList slashTable ∧
    (Grammar.propertyName.readWith "ab/".toList "ab/".toList slashTable).1 =
      some ("ab", ['/']) ∧
    (Grammar.path.readWith "ab/".toList "ab/".toList slashTable).1 = none ∧
    parse "ab/" = parsePlain "ab/" := by
  have hempty : ∀ key, (∅ : Peg.Table Rule.Value).get? key = none := fun key => by simp
  have htable : IsTableOf "ab/".toList slashTable := by
    apply Peg.Passes.map
    apply Peg.Passes.seq_first
    apply Peg.Passes.named (hempty _)
    apply Peg.Passes.map
    apply Peg.Passes.seq_first
    apply Peg.Passes.optional
    apply Peg.Passes.choice_first
    exact .finish _ _ _
  obtain ⟨hrules, hparse⟩ := readWith_eq_read "ab/"
  have hname := (hrules slashTable htable .propertyName _ (List.suffix_refl _)).1
  have hpath := (hrules slashTable htable .path _ (List.suffix_refl _)).1
  refine ⟨htable, hname.trans ?_, hpath.trans ?_, hparse⟩
  · decide +kernel
  · decide +kernel

end ObjectQuery.Selector
