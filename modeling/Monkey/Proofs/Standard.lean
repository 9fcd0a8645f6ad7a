import Monkey.Proofs.Derivation
import Monkey.Proofs.Phrase
import Mathlib.Order.Defs.LinearOrder

/-!
# The standard grammar, kind by kind

What the tables of the standard grammar hold for each kind of token, and which operator comes next
in a row: none exactly if the next token is a semicolon or binds no more tightly than the power
(`nextOperator?_eq_none_iff`).  The powers are in a linear order.
-/

namespace Monkey

instance : LinearOrder Power where
  le_refl a := Nat.le_refl a.level
  le_trans _ _ _ := Nat.le_trans
  lt_iff_le_not_ge _ _ := Nat.lt_iff_le_and_not_ge
  le_antisymm _ _ h h' := Power.level_injective (Nat.le_antisymm h h')
  le_total a b := Nat.le_total a.level b.level
  toDecidableLE := inferInstance

theorem Power.lowest_le (power : Power) : .lowest ≤ power :=
  Nat.zero_le power.level

theorem Token.isUnarySign_iff {token : Token} :
    token.isUnarySign = true ↔ token.kind = .bang ∨ token.kind = .minus := by
  simp [isUnarySign]

namespace Grammar

variable {g : Grammar} {power : Power} {row : List Token} {kind : Kind}

/-! ### The operator that comes next -/

theorem nextOperator?_eq_none_iff :
    g.nextOperator? power row = none ↔
      (Token.peek row).kind = .semicolon ∨ g.power (Token.peek row).kind ≤ power := by
  unfold nextOperator?
  split
  · next hkind => simp [hkind]
  · next hkind =>
    rw [or_iff_right hkind, Grammar.power]
    cases g.operator (Token.peek row).kind with
    | none => simp [Power.lowest_le]
    | some operator => simp

theorem operator_of_nextOperator? {operator : Operator}
    (h : g.nextOperator? power row = some operator) :
    g.operator (Token.peek row).kind = some operator := by
  unfold nextOperator? at h
  split at h
  · cases h
  · exact (Option.filter_eq_some_iff.mp h).1

/-! ### Operands and operators -/

theorem operand_standard_cases {rule : OperandRule} (h : standard.operand kind = some rule) :
    (rule = .primary ∧ (kind = .ident ∨ kind = .int)) ∨
      (rule = .unaryRun ∧ (kind = .bang ∨ kind = .minus)) := by
  cases kind <;> simp_all [standard]

theorem operand_of_leaf (h : kind = .ident ∨ kind = .int) :
    standard.operand kind = some .primary := by
  obtain rfl | rfl := h
  · rfl
  · rfl

theorem operand_of_sign (h : kind = .bang ∨ kind = .minus) :
    standard.operand kind = some .unaryRun := by
  obtain rfl | rfl := h
  · rfl
  · rfl

theorem not_mem_infixes_of_operand {rule : OperandRule} (h : standard.operand kind = some rule)
    (hminus : kind ≠ .minus) : kind ∉ Kind.infixes := by
  obtain ⟨-, rfl | rfl⟩ | ⟨-, rfl | rfl⟩ := operand_standard_cases h
  · decide
  · decide
  · decide
  · exact absurd rfl hminus

theorem mem_infixes_of_operator {operator : Operator}
    (h : standard.operator kind = some operator) : kind ∈ Kind.infixes := by
  revert h
  cases kind <;> simp [standard, Kind.infixes]

theorem operator_of_mem_infixes :
    ∀ kind ∈ Kind.infixes, standard.operator kind = some ⟨standard.power kind, .left⟩ := by
  decide

theorem power_of_mem_infixes :
    ∀ kind ∈ Kind.infixes, .lowest < standard.power kind ∧ standard.power kind < .unary := by
  decide

theorem power_of_not_mem_infixes (h : kind ∉ Kind.infixes) : standard.power kind = .lowest := by
  revert h
  cases kind <;> decide

theorem semicolon_not_mem_infixes : Kind.semicolon ∉ Kind.infixes := by
  decide

theorem power_lt_unary (kind : Kind) : standard.power kind < .unary := by
  by_cases h : kind ∈ Kind.infixes
  · exact (power_of_mem_infixes kind h).2
  · rw [power_of_not_mem_infixes h]
    decide

theorem nextOperator?_unary (row : List Token) : standard.nextOperator? .unary row = none :=
  nextOperator?_eq_none_iff.mpr (.inr (le_of_lt (power_lt_unary _)))

theorem nextOperator?_of_mem_infixes (hinfixes : (Token.peek row).kind ∈ Kind.infixes)
    (hpower : power < standard.power (Token.peek row).kind) :
    standard.nextOperator? power row = some ⟨standard.power (Token.peek row).kind, .left⟩ := by
  have hsemicolon : (Token.peek row).kind ≠ .semicolon := by
    intro hkind
    rw [hkind] at hinfixes
    exact semicolon_not_mem_infixes hinfixes
  rw [nextOperator?, if_neg hsemicolon, operator_of_mem_infixes _ hinfixes]
  simp [hpower]

theorem not_mem_infixes_of_nextOperator? (h : standard.nextOperator? .lowest row = none) :
    (Token.peek row).kind ∉ Kind.infixes := by
  intro hinfixes
  rw [nextOperator?_of_mem_infixes hinfixes (power_of_mem_infixes _ hinfixes).1] at h
  cases h

/-! ### Statements -/

theorem ruleAt_standard (row : List Token) :
    (standard.ruleAt row = .binding ∧ (Token.current row).kind = .letKw) ∨
      (standard.ruleAt row = .returning ∧ (Token.current row).kind = .returnKw) ∨
      (standard.ruleAt row = .expression ∧ (Token.current row).kind ≠ .letKw ∧
        (Token.current row).kind ≠ .returnKw) := by
  unfold ruleAt
  cases (Token.current row).kind <;> simp [standard]

end Grammar

end Monkey
