import Monkey.Proofs.Standard

/-!
# Grammars made of the rules of the language

`Grammar.Registered g` says that the grammar comes about by registering the rules of the language,
one by one, for any kinds of tokens: any rule for statements, operands that are names and integers
or runs of signs, and operators of any power that go from left to right.  The end of the tokens is
not registered as a sign.  What all these grammars have in common follows by induction on the
registrations.
-/

namespace Monkey

namespace Grammar

def empty : Grammar :=
  ⟨fun _ => none, fun _ => none, fun _ => none⟩

/-- The grammar is reached by registering rules of the language. -/
inductive Registered : Grammar → Prop
  | empty : Registered empty
  | statement {g : Grammar} (kind : Kind) (rule : StatementRule) :
      Registered g → Registered (g.setStatement kind rule)
  | primary {g : Grammar} (kind : Kind) : Registered g → Registered (g.setOperand kind .primary)
  | unaryRun {g : Grammar} (kind : Kind) :
      kind ≠ .eof → Registered g → Registered (g.setOperand kind .unaryRun)
  | operator {g : Grammar} (kind : Kind) (power : Power) :
      Registered g → Registered (g.setOperator kind ⟨power, .left⟩)
  | standard {g : Grammar} : Registered g → Registered g.withStandard

/-- The goal is no operand by a rule that cannot be registered. -/
def Goal.Registered : Goal → Prop
  | operandBy rule => rule = .primary ∨ rule = .unaryRun
  | _ => True

theorem withStandard_empty : empty.withStandard = standard := by
  simp [withStandard, empty]

theorem registered_standard : standard.Registered := by
  rw [← withStandard_empty]
  exact .standard .empty

namespace Registered

variable {g : Grammar} {kind : Kind}

theorem operand_cases (h : g.Registered) {rule : OperandRule} (hrule : g.operand kind = some rule) :
    rule = .primary ∨ (rule = .unaryRun ∧ kind ≠ .eof) := by
  induction h with
  | empty => cases hrule
  | statement _ _ _ ih => exact ih hrule
  | operator _ _ _ ih => exact ih hrule
  | primary other _ ih =>
      simp only [setOperand] at hrule
      split at hrule
      · exact .inl (Option.some.inj hrule).symm
      · exact ih hrule
  | unaryRun other hother _ ih =>
      simp only [setOperand] at hrule
      split at hrule
      · next heq =>
        refine .inr ⟨(Option.some.inj hrule).symm, ?_⟩
        rw [heq]
        exact hother
      · exact ih hrule
  | @standard g _ ih =>
      have hor : (Grammar.standard.operand kind).or (g.operand kind) = some rule := hrule
      cases hstandard : Grammar.standard.operand kind with
      | none =>
          rw [hstandard, Option.none_or] at hor
          exact ih hor
      | some first =>
          rw [hstandard, Option.some_or] at hor
          obtain rfl : first = rule := Option.some.inj hor
          obtain ⟨hprimary, -⟩ | ⟨hunary, rfl | rfl⟩ := operand_standard_cases hstandard
          · exact .inl hprimary
          · exact .inr ⟨hunary, nofun⟩
          · exact .inr ⟨hunary, nofun⟩

theorem associativity_eq (h : g.Registered) {operator : Operator}
    (hoperator : g.operator kind = some operator) : operator.associativity = .left := by
  induction h with
  | empty => cases hoperator
  | statement _ _ _ ih => exact ih hoperator
  | primary _ _ ih => exact ih hoperator
  | unaryRun _ _ _ ih => exact ih hoperator
  | operator other power _ ih =>
      simp only [setOperator] at hoperator
      split at hoperator
      · obtain rfl := Option.some.inj hoperator
        rfl
      · exact ih hoperator
  | @standard g _ ih =>
      have hor : (Grammar.standard.operator kind).or (g.operator kind) = some operator := hoperator
      cases hstandard : Grammar.standard.operator kind with
      | none =>
          rw [hstandard, Option.none_or] at hor
          exact ih hor
      | some first =>
          rw [hstandard, Option.some_or] at hor
          obtain rfl : first = operator := Option.some.inj hor
          have hinfixes := operator_of_mem_infixes kind (mem_infixes_of_operator hstandard)
          rw [hstandard] at hinfixes
          rw [Option.some.inj hinfixes]

theorem rightPower_eq (h : g.Registered) {operator : Operator}
    (hoperator : g.operator kind = some operator) : operator.rightPower = g.power kind := by
  rw [Operator.rightPower, h.associativity_eq hoperator, power, hoperator]
  rfl

theorem goal_of_operand (h : g.Registered) {rule : OperandRule}
    (hrule : g.operand kind = some rule) : (Goal.operandBy rule).Registered :=
  (h.operand_cases hrule).imp_right And.left

end Registered

end Grammar

end Monkey
