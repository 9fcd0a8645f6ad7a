import Monkey.Reader

/-!
# Readers that are made alike

Expressions and statements are read by one reader, whatever the state is that it works on.  If a
relation between readers goes along with putting readers together (`Reader.Congruence`) and holds
between the steps of two states (`Steps.Related`), then it holds between what is read with them:
`Steps.Related.read` for expressions, `Steps.Related.statement` for statements.
-/

namespace Monkey

variable {σ τ α β : Type}

namespace Reader

variable {m : Reader σ α} {f : α → Reader σ β} {s s' : σ} {a : α} {d : Diagnostic}

theorem startAt_bind (m : Reader σ α) (f : α → Reader σ β) (s : σ) :
    (m >>= f).startAt s = (m.startAt s).bind fun p =>
      match p.1 with
      | .ok a => (f a).startAt p.2
      | .error d => some (.error d, p.2) := by
  simp only [startAt, ExceptT.run, StateT.run, bind, ExceptT.bind, ExceptT.mk, StateT.bind]
  cases m s with
  | none => rfl
  | some p =>
      obtain ⟨result, s'⟩ := p
      cases result <;> rfl

theorem startAt_bind_none (h : m.startAt s = none) : (m >>= f).startAt s = none := by
  rw [startAt_bind, h, Option.bind_none]

theorem startAt_bind_ok (h : m.startAt s = some (.ok a, s')) :
    (m >>= f).startAt s = (f a).startAt s' := by
  rw [startAt_bind, h, Option.bind_some]

theorem startAt_bind_error (h : m.startAt s = some (.error d, s')) :
    (m >>= f).startAt s = some (.error d, s') := by
  rw [startAt_bind, h, Option.bind_some]

/-- A relation between readers that goes along with putting readers together. -/
structure Congruence (R : {α : Type} → Reader σ α → Reader τ α → Prop) : Prop where
  pure {α : Type} (a : α) : R (pure a) (pure a)
  throw {α : Type} (d : Diagnostic) : R (throw d : Reader σ α) (throw d)
  exhausted {α : Type} : R (exhausted : Reader σ α) exhausted
  bind {α β : Type} {m : Reader σ α} {m' : Reader τ α} {f : α → Reader σ β} {f' : α → Reader τ β} :
    R m m' → (∀ a, R (f a) (f' a)) → R (m >>= f) (m' >>= f')

end Reader

variable {R : {α : Type} → Reader σ α → Reader τ α → Prop}

namespace Moves

/-- The moves of two states are related, and so is what is put together of them. -/
structure Related (R : {α : Type} → Reader σ α → Reader τ α → Prop) (r : Moves σ) (r' : Moves τ) :
    Prop extends Reader.Congruence R where
  current : R r.current r'.current
  peek : R r.peek r'.peek
  advance : R r.advance r'.advance

namespace Related

variable {r : Moves σ} {r' : Moves τ} (h : r.Related R r')

include h

theorem expectPeek (kind : Kind) : R (r.expectPeek kind) (r'.expectPeek kind) := by
  refine h.bind h.peek fun next => ?_
  split
  · exact h.bind h.advance fun _ => h.current
  · exact h.throw _

theorem skipSemicolon : R r.skipSemicolon r'.skipSemicolon := by
  refine h.bind h.peek fun next => ?_
  split
  · exact h.advance
  · exact h.pure ()

theorem operandRule (operands : Kind → Option OperandRule) :
    R (r.operandRule operands) (r'.operandRule operands) := by
  refine h.bind h.current fun token => ?_
  cases operands token.kind with
  | none => exact h.throw _
  | some rule => exact h.pure rule

theorem primary : R r.primary r'.primary := by
  refine h.bind h.current fun token => ?_
  cases token.primary with
  | error d => exact h.throw d
  | ok e => exact h.pure e

theorem signs (depth : Nat) : R (r.signs depth) (r'.signs depth) := by
  induction depth with
  | zero => exact h.exhausted
  | succ depth ih =>
      refine h.bind h.current fun token => ?_
      split
      · exact h.bind h.advance fun _ => h.bind ih fun more => h.pure _
      · exact h.pure _

end Related

end Moves

namespace Steps

/-- The steps of two states are related, and so is what is put together of them. -/
structure Related (R : {α : Type} → Reader σ α → Reader τ α → Prop) (r : Steps σ) (r' : Steps τ) :
    Prop extends Moves.Related R r.toMoves r'.toMoves where
  statementRule : R r.statementRule r'.statementRule
  operandRule : R r.operandRule r'.operandRule
  takeOperator? : ∀ power, R (r.takeOperator? power) (r'.takeOperator? power)

namespace Related

variable {r : Steps σ} {r' : Steps τ} (h : r.Related R r')

include h

/-- **Expressions are read alike with related steps.** -/
theorem read (depth : Nat) (goal : Grammar.Goal) : R (r.read depth goal) (r'.read depth goal) := by
  induction depth generalizing goal with
  | zero => exact h.exhausted
  | succ depth ih =>
      cases goal with
      | expression power => exact h.bind (ih .operand) fun left => ih (.operators left power)
      | operand => exact h.bind h.operandRule fun rule => ih (.operandBy rule)
      | operandBy rule =>
          cases rule with
          | primary => exact h.primary
          | unaryRun =>
              refine h.bind h.current fun token => h.bind h.advance fun _ => ?_
              refine h.bind (h.signs depth) fun more => ?_
              exact h.bind (ih (.expression .unary)) fun operand => h.pure _
          | unaryOnce =>
              refine h.bind h.current fun token => h.bind h.advance fun _ => ?_
              exact h.bind (ih (.expression .unary)) fun operand => h.pure _
          | group =>
              refine h.bind h.advance fun _ => h.bind (ih (.expression .lowest)) fun inner => ?_
              exact h.bind (h.expectPeek .rparen) fun _ => h.pure inner
      | rightOperand left power =>
          refine h.bind h.current fun operator => h.bind h.advance fun _ => ?_
          exact h.bind (ih (.expression power)) fun right => h.pure _
      | operators left power =>
          refine h.bind (h.takeOperator? power) fun next => ?_
          cases next with
          | none => exact h.pure left
          | some operator =>
              exact h.bind (ih (.rightOperand left operator.rightPower)) fun joined =>
                ih (.operators joined power)

theorem closingExpression (depth : Nat) :
    R (r.closingExpression depth) (r'.closingExpression depth) :=
  h.bind (h.read depth (.expression .lowest)) fun e => h.bind h.skipSemicolon fun _ => h.pure e

theorem statementBy (depth : Nat) (rule : StatementRule) :
    R (r.statementBy depth rule) (r'.statementBy depth rule) := by
  cases rule with
  | binding =>
      refine h.bind h.current fun word => h.bind (h.expectPeek .ident) fun name => ?_
      refine h.bind (h.expectPeek .assign) fun _ => h.bind h.advance fun _ => ?_
      exact h.bind (h.closingExpression depth) fun value => h.pure _
  | returning =>
      refine h.bind h.current fun word => h.bind h.advance fun _ => ?_
      exact h.bind (h.closingExpression depth) fun value => h.pure _
  | expression =>
      exact h.bind h.current fun token => h.bind (h.closingExpression depth) fun value => h.pure _

/-- **Statements are read alike with related steps.** -/
theorem statement (depth : Nat) : R (r.statement depth) (r'.statement depth) :=
  h.bind h.statementRule fun rule => h.statementBy depth rule

end Related

end Steps

end Monkey
