import Mathlib.Control.Monad.Basic
import Monkey.Parser
import Monkey.Proofs.Precedence
import Monkey.Proofs.Registered

/-!
# Operators bind by their powers

In every grammar that is made of the rules of the language, whatever the kinds and the powers of
its operators, an expression that is read is ordered by them (`expression_ordered`): an operator at
the root of the tree binds more tightly than the power asked for, a right operand and the operand of
a sign are held together more tightly than what holds them, and a left operand at least as tightly.

Nothing in the reader compares an operator with its left operand.  The bound follows from why the
reading of the right operand in front of it has stopped: `Expr.Held` is the invariant of the loop
over operators, and `Goal.Bound` what each goal yields.
-/

namespace Monkey

namespace Expr

/-- The operator that comes next in the row, if there is one, may take the tree as its left
operand. -/
def Held (g : Grammar) (row : List Token) (e : Expr) : Prop :=
  row = [] ∨ (Token.peek row).kind = .semicolon ∨ e.AtLeast g (g.power (Token.peek row).kind)

variable {g : Grammar} {e : Expr} {power : Power}

theorem above_of_rootPower?_eq_none (h : e.rootPower? g = none) : e.Above g power := by
  intro p hp
  rw [h] at hp
  cases hp

theorem held_of_rootPower?_eq_none (h : e.rootPower? g = none) (row : List Token) :
    e.Held g row := by
  refine .inr (.inr fun p hp => ?_)
  rw [h] at hp
  cases hp

end Expr

namespace Grammar

variable {g : Grammar} {goal : Goal} {power : Power} {row rest : List Token} {left e : Expr}

/-- What is known of the tree that a goal yields. -/
def Goal.Bound (g : Grammar) : Goal → List Token → Expr → Prop
  | expression power, _, e => e.Above g power ∧ e.Ordered g
  | operand, _, e => e.rootPower? g = none ∧ e.Ordered g
  | operandBy _, _, e => e.rootPower? g = none ∧ e.Ordered g
  | rightOperand left power, row, e =>
      ∃ right, e = .binary left (Token.current row) right ∧ right.Above g power ∧ right.Ordered g
  | operators left power, row, e =>
      left.Above g power → left.Ordered g → left.Held g row → e.Above g power ∧ e.Ordered g

theorem lt_power_of_nextOperator? {operator : Operator}
    (h : g.nextOperator? power row = some operator) :
    power < g.power (Token.peek row).kind ∧ (Token.peek row).kind ≠ .semicolon := by
  have hsome : g.nextOperator? power row ≠ none := by
    rw [h]
    exact Option.some_ne_none operator
  rw [Ne, nextOperator?_eq_none_iff, not_or, not_le] at hsome
  exact ⟨hsome.2, hsome.1⟩

/-- The right operand of an operator ends in front of an operator that may take the whole as its
left operand. -/
theorem Reads.held_of_rightOperand
    (h : Reads g (.rightOperand left (g.power (Token.current row).kind)) row e rest) :
    e.Held g rest := by
  cases h with
  | @rightOperand left right power operator body _ hright =>
      obtain hnil | hnext := hright.stopped
      · exact .inl hnil
      · refine .inr ((nextOperator?_eq_none_iff.mp hnext).imp_right fun hle => ?_)
        intro p hp
        obtain rfl : g.power operator.kind = p := Option.some.inj hp
        exact hle

theorem ordered_underAll (operators : List Token) (habove : e.Above g .unary)
    (hordered : e.Ordered g) : (Expr.underAll operators e).Ordered g := by
  induction operators with
  | nil => exact hordered
  | cons operator operators ih =>
      refine ⟨?_, ih⟩
      cases operators with
      | nil => exact habove
      | cons next operators => exact Expr.above_of_rootPower?_eq_none rfl

/-- **Every reading yields an ordered tree.** -/
theorem Reads.bound (hg : g.Registered) (h : Reads g goal row e rest)
    (hgoal : goal.Registered) : goal.Bound g row e := by
  induction h with
  | expression _ _ ih₁ ih₂ =>
      obtain ⟨hroot, hordered⟩ := ih₁ trivial
      exact ih₂ trivial (Expr.above_of_rootPower?_eq_none hroot) hordered
        (Expr.held_of_rootPower?_eq_none hroot _)
  | operand hrule _ ih => exact ih (hg.goal_of_operand hrule)
  | name => exact ⟨rfl, trivial⟩
  | integer => exact ⟨rfl, trivial⟩
  | unaryRun _ ih =>
      obtain ⟨habove, hordered⟩ := ih trivial
      exact ⟨rfl, ordered_underAll _ habove hordered⟩
  | unaryOnce | group =>
      obtain hrule | hrule := hgoal
      · cases hrule
      · cases hrule
  | @rightOperand left right power operator rest after _ ih =>
      obtain ⟨habove, hordered⟩ := ih trivial
      exact ⟨right, rfl, habove, hordered⟩
  | operatorsNil =>
      intro habove hordered _
      exact ⟨habove, hordered⟩
  | operatorsStop =>
      intro habove hordered _
      exact ⟨habove, hordered⟩
  | @operatorsStep left joined e power token operator rest after last hnext hjoined _ ih₁ ih₂ =>
      intro habove hordered hheld
      have hoperator : g.operator (Token.current rest).kind = some operator :=
        operator_of_nextOperator? hnext
      obtain ⟨hpower, hsemicolon⟩ :
          power < g.power (Token.current rest).kind ∧ (Token.current rest).kind ≠ .semicolon :=
        lt_power_of_nextOperator? hnext
      have hleft : left.AtLeast g (g.power (Token.current rest).kind) := by
        obtain hnil | hkind | hleast := hheld
        · cases hnil
        · exact absurd hkind hsemicolon
        · exact hleast
      rw [hg.rightPower_eq hoperator] at hjoined ih₁
      have hjoinedHeld : joined.Held g after := hjoined.held_of_rightOperand
      obtain ⟨right, rfl, hright, hrightOrdered⟩ := ih₁ trivial
      refine ih₂ trivial ?_ ⟨hleft, hright, hordered, hrightOrdered⟩ hjoinedHeld
      intro p hp
      obtain rfl : g.power (Token.current rest).kind = p := Option.some.inj hp
      exact hpower

end Grammar

/-- **Operators bind by their powers in every grammar of the language.**  Whatever kinds are
registered as operands, signs and operators of whatever power, and wherever a reading starts: in an
expression that is read, an operator at the root binds more tightly than the power asked for, the
right operand of every operator and the operand of every sign more tightly than what holds it, and
the left operand of every operator at least as tightly. -/
theorem expression_ordered (p : Parser) (power : Power) (e : Expr) (hp : p.grammar.Registered)
    (h : (p.expression power).1 = .ok e) : e.Above p.grammar power ∧ e.Ordered p.grammar := by
  have hread : p.grammar.read (.expression power) p.row =
      .ok e (p.grammar.read (.expression power) p.row).rest :=
    congrArg (Outcome.mk · (p.grammar.read (.expression power) p.row).rest) h
  exact (Grammar.read_eq_ok_iff.mp hread).bound hp trivial

/-- A comma that binds more tightly than a sign, and an asterisk that is a sign as well. -/
theorem expression_ordered_tight_comma :
    let p := (Parser.ofCursor (.ofSource "-a,b<*c,d+e")).withGrammar fun g =>
      ((g.setOperator .comma ⟨.call, .left⟩).setOperator .lt ⟨.product, .left⟩).setOperand
        .asterisk .unaryRun
    let e : Expr :=
      .binary
        (.binary
          (.unary ⟨.minus, "-"⟩
            (.binary (.ident ⟨⟨.ident, "a"⟩, "a"⟩) ⟨.comma, ","⟩ (.ident ⟨⟨.ident, "b"⟩, "b"⟩)))
          ⟨.lt, "<"⟩
          (.unary ⟨.asterisk, "*"⟩
            (.binary (.ident ⟨⟨.ident, "c"⟩, "c"⟩) ⟨.comma, ","⟩ (.ident ⟨⟨.ident, "d"⟩, "d"⟩))))
        ⟨.plus, "+"⟩ (.ident ⟨⟨.ident, "e"⟩, "e"⟩)
    (p.expression .lowest).1 = .ok e ∧ e.Above p.grammar .lowest ∧ e.Ordered p.grammar :=
  have h := by decide +kernel
  ⟨h, expression_ordered _ _ _
    (.unaryRun .asterisk nofun (.operator .lt .product (.operator .comma .call
      Grammar.registered_standard))) h⟩

end Monkey
