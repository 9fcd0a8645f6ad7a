import Monkey.Syntax
import Monkey.Grammar
import Monkey.Grammar.Outcome

/-!
# Reading expressions

An expression is an operand followed by operators, each with its right operand, for as long as the
next operator binds more tightly than the power asked for.  The operand, the operators and the
right operands are read by one recursion over goals; a goal either uses up a token or turns into
a goal of lower rank.

The equations `read_expression`, `read_operand_cons`, `read_operators_cons` and so on say what
each goal does, and `rest_read` that each leaves a suffix of the row.  A row without tokens starts
no operand, whatever the grammar.

The recursion is over the row, so it comes to its end on every row.  `Steps.read` reaches the same
goals on a state that gives its tokens one by one, and `Pull.yields_read` says that the two agree.
-/

namespace Monkey

namespace Token

/-- The signs that may stand in a row in front of one operand. -/
def isUnarySign (token : Token) : Bool :=
  token.kind == .bang || token.kind == .minus

def primary (token : Token) : Except Diagnostic Expr :=
  match token.kind with
  | .int =>
      match Text.intValue? token.literal with
      | some n => .ok (.int token n)
      | none => .error ⟨.badInteger token.literal, token.literal⟩
  | .ident => .ok (.ident ⟨token, token.literal⟩)
  | _ => .error token.noOperand

end Token

/-- What was read, if a closing parenthesis comes next; the parenthesis is then the current
token. -/
def Outcome.closed (o : Outcome Expr) : Outcome Expr :=
  o.andThen fun inner rest => (Token.expectPeek .rparen rest).map fun _ => inner

theorem Outcome.rest_closed (o : Outcome Expr) : o.closed.rest <:+ o.rest :=
  o.rest_andThen fun _ rest => by
    rw [rest_map]
    exact Token.rest_expectPeek .rparen rest

namespace Grammar

/-- What is to be read next off a row of tokens. -/
inductive Goal where
  /-- An expression whose operators bind more tightly than the power. -/
  | expression (power : Power)
  /-- An operand, by the rule of the current token. -/
  | operand
  /-- An operand, by the rule given. -/
  | operandBy (rule : OperandRule)
  /-- The right operand of the current token, an operator that holds it with the power. -/
  | rightOperand (left : Expr) (power : Power)
  /-- The operators after a left operand that bind more tightly than the power. -/
  | operators (left : Expr) (power : Power)

namespace Goal

def rank : Goal → Nat
  | expression _ => 3
  | operand => 2
  | operandBy _ => 1
  | rightOperand .. => 1
  | operators .. => 2

end Goal

variable (g : Grammar)

/-- The operator that comes next, if it binds more tightly than the power.  No operator is looked
for past a semicolon. -/
def nextOperator? (power : Power) (row : List Token) : Option Operator :=
  if (Token.peek row).kind = .semicolon then none
  else (g.operator (Token.peek row).kind).filter (power < ·.power)

/-- An outcome that leaves a suffix of the row it was read from. -/
abbrev Within (row : List Token) : Type :=
  { o : Outcome Expr // o.rest <:+ row }

namespace Within

variable {row : List Token}

/-- Goes on reading after a success, with what is known of the row that is left. -/
def andThen (o : Within row)
    (f : Expr → (rest : List Token) → rest <:+ row → Within rest) : Within row :=
  match o with
  | ⟨⟨.error d, rest⟩, h⟩ => ⟨⟨.error d, rest⟩, h⟩
  | ⟨⟨.ok e, rest⟩, h⟩ => ⟨(f e rest h).1, (f e rest h).2.trans h⟩

theorem val_andThen (o : Within row) {f : Expr → (rest : List Token) → rest <:+ row → Within rest}
    {k : Expr → List Token → Outcome Expr} (h : ∀ e rest tail, (f e rest tail).1 = k e rest) :
    (o.andThen f).1 = o.1.andThen k := by
  obtain ⟨⟨result, rest⟩, tail⟩ := o
  cases result with
  | error d => rfl
  | ok e => exact h e rest tail

def map (o : Within row) (f : Expr → Expr) : Within row :=
  ⟨o.1.map f, by rw [Outcome.rest_map]; exact o.2⟩

def widen {longer : List Token} (o : Within row) (h : row <:+ longer) : Within longer :=
  ⟨o.1, o.2.trans h⟩

end Within

/-- Reaches a goal and leaves a suffix of the row. -/
def readWithin (goal : Goal) (row : List Token) : Within row :=
  match goal, row with
  | .expression power, row =>
      (readWithin .operand row).andThen fun left rest tail =>
        have := tail.length_le
        readWithin (.operators left power) rest
  | .operand, [] => ⟨.noOperand .eof [], List.suffix_rfl⟩
  | .operand, token :: rest =>
      match g.operand token.kind with
      | none => ⟨.noOperand token (token :: rest), List.suffix_rfl⟩
      | some rule => readWithin (.operandBy rule) (token :: rest)
  | .operandBy _, [] => ⟨.noOperand .eof [], List.suffix_rfl⟩
  | .operandBy .primary, token :: rest =>
      ⟨⟨token.primary, token :: rest⟩, List.suffix_rfl⟩
  | .operandBy .unaryRun, token :: rest =>
      have tail := List.dropWhile_suffix (l := rest) Token.isUnarySign
      have := tail.length_le
      ((readWithin (.expression .unary) (rest.dropWhile Token.isUnarySign)).map
        (Expr.underAll (token :: rest.takeWhile Token.isUnarySign))).widen
          (tail.trans (List.suffix_cons token rest))
  | .operandBy .unaryOnce, token :: rest =>
      ((readWithin (.expression .unary) rest).map (Expr.unary token)).widen
        (List.suffix_cons token rest)
  | .operandBy .group, token :: rest =>
      let o := readWithin (.expression .lowest) rest
      ⟨o.1.closed, (o.1.rest_closed.trans o.2).trans (List.suffix_cons token rest)⟩
  | .rightOperand _ _, [] => ⟨.noOperand .eof [], List.suffix_rfl⟩
  | .rightOperand left power, operator :: rest =>
      ((readWithin (.expression power) rest).map (Expr.binary left operator)).widen
        (List.suffix_cons operator rest)
  | .operators left _, [] => ⟨.ok left [], List.suffix_rfl⟩
  | .operators left power, token :: rest =>
      match g.nextOperator? power (token :: rest) with
      | none => ⟨.ok left (token :: rest), List.suffix_rfl⟩
      | some operator =>
          ((readWithin (.rightOperand left operator.rightPower) rest).andThen
            fun joined after tail =>
              have := tail.length_le
              readWithin (.operators joined power) after).widen (List.suffix_cons token rest)
termination_by 4 * row.length + goal.rank
decreasing_by all_goals simp only [List.length_cons, Goal.rank]; omega

def read (goal : Goal) (row : List Token) : Outcome Expr :=
  (g.readWithin goal row).1

theorem rest_read (goal : Goal) (row : List Token) : (g.read goal row).rest <:+ row :=
  (g.readWithin goal row).2

/-! ### What each goal does -/

theorem read_expression (power : Power) (row : List Token) :
    g.read (.expression power) row =
      (g.read .operand row).andThen fun left rest => g.read (.operators left power) rest := by
  rw [read, readWithin]
  exact Within.val_andThen _ fun _ _ _ => rfl

theorem read_operand_nil : g.read .operand [] = .noOperand .eof [] := by
  rw [read, readWithin]

theorem read_operand_cons (token : Token) (rest : List Token) :
    g.read .operand (token :: rest) =
      match g.operand token.kind with
      | none => .noOperand token (token :: rest)
      | some rule => g.read (.operandBy rule) (token :: rest) := by
  rw [read, readWithin]
  cases g.operand token.kind <;> rfl

theorem read_operandBy_nil (rule : OperandRule) :
    g.read (.operandBy rule) [] = .noOperand .eof [] := by
  rw [read, readWithin]

theorem read_primary (token : Token) (rest : List Token) :
    g.read (.operandBy .primary) (token :: rest) = ⟨token.primary, token :: rest⟩ := by
  rw [read, readWithin]

theorem read_unaryRun (token : Token) (rest : List Token) :
    g.read (.operandBy .unaryRun) (token :: rest) =
      (g.read (.expression .unary) (rest.dropWhile Token.isUnarySign)).map
        (Expr.underAll (token :: rest.takeWhile Token.isUnarySign)) := by
  rw [read, readWithin]
  rfl

theorem read_unaryOnce (token : Token) (rest : List Token) :
    g.read (.operandBy .unaryOnce) (token :: rest) =
      (g.read (.expression .unary) rest).map (Expr.unary token) := by
  rw [read, readWithin]
  rfl

theorem read_group (token : Token) (rest : List Token) :
    g.read (.operandBy .group) (token :: rest) = (g.read (.expression .lowest) rest).closed := by
  rw [read, readWithin]
  rfl

theorem read_rightOperand_nil (left : Expr) (power : Power) :
    g.read (.rightOperand left power) [] = .noOperand .eof [] := by
  rw [read, readWithin]

theorem read_rightOperand_cons (left : Expr) (power : Power) (operator : Token)
    (rest : List Token) :
    g.read (.rightOperand left power) (operator :: rest) =
      (g.read (.expression power) rest).map (Expr.binary left operator) := by
  rw [read, readWithin]
  rfl

theorem read_operators_nil (left : Expr) (power : Power) :
    g.read (.operators left power) [] = .ok left [] := by
  rw [read, readWithin]

theorem read_operators_cons (left : Expr) (power : Power) (token : Token) (rest : List Token) :
    g.read (.operators left power) (token :: rest) =
      match g.nextOperator? power (token :: rest) with
      | none => .ok left (token :: rest)
      | some operator =>
          (g.read (.rightOperand left operator.rightPower) rest).andThen fun joined after =>
            g.read (.operators joined power) after := by
  rw [read, readWithin]
  cases g.nextOperator? power (token :: rest) with
  | none => rfl
  | some operator =>
    exact Within.val_andThen (g.readWithin (.rightOperand left operator.rightPower) rest)
      (k := fun joined after => g.read (.operators joined power) after) fun _ _ _ => rfl

end Grammar

end Monkey
