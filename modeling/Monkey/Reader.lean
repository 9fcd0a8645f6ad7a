import Monkey.Grammar.Expression

/-!
# Readers that look at one token after the other

A reader works on a state of any kind, from which it takes its tokens one by one.  It decides by the
current token and the one after it, and stops at the first thing that is wrong.  A text does not
bound how often a token is taken, since at its end there is always one more token `eof`.  The calls
of readers and the turns of their loops are bounded by a depth instead, and a reader that has used
it up has no result.

How a state shows its tokens is told by `Moves`, and how it answers for the rules of a kind of token
by `Steps`.  Expressions and statements are read by one reader for all of them, `Steps.read` and
`Steps.statement`.
-/

namespace Monkey

/-- A reader: it works on a state and gives a result or a diagnostic, or none of them if its depth
is used up. -/
abbrev Reader (σ α : Type) : Type :=
  ExceptT Diagnostic (StateT σ Option) α

namespace Reader

variable {σ α : Type}

/-- The result of a reader and the state it leaves; nothing if its depth is used up. -/
def startAt (m : Reader σ α) (s : σ) : Option (Except Diagnostic α × σ) :=
  StateT.run (ExceptT.run m) s

def exhausted : Reader σ α :=
  ExceptT.lift (StateT.lift none)

end Reader

/-- How the tokens of a state are seen and taken. -/
structure Moves (σ : Type) where
  current : Reader σ Token
  /-- The token after the current one. -/
  peek : Reader σ Token
  /-- Moves on by one token. -/
  advance : Reader σ Unit

namespace Moves

variable {σ : Type} (r : Moves σ)

/-- Moves on to the next token if it is of the kind that is expected. -/
def expectPeek (kind : Kind) : Reader σ Token := do
  let next ← r.peek
  if next.kind = kind then
    r.advance
    r.current
  else
    throw ⟨.unexpectedToken kind next.kind, next.literal⟩

/-- Moves on to a semicolon that comes next. -/
def skipSemicolon : Reader σ Unit := do
  let next ← r.peek
  if next.kind = .semicolon then
    r.advance

/-- The rule of the current token in a table of operands; gives up if it has none. -/
def operandRule (operands : Kind → Option OperandRule) : Reader σ OperandRule := do
  let token ← r.current
  match operands token.kind with
  | none => throw token.noOperand
  | some rule => return rule

/-- The current token as a name or an integer.  It stays the current token. -/
def primary : Reader σ Expr := do
  let token ← r.current
  ofExcept token.primary

/-- All signs from the current token on. -/
def signs : Nat → Reader σ (List Token)
  | 0 => .exhausted
  | depth + 1 => do
      let token ← r.current
      if token.isUnarySign then
        r.advance
        let more ← signs depth
        return token :: more
      else
        return []

end Moves

/-- How a state answers for the rules of the kinds of tokens. -/
structure Steps (σ : Type) extends Moves σ where
  /-- The rule of the current token for a statement. -/
  statementRule : Reader σ StatementRule
  /-- The rule of the current token for an operand; gives up if it has none. -/
  operandRule : Reader σ OperandRule
  /-- Moves on to the operator that comes next, if it is taken with the power. -/
  takeOperator? : Power → Reader σ (Option Operator)

namespace Steps

variable {σ : Type} (r : Steps σ)

/-! ### Expressions -/

def read : Nat → Grammar.Goal → Reader σ Expr
  | 0, _ => .exhausted
  | depth + 1, .expression power => do
      let left ← read depth .operand
      read depth (.operators left power)
  | depth + 1, .operand => do
      let rule ← r.operandRule
      read depth (.operandBy rule)
  | _ + 1, .operandBy .primary => r.primary
  | depth + 1, .operandBy .unaryRun => do
      let token ← r.current
      r.advance
      let more ← r.signs depth
      let operand ← read depth (.expression .unary)
      return .underAll (token :: more) operand
  | depth + 1, .operandBy .unaryOnce => do
      let token ← r.current
      r.advance
      let operand ← read depth (.expression .unary)
      return .unary token operand
  | depth + 1, .operandBy .group => do
      r.advance
      let inner ← read depth (.expression .lowest)
      let _ ← r.expectPeek .rparen
      return inner
  | depth + 1, .rightOperand left power => do
      let operator ← r.current
      r.advance
      let right ← read depth (.expression power)
      return .binary left operator right
  | depth + 1, .operators left power => do
      match ← r.takeOperator? power with
      | none => return left
      | some operator =>
          let joined ← read depth (.rightOperand left operator.rightPower)
          read depth (.operators joined power)

/-! ### Statements -/

variable (depth : Nat)

/-- The expression of a statement and the semicolon after it, if there is one. -/
def closingExpression : Reader σ Expr := do
  let e ← r.read depth (.expression .lowest)
  r.skipSemicolon
  return e

def statementBy : StatementRule → Reader σ Stmt
  | .binding => do
      let word ← r.current
      let name ← r.expectPeek .ident
      let _ ← r.expectPeek .assign
      r.advance
      let value ← r.closingExpression depth
      return .letStmt word ⟨name, name.literal⟩ value
  | .returning => do
      let word ← r.current
      r.advance
      let value ← r.closingExpression depth
      return .returnStmt word value
  | .expression => do
      let token ← r.current
      let value ← r.closingExpression depth
      return .exprStmt token value

def statement : Reader σ Stmt := do
  let rule ← r.statementRule
  r.statementBy depth rule

end Steps

end Monkey
