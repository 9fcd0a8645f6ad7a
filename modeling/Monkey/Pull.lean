import Monkey.Parser
import Monkey.Reader

/-!
# Readers on a window

Expressions, statements and programs are read by pulling one token at a time from the cursor of a
window, with the rules of a grammar.
-/

namespace Monkey

/-- A reader that works on a window. -/
abbrev Pull (α : Type) : Type :=
  Reader Window α

namespace Pull

/-- The tokens of a window. -/
def moves : Moves Window where
  current := return (← get).current
  peek := return (← get).peek
  advance := modify Window.advance

/-- The current token as a name or an integer.  It stays the current token. -/
def primary : Pull Expr :=
  moves.primary

/-- The operator that a kind of token is after a left operand, if it binds more tightly than the
power. -/
def operatorAt? (g : Grammar) (power : Power) (kind : Kind) : Option Operator :=
  if kind = .semicolon then none else (g.operator kind).filter (power < ·.power)

/-- Moves on to the operator that comes next, if it binds more tightly than the power. -/
def takeOperator? (g : Grammar) (power : Power) : Pull (Option Operator) := do
  let next ← moves.peek
  match operatorAt? g power next.kind with
  | none => return none
  | some operator =>
      moves.advance
      return some operator

/-- Reading with the rules of a grammar.  A token without a rule for a statement starts an
expression. -/
def steps (g : Grammar) : Steps Window where
  toMoves := moves
  statementRule := do
    let token ← moves.current
    return (g.statement token.kind).getD .expression
  operandRule := moves.operandRule g.operand
  takeOperator? := takeOperator? g

variable (g : Grammar) (depth : Nat)

def read (goal : Grammar.Goal) : Pull Expr :=
  (steps g).read depth goal

def statementBy (rule : StatementRule) : Pull Stmt :=
  (steps g).statementBy depth rule

def statement : Pull Stmt :=
  (steps g).statement depth

end Pull

/-! ### Programs -/

/-- A parser that pulls its tokens from a cursor. -/
structure PullParser where
  grammar : Grammar
  window : Window
  /-- What has been recorded, oldest first. -/
  diagnostics : List Diagnostic

namespace PullParser

def ofCursor (cursor : Cursor) : PullParser :=
  ⟨.standard, .ofCursor cursor, []⟩

/-- The parser for the tokens that are still to be pulled. -/
def toParser (p : PullParser) : Parser :=
  ⟨p.grammar, p.window.unread, p.diagnostics⟩

/-- Reads statements until the current token marks the end, and adds them to those read before;
what is wrong is recorded, and reading goes on behind it. -/
def programAfter : Nat → List Stmt → PullParser → Option (Program × PullParser)
  | 0, _, _ => none
  | depth + 1, statements, p => do
      if p.window.current.kind = .eof then
        return (⟨statements⟩, p)
      else
        let (result, w) ← (Pull.statement p.grammar depth).startAt p.window
        match result with
        | .ok s => programAfter depth (statements ++ [s]) { p with window := w.advance }
        | .error d =>
            programAfter depth statements
              { p with window := w.resume.advance, diagnostics := p.diagnostics ++ [d] }

end PullParser

end Monkey
