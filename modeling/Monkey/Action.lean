import Monkey.Lookups

/-!
# Readers that work on a whole parser

A parser holds its tables, its window on the tokens of a text, and the diagnostics recorded so far.
The readers of `Monkey.Pull` are given a window only.  Here each reader is given the whole parser
and may change all of it: it looks its rules up where they stand at that moment, and whatever it has
changed stays changed when it gives up.

`ParserState.Request` lists the readers that can be called from outside, apart from
`Action.programAfter`, which records what the others hand back.
-/

namespace Monkey

/-- A parser with all that its readers can see and change. -/
structure ParserState where
  tables : Lookups
  window : Window
  /-- What has been recorded, oldest first. -/
  diagnostics : List Diagnostic

/-- A reader that works on a whole parser. -/
abbrev Action (α : Type) : Type :=
  Reader ParserState α

namespace Action

/-- What a reader comes to, as a value: a failure does not end the reading. -/
def attempt {α : Type} (m : Action α) : Action (Except Diagnostic α) :=
  ExceptT.lift (ExceptT.run m)

/-- The tokens of the window that a parser holds. -/
def moves : Moves ParserState where
  current := return (← get).window.current
  peek := return (← get).window.peek
  advance := modify fun s => { s with window := s.window.advance }

/-- The tables as they are. -/
def tables : Action Lookups :=
  return (← get).tables

/-- Reading with the tables as they are at each time. -/
def steps : Steps ParserState :=
  Lookups.steps moves tables

def record (d : Diagnostic) : Action Unit :=
  modify fun s => { s with diagnostics := s.diagnostics ++ [d] }

/-- Passes the semicolon that ends a statement which could not be read, unless it is the current
token already. -/
def resume : Action Unit := do
  let token ← moves.current
  let next ← moves.peek
  if token.kind ≠ .semicolon ∧ next.kind = .semicolon then
    moves.advance

/-! ### Programs -/

/-- Reads statements until the current token marks the end, and adds them to those read before;
what is wrong is recorded, and reading goes on behind it. -/
def programAfter : Nat → List Stmt → Action Program
  | 0, _ => .exhausted
  | depth + 1, statements => do
      let token ← moves.current
      if token.kind = .eof then
        return ⟨statements⟩
      else
        match ← attempt (steps.statement depth) with
        | .ok s =>
            moves.advance
            programAfter depth (statements ++ [s])
        | .error d =>
            record d
            resume
            moves.advance
            programAfter depth statements

end Action

/-! ### Requests -/

namespace ParserState

/-- What a parser can be asked for besides a program. -/
inductive Request where
  | advance
  | expectPeek (kind : Kind)
  | expression (power : Power)
  | operandBy (rule : OperandRule)
  | rightOperand (left : Expr) (power : Power)
  | statement
  | statementBy (rule : StatementRule)

namespace Request

/-- What is handed back on a success. -/
def Value : Request → Type
  | advance => Unit
  | expectPeek _ => Token
  | expression _ => Expr
  | operandBy _ => Expr
  | rightOperand _ _ => Expr
  | statement => Stmt
  | statementBy _ => Stmt

/-- The reader that is called, with the steps of a state. -/
def readBy {σ : Type} (steps : Steps σ) (depth : Nat) : (r : Request) → Reader σ r.Value
  | advance => steps.advance
  | expectPeek kind => steps.expectPeek kind
  | expression power => steps.read depth (.expression power)
  | operandBy rule => steps.read depth (.operandBy rule)
  | rightOperand left power => steps.read depth (.rightOperand left power)
  | statement => steps.statement depth
  | statementBy rule => steps.statementBy depth rule

def run (r : Request) (depth : Nat) : Action r.Value :=
  r.readBy Action.steps depth

end Request

end ParserState

end Monkey
