import Monkey.Cursor
import Monkey.Grammar.Program

/-!
# Parsers

A parser is a grammar that can be changed between two readings, the tokens that are still to be
read, and the diagnostics recorded so far.  Readings on request hand back what is wrong; only
reading a whole program records it.
-/

namespace Monkey

/-- A reading in progress. -/
structure Parser where
  grammar : Grammar
  /-- The tokens from the current one on. -/
  row : List Token
  /-- What has been recorded, oldest first. -/
  diagnostics : List Diagnostic

namespace Parser

def ofCursor (cursor : Cursor) : Parser :=
  ⟨.standard, cursor.tokens, []⟩

def current (p : Parser) : Token :=
  Token.current p.row

def peek (p : Parser) : Token :=
  Token.peek p.row

def currentPower (p : Parser) : Power :=
  p.grammar.power p.current.kind

def peekPower (p : Parser) : Power :=
  p.grammar.power p.peek.kind

/-- Changes the grammar for the readings to come. -/
def withGrammar (p : Parser) (f : Grammar → Grammar) : Parser :=
  { p with grammar := f p.grammar }

def advance (p : Parser) : Parser :=
  { p with row := p.row.tail }

/-- The result of a reader, and the parser at the token where it stopped. -/
def run {α : Type} (p : Parser) (reader : Grammar → List Token → Outcome α) :
    Except Diagnostic α × Parser :=
  let o := reader p.grammar p.row
  (o.result, { p with row := o.rest })

def expectPeek (p : Parser) (kind : Kind) : Except Diagnostic Token × Parser :=
  p.run fun _ => Token.expectPeek kind

/-- An expression whose operators bind more tightly than the power. -/
def expression (p : Parser) (power : Power) : Except Diagnostic Expr × Parser :=
  p.run fun g => g.read (.expression power)

/-- An operand by the rule given, whatever the rule of the current token. -/
def operandBy (p : Parser) (rule : OperandRule) : Except Diagnostic Expr × Parser :=
  p.run fun g => g.read (.operandBy rule)

/-- The current token, whatever it is, as an operator after the left operand, and its right operand
with operators that bind more tightly than the power. -/
def rightOperand (p : Parser) (left : Expr) (power : Power) : Except Diagnostic Expr × Parser :=
  p.run fun g => g.read (.rightOperand left power)

def statement (p : Parser) : Except Diagnostic Stmt × Parser :=
  p.run fun g => g.readStatement

/-- A statement by the rule given, whatever the current token. -/
def statementBy (p : Parser) (rule : StatementRule) : Except Diagnostic Stmt × Parser :=
  p.run fun g => g.statementBy rule

/-- Reads statements to the end and records what is wrong. -/
def program (p : Parser) : Program × Parser :=
  let entries := p.grammar.entries p.row
  (⟨Grammar.statementsOf entries⟩,
    { p with row := [], diagnostics := p.diagnostics ++ Grammar.diagnosticsOf entries })

/-- The recorded diagnostics as sentences. -/
def errors (p : Parser) : List String :=
  p.diagnostics.map fun d => d.cause.message

end Parser

end Monkey
