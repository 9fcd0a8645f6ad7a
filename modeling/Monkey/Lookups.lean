import Monkey.Pull

/-!
# The tables of a parser

A parser keeps four tables: how a statement is read, how an operand is read, how an operator goes
on after its left operand, and how tightly a kind of token binds.  Registering an operator writes
the last two at once.  Reading looks rules up in the tables as they are (`Lookups.steps`); a kind of
token may then bind tightly and yet have no rule as an operator (`Next.unhandled`), at which the
loop over operators returns.
-/

namespace Monkey

/-- The tables in which the rules of each kind of token are looked up. -/
structure Lookups where
  statement : Kind → Option StatementRule
  operand : Kind → Option OperandRule
  operator : Kind → Option Associativity
  power : Kind → Option Power

namespace Lookups

def empty : Lookups :=
  ⟨fun _ => none, fun _ => none, fun _ => none, fun _ => none⟩

def setStatement (t : Lookups) (kind : Kind) (rule : StatementRule) : Lookups :=
  { t with statement := fun k => if k = kind then some rule else t.statement k }

def setOperand (t : Lookups) (kind : Kind) (rule : OperandRule) : Lookups :=
  { t with operand := fun k => if k = kind then some rule else t.operand k }

def setOperator (t : Lookups) (kind : Kind) (power : Power) (associativity : Associativity) :
    Lookups :=
  { t with
    power := fun k => if k = kind then some power else t.power k
    operator := fun k => if k = kind then some associativity else t.operator k }

/-- Registers the rules of the language. -/
def withStandard (t : Lookups) : Lookups :=
  t |>.setOperator .eq .equals .left
    |>.setOperator .notEq .equals .left
    |>.setOperator .lt .lessGreater .left
    |>.setOperator .gt .lessGreater .left
    |>.setOperator .plus .sum .left
    |>.setOperator .minus .sum .left
    |>.setOperator .asterisk .product .left
    |>.setOperator .slash .product .left
    |>.setOperand .ident .primary
    |>.setOperand .int .primary
    |>.setOperand .bang .unaryRun
    |>.setOperand .minus .unaryRun
    |>.setStatement .letKw .binding
    |>.setStatement .returnKw .returning

/-- The power of a kind, which is the lowest without an entry. -/
def powerOf (t : Lookups) (kind : Kind) : Power :=
  (t.power kind).getD .lowest

/-! ### Reading -/

/-- What the loop over operators does about the token that comes next. -/
inductive Next where
  /-- The token is no operator that binds tightly enough. -/
  | stop
  /-- The token binds tightly enough, but there is no rule for it. -/
  | unhandled
  /-- The token is taken as an operator by its rule. -/
  | operator (associativity : Associativity)
  deriving DecidableEq, Repr

/-- What is done about a kind of token that comes next. -/
def next (t : Lookups) (power : Power) (kind : Kind) : Next :=
  if kind ≠ .semicolon ∧ power < t.powerOf kind then
    match t.operator kind with
    | none => .unhandled
    | some associativity => .operator associativity
  else
    .stop

/-- Moves on to the operator that comes next, if it is taken with the power.  The tables are asked
again for its power once it is the current token. -/
def takeOperator? {σ : Type} (r : Moves σ) (tables : Reader σ Lookups) (power : Power) :
    Reader σ (Option Operator) := do
  let next ← r.peek
  match (← tables).next power next.kind with
  | .stop => return none
  | .unhandled => return none
  | .operator associativity =>
      r.advance
      let operator ← r.current
      return some ⟨(← tables).powerOf operator.kind, associativity⟩

/-- Reading with tables, which are asked for whenever a rule is looked up.  A token without a rule
for a statement starts an expression. -/
def steps {σ : Type} (r : Moves σ) (tables : Reader σ Lookups) : Steps σ where
  toMoves := r
  statementRule := do
    let token ← r.current
    match (← tables).statement token.kind with
    | some rule => return rule
    | none => return .expression
  operandRule := do r.operandRule (← tables).operand
  takeOperator? := takeOperator? r tables

def read (t : Lookups) (depth : Nat) (goal : Grammar.Goal) : Pull Expr :=
  (steps Pull.moves (pure t)).read depth goal

end Lookups

end Monkey
