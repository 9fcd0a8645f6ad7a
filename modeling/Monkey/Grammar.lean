import Monkey.Token

/-!
# Grammars

A grammar says for each kind of token how a statement that starts with it is read, how an operand
that starts with it is read, and which operator it is between two operands.  How tightly operators
hold their operands is told by a power, one of seven levels that are compared by their height.
`Grammar.standard` is the grammar of the language; the rules of a kind can be replaced one by one.
-/

namespace Monkey

/-! ### Binding powers -/

/-- The binding powers, weakest first. -/
inductive Power where
  | lowest
  | equals
  | lessGreater
  | sum
  | product
  | unary
  | call
  deriving DecidableEq, Repr

namespace Power

/-- The height of a power above the weakest. -/
def level : Power → Nat
  | lowest => 0
  | equals => 1
  | lessGreater => 2
  | sum => 3
  | product => 4
  | unary => 5
  | call => 6

instance : LT Power := ⟨fun a b => a.level < b.level⟩

instance : LE Power := ⟨fun a b => a.level ≤ b.level⟩

instance (a b : Power) : Decidable (a < b) := inferInstanceAs (Decidable (a.level < b.level))

instance (a b : Power) : Decidable (a ≤ b) := inferInstanceAs (Decidable (a.level ≤ b.level))

theorem level_injective {a b : Power} (h : a.level = b.level) : a = b := by
  cases a <;> cases b <;> revert h <;> decide

def weaker : Power → Power
  | lowest => lowest
  | equals => lowest
  | lessGreater => equals
  | sum => lessGreater
  | product => sum
  | unary => product
  | call => unary

end Power

/-! ### Rules -/

/-- How a statement is read. -/
inductive StatementRule where
  /-- The word, a name, the sign of assignment, an expression. -/
  | binding
  /-- The word, an expression. -/
  | returning
  /-- An expression alone. -/
  | expression
  deriving DecidableEq, Repr

/-- How an operand is read. -/
inductive OperandRule where
  /-- A name or an integer. -/
  | primary
  /-- The token as an operator, all signs `!` and `-` that follow it, and one operand for them. -/
  | unaryRun
  /-- The token as an operator and its operand. -/
  | unaryOnce
  /-- An expression between the token and a closing parenthesis. -/
  | group
  deriving DecidableEq, Repr

/-- Which of two neighbours of one power takes the operand between them. -/
inductive Associativity where
  | left
  | right
  deriving DecidableEq, Repr

/-- An operator between two operands. -/
structure Operator where
  power : Power
  associativity : Associativity
  deriving DecidableEq, Repr

namespace Operator

/-- The power above which operators belong to the right operand. -/
def rightPower (operator : Operator) : Power :=
  match operator.associativity with
  | .left => operator.power
  | .right => operator.power.weaker

end Operator

/-- The rules of each kind of token. -/
structure Grammar where
  statement : Kind → Option StatementRule
  operand : Kind → Option OperandRule
  operator : Kind → Option Operator

namespace Grammar

/-- The power of a kind between two operands; a kind that is no operator has the lowest. -/
def power (g : Grammar) (kind : Kind) : Power :=
  ((g.operator kind).map Operator.power).getD .lowest

/-- The grammar of the language. -/
def standard : Grammar where
  statement
    | .letKw => some .binding
    | .returnKw => some .returning
    | _ => none
  operand
    | .ident | .int => some .primary
    | .bang | .minus => some .unaryRun
    | _ => none
  operator
    | .eq | .notEq => some ⟨.equals, .left⟩
    | .lt | .gt => some ⟨.lessGreater, .left⟩
    | .plus | .minus => some ⟨.sum, .left⟩
    | .asterisk | .slash => some ⟨.product, .left⟩
    | _ => none

def setStatement (g : Grammar) (kind : Kind) (rule : StatementRule) : Grammar :=
  { g with statement := fun k => if k = kind then some rule else g.statement k }

def setOperand (g : Grammar) (kind : Kind) (rule : OperandRule) : Grammar :=
  { g with operand := fun k => if k = kind then some rule else g.operand k }

def setOperator (g : Grammar) (kind : Kind) (operator : Operator) : Grammar :=
  { g with operator := fun k => if k = kind then some operator else g.operator k }

/-- A grammar with the rules of the language put back, and its other rules kept. -/
def withStandard (g : Grammar) : Grammar where
  statement k := (standard.statement k).or (g.statement k)
  operand k := (standard.operand k).or (g.operand k)
  operator k := (standard.operator k).or (g.operator k)

end Grammar

end Monkey
