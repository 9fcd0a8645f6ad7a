import Monkey.Token

/-!
# Expressions, statements and programs

Trees over tokens.  Parentheses leave no node: an expression has names, integers, and operators in
front of an operand or between two.  `Expr.text` writes a tree with every operator in parentheses,
and `Expr.tokens` lists the tokens of a tree in the order in which they are read.  A statement keeps
the token it starts with.  `Program.text` writes the statements one after another, without anything
between them.
-/

namespace Monkey

/-- A name as it occurs in a program: its token and the name it stands for. -/
structure Ident where
  token : Token
  value : String
  deriving DecidableEq, Repr

/-- An expression tree. -/
inductive Expr where
  | ident (name : Ident)
  | int (token : Token) (value : Int)
  | unary (operator : Token) (operand : Expr)
  | binary (left : Expr) (operator : Token) (right : Expr)
  deriving DecidableEq, Repr

namespace Expr

def token : Expr → Token
  | ident name => name.token
  | int token _ => token
  | unary operator _ => operator
  | binary _ operator _ => operator

def tokenLiteral (e : Expr) : String :=
  e.token.literal

/-- A tree as text, with each operator and its operands in parentheses.  A name is written by its
value, everything else by the text that was read for it. -/
def text : Expr → String
  | ident name => name.value
  | int token _ => token.literal
  | unary operator operand => "(" ++ operator.literal ++ operand.text ++ ")"
  | binary left operator right =>
      "(" ++ left.text ++ " " ++ operator.literal ++ " " ++ right.text ++ ")"

/-- A tree and all its subtrees, each before its own parts and the left part before the right. -/
def preorder : Expr → List Expr
  | ident name => [ident name]
  | int token value => [int token value]
  | unary operator operand => unary operator operand :: operand.preorder
  | binary left operator right =>
      binary left operator right :: (left.preorder ++ right.preorder)

/-- The tokens of a tree from left to right. -/
def tokens : Expr → List Token
  | ident name => [name.token]
  | int token _ => [token]
  | unary operator operand => operator :: operand.tokens
  | binary left operator right => left.tokens ++ operator :: right.tokens

/-- A tree under a row of operators, the first of them outermost. -/
def underAll (operators : List Token) (operand : Expr) : Expr :=
  operators.foldr unary operand

@[simp] theorem underAll_cons (operator : Token) (operators : List Token) (operand : Expr) :
    underAll (operator :: operators) operand = unary operator (underAll operators operand) := rfl

theorem tokens_underAll (operators : List Token) (operand : Expr) :
    (underAll operators operand).tokens = operators ++ operand.tokens := by
  induction operators with
  | nil => rfl
  | cons operator operators ih => simp [tokens, ih]

end Expr

/-! ### Statements -/

/-- A statement of a program. -/
inductive Stmt where
  | letStmt (token : Token) (name : Ident) (value : Expr)
  | returnStmt (token : Token) (value : Expr)
  | exprStmt (token : Token) (value : Expr)
  deriving DecidableEq, Repr

namespace Stmt

def token : Stmt → Token
  | letStmt token _ _ => token
  | returnStmt token _ => token
  | exprStmt token _ => token

def value : Stmt → Expr
  | letStmt _ _ value => value
  | returnStmt _ value => value
  | exprStmt _ value => value

/-- The name that a statement binds, if it binds one. -/
def name? : Stmt → Option Ident
  | letStmt _ name _ => some name
  | _ => none

def tokenLiteral (s : Stmt) : String :=
  s.token.literal

/-- A statement as text.  Only bindings and returns end with a semicolon. -/
def text : Stmt → String
  | letStmt token name value => token.literal ++ " " ++ name.value ++ " = " ++ value.text ++ ";"
  | returnStmt token value => token.literal ++ " " ++ value.text ++ ";"
  | exprStmt _ value => value.text

end Stmt

/-- A program: its statements in order. -/
structure Program where
  statements : List Stmt
  deriving DecidableEq, Repr

namespace Program

/-- A program as text: its statements, one right after another. -/
def text (p : Program) : String :=
  String.join (p.statements.map Stmt.text)

def tokenLiteral (p : Program) : String :=
  (p.statements.head?.map Stmt.tokenLiteral).getD ""

end Program

end Monkey
