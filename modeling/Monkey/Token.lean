import Monkey.Text

/-!
# Tokens and diagnostics

The kinds of the tokens of the Monkey language, their names in token dumps and diagnostics, and the
reserved words.  A token is a kind and the text that was read for it.

A diagnostic says what is wrong with a program text.  It has no position: the text read for the
token at fault is the only pointer to it.
-/

namespace Monkey

/-- What a token is, apart from its spelling. -/
inductive Kind where
  | eof
  | illegal
  | ident
  | int
  | assign
  | plus
  | minus
  | bang
  | asterisk
  | slash
  | lt
  | gt
  | eq
  | notEq
  | comma
  | semicolon
  | lparen
  | rparen
  | lbrace
  | rbrace
  | functionKw
  | letKw
  | trueKw
  | falseKw
  | ifKw
  | elseKw
  | returnKw
  deriving DecidableEq, Repr

namespace Kind

/-- Every kind, in the order in which kinds are listed. -/
def all : List Kind :=
  [eof, illegal, ident, int, assign, plus, minus, bang, asterisk, slash, lt, gt, eq, notEq, comma,
   semicolon, lparen, rparen, lbrace, rbrace, functionKw, letKw, trueKw, falseKw, ifKw, elseKw,
   returnKw]

def name : Kind → String
  | eof => "EOF"
  | illegal => "ILLEGAL"
  | ident => "IDENT"
  | int => "INT"
  | assign => "ASSIGN"
  | plus => "PLUS"
  | minus => "MINUS"
  | bang => "BANG"
  | asterisk => "ASTERISK"
  | slash => "SLASH"
  | lt => "LT"
  | gt => "GT"
  | eq => "EQ"
  | notEq => "NOT_EQ"
  | comma => "COMMA"
  | semicolon => "SEMICOLON"
  | lparen => "LPAREN"
  | rparen => "RPAREN"
  | lbrace => "LBRACE"
  | rbrace => "RBRACE"
  | functionKw => "FUNCTION"
  | letKw => "LET"
  | trueKw => "TRUE"
  | falseKw => "FALSE"
  | ifKw => "IF"
  | elseKw => "ELSE"
  | returnKw => "RETURN"

/-- The kind that goes by a name, if there is one. -/
def ofName? (text : String) : Option Kind :=
  all.find? (·.name == text)

end Kind

/-- The reserved words and their kinds. -/
def reservedWords : List (String × Kind) :=
  [("fn", .functionKw), ("let", .letKw), ("true", .trueKw), ("false", .falseKw), ("if", .ifKw),
   ("else", .elseKw), ("return", .returnKw)]

/-- The kind of a word: its own if it is reserved, and `ident` otherwise. -/
def Kind.ofWord (word : String) : Kind :=
  (reservedWords.lookup word).getD .ident

/-! ### Tokens -/

/-- A kind together with the text that was read. -/
structure Token where
  kind : Kind
  literal : String
  deriving DecidableEq, Repr

namespace Token

/-- The token that stands at the end of every text, with nothing read for it. -/
def eof : Token := ⟨.eof, ""⟩

/-- The line of a token dump: the kind, a colon, and the literal in quotes. -/
def display (token : Token) : String :=
  token.kind.name ++ ":" ++ Text.quote token.literal

end Token

/-! ### Diagnostics -/

/-- What is wrong at a token. -/
inductive Cause where
  /-- A kind of token was required and another stood there. -/
  | unexpectedToken (expected found : Kind)
  /-- No expression can start with a token of this kind. -/
  | noPrefixRule (kind : Kind)
  /-- An integer that 64 bits do not hold. -/
  | badInteger (literal : String)
  deriving DecidableEq, Repr

namespace Cause

def name : Cause → String
  | unexpectedToken .. => "UnexpectedToken"
  | noPrefixRule _ => "NoPrefixParseFn"
  | badInteger _ => "IntegerParseError"

/-- A cause as a sentence. -/
def message : Cause → String
  | unexpectedToken expected found => "next token is " ++ found.name ++ ", want " ++ expected.name
  | noPrefixRule kind => "no prefix parse function for " ++ kind.name ++ " found"
  | badInteger literal => "could not parse " ++ Text.quote literal ++ " as integer"

end Cause

/-- Something wrong with a program: the cause, and the text read for the token at fault. -/
structure Diagnostic where
  cause : Cause
  literal : String
  deriving DecidableEq, Repr

namespace Diagnostic

/-- A hint for the reader.  A character that belongs to no token gets none. -/
def tip? (d : Diagnostic) : Option String :=
  match d.cause with
  | .unexpectedToken expected _ =>
      some ("Unexpected token: `" ++ d.literal ++ "`, expected " ++ expected.name ++ " here")
  | .noPrefixRule .semicolon => some "Expected an expression before `;`"
  | .noPrefixRule .illegal => none
  | .noPrefixRule _ => some ("`" ++ d.literal ++ "` cannot start an expression")
  | .badInteger literal =>
      some ("Invalid integer: `" ++ literal ++ "`, is it above the 64-bit integer limit?")

/-- The first line of a report: the name of the cause, and the hint in parentheses. -/
def header (d : Diagnostic) : String :=
  match d.tip? with
  | none => "Error: " ++ d.cause.name
  | some tip => "Error: " ++ d.cause.name ++ " (" ++ tip ++ ")"

/-- The report of a diagnostic in three lines, without a line feed after the last. -/
def display (d : Diagnostic) : String :=
  d.header ++ "\n  | " ++ d.cause.message ++ "\n  | at `" ++ d.literal ++ "`"

end Diagnostic

/-- What is wrong with a token that starts no expression. -/
def Token.noOperand (token : Token) : Diagnostic :=
  ⟨.noPrefixRule token.kind, token.literal⟩

end Monkey
