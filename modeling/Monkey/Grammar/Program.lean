import Monkey.Grammar.Expression
import Monkey.Token.Scan

/-!
# Reading statements and programs

Each rule for a statement, and `readStatement`, which picks the rule by the current token.  A
semicolon after a statement is optional.  Afterwards the current token is the last one of the
statement; after a failure it is the token at which the reader gave up.

A program is read statement by statement up to the end of the row.  Where a statement cannot be
read, its diagnostic takes its place, a semicolon that comes next is passed as the end of it, and
reading goes on with the token after that.  `entries` keeps statements and diagnostics in the order
in which they came up; every entry uses up a token.
-/

namespace Monkey

namespace Grammar

variable (g : Grammar)

/-- The expression of a statement and the semicolon after it, if there is one. -/
def closingExpression (row : List Token) : Outcome Expr :=
  (g.read (.expression .lowest) row).andThen fun e rest => .ok e (Token.skipSemicolon rest)

/-- The word, a name, the sign of assignment, and an expression. -/
def binding (row : List Token) : Outcome Stmt :=
  (Token.expectPeek .ident row).andThen fun name row₁ =>
    (Token.expectPeek .assign row₁).andThen fun _ row₂ =>
      (g.closingExpression row₂.tail).map
        (.letStmt (Token.current row) ⟨name, name.literal⟩)

def returning (row : List Token) : Outcome Stmt :=
  (g.closingExpression row.tail).map (.returnStmt (Token.current row))

def bareExpression (row : List Token) : Outcome Stmt :=
  (g.closingExpression row).map (.exprStmt (Token.current row))

/-- A statement by the rule given. -/
def statementBy (rule : StatementRule) (row : List Token) : Outcome Stmt :=
  match rule with
  | .binding => g.binding row
  | .returning => g.returning row
  | .expression => g.bareExpression row

/-- A statement by the rule of the current token, which is an expression if it has none. -/
def readStatement (row : List Token) : Outcome Stmt :=
  g.statementBy ((g.statement (Token.current row).kind).getD .expression) row

/-! ### Readers leave a suffix of the row -/

theorem rest_closingExpression (row : List Token) : (g.closingExpression row).rest <:+ row :=
  (Outcome.rest_andThen _ fun _ rest => Token.skipSemicolon_suffix rest).trans
    (g.rest_read (.expression .lowest) row)

theorem rest_binding (row : List Token) : (g.binding row).rest <:+ row :=
  (Outcome.rest_andThen _ fun _ row₁ =>
    (Outcome.rest_andThen _ fun _ row₂ => by
      rw [Outcome.rest_map]
      exact (g.rest_closingExpression row₂.tail).trans (List.tail_suffix row₂)).trans
    (Token.rest_expectPeek .assign row₁)).trans (Token.rest_expectPeek .ident row)

theorem rest_returning (row : List Token) : (g.returning row).rest <:+ row := by
  rw [returning, Outcome.rest_map]
  exact (g.rest_closingExpression row.tail).trans (List.tail_suffix row)

theorem rest_bareExpression (row : List Token) : (g.bareExpression row).rest <:+ row := by
  rw [bareExpression, Outcome.rest_map]
  exact g.rest_closingExpression row

theorem rest_statementBy (rule : StatementRule) (row : List Token) :
    (g.statementBy rule row).rest <:+ row := by
  cases rule with
  | binding => exact g.rest_binding row
  | returning => exact g.rest_returning row
  | expression => exact g.rest_bareExpression row

theorem rest_readStatement (row : List Token) : (g.readStatement row).rest <:+ row :=
  g.rest_statementBy _ row

end Grammar

/-! ### Programs -/

/-- Passes the semicolon that ends a statement which could not be read, unless it is the current
token already. -/
def Token.resume (row : List Token) : List Token :=
  if (Token.current row).kind ≠ .semicolon ∧ (Token.peek row).kind = .semicolon then row.tail
  else row

theorem Token.resume_suffix (row : List Token) : Token.resume row <:+ row := by
  unfold resume
  split
  · exact List.tail_suffix row
  · exact List.suffix_rfl

namespace Grammar

variable (g : Grammar)

/-- One statement or its diagnostic, and the row from the token at which reading goes on. -/
def entry (row : List Token) : Outcome Stmt :=
  let o := g.readStatement row
  match o.result with
  | .ok s => ⟨.ok s, o.rest.tail⟩
  | .error d => ⟨.error d, (Token.resume o.rest).tail⟩

theorem rest_entry (token : Token) (rest : List Token) :
    (g.entry (token :: rest)).rest <:+ rest := by
  have tail_of {row : List Token} (h : row <:+ token :: rest) : row.tail <:+ rest := by
    rcases List.suffix_cons_iff.1 h with rfl | h
    · exact List.suffix_rfl
    · exact (List.tail_suffix row).trans h
  have h := g.rest_readStatement (token :: rest)
  unfold entry
  dsimp only
  split
  · exact tail_of h
  · exact tail_of ((Token.resume_suffix _).trans h)

/-- The statements of a row, each in its place or the diagnostic of why it could not be read. -/
def entries (row : List Token) : List (Except Diagnostic Stmt) :=
  match row with
  | [] => []
  | token :: rest =>
      have := (g.rest_entry token rest).length_le
      (g.entry (token :: rest)).result :: entries (g.entry (token :: rest)).rest
termination_by row.length

theorem entries_nil : g.entries [] = [] := by
  rw [entries]

theorem entries_cons (token : Token) (rest : List Token) :
    g.entries (token :: rest) =
      (g.entry (token :: rest)).result :: g.entries (g.entry (token :: rest)).rest := by
  rw [entries]

def statementsOf (entries : List (Except Diagnostic Stmt)) : List Stmt :=
  entries.filterMap Except.toOption

def diagnosticsOf (entries : List (Except Diagnostic Stmt)) : List Diagnostic :=
  entries.filterMap fun
    | .ok _ => none
    | .error d => some d

end Grammar

/-- The program that a source text holds, and what is wrong with the text. -/
def parse (source : String) : Program × List Diagnostic :=
  let entries := Grammar.standard.entries (Token.lex source.toList)
  (⟨Grammar.statementsOf entries⟩, Grammar.diagnosticsOf entries)

end Monkey
