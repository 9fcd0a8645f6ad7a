import Monkey.Grammar.Program

/-!
# Derivations of readings

The runs of the readers as inductive relations, one constructor per way in which a goal or a
statement is reached or given up:

* `Reads g goal row e rest`: the goal is reached on the row with the expression `e`, and `rest` is
  the row from the token that is then the current one;
* `Fails g goal row d rest`: the reader gives up with the diagnostic `d` at the row `rest`;
* `ReadsStatement`, `FailsStatement`: the same for the rules of statements.

`read_eq_ok_iff` and `read_eq_error_iff` say that these are exactly the runs of `Grammar.read`, and
`readsStatement_or_fails` that every row is read by a rule for statements, or given up by it, as
`Grammar.statementBy` does.  Properties of readings are proved by induction on derivations.
-/

namespace Monkey

namespace Outcome

variable {α β γ : Type} {o o' : Outcome α}

@[simp] theorem ok_inj {a b : α} {row rest : List Token} :
    ok a row = ok b rest ↔ a = b ∧ row = rest := by
  simp [ok]

@[simp] theorem ok_ne_error {a : α} {d : Diagnostic} {row rest : List Token} :
    ok a row ≠ ⟨.error d, rest⟩ := by
  simp [ok]

theorem andThen_congr {f f' : α → List Token → Outcome β} (h : o' = o)
    (hf : ∀ a rest, o = .ok a rest → f' a rest = f a rest) : o'.andThen f' = o.andThen f := by
  subst h
  obtain ⟨result, rest⟩ := o'
  cases result with
  | error d => rfl
  | ok a => exact hf a rest rfl

theorem andThen_assoc (o : Outcome α) (f : α → List Token → Outcome β)
    (f' : β → List Token → Outcome γ) :
    (o.andThen f).andThen f' = o.andThen fun a rest => (f a rest).andThen f' := by
  obtain ⟨result, rest⟩ := o
  cases result <;> rfl

end Outcome

namespace Grammar

/-! ### Expressions -/

/-- The goal is reached on the row: with which expression, and which row is left. -/
inductive Reads (g : Grammar) : Goal → List Token → Expr → List Token → Prop
  | expression {power : Power} {row rest after : List Token} {left e : Expr} :
      Reads g .operand row left rest → Reads g (.operators left power) rest e after →
      Reads g (.expression power) row e after
  | operand {token : Token} {rest after : List Token} {rule : OperandRule} {e : Expr} :
      g.operand token.kind = some rule → Reads g (.operandBy rule) (token :: rest) e after →
      Reads g .operand (token :: rest) e after
  | name {token : Token} {rest : List Token} :
      token.kind = .ident →
      Reads g (.operandBy .primary) (token :: rest) (.ident ⟨token, token.literal⟩) (token :: rest)
  | integer {token : Token} {rest : List Token} {n : Nat} :
      token.kind = .int → Text.intValue? token.literal = some n →
      Reads g (.operandBy .primary) (token :: rest) (.int token n) (token :: rest)
  | unaryRun {token : Token} {rest after : List Token} {e : Expr} :
      Reads g (.expression .unary) (rest.dropWhile Token.isUnarySign) e after →
      Reads g (.operandBy .unaryRun) (token :: rest)
        (.underAll (token :: rest.takeWhile Token.isUnarySign) e) after
  | unaryOnce {token : Token} {rest after : List Token} {e : Expr} :
      Reads g (.expression .unary) rest e after →
      Reads g (.operandBy .unaryOnce) (token :: rest) (.unary token e) after
  | group {token : Token} {rest after : List Token} {e : Expr} :
      Reads g (.expression .lowest) rest e after → (Token.peek after).kind = .rparen →
      Reads g (.operandBy .group) (token :: rest) e after.tail
  | rightOperand {left right : Expr} {power : Power} {operator : Token} {rest after : List Token} :
      Reads g (.expression power) rest right after →
      Reads g (.rightOperand left power) (operator :: rest) (.binary left operator right) after
  | operatorsNil {left : Expr} {power : Power} :
      Reads g (.operators left power) [] left []
  | operatorsStop {left : Expr} {power : Power} {token : Token} {rest : List Token} :
      g.nextOperator? power (token :: rest) = none →
      Reads g (.operators left power) (token :: rest) left (token :: rest)
  | operatorsStep {left joined e : Expr} {power : Power} {token : Token} {operator : Operator}
      {rest after last : List Token} :
      g.nextOperator? power (token :: rest) = some operator →
      Reads g (.rightOperand left operator.rightPower) rest joined after →
      Reads g (.operators joined power) after e last →
      Reads g (.operators left power) (token :: rest) e last

/-- The goal is given up on the row: for which reason, and at which row. -/
inductive Fails (g : Grammar) : Goal → List Token → Diagnostic → List Token → Prop
  | expressionOperand {power : Power} {row rest : List Token} {d : Diagnostic} :
      Fails g .operand row d rest → Fails g (.expression power) row d rest
  | expressionOperators {power : Power} {row rest after : List Token} {left : Expr}
      {d : Diagnostic} :
      Reads g .operand row left rest → Fails g (.operators left power) rest d after →
      Fails g (.expression power) row d after
  | operandNil : Fails g .operand [] ⟨.noPrefixRule .eof, ""⟩ []
  | operandNone {token : Token} {rest : List Token} :
      g.operand token.kind = none →
      Fails g .operand (token :: rest) ⟨.noPrefixRule token.kind, token.literal⟩ (token :: rest)
  | operand {token : Token} {rest after : List Token} {rule : OperandRule} {d : Diagnostic} :
      g.operand token.kind = some rule → Fails g (.operandBy rule) (token :: rest) d after →
      Fails g .operand (token :: rest) d after
  | operandByNil {rule : OperandRule} : Fails g (.operandBy rule) [] ⟨.noPrefixRule .eof, ""⟩ []
  | primaryInteger {token : Token} {rest : List Token} :
      token.kind = .int → Text.intValue? token.literal = none →
      Fails g (.operandBy .primary) (token :: rest) ⟨.badInteger token.literal, token.literal⟩
        (token :: rest)
  | primaryKind {token : Token} {rest : List Token} :
      token.kind ≠ .int → token.kind ≠ .ident →
      Fails g (.operandBy .primary) (token :: rest) ⟨.noPrefixRule token.kind, token.literal⟩
        (token :: rest)
  | unaryRun {token : Token} {rest after : List Token} {d : Diagnostic} :
      Fails g (.expression .unary) (rest.dropWhile Token.isUnarySign) d after →
      Fails g (.operandBy .unaryRun) (token :: rest) d after
  | unaryOnce {token : Token} {rest after : List Token} {d : Diagnostic} :
      Fails g (.expression .unary) rest d after →
      Fails g (.operandBy .unaryOnce) (token :: rest) d after
  | groupInner {token : Token} {rest after : List Token} {d : Diagnostic} :
      Fails g (.expression .lowest) rest d after →
      Fails g (.operandBy .group) (token :: rest) d after
  | groupEnd {token : Token} {rest after : List Token} {e : Expr} :
      Reads g (.expression .lowest) rest e after → (Token.peek after).kind ≠ .rparen →
      Fails g (.operandBy .group) (token :: rest)
        ⟨.unexpectedToken .rparen (Token.peek after).kind, (Token.peek after).literal⟩ after
  | rightOperandNil {left : Expr} {power : Power} :
      Fails g (.rightOperand left power) [] ⟨.noPrefixRule .eof, ""⟩ []
  | rightOperand {left : Expr} {power : Power} {operator : Token} {rest after : List Token}
      {d : Diagnostic} :
      Fails g (.expression power) rest d after →
      Fails g (.rightOperand left power) (operator :: rest) d after
  | operatorsRight {left : Expr} {power : Power} {token : Token} {operator : Operator}
      {rest after : List Token} {d : Diagnostic} :
      g.nextOperator? power (token :: rest) = some operator →
      Fails g (.rightOperand left operator.rightPower) rest d after →
      Fails g (.operators left power) (token :: rest) d after
  | operatorsStep {left joined : Expr} {power : Power} {token : Token} {operator : Operator}
      {rest after last : List Token} {d : Diagnostic} :
      g.nextOperator? power (token :: rest) = some operator →
      Reads g (.rightOperand left operator.rightPower) rest joined after →
      Fails g (.operators joined power) after d last →
      Fails g (.operators left power) (token :: rest) d last

variable {g : Grammar} {goal : Goal} {power : Power} {row rest : List Token} {e : Expr}
  {d : Diagnostic}

theorem Reads.read (h : Reads g goal row e rest) : g.read goal row = .ok e rest := by
  induction h with
  | expression _ _ ih₁ ih₂ => rw [read_expression, ih₁, Outcome.andThen_ok, ih₂]
  | operand hrule _ ih =>
      rw [read_operand_cons, hrule]
      exact ih
  | name hkind => simp only [read_primary, Token.primary, hkind, Outcome.ok]
  | integer hkind hvalue => simp only [read_primary, Token.primary, hkind, hvalue, Outcome.ok]
  | unaryRun _ ih => rw [read_unaryRun, ih, Outcome.map_ok]
  | unaryOnce _ ih => rw [read_unaryOnce, ih, Outcome.map_ok]
  | group _ hclose ih =>
      rw [read_group, ih, Outcome.closed, Outcome.andThen_ok, Token.expectPeek, if_pos hclose,
        Outcome.map_ok]
  | rightOperand _ ih => rw [read_rightOperand_cons, ih, Outcome.map_ok]
  | operatorsNil => rw [read_operators_nil]
  | operatorsStop hnext => simp only [read_operators_cons, hnext]
  | operatorsStep hnext _ _ ih₁ ih₂ =>
      simp only [read_operators_cons, hnext, ih₁, Outcome.andThen_ok, ih₂]

theorem Fails.read (h : Fails g goal row d rest) : g.read goal row = ⟨.error d, rest⟩ := by
  induction h with
  | expressionOperand _ ih => rw [read_expression, ih, Outcome.andThen_error]
  | expressionOperators hleft _ ih => rw [read_expression, hleft.read, Outcome.andThen_ok, ih]
  | operandNil => rw [read_operand_nil, Outcome.noOperand, Token.noOperand, Token.eof]
  | operandNone hrule =>
      rw [read_operand_cons, hrule]
      rfl
  | operand hrule _ ih =>
      rw [read_operand_cons, hrule]
      exact ih
  | operandByNil => rw [read_operandBy_nil, Outcome.noOperand, Token.noOperand, Token.eof]
  | primaryInteger hkind hvalue =>
      simp only [read_primary, Token.primary, hkind, hvalue]
  | primaryKind hint hident =>
      rw [read_primary, Token.primary]
      split
      · contradiction
      · contradiction
      · rfl
  | unaryRun _ ih => rw [read_unaryRun, ih, Outcome.map_error]
  | unaryOnce _ ih => rw [read_unaryOnce, ih, Outcome.map_error]
  | groupInner _ ih => rw [read_group, ih, Outcome.closed, Outcome.andThen_error]
  | groupEnd hinner hclose =>
      rw [read_group, hinner.read, Outcome.closed, Outcome.andThen_ok, Token.expectPeek,
        if_neg hclose, Outcome.fail, Outcome.map_error]
  | rightOperandNil => rw [read_rightOperand_nil, Outcome.noOperand, Token.noOperand, Token.eof]
  | rightOperand _ ih => rw [read_rightOperand_cons, ih, Outcome.map_error]
  | operatorsRight hnext _ ih =>
      simp only [read_operators_cons, hnext, ih, Outcome.andThen_error]
  | operatorsStep hnext hright _ ih =>
      simp only [read_operators_cons, hnext, hright.read, Outcome.andThen_ok, ih]

theorem Reads.suffix (h : Reads g goal row e rest) : rest <:+ row := by
  have := g.rest_read goal row
  rwa [h.read] at this

/-- Every goal is reached or given up, on every row. -/
theorem reads_or_fails (g : Grammar) (goal : Goal) (row : List Token) :
    (∃ e rest, Reads g goal row e rest) ∨ ∃ d rest, Fails g goal row d rest := by
  induction goal, row using readWithin.induct g with
  | case1 power row ih₁ ih₂ =>
      obtain ⟨left, rest, hleft⟩ | ⟨d, rest, hleft⟩ := ih₁
      · obtain ⟨e, after, h⟩ | ⟨d, after, h⟩ := ih₂ left rest hleft.suffix
        · exact .inl ⟨e, after, .expression hleft h⟩
        · exact .inr ⟨d, after, .expressionOperators hleft h⟩
      · exact .inr ⟨d, rest, .expressionOperand hleft⟩
  | case2 => exact .inr ⟨_, _, .operandNil⟩
  | case3 token rest hrule => exact .inr ⟨_, _, .operandNone hrule⟩
  | case4 token rest rule hrule ih =>
      obtain ⟨e, after, h⟩ | ⟨d, after, h⟩ := ih
      · exact .inl ⟨e, after, .operand hrule h⟩
      · exact .inr ⟨d, after, .operand hrule h⟩
  | case5 rule => exact .inr ⟨_, _, .operandByNil⟩
  | case6 token rest =>
      by_cases hint : token.kind = .int
      · cases hvalue : Text.intValue? token.literal with
        | none => exact .inr ⟨_, _, .primaryInteger hint hvalue⟩
        | some n => exact .inl ⟨_, _, .integer hint hvalue⟩
      · by_cases hident : token.kind = .ident
        · exact .inl ⟨_, _, .name hident⟩
        · exact .inr ⟨_, _, .primaryKind hint hident⟩
  | case7 token rest _ _ ih =>
      obtain ⟨e, after, h⟩ | ⟨d, after, h⟩ := ih
      · exact .inl ⟨_, after, .unaryRun h⟩
      · exact .inr ⟨d, after, .unaryRun h⟩
  | case8 token rest ih =>
      obtain ⟨e, after, h⟩ | ⟨d, after, h⟩ := ih
      · exact .inl ⟨_, after, .unaryOnce h⟩
      · exact .inr ⟨d, after, .unaryOnce h⟩
  | case9 token rest ih =>
      obtain ⟨e, after, h⟩ | ⟨d, after, h⟩ := ih
      · by_cases hclose : (Token.peek after).kind = .rparen
        · exact .inl ⟨e, after.tail, .group h hclose⟩
        · exact .inr ⟨_, after, .groupEnd h hclose⟩
      · exact .inr ⟨d, after, .groupInner h⟩
  | case10 left power => exact .inr ⟨_, _, .rightOperandNil⟩
  | case11 left power operator rest ih =>
      obtain ⟨e, after, h⟩ | ⟨d, after, h⟩ := ih
      · exact .inl ⟨_, after, .rightOperand h⟩
      · exact .inr ⟨d, after, .rightOperand h⟩
  | case12 left power => exact .inl ⟨left, [], .operatorsNil⟩
  | case13 left power token rest hnext => exact .inl ⟨left, _, .operatorsStop hnext⟩
  | case14 left power token rest operator hnext ih₁ ih₂ =>
      obtain ⟨joined, after, hjoined⟩ | ⟨d, after, hright⟩ := ih₁
      · obtain ⟨e, last, h⟩ | ⟨d, last, h⟩ := ih₂ joined after hjoined.suffix
        · exact .inl ⟨e, last, .operatorsStep hnext hjoined h⟩
        · exact .inr ⟨d, last, .operatorsStep hnext hjoined h⟩
      · exact .inr ⟨d, after, .operatorsRight hnext hright⟩

theorem read_eq_ok_iff : g.read goal row = .ok e rest ↔ Reads g goal row e rest := by
  refine ⟨fun h => ?_, Reads.read⟩
  obtain ⟨e', rest', h'⟩ | ⟨d, rest', h'⟩ := reads_or_fails g goal row
  · obtain ⟨rfl, rfl⟩ := Outcome.ok_inj.mp (h'.read.symm.trans h)
    exact h'
  · exact absurd (h.symm.trans h'.read) Outcome.ok_ne_error

theorem read_eq_error_iff : g.read goal row = ⟨.error d, rest⟩ ↔ Fails g goal row d rest := by
  refine ⟨fun h => ?_, Fails.read⟩
  obtain ⟨e, rest', h'⟩ | ⟨d', rest', h'⟩ := reads_or_fails g goal row
  · exact absurd (h'.read.symm.trans h) Outcome.ok_ne_error
  · obtain ⟨rfl, rfl⟩ : d' = d ∧ rest' = rest := by simpa using h'.read.symm.trans h
    exact h'

theorem Reads.row_ne_nil (h : Reads g (.expression power) row e rest) : row ≠ [] := by
  cases h with
  | expression hleft _ =>
      cases hleft with
      | operand => exact List.cons_ne_nil _ _

/-- No operator that binds tightly enough comes next after an expression. -/
def Goal.Stopped (g : Grammar) : Goal → List Token → Prop
  | expression power, rest => rest = [] ∨ g.nextOperator? power rest = none
  | operators _ power, rest => rest = [] ∨ g.nextOperator? power rest = none
  | _, _ => True

theorem Reads.stopped (h : Reads g goal row e rest) : goal.Stopped g rest := by
  induction h with
  | expression _ _ _ ih => exact ih
  | operatorsNil => exact .inl rfl
  | operatorsStop hnext => exact .inr hnext
  | operatorsStep _ _ _ _ ih => exact ih
  | operand | name | integer | unaryRun | unaryOnce | group | rightOperand => trivial

end Grammar

/-! ### Statements -/

namespace Token

theorem skipSemicolon_eq (row : List Token) :
    (skipSemicolon row = row ∧ (peek row).kind ≠ .semicolon) ∨
      ∃ current mark rest, row = current :: mark :: rest ∧ mark.kind = .semicolon ∧
        skipSemicolon row = mark :: rest := by
  unfold skipSemicolon
  split
  · next h =>
    match row, h with
    | [], h | [_], h => cases h
    | current :: mark :: rest, h => exact .inr ⟨current, mark, rest, rfl, h, rfl⟩
  · next h => exact .inl ⟨rfl, h⟩

end Token

namespace Grammar

variable {g : Grammar} {rule : StatementRule} {row rest : List Token} {s : Stmt} {d : Diagnostic}

/-- The rule reads the row as a statement: which one, and which row is left. -/
inductive ReadsStatement (g : Grammar) : StatementRule → List Token → Stmt → List Token → Prop
  | binding {word name sign : Token} {body after : List Token} {e : Expr} :
      name.kind = .ident → sign.kind = .assign → Reads g (.expression .lowest) body e after →
      ReadsStatement g .binding (word :: name :: sign :: body)
        (.letStmt word ⟨name, name.literal⟩ e) (Token.skipSemicolon after)
  | returning {row after : List Token} {e : Expr} :
      Reads g (.expression .lowest) row.tail e after →
      ReadsStatement g .returning row (.returnStmt (Token.current row) e)
        (Token.skipSemicolon after)
  | expression {row after : List Token} {e : Expr} :
      Reads g (.expression .lowest) row e after →
      ReadsStatement g .expression row (.exprStmt (Token.current row) e)
        (Token.skipSemicolon after)

/-- The rule gives up on the row: for which reason, and at which row. -/
inductive FailsStatement (g : Grammar) :
    StatementRule → List Token → Diagnostic → List Token → Prop
  | bindingName {row : List Token} :
      (Token.peek row).kind ≠ .ident →
      FailsStatement g .binding row
        ⟨.unexpectedToken .ident (Token.peek row).kind, (Token.peek row).literal⟩ row
  | bindingSign {word name : Token} {rest : List Token} :
      name.kind = .ident → (Token.current rest).kind ≠ .assign →
      FailsStatement g .binding (word :: name :: rest)
        ⟨.unexpectedToken .assign (Token.current rest).kind, (Token.current rest).literal⟩
        (name :: rest)
  | bindingValue {word name sign : Token} {body after : List Token} {d : Diagnostic} :
      name.kind = .ident → sign.kind = .assign → Fails g (.expression .lowest) body d after →
      FailsStatement g .binding (word :: name :: sign :: body) d after
  | returning {row after : List Token} {d : Diagnostic} :
      Fails g (.expression .lowest) row.tail d after → FailsStatement g .returning row d after
  | expression {row after : List Token} {d : Diagnostic} :
      Fails g (.expression .lowest) row d after → FailsStatement g .expression row d after

theorem closingExpression_of_reads {e : Expr} (h : Reads g (.expression .lowest) row e rest) :
    g.closingExpression row = .ok e (Token.skipSemicolon rest) := by
  rw [closingExpression, h.read, Outcome.andThen_ok]

theorem closingExpression_of_fails (h : Fails g (.expression .lowest) row d rest) :
    g.closingExpression row = ⟨.error d, rest⟩ := by
  rw [closingExpression, h.read, Outcome.andThen_error]

theorem binding_cons {word name sign : Token} {body : List Token} (hname : name.kind = .ident)
    (hsign : sign.kind = .assign) :
    g.binding (word :: name :: sign :: body) =
      (g.closingExpression body).map (.letStmt word ⟨name, name.literal⟩) := by
  simp [binding, Token.expectPeek, hname, hsign]

theorem ReadsStatement.statementBy (h : ReadsStatement g rule row s rest) :
    g.statementBy rule row = .ok s rest := by
  cases h with
  | binding hname hsign hvalue =>
      rw [Grammar.statementBy, binding_cons hname hsign, closingExpression_of_reads hvalue,
        Outcome.map_ok]
  | returning hvalue =>
      rw [Grammar.statementBy, Grammar.returning, closingExpression_of_reads hvalue,
        Outcome.map_ok]
  | expression hvalue =>
      rw [Grammar.statementBy, bareExpression, closingExpression_of_reads hvalue, Outcome.map_ok]

theorem FailsStatement.statementBy (h : FailsStatement g rule row d rest) :
    g.statementBy rule row = ⟨.error d, rest⟩ := by
  cases h with
  | bindingName hname =>
      rw [Grammar.statementBy, Grammar.binding, Token.expectPeek, if_neg hname, Outcome.fail,
        Outcome.andThen_error]
  | bindingSign hname hsign =>
      simp [Grammar.statementBy, Grammar.binding, Token.expectPeek, hname, hsign, Outcome.fail]
  | bindingValue hname hsign hvalue =>
      rw [Grammar.statementBy, binding_cons hname hsign, closingExpression_of_fails hvalue,
        Outcome.map_error]
  | returning hvalue =>
      rw [Grammar.statementBy, Grammar.returning, closingExpression_of_fails hvalue,
        Outcome.map_error]
  | expression hvalue =>
      rw [Grammar.statementBy, bareExpression, closingExpression_of_fails hvalue,
        Outcome.map_error]

theorem readsStatement_or_fails (g : Grammar) (rule : StatementRule) (row : List Token) :
    (∃ s rest, ReadsStatement g rule row s rest) ∨ ∃ d rest, FailsStatement g rule row d rest := by
  cases rule with
  | binding =>
      by_cases hname : (Token.peek row).kind = .ident
      · match row, hname with
        | [], h | [_], h => cases h
        | [word, name], hname => exact .inr ⟨_, _, .bindingSign hname nofun⟩
        | word :: name :: sign :: body, hname =>
            by_cases hsign : sign.kind = .assign
            · obtain ⟨e, after, h⟩ | ⟨d, after, h⟩ := reads_or_fails g (.expression .lowest) body
              · exact .inl ⟨_, _, .binding hname hsign h⟩
              · exact .inr ⟨_, _, .bindingValue hname hsign h⟩
            · exact .inr ⟨_, _, .bindingSign hname hsign⟩
      · exact .inr ⟨_, _, .bindingName hname⟩
  | returning =>
      obtain ⟨e, after, h⟩ | ⟨d, after, h⟩ := reads_or_fails g (.expression .lowest) row.tail
      · exact .inl ⟨_, _, .returning h⟩
      · exact .inr ⟨_, _, .returning h⟩
  | expression =>
      obtain ⟨e, after, h⟩ | ⟨d, after, h⟩ := reads_or_fails g (.expression .lowest) row
      · exact .inl ⟨_, _, .expression h⟩
      · exact .inr ⟨_, _, .expression h⟩

/-! ### Entries of a program -/

/-- The rule for the statement at the front of a row. -/
def ruleAt (g : Grammar) (row : List Token) : StatementRule :=
  (g.statement (Token.current row).kind).getD .expression

theorem entries_of_entry {result : Except Diagnostic Stmt} (hrow : row ≠ [])
    (h : g.entry row = ⟨result, rest⟩) : g.entries row = result :: g.entries rest := by
  obtain ⟨token, row, rfl⟩ := List.exists_cons_of_ne_nil hrow
  rw [entries_cons, h]

section Sorting

variable (s : Stmt) (d : Diagnostic) (entries : List (Except Diagnostic Stmt))

@[simp] theorem statementsOf_ok : statementsOf (.ok s :: entries) = s :: statementsOf entries := rfl

@[simp] theorem statementsOf_error : statementsOf (.error d :: entries) = statementsOf entries :=
  rfl

@[simp] theorem diagnosticsOf_ok : diagnosticsOf (.ok s :: entries) = diagnosticsOf entries := rfl

@[simp] theorem diagnosticsOf_error :
    diagnosticsOf (.error d :: entries) = d :: diagnosticsOf entries := rfl

theorem length_statementsOf_add (entries : List (Except Diagnostic Stmt)) :
    (statementsOf entries).length + (diagnosticsOf entries).length = entries.length := by
  induction entries with
  | nil => rfl
  | cons entry entries ih =>
      cases entry with
      | ok s =>
          rw [statementsOf_ok, diagnosticsOf_ok, List.length_cons, List.length_cons]
          omega
      | error d =>
          rw [statementsOf_error, diagnosticsOf_error, List.length_cons, List.length_cons]
          omega

end Sorting

theorem mem_statementsOf_iff {entries : List (Except Diagnostic Stmt)} :
    s ∈ statementsOf entries ↔ .ok s ∈ entries := by
  constructor
  · intro h
    obtain ⟨entry, hentry, hok⟩ := List.mem_filterMap.mp h
    cases entry with
    | error d => cases hok
    | ok other =>
        obtain rfl : other = s := Option.some.inj hok
        exact hentry
  · intro h
    exact List.mem_filterMap.mpr ⟨.ok s, h, rfl⟩

theorem mem_diagnosticsOf_iff {entries : List (Except Diagnostic Stmt)} :
    d ∈ diagnosticsOf entries ↔ .error d ∈ entries := by
  constructor
  · intro h
    obtain ⟨entry, hentry, herror⟩ := List.mem_filterMap.mp h
    cases entry with
    | ok s => cases herror
    | error other =>
        obtain rfl : other = d := Option.some.inj herror
        exact hentry
  · intro h
    exact List.mem_filterMap.mpr ⟨.error d, h, rfl⟩

@[simp] theorem statementsOf_map_ok (statements : List Stmt) :
    statementsOf (statements.map .ok) = statements := by
  induction statements with
  | nil => rfl
  | cons s statements ih => exact congrArg (s :: ·) ih

@[simp] theorem diagnosticsOf_map_ok (statements : List Stmt) :
    diagnosticsOf (statements.map .ok) = [] := by
  induction statements with
  | nil => rfl
  | cons s statements ih => exact ih

theorem ReadsStatement.entry (h : ReadsStatement g (g.ruleAt row) row s rest) :
    g.entry row = ⟨.ok s, rest.tail⟩ := by
  have hread : g.readStatement row = .ok s rest := h.statementBy
  rw [Grammar.entry, hread, Outcome.ok]

/-- After a failure the program goes on where the failure is resumed. -/
theorem FailsStatement.entry (h : FailsStatement g (g.ruleAt row) row d rest) :
    g.entry row = ⟨.error d, (Token.resume rest).tail⟩ := by
  have hread : g.readStatement row = ⟨.error d, rest⟩ := h.statementBy
  rw [Grammar.entry, hread]

theorem exists_readsStatement_of_mem_entries (hs : .ok s ∈ g.entries row) :
    ∃ part after, part <:+ row ∧ ReadsStatement g (g.ruleAt part) part s after := by
  induction row using entries.induct g with
  | case1 =>
      rw [entries_nil] at hs
      cases hs
  | case2 token row _ ih =>
      rw [entries_cons] at hs
      obtain heq | hs := List.mem_cons.mp hs
      · obtain ⟨s', after, hread⟩ | ⟨d, after, hfail⟩ :=
          readsStatement_or_fails g (g.ruleAt (token :: row)) (token :: row)
        · rw [hread.entry] at heq
          cases heq
          exact ⟨token :: row, after, List.suffix_rfl, hread⟩
        · rw [hfail.entry] at heq
          cases heq
      · obtain ⟨part, after, hpart, hread⟩ := ih hs
        have hrow : part <:+ token :: row :=
          hpart.trans ((g.rest_entry token row).trans (List.suffix_cons token row))
        exact ⟨part, after, hrow, hread⟩

end Grammar

/-- Every statement of a program is read where some part of its row of tokens starts. -/
theorem exists_readsStatement_of_mem_parse {source : String} {s : Stmt}
    (hs : s ∈ (parse source).1.statements) :
    ∃ part after, part <:+ Token.lex source.toList ∧
      Grammar.ReadsStatement .standard (Grammar.standard.ruleAt part) part s after :=
  Grammar.exists_readsStatement_of_mem_entries (Grammar.mem_statementsOf_iff.mp hs)

end Monkey
