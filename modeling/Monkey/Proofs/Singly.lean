import Monkey.Proofs.Forward

/-!
# Signs read one by one

A run of signs is read at once: the tokens `!` and `-` are gathered, and their operand is read only
once.  The rule `unaryOnce` reads one sign and the expression behind it, in which the next sign is
found by the table as any other operand.  `Grammar.singly` has this rule in place of the other.

Both come to the same (`read_singly`), if the two signs are read by the rule for runs.  What the
rule for runs passes over are, for each sign but the first, one look into the table and one loop
over operators; the loop has nothing to take, as the expression of the sign behind has ended in
front of an operator that binds no more tightly than signs do.

`Pull.ends_singly` says so for parsers that pull their tokens: from every place in every text both
come to the same expression or diagnostic, to the same program with the same diagnostics, and leave
the same window.
-/

namespace Monkey

/-- One sign in place of a run of them. -/
def OperandRule.singly : OperandRule → OperandRule
  | unaryRun => unaryOnce
  | rule => rule

namespace Grammar

/-- The grammar in which signs are read one by one. -/
def singly (g : Grammar) : Grammar :=
  { g with operand := fun kind => (g.operand kind).map OperandRule.singly }

/-- The goal of reading signs one by one. -/
def Goal.singly : Goal → Goal
  | operandBy rule => operandBy rule.singly
  | goal => goal

/-- The signs `!` and `-` are read by the rule for runs. -/
structure ReadsRuns (g : Grammar) : Prop where
  bang : g.operand .bang = some .unaryRun
  minus : g.operand .minus = some .unaryRun

end Grammar

namespace Outcome

variable {α β γ : Type}

@[simp] theorem map_id (o : Outcome α) : o.map id = o := by
  obtain ⟨result, rest⟩ := o
  cases result <;> rfl

theorem map_map (o : Outcome α) (f : α → β) (f' : β → γ) : (o.map f).map f' = o.map (f' ∘ f) := by
  obtain ⟨result, rest⟩ := o
  cases result <;> rfl

end Outcome

namespace Grammar

variable {g : Grammar} {power : Power} {row rest : List Token} {token : Token} {left : Expr}

/-! ### Expressions -/

theorem operand_singly (g : Grammar) (kind : Kind) :
    g.singly.operand kind = (g.operand kind).map OperandRule.singly := rfl

theorem ReadsRuns.operand_eq (hg : g.ReadsRuns) (htoken : token.isUnarySign = true) :
    g.operand token.kind = some .unaryRun := by
  obtain hkind | hkind := Token.isUnarySign_iff.mp htoken
  · rw [hkind, hg.bang]
  · rw [hkind, hg.minus]

theorem read_operators_of_stopped (h : (Goal.operators left power).Stopped g rest) :
    g.read (.operators left power) rest = .ok left rest := by
  cases rest with
  | nil => rw [read_operators_nil]
  | cons token rest =>
      obtain hnil | hnext := h
      · cases hnil
      · rw [read_operators_cons, hnext]

/-- A sign in front of an expression that reads to its end what its operand could go on with: the
loop over operators has nothing to take. -/
theorem read_sign (hg : g.ReadsRuns) (htoken : token.isUnarySign = true) {f : Expr → Expr}
    {body : List Token}
    (h : g.singly.read (.expression .unary) rest = (g.read (.expression .unary) body).map f) :
    g.singly.read (.expression .unary) (token :: rest) =
      (g.read (.expression .unary) body).map (.unary token ∘ f) := by
  have hoperand : g.singly.operand token.kind = some .unaryOnce := by
    rw [operand_singly, hg.operand_eq htoken]
    rfl
  have hread : g.singly.read .operand (token :: rest) =
      (g.read (.expression .unary) body).map (.unary token ∘ f) := by
    rw [read_operand_cons, hoperand]
    simp only
    rw [read_unaryOnce, h, Outcome.map_map]
  rw [read_expression, hread]
  obtain ⟨e, after, hreads⟩ | ⟨d, after, hfails⟩ := reads_or_fails g (.expression .unary) body
  · rw [hreads.read, Outcome.map_ok, Outcome.andThen_ok]
    exact read_operators_of_stopped (g := g.singly) hreads.stopped
  · rw [hfails.read, Outcome.map_error, Outcome.andThen_error]

/-- **The signs that a row starts with are read one by one as all at once**, if the expression
behind them is. -/
theorem read_signs (hg : g.ReadsRuns)
    (h : g.singly.read (.expression .unary) (row.dropWhile Token.isUnarySign) =
      g.read (.expression .unary) (row.dropWhile Token.isUnarySign)) :
    g.singly.read (.expression .unary) row =
      (g.read (.expression .unary) (row.dropWhile Token.isUnarySign)).map
        (Expr.underAll (row.takeWhile Token.isUnarySign)) := by
  induction row with
  | nil => exact h.trans (Outcome.map_id _).symm
  | cons token row ih =>
      by_cases htoken : token.isUnarySign = true
      · rw [List.dropWhile_cons_of_pos htoken] at h ⊢
        rw [List.takeWhile_cons_of_pos htoken]
        exact read_sign hg htoken (ih h)
      · rw [List.dropWhile_cons_of_neg htoken] at h ⊢
        rw [List.takeWhile_cons_of_neg htoken]
        exact h.trans (Outcome.map_id _).symm

/-- **Every goal is reached or given up as it is with signs read one by one.**  The goals are those
of the grammar with runs, so that what is known of a run is about the expression behind the last of
its signs. -/
theorem read_singly (hg : g.ReadsRuns) (goal : Goal) (row : List Token) :
    g.singly.read goal.singly row = g.read goal row := by
  induction goal, row using readWithin.induct g with
  | case1 power row ih₁ ih₂ =>
      change g.singly.read (.expression power) row = _
      rw [read_expression, read_expression]
      exact Outcome.andThen_congr ih₁ fun left rest h => ih₂ left rest (read_eq_ok_iff.mp h).suffix
  | case2 =>
      change g.singly.read .operand [] = _
      rw [read_operand_nil, read_operand_nil]
  | case3 token rest hrule =>
      change g.singly.read .operand (token :: rest) = _
      rw [read_operand_cons, read_operand_cons, operand_singly, hrule]
      rfl
  | case4 token rest rule hrule ih =>
      change g.singly.read .operand (token :: rest) = _
      rw [read_operand_cons, read_operand_cons, operand_singly, hrule]
      exact ih
  | case5 rule =>
      change g.singly.read (.operandBy rule.singly) [] = _
      rw [read_operandBy_nil, read_operandBy_nil]
  | case6 token rest =>
      change g.singly.read (.operandBy .primary) (token :: rest) = _
      rw [read_primary, read_primary]
  | case7 token rest _ _ ih =>
      change g.singly.read (.operandBy .unaryOnce) (token :: rest) = _
      rw [read_unaryOnce, read_unaryRun, read_signs hg ih, Outcome.map_map]
      rfl
  | case8 token rest ih =>
      change g.singly.read (.operandBy .unaryOnce) (token :: rest) = _
      rw [read_unaryOnce, read_unaryOnce]
      exact congrArg (Outcome.map (Expr.unary token)) ih
  | case9 token rest ih =>
      change g.singly.read (.operandBy .group) (token :: rest) = _
      rw [read_group, read_group]
      exact congrArg Outcome.closed ih
  | case10 left power =>
      change g.singly.read (.rightOperand left power) [] = _
      rw [read_rightOperand_nil, read_rightOperand_nil]
  | case11 left power operator rest ih =>
      change g.singly.read (.rightOperand left power) (operator :: rest) = _
      rw [read_rightOperand_cons, read_rightOperand_cons]
      exact congrArg (Outcome.map (Expr.binary left operator)) ih
  | case12 left power =>
      change g.singly.read (.operators left power) [] = _
      rw [read_operators_nil, read_operators_nil]
  | case13 left power token rest hnext =>
      change g.singly.read (.operators left power) (token :: rest) = _
      rw [read_operators_cons, read_operators_cons, hnext]
      rw [show g.singly.nextOperator? power (token :: rest) = none from hnext]
  | case14 left power token rest operator hnext ih₁ ih₂ =>
      change g.singly.read (.operators left power) (token :: rest) = _
      rw [read_operators_cons, read_operators_cons, hnext]
      rw [show g.singly.nextOperator? power (token :: rest) = some operator from hnext]
      exact Outcome.andThen_congr ih₁ fun joined after h =>
        ih₂ joined after (read_eq_ok_iff.mp h).suffix

/-! ### Statements and programs -/

theorem readStatement_singly (hg : g.ReadsRuns) (row : List Token) :
    g.singly.readStatement row = g.readStatement row := by
  have hclosing (row : List Token) : g.singly.closingExpression row = g.closingExpression row := by
    rw [closingExpression, closingExpression]
    exact congrArg (Outcome.andThen · _) (read_singly hg (.expression .lowest) row)
  rw [readStatement, readStatement, show g.singly.statement = g.statement from rfl]
  generalize (g.statement (Token.current row).kind).getD .expression = rule
  cases rule with
  | binding => simp only [statementBy, binding, hclosing]
  | returning => simp only [statementBy, returning, hclosing]
  | expression => simp only [statementBy, bareExpression, hclosing]

/-- **The entries of a row are those that there are with signs read one by one.** -/
theorem entries_singly (hg : g.ReadsRuns) (row : List Token) :
    g.singly.entries row = g.entries row := by
  have hentry (row : List Token) : g.singly.entry row = g.entry row := by
    rw [entry, entry, readStatement_singly hg]
  induction row using entries.induct g with
  | case1 => rw [entries_nil, entries_nil]
  | case2 token rest _ ih => rw [entries_cons, entries_cons, hentry, ih]

theorem Stops.singly (h : g.Stops) : g.singly.Stops := by
  intro rule hrule
  obtain ⟨other, hother, rfl⟩ := Option.map_eq_some_iff.mp hrule
  rw [h other hother]
  rfl

end Grammar

/-! ### Readers that pull -/

namespace Pull

/-- **Signs are pulled in runs as they are pulled one by one**, from every place in every text and
under every grammar that reads the two signs in runs and no sign at the end: an expression with the
same result or diagnostic, a program with the same statements and diagnostics, and each with the
same window left. -/
theorem ends_singly {g : Grammar} (hg : g.Stops) (hruns : g.ReadsRuns) (cursor : Cursor) (n : Nat)
    (power : Power) (diagnostics : List Diagnostic) :
    let w := (Window.ofCursor cursor).skip n
    (∃ result after,
      Ends (read g · (.expression power)) w result after ∧
        Ends (read g.singly · (.expression power)) w result after) ∧
    ∃ program last found,
      PullParser.Ends ⟨g, w, diagnostics⟩ program ⟨g, last, found⟩ ∧
        PullParser.Ends ⟨g.singly, w, diagnostics⟩ program ⟨g.singly, last, found⟩ := by
  intro w
  have hexpression := ends_expression hg.singly cursor n power
  have hread : g.singly.read (.expression power) = g.read (.expression power) :=
    funext (Grammar.read_singly hruns (.expression power))
  rw [hread] at hexpression
  have hprogram := PullParser.ends_program hg.singly cursor n diagnostics
  rw [Grammar.entries_singly hruns] at hprogram
  exact ⟨⟨_, _, ends_expression hg cursor n power, hexpression⟩,
    _, _, _, PullParser.ends_program hg cursor n diagnostics, hprogram⟩

/-- A run of signs with one among them that is read by the table only, in front of an operator that
binds more tightly than signs do; then a sign whose operand is missing. -/
theorem ends_singly_comma :
    let g := (Grammar.standard.setOperand .comma .unaryRun).setOperator .asterisk ⟨.call, .left⟩
    let w := (Window.ofCursor (.ofSource "return !-,-a * b - c; -!;")).skip 1
    g.Stops ∧ g.ReadsRuns ∧
    (∃ e after,
      Ends (read g · (.expression .lowest)) w (.ok e) after ∧
        Ends (read g.singly · (.expression .lowest)) w (.ok e) after ∧
        e.text = "((!(-(,(-(a * b))))) - c)" ∧ after.current.literal = "c") ∧
    ∃ program last found,
      PullParser.Ends ⟨g, w, []⟩ program ⟨g, last, found⟩ ∧
        PullParser.Ends ⟨g.singly, w, []⟩ program ⟨g.singly, last, found⟩ ∧
        program.text = "((!(-(,(-(a * b))))) - c)" ∧
        found = [⟨.noPrefixRule .semicolon, ";"⟩] := by
  intro g w
  have hg : g.Stops :=
    ((Grammar.registered_standard.unaryRun .comma nofun).operator .asterisk .call).stops
  have hruns : g.ReadsRuns := ⟨rfl, rfl⟩
  let cursor := Cursor.ofSource "return !-,-a * b - c; -!;"
  let o := g.read (.expression .lowest) (cursor.tokens.drop 1)
  let entries := g.entries (cursor.tokens.drop 1)
  let last := (Window.ofCursor cursor).skip (cursor.tokens.length - o.rest.length)
  have htext : o.result.toOption.map Expr.text = some "((!(-(,(-(a * b))))) - c)" := by
    decide +kernel
  have hlast : last.current.literal = "c" := by decide +kernel
  have hwhole : Program.text ⟨Grammar.statementsOf entries⟩ = "((!(-(,(-(a * b))))) - c)" := by
    decide +kernel
  have hfound : [] ++ Grammar.diagnosticsOf entries = [⟨.noPrefixRule .semicolon, ";"⟩] := by
    decide +kernel
  obtain ⟨⟨result, after, hends, hends'⟩, program, final, found, hprogram, hprogram'⟩ :=
    ends_singly hg hruns cursor 1 .lowest []
  obtain ⟨hresult, rfl⟩ := hends.unique (ends_expression hg cursor 1 .lowest)
  obtain ⟨rfl, hparser⟩ := hprogram.unique (PullParser.ends_program hg cursor 1 [])
  obtain ⟨-, rfl, rfl⟩ := PullParser.mk.inj hparser
  refine ⟨hg, hruns, ?_, _, _, _, hprogram, hprogram', hwhole, hfound⟩
  cases result with
  | error d =>
      rw [← show Except.error d = o.result from hresult] at htext
      cases htext
  | ok e =>
      rw [← show Except.ok e = o.result from hresult] at htext
      exact ⟨e, last, hends, hends', Option.some.inj htext, hlast⟩

end Pull

end Monkey
