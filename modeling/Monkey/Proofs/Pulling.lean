import Mathlib.Order.Filter.AtTopBot.Basic
import Monkey.Pull
import Monkey.Proofs.Derivation
import Monkey.Proofs.Lexeme
import Monkey.Proofs.Related

/-!
# Readers that pull tokens agree with readers of rows

A reader that pulls tokens comes to its end if all depths that are large enough give it the same
result (`Pull.Ends`, `PullParser.Ends`); no depth is large enough for one that goes on for ever.

A window shows a row if its two tokens are the first two of the row and its cursor still has the
rest of them (`Window.Shows`).  A reader yields an outcome on a row if it comes to its end on every
window that shows the row, with the result of the outcome and with a window that shows the row which
is left (`Pull.Yields`).  The outcomes of readers of rows are put together by `andThen` and `map`,
readers that pull by binding, and `Yields` goes along with both.

`Pull.yields_read` says that each goal is reached, or given up, by pulling as on the row that the
window shows, if no operand but a name or an integer is read at the end of the tokens: a sign at
the end is followed by itself for ever.  The same follows for statements and for whole programs
(`PullParser.ends_toParser`): what is pulled is what is read off the row.
-/

namespace Monkey

variable {row rest : List Token}

/-! ### What a window shows -/

/-- The tokens of the window and of its cursor are those of the row. -/
structure Window.Shows (w : Window) (row : List Token) : Prop where
  current_eq : w.current = Token.current row
  peek_eq : w.peek = Token.peek row
  tokens_eq : w.cursor.tokens = row.tail.tail

namespace Cursor

theorem next_eq (cursor : Cursor) :
    cursor.next.1 = Token.current cursor.tokens ∧ cursor.next.2.tokens = cursor.tokens.tail := by
  rw [tokens_next]
  split
  · next h =>
    rw [next, h]
    exact ⟨rfl, Token.lex_nil⟩
  · exact ⟨rfl, rfl⟩

end Cursor

namespace Window

variable {w : Window}

namespace Shows

theorem advance (h : w.Shows row) : w.advance.Shows row.tail where
  current_eq := h.peek_eq
  peek_eq := by
    rw [Window.advance, w.cursor.next_eq.1, h.tokens_eq]
    rfl
  tokens_eq := by rw [Window.advance, w.cursor.next_eq.2, h.tokens_eq]

theorem resume (h : w.Shows row) : w.resume.Shows (Token.resume row) := by
  rw [Window.resume, Token.resume, h.current_eq, h.peek_eq]
  split
  · exact h.advance
  · exact h

theorem skip (h : w.Shows row) (n : Nat) : (w.skip n).Shows (row.drop n) := by
  induction n generalizing w row with
  | zero => exact h
  | succ n ih =>
      rw [← List.drop_tail]
      exact ih h.advance

end Shows

theorem shows_ofCursor (cursor : Cursor) : (ofCursor cursor).Shows cursor.tokens :=
  have h : (⟨.eof, .eof, cursor⟩ : Window).Shows (.eof :: .eof :: cursor.tokens) := ⟨rfl, rfl, rfl⟩
  h.advance.advance

theorem Shows.unread_eq (h : w.Shows row) (hrow : ∀ token ∈ row, token.kind ≠ .eof) :
    w.unread = row := by
  rw [unread, h.current_eq, h.peek_eq, h.tokens_eq]
  match row, hrow with
  | [], _ => rfl
  | [token], hrow =>
      have htoken : token.kind ≠ .eof := hrow token List.mem_cons_self
      simp [htoken, Token.eof]
  | token :: next :: rest, hrow =>
      exact List.filter_eq_self.mpr fun t ht => by simpa using hrow t ht

end Window

/-! ### Outcomes of readers that pull -/

namespace Pull

variable {α β : Type} {a : α} {o : Outcome α} {p : Outcome β} {w w' : Window} {d : Diagnostic}

variable {m : Nat → Pull α} {f : Nat → α → Pull β}

/-- The reader comes to its end on the window, with the result and the window it leaves: no depth
that is large enough is used up. -/
def Ends (m : Nat → Pull α) (w : Window) (result : Except Diagnostic α) (after : Window) : Prop :=
  ∀ᶠ depth in Filter.atTop, (m depth).startAt w = some (result, after)

/-- A reader that calls another one with less depth comes to its end if the other one does. -/
theorem Ends.of_succ {result : Except Diagnostic α}
    (h : Ends (fun depth => m (depth + 1)) w result w') : Ends m w result w' := by
  rw [Ends, ← Filter.map_add_atTop_eq_nat 1]
  exact h

theorem Ends.bind {result : Except Diagnostic β} {last : Window} (hm : Ends m w (.ok a) w')
    (hf : Ends (fun depth => f depth a) w' result last) :
    Ends (fun depth => m depth >>= f depth) w result last := by
  filter_upwards [hm, hf] with depth hm hf
  rw [Reader.startAt_bind_ok hm]
  exact hf

theorem Ends.error (hm : Ends m w (.error d) w') :
    Ends (fun depth => m depth >>= f depth) w (.error d) w' :=
  hm.mono fun _ => Reader.startAt_bind_error

theorem Ends.unique {result result' : Except Diagnostic α} {after after' : Window}
    (h : Ends m w result after) (h' : Ends m w result' after') :
    result = result' ∧ after = after' := by
  obtain ⟨depth, hdepth, hdepth'⟩ := (h.and h').exists
  rw [hdepth'] at hdepth
  obtain ⟨rfl, rfl⟩ := Prod.mk.inj (Option.some.inj hdepth)
  exact ⟨rfl, rfl⟩

/-- On every window that shows the row the reader comes to its end, with the outcome. -/
def Yields (m : Nat → Pull α) (row : List Token) (o : Outcome α) : Prop :=
  ∀ w : Window, w.Shows row → ∃ w', Ends m w o.result w' ∧ w'.Shows o.rest

theorem yields_pure (a : α) (row : List Token) : Yields (fun _ => pure a) row (.ok a row) :=
  fun w hw => ⟨w, .of_forall fun _ => rfl, hw⟩

theorem yields_throw (d : Diagnostic) (row : List Token) :
    Yields (fun _ => (throw d : Pull α)) row ⟨.error d, row⟩ :=
  fun w hw => ⟨w, .of_forall fun _ => rfl, hw⟩

theorem yields_current (row : List Token) :
    Yields (fun _ => moves.current) row (.ok (Token.current row) row) :=
  fun w hw => ⟨w, .of_forall fun _ => by rw [← hw.current_eq]; rfl, hw⟩

theorem yields_peek (row : List Token) :
    Yields (fun _ => moves.peek) row (.ok (Token.peek row) row) :=
  fun w hw => ⟨w, .of_forall fun _ => by rw [← hw.peek_eq]; rfl, hw⟩

theorem yields_advance (row : List Token) :
    Yields (fun _ => moves.advance) row (.ok () row.tail) :=
  fun w hw => ⟨w.advance, .of_forall fun _ => rfl, hw.advance⟩

theorem Yields.of_succ (h : Yields (fun depth => m (depth + 1)) row o) : Yields m row o := by
  intro w hw
  obtain ⟨w', hends, hw'⟩ := h w hw
  exact ⟨w', hends.of_succ, hw'⟩

/-- Readers one after the other: after a success both kinds of readers go on, after a failure
neither does. -/
theorem Yields.andThen {k : α → List Token → Outcome β} (hm : Yields m row o)
    (hf : ∀ a rest, o = .ok a rest → Yields (fun depth => f depth a) rest (k a rest)) :
    Yields (fun depth => m depth >>= f depth) row (o.andThen k) := by
  intro w hw
  obtain ⟨w', hends, hw'⟩ := hm w hw
  obtain ⟨result, rest⟩ := o
  cases result with
  | error d => exact ⟨w', hends.error, hw'⟩
  | ok a =>
      obtain ⟨last, hlast, hshows⟩ := hf a rest rfl w' hw'
      exact ⟨last, hends.bind hlast, hshows⟩

/-- After a step that always succeeds reading goes on at the row that is left. -/
theorem Yields.bind (hm : Yields m row (.ok a rest)) (hf : Yields (fun depth => f depth a) rest p) :
    Yields (fun depth => m depth >>= f depth) row p := by
  refine hm.andThen (k := fun _ _ => p) fun a' rest' h => ?_
  obtain ⟨rfl, rfl⟩ := Outcome.ok_inj.mp h
  exact hf

theorem Yields.fail (hm : Yields m row ⟨.error d, rest⟩) :
    Yields (fun depth => m depth >>= f depth) row ⟨.error d, rest⟩ :=
  hm.andThen (k := fun _ _ => ⟨.error d, rest⟩) nofun

theorem Yields.map (hm : Yields m row o) (f : α → β) :
    Yields (fun depth => m depth >>= fun a => pure (f a)) row (o.map f) :=
  hm.andThen fun a rest _ => yields_pure (f a) rest

theorem yields_expectPeek (kind : Kind) (row : List Token) :
    Yields (fun _ => moves.expectPeek kind) row (Token.expectPeek kind row) := by
  refine (yields_peek row).bind ?_
  rw [Token.expectPeek]
  split
  · exact (yields_advance row).bind (yields_current row.tail)
  · exact yields_throw _ row

theorem yields_skipSemicolon (row : List Token) :
    Yields (fun _ => moves.skipSemicolon) row (.ok () (Token.skipSemicolon row)) := by
  refine (yields_peek row).bind ?_
  rw [Token.skipSemicolon]
  split
  · exact yields_advance row
  · exact yields_pure () row

/-! ### Names, integers and signs -/

theorem yields_primary (row : List Token) :
    Yields (fun _ => moves.primary) row ⟨(Token.current row).primary, row⟩ := by
  refine (yields_current row).bind ?_
  cases (Token.current row).primary with
  | error d => exact yields_throw d row
  | ok e => exact yields_pure e row

theorem yields_signs (row : List Token) :
    Yields moves.signs row
      (.ok (row.takeWhile Token.isUnarySign) (row.dropWhile Token.isUnarySign)) := by
  induction row with
  | nil => exact .of_succ ((yields_current _).bind (yields_pure _ _))
  | cons token rest ih =>
      refine .of_succ ((yields_current _).bind ?_)
      rw [Token.current_cons, List.takeWhile_cons, List.dropWhile_cons]
      split
      · exact (yields_advance _).bind (ih.map (token :: ·))
      · exact yields_pure _ _

end Pull

namespace Grammar

variable {g : Grammar} {goal : Goal} {e : Expr}

/-- A left operand has been read up to its last token, which is the current one. -/
def Goal.Begun : Goal → List Token → Prop
  | operators _ _, row => row ≠ []
  | _, _ => True

theorem Reads.rest_ne_nil (h : Reads g goal row e rest) (hgoal : goal.Begun row) : rest ≠ [] := by
  induction h with
  | expression _ _ ih₁ ih₂ => exact ih₂ (ih₁ trivial)
  | operand _ _ ih => exact ih trivial
  | name | integer | operatorsStop => exact List.cons_ne_nil _ _
  | unaryRun _ ih | unaryOnce _ ih | rightOperand _ ih => exact ih trivial
  | @group _ _ after _ _ hclose _ =>
      intro htail
      rw [Token.peek, htail] at hclose
      cases hclose
  | operatorsNil => exact hgoal
  | operatorsStep _ _ _ ih₁ ih₂ => exact ih₂ (ih₁ trivial)

/-- At the end of the tokens nothing but a name or an integer is looked for as an operand. -/
def Stops (g : Grammar) : Prop :=
  ∀ rule, g.operand .eof = some rule → rule = .primary

end Grammar

namespace Pull

open Grammar (Goal read_eq_ok_iff)

variable {g : Grammar}

/-! ### Rules -/

theorem yields_operandRule (row : List Token) :
    Yields (fun _ => (steps g).operandRule) row
      (match g.operand (Token.current row).kind with
        | none => .noOperand (Token.current row) row
        | some rule => .ok rule row) := by
  refine (yields_current row).bind ?_
  cases g.operand (Token.current row).kind with
  | none => exact yields_throw _ row
  | some rule => exact yields_pure rule row

theorem yields_takeOperator?_none {power : Power} (h : g.nextOperator? power row = none) :
    Yields (fun _ => takeOperator? g power) row (.ok none row) := by
  have hoperator : operatorAt? g power (Token.peek row).kind = none := h
  refine (yields_peek row).bind ?_
  rw [hoperator]
  exact yields_pure none row

theorem yields_takeOperator?_some {power : Power} {operator : Operator}
    (h : g.nextOperator? power row = some operator) :
    Yields (fun _ => takeOperator? g power) row (.ok (some operator) row.tail) := by
  have hoperator : operatorAt? g power (Token.peek row).kind = some operator := h
  refine (yields_peek row).bind ?_
  rw [hoperator]
  exact (yields_advance row).bind (yields_pure _ _)

/-! ### Expressions at the end of the tokens -/

theorem yields_primary_nil : Yields (read g · (.operandBy .primary)) [] (.noOperand .eof []) :=
  .of_succ (yields_primary [])

theorem yields_operand_nil (hg : g.Stops) :
    Yields (read g · .operand) [] (.noOperand .eof []) := by
  have hrule : Yields (fun _ => (steps g).operandRule) [] _ := yields_operandRule []
  cases heof : g.operand (Token.current []).kind with
  | none =>
      rw [heof] at hrule
      exact .of_succ hrule.fail
  | some rule =>
      rw [heof] at hrule
      obtain rfl := hg rule heof
      exact .of_succ (hrule.bind yields_primary_nil)

theorem yields_expression_nil (hg : g.Stops) (power : Power) :
    Yields (read g · (.expression power)) [] (.noOperand .eof []) :=
  .of_succ (yields_operand_nil hg).fail

theorem yields_operandBy_nil (hg : g.Stops) (rule : OperandRule) :
    Yields (read g · (.operandBy rule)) [] (.noOperand .eof []) := by
  cases rule with
  | primary => exact yields_primary_nil
  | unaryRun =>
      refine .of_succ ((yields_current []).bind ((yields_advance []).bind ?_))
      exact (yields_signs []).bind (yields_expression_nil hg .unary).fail
  | unaryOnce =>
      refine .of_succ ((yields_current []).bind ((yields_advance []).bind ?_))
      exact (yields_expression_nil hg .unary).fail
  | group =>
      refine .of_succ ((yields_advance []).bind ?_)
      exact (yields_expression_nil hg .lowest).fail

theorem yields_rightOperand_nil (hg : g.Stops) (left : Expr) (power : Power) :
    Yields (read g · (.rightOperand left power)) [] (.noOperand .eof []) := by
  refine .of_succ ((yields_current []).bind ((yields_advance []).bind ?_))
  exact (yields_expression_nil hg power).fail

/-! ### Expressions -/

/-- **Every goal is reached or given up by pulling as it is on the row.**  Behind a left operand the
row is not empty: an operator registered for the end of the tokens would be pulled there, but not be
read off the row. -/
theorem yields_read (hg : g.Stops) (goal : Goal) (row : List Token) (hgoal : goal.Begun row) :
    Yields (read g · goal) row (g.read goal row) := by
  induction goal, row using Grammar.readWithin.induct g with
  | case1 power row ih₁ ih₂ =>
      rw [Grammar.read_expression]
      refine .of_succ ((ih₁ trivial).andThen fun left rest h => ?_)
      have hleft := read_eq_ok_iff.mp h
      exact ih₂ left rest hleft.suffix (hleft.rest_ne_nil trivial)
  | case2 =>
      rw [Grammar.read_operand_nil]
      exact yields_operand_nil hg
  | case3 token rest hrule =>
      rw [Grammar.read_operand_cons, hrule]
      have hfails : Yields (fun _ => (steps g).operandRule) (token :: rest) _ :=
        yields_operandRule (token :: rest)
      rw [Token.current_cons, hrule] at hfails
      exact .of_succ hfails.fail
  | case4 token rest rule hrule ih =>
      rw [Grammar.read_operand_cons, hrule]
      have hfound : Yields (fun _ => (steps g).operandRule) (token :: rest) _ :=
        yields_operandRule (token :: rest)
      rw [Token.current_cons, hrule] at hfound
      exact .of_succ (hfound.bind (ih trivial))
  | case5 rule =>
      rw [Grammar.read_operandBy_nil]
      exact yields_operandBy_nil hg rule
  | case6 token rest =>
      rw [Grammar.read_primary]
      exact .of_succ (yields_primary (token :: rest))
  | case7 token rest _ _ ih =>
      rw [Grammar.read_unaryRun]
      refine .of_succ ((yields_current _).bind ((yields_advance _).bind ?_))
      exact (yields_signs _).bind ((ih trivial).map _)
  | case8 token rest ih =>
      rw [Grammar.read_unaryOnce]
      refine .of_succ ((yields_current _).bind ((yields_advance _).bind ?_))
      exact (ih trivial).map _
  | case9 token rest ih =>
      rw [Grammar.read_group]
      refine .of_succ ((yields_advance _).bind ((ih trivial).andThen fun inner after _ => ?_))
      exact (yields_expectPeek .rparen after).map _
  | case10 left power =>
      rw [Grammar.read_rightOperand_nil]
      exact yields_rightOperand_nil hg left power
  | case11 left power operator rest ih =>
      rw [Grammar.read_rightOperand_cons]
      refine .of_succ ((yields_current _).bind ((yields_advance _).bind ?_))
      exact (ih trivial).map _
  | case12 left power => exact absurd rfl hgoal
  | case13 left power token rest hnext =>
      rw [Grammar.read_operators_cons, hnext]
      exact .of_succ ((yields_takeOperator?_none hnext).bind (yields_pure left _))
  | case14 left power token rest operator hnext ih₁ ih₂ =>
      rw [Grammar.read_operators_cons, hnext]
      refine .of_succ ((yields_takeOperator?_some hnext).bind ?_)
      refine (ih₁ trivial).andThen fun joined after h => ?_
      have hjoined := read_eq_ok_iff.mp h
      exact ih₂ joined after hjoined.suffix (hjoined.rest_ne_nil trivial)

/-! ### Statements -/

theorem yields_closingExpression (hg : g.Stops) (row : List Token) :
    Yields (steps g).closingExpression row (g.closingExpression row) := by
  refine (yields_read hg (.expression .lowest) row trivial).andThen fun e rest _ => ?_
  exact (yields_skipSemicolon rest).bind (yields_pure e _)

theorem yields_statementBy (hg : g.Stops) (rule : StatementRule) (row : List Token) :
    Yields (statementBy g · rule) row (g.statementBy rule row) := by
  cases rule with
  | binding =>
      refine (yields_current row).bind ?_
      refine (yields_expectPeek .ident row).andThen fun name row₁ _ => ?_
      refine (yields_expectPeek .assign row₁).andThen fun _ row₂ _ => ?_
      exact (yields_advance row₂).bind ((yields_closingExpression hg row₂.tail).map _)
  | returning =>
      refine (yields_current row).bind ((yields_advance row).bind ?_)
      exact (yields_closingExpression hg row.tail).map _
  | expression => exact (yields_current row).bind ((yields_closingExpression hg row).map _)

theorem yields_statement (hg : g.Stops) (row : List Token) :
    Yields (statement g) row (g.readStatement row) := by
  have hrule : Yields (fun _ => (steps g).statementRule) row
      (.ok ((g.statement (Token.current row).kind).getD .expression) row) :=
    (yields_current row).bind (yields_pure _ row)
  exact hrule.bind (yields_statementBy hg _ row)

end Pull

/-! ### Programs -/

namespace PullParser

open Grammar

/-- Reading on behind the statements comes to its end, with the whole program and the parser that
is left. -/
def EndsAfter (statements : List Stmt) (p : PullParser) (program : Program) (after : PullParser) :
    Prop :=
  ∀ᶠ depth in Filter.atTop, programAfter depth statements p = some (program, after)

/-- Reading a program comes to its end, with the program and the parser that is left. -/
def Ends (p : PullParser) (program : Program) (after : PullParser) : Prop :=
  EndsAfter [] p program after

section Turn

variable {p after : PullParser} {statements : List Stmt} {program : Program} {w : Window}

theorem Ends.unique {program' : Program} {after' : PullParser} (h : p.Ends program after)
    (h' : p.Ends program' after') : program = program' ∧ after = after' := by
  obtain ⟨depth, hdepth, hdepth'⟩ := (h.and h').exists
  rw [hdepth'] at hdepth
  obtain ⟨rfl, rfl⟩ := Prod.mk.inj (Option.some.inj hdepth)
  exact ⟨rfl, rfl⟩

theorem EndsAfter.of_succ
    (h : ∀ᶠ depth in Filter.atTop, programAfter (depth + 1) statements p = some (program, after)) :
    EndsAfter statements p program after := by
  rw [EndsAfter, ← Filter.map_add_atTop_eq_nat 1]
  exact h

theorem endsAfter_of_eof (h : p.window.current.kind = .eof) :
    EndsAfter statements p ⟨statements⟩ p := by
  refine .of_succ (.of_forall fun depth => ?_)
  rw [programAfter, if_pos h]
  rfl

theorem EndsAfter.statement {s : Stmt} (hcurrent : p.window.current.kind ≠ .eof)
    (hs : Pull.Ends (Pull.statement p.grammar) p.window (.ok s) w)
    (h : EndsAfter (statements ++ [s]) { p with window := w.advance } program after) :
    EndsAfter statements p program after := by
  refine .of_succ ?_
  filter_upwards [hs, h] with depth hs h
  rw [programAfter, if_neg hcurrent, hs]
  exact h

theorem EndsAfter.diagnostic {d : Diagnostic} (hcurrent : p.window.current.kind ≠ .eof)
    (hd : Pull.Ends (Pull.statement p.grammar) p.window (.error d) w)
    (h : EndsAfter statements
      { p with window := w.resume.advance, diagnostics := p.diagnostics ++ [d] } program after) :
    EndsAfter statements p program after := by
  refine .of_succ ?_
  filter_upwards [hd, h] with depth hd h
  rw [programAfter, if_neg hcurrent, hd]
  exact h

end Turn

variable {g : Grammar}

/-- **Statements are pulled one by one as they are read off the row**, to the end of it. -/
theorem endsAfter_entries (hg : g.Stops) (hrow : ∀ token ∈ row, token.kind ≠ .eof) {w : Window}
    (hw : w.Shows row) (statements : List Stmt) (diagnostics : List Diagnostic) :
    ∃ last : Window, last.Shows [] ∧
      EndsAfter statements ⟨g, w, diagnostics⟩ ⟨statements ++ statementsOf (g.entries row)⟩
        ⟨g, last, diagnostics ++ diagnosticsOf (g.entries row)⟩ := by
  induction row using Grammar.entries.induct g generalizing w statements diagnostics with
  | case1 =>
      have hcurrent : w.current.kind = .eof := by rw [hw.current_eq]; rfl
      refine ⟨w, hw, ?_⟩
      rw [entries_nil, statementsOf, diagnosticsOf, List.filterMap_nil, List.filterMap_nil,
        List.append_nil, List.append_nil]
      exact endsAfter_of_eof hcurrent
  | case2 token rest _ ih =>
      have hcurrent : w.current.kind ≠ .eof := by
        rw [hw.current_eq]
        exact hrow token List.mem_cons_self
      have hafter : ∀ t ∈ (g.entry (token :: rest)).rest, t.kind ≠ .eof := fun t ht =>
        hrow t (List.mem_cons_of_mem token ((g.rest_entry token rest).subset ht))
      obtain ⟨w', hends, hw'⟩ := Pull.yields_statement hg (token :: rest) w hw
      rw [entries_cons]
      obtain ⟨s, after, hread⟩ | ⟨d, after, hfail⟩ :=
        readsStatement_or_fails g (g.ruleAt (token :: rest)) (token :: rest)
      · have hstatement : g.readStatement (token :: rest) = .ok s after := hread.statementBy
        rw [hstatement] at hends hw'
        rw [hread.entry] at ih hafter ⊢
        rw [statementsOf_ok, diagnosticsOf_ok, List.append_cons]
        obtain ⟨last, hlast, h⟩ := ih hafter hw'.advance (statements ++ [s]) diagnostics
        exact ⟨last, hlast, h.statement hcurrent hends⟩
      · have hstatement : g.readStatement (token :: rest) = ⟨.error d, after⟩ := hfail.statementBy
        rw [hstatement] at hends hw'
        rw [hfail.entry] at ih hafter ⊢
        rw [statementsOf_error, diagnosticsOf_error, List.append_cons diagnostics]
        obtain ⟨last, hlast, h⟩ := ih hafter hw'.resume.advance statements (diagnostics ++ [d])
        exact ⟨last, hlast, h.diagnostic hcurrent hends⟩

/-- **Reading a program by pulling comes to its end**, with the program and the diagnostics that the
parser for the tokens still to be pulled gives, and with no token left. -/
theorem ends_toParser {p : PullParser} (hg : p.grammar.Stops) (hw : p.window.Shows row)
    (hrow : ∀ token ∈ row, token.kind ≠ .eof) :
    ∃ after : PullParser, p.Ends p.toParser.program.1 after ∧
      p.toParser.program.2 = after.toParser ∧ after.window.Shows [] := by
  obtain ⟨last, hlast, hends⟩ := endsAfter_entries hg hrow hw [] p.diagnostics
  have hunread : p.window.unread = row := hw.unread_eq hrow
  refine ⟨⟨p.grammar, last, p.diagnostics ++ diagnosticsOf (p.grammar.entries row)⟩, ?_, ?_, hlast⟩
  · rw [toParser, hunread]
    exact hends
  · rw [toParser, toParser, hunread, hlast.unread_eq nofun]
    rfl

end PullParser

end Monkey
