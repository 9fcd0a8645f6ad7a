import Mathlib.Data.List.TakeWhile
import Monkey.Proofs.Derivation
import Monkey.Proofs.Lexeme

/-!
# Semicolons separate

In a grammar in which a semicolon starts neither an operand nor a statement with a rule of its own,
no reader looks past a semicolon: on a row that ends in one (`Token.Closed`) every reader does what
it does on any longer row, and a success leaves the semicolon for later (`Reads.append`,
`Fails.append`).  So a program that ends in a semicolon is read as it would be with anything
after it (`entries_append`), and neither statements nor diagnostics depend on what stands on the
other side of a semicolon (`parse_append_semicolon`).
-/

namespace Monkey

namespace Token

/-- The last token of the row is a semicolon. -/
def Closed (row : List Token) : Prop :=
  ∃ token ∈ row.getLast?, token.kind = .semicolon

namespace Closed

variable {token : Token} {row rest more : List Token}

theorem ne_nil (h : Closed row) : row ≠ [] := by
  rintro rfl
  obtain ⟨_, hmem, _⟩ := h
  cases hmem

theorem of_suffix (h : Closed row) (hsuffix : rest <:+ row) (hne : rest ≠ []) : Closed rest := by
  obtain ⟨before, rfl⟩ := hsuffix
  obtain ⟨last, hlast, hkind⟩ := h
  rw [List.getLast?_append, List.getLast?_eq_some_getLast hne, Option.some_or,
    ← List.getLast?_eq_some_getLast hne] at hlast
  exact ⟨last, hlast, hkind⟩

theorem cons (token : Token) (h : Closed row) : Closed (token :: row) := by
  obtain ⟨last, hlast, hkind⟩ := h
  refine ⟨last, ?_, hkind⟩
  rw [List.getLast?_cons, hlast]
  rfl

theorem of_tail (h : Closed row.tail) : Closed row := by
  cases row with
  | nil => exact h
  | cons token row => exact h.cons token

theorem tail (h : Closed (token :: row)) (hkind : token.kind ≠ .semicolon) : Closed row := by
  refine h.of_suffix (List.suffix_cons token row) ?_
  rintro rfl
  obtain ⟨last, hlast, hlastKind⟩ := h
  obtain rfl : token = last := Option.some.inj hlast
  exact hkind hlastKind

theorem tail_of_current (h : Closed row) (hkind : (current row).kind ≠ .semicolon) :
    Closed row.tail := by
  obtain ⟨token, row, rfl⟩ := List.exists_cons_of_ne_nil h.ne_nil
  exact h.tail hkind

theorem current_append (h : Closed row) (more : List Token) :
    current (row ++ more) = current row := by
  obtain ⟨token, row, rfl⟩ := List.exists_cons_of_ne_nil h.ne_nil
  rfl

theorem tail_append (h : Closed row) (more : List Token) :
    (row ++ more).tail = row.tail ++ more := by
  obtain ⟨token, row, rfl⟩ := List.exists_cons_of_ne_nil h.ne_nil
  rfl

theorem peek_append (h : Closed row.tail) (more : List Token) : peek (row ++ more) = peek row := by
  rw [peek, h.of_tail.tail_append, h.current_append, peek]

theorem skipSemicolon_append (h : Closed row.tail) (more : List Token) :
    skipSemicolon (row ++ more) = skipSemicolon row ++ more := by
  rw [skipSemicolon, skipSemicolon, h.peek_append, h.of_tail.tail_append]
  split <;> rfl

theorem skipSemicolon_ne_nil (h : Closed row.tail) : skipSemicolon row ≠ [] := by
  unfold skipSemicolon
  split
  · exact h.ne_nil
  · exact h.of_tail.ne_nil

theorem resume_append (h : Closed row) (more : List Token) :
    resume (row ++ more) = resume row ++ more := by
  rw [resume, resume, h.current_append, h.tail_append]
  by_cases hkind : (current row).kind = .semicolon
  · simp [hkind]
  · rw [(h.tail_of_current hkind).peek_append]
    split <;> rfl

theorem resume_ne_nil (h : Closed row) : resume row ≠ [] := by
  unfold resume
  split
  · next hkind => exact (h.tail_of_current hkind.1).ne_nil
  · exact h.ne_nil

/-! #### Rows of signs -/

theorem dropWhile_sign_ne_nil (h : Closed row) : row.dropWhile isUnarySign ≠ [] := by
  intro hnil
  obtain ⟨last, hlast, hkind⟩ := h
  have hsign := List.dropWhile_eq_nil_iff.mp hnil last (List.mem_of_getLast? hlast)
  simp [isUnarySign, hkind] at hsign

theorem dropWhile_sign (h : Closed row) : Closed (row.dropWhile isUnarySign) :=
  h.of_suffix (List.dropWhile_suffix _) h.dropWhile_sign_ne_nil

theorem dropWhile_sign_append (h : Closed row) (more : List Token) :
    (row ++ more).dropWhile isUnarySign = row.dropWhile isUnarySign ++ more := by
  rw [List.dropWhile_append, if_neg (by simpa using h.dropWhile_sign_ne_nil)]

theorem takeWhile_sign_append (h : Closed row) (more : List Token) :
    (row ++ more).takeWhile isUnarySign = row.takeWhile isUnarySign := by
  have hsplit : (row ++ more).takeWhile isUnarySign ++ (row.dropWhile isUnarySign ++ more) =
      row.takeWhile isUnarySign ++ (row.dropWhile isUnarySign ++ more) := by
    rw [← h.dropWhile_sign_append more, List.takeWhile_append_dropWhile,
      h.dropWhile_sign_append more, ← List.append_assoc, List.takeWhile_append_dropWhile]
  exact List.append_cancel_right hsplit

end Closed

end Token

namespace Grammar

open Token (Closed)

variable {g : Grammar} {goal : Goal} {rule : StatementRule} {row rest : List Token} {e : Expr}
  {s : Stmt} {d : Diagnostic}

/-! ### Expressions -/

/-- A semicolon stands at the end of the row and is not the token that the goal starts with. -/
def Goal.Sealed : Goal → List Token → Prop
  | expression _, row => Closed row
  | operand, row => Closed row
  | _, row => Closed row.tail

theorem nextOperator?_append {power : Power} (h : Closed row.tail) (more : List Token) :
    g.nextOperator? power (row ++ more) = g.nextOperator? power row := by
  rw [nextOperator?, nextOperator?, h.peek_append]

theorem peek_ne_semicolon_of_nextOperator? {power : Power} {operator : Operator}
    (h : g.nextOperator? power row = some operator) : (Token.peek row).kind ≠ .semicolon := by
  intro hkind
  rw [nextOperator?, if_pos hkind] at h
  cases h

theorem kind_ne_semicolon_of_operand (hg : g.operand .semicolon = none) {kind : Kind}
    {rule : OperandRule} (h : g.operand kind = some rule) : kind ≠ .semicolon := by
  rintro rfl
  rw [hg] at h
  cases h

/-- **A success does not depend on what follows a semicolon**, and the semicolon is still ahead
after it. -/
theorem Reads.append (hg : g.operand .semicolon = none) (h : Reads g goal row e rest)
    (hrow : goal.Sealed row) (more : List Token) :
    Reads g goal (row ++ more) e (rest ++ more) ∧ Closed rest.tail := by
  induction h with
  | expression _ _ ih₁ ih₂ =>
      obtain ⟨h₁, hrest⟩ := ih₁ hrow
      obtain ⟨h₂, hafter⟩ := ih₂ hrest
      exact ⟨.expression h₁ h₂, hafter⟩
  | operand hrule _ ih =>
      obtain ⟨h, hafter⟩ := ih (hrow.tail (kind_ne_semicolon_of_operand hg hrule))
      exact ⟨.operand hrule h, hafter⟩
  | name hkind => exact ⟨.name hkind, hrow⟩
  | integer hkind hvalue => exact ⟨.integer hkind hvalue, hrow⟩
  | @unaryRun token rest after e _ ih =>
      have hrest : Closed rest := hrow
      obtain ⟨h, hafter⟩ := ih hrest.dropWhile_sign
      rw [← hrest.dropWhile_sign_append] at h
      refine ⟨?_, hafter⟩
      rw [← hrest.takeWhile_sign_append more]
      exact .unaryRun h
  | unaryOnce _ ih =>
      obtain ⟨h, hafter⟩ := ih hrow
      exact ⟨.unaryOnce h, hafter⟩
  | @group token rest after e _ hclose ih =>
      obtain ⟨h, hafter⟩ := ih hrow
      rw [← hafter.of_tail.tail_append]
      refine ⟨.group h (by rw [hafter.peek_append, hclose]), hafter.tail_of_current ?_⟩
      rw [← Token.peek, hclose]
      decide
  | rightOperand _ ih =>
      obtain ⟨h, hafter⟩ := ih hrow
      exact ⟨.rightOperand h, hafter⟩
  | operatorsNil => exact absurd rfl hrow.ne_nil
  | operatorsStop hnext =>
      exact ⟨.operatorsStop (hnext ▸ nextOperator?_append hrow more), hrow⟩
  | operatorsStep hnext _ _ ih₁ ih₂ =>
      have hrest := hrow.tail_of_current (peek_ne_semicolon_of_nextOperator? hnext)
      obtain ⟨h₁, hafter⟩ := ih₁ hrest
      obtain ⟨h₂, hlast⟩ := ih₂ hafter
      exact ⟨.operatorsStep (hnext ▸ nextOperator?_append hrow more) h₁ h₂, hlast⟩

/-- **A failure does not depend on what follows a semicolon**, which is not passed by it. -/
theorem Fails.append (hg : g.operand .semicolon = none) (h : Fails g goal row d rest)
    (hrow : goal.Sealed row) (more : List Token) :
    Fails g goal (row ++ more) d (rest ++ more) ∧ Closed rest := by
  induction h with
  | expressionOperand _ ih =>
      obtain ⟨h, hrest⟩ := ih hrow
      exact ⟨.expressionOperand h, hrest⟩
  | expressionOperators hleft _ ih =>
      obtain ⟨hleft, hrest⟩ := hleft.append hg hrow more
      obtain ⟨h, hafter⟩ := ih hrest
      exact ⟨.expressionOperators hleft h, hafter⟩
  | operandNil => exact absurd rfl hrow.ne_nil
  | operandNone hrule => exact ⟨.operandNone hrule, hrow⟩
  | operand hrule _ ih =>
      obtain ⟨h, hafter⟩ := ih (hrow.tail (kind_ne_semicolon_of_operand hg hrule))
      exact ⟨.operand hrule h, hafter⟩
  | operandByNil => exact absurd rfl hrow.ne_nil
  | primaryInteger hkind hvalue => exact ⟨.primaryInteger hkind hvalue, hrow.cons _⟩
  | primaryKind hint hident => exact ⟨.primaryKind hint hident, hrow.cons _⟩
  | @unaryRun token rest after d _ ih =>
      have hrest : Closed rest := hrow
      obtain ⟨h, hafter⟩ := ih hrest.dropWhile_sign
      rw [← hrest.dropWhile_sign_append] at h
      exact ⟨.unaryRun h, hafter⟩
  | unaryOnce _ ih =>
      obtain ⟨h, hafter⟩ := ih hrow
      exact ⟨.unaryOnce h, hafter⟩
  | groupInner _ ih =>
      obtain ⟨h, hafter⟩ := ih hrow
      exact ⟨.groupInner h, hafter⟩
  | @groupEnd token rest after e hinner hclose =>
      obtain ⟨hinner, hafter⟩ := hinner.append hg hrow more
      rw [← hafter.peek_append more] at hclose ⊢
      exact ⟨.groupEnd hinner hclose, hafter.of_tail⟩
  | rightOperandNil => exact absurd rfl hrow.ne_nil
  | rightOperand _ ih =>
      obtain ⟨h, hafter⟩ := ih hrow
      exact ⟨.rightOperand h, hafter⟩
  | operatorsRight hnext _ ih =>
      have hrest := hrow.tail_of_current (peek_ne_semicolon_of_nextOperator? hnext)
      obtain ⟨h, hafter⟩ := ih hrest
      exact ⟨.operatorsRight (hnext ▸ nextOperator?_append hrow more) h, hafter⟩
  | operatorsStep hnext hright _ ih =>
      have hrest := hrow.tail_of_current (peek_ne_semicolon_of_nextOperator? hnext)
      obtain ⟨hright, hafter⟩ := hright.append hg hrest more
      obtain ⟨h, hlast⟩ := ih hafter
      exact ⟨.operatorsStep (hnext ▸ nextOperator?_append hrow more) hright h, hlast⟩

/-! ### Statements -/

/-- A rule other than that of bare expressions is only used where a statement starts with a word
that is no semicolon. -/
theorem closed_tail_of_ruleAt (hg : g.statement .semicolon = none) (hrow : Closed row)
    (hrule : g.ruleAt row ≠ .expression) : Closed row.tail := by
  refine hrow.tail_of_current fun hkind => hrule ?_
  rw [ruleAt, hkind, hg]
  rfl

theorem ruleAt_append (hrow : Closed row) (more : List Token) :
    g.ruleAt (row ++ more) = g.ruleAt row := by
  rw [ruleAt, ruleAt, hrow.current_append]

theorem ReadsStatement.append (hg : g.operand .semicolon = none)
    (h : ReadsStatement g rule row s rest) (hrow : Closed row)
    (hrule : rule ≠ .expression → Closed row.tail) (more : List Token) :
    ReadsStatement g rule (row ++ more) s (rest ++ more) ∧ rest ≠ [] := by
  cases h with
  | binding hname hsign hvalue =>
      have hbody := ((hrule nofun).tail (by simp [hname])).tail (by simp [hsign])
      obtain ⟨hvalue, hafter⟩ := hvalue.append hg hbody more
      rw [← hafter.skipSemicolon_append]
      exact ⟨.binding hname hsign hvalue, hafter.skipSemicolon_ne_nil⟩
  | returning hvalue =>
      obtain ⟨hvalue, hafter⟩ := hvalue.append hg (hrule nofun) more
      rw [← hrow.tail_append] at hvalue
      rw [← hafter.skipSemicolon_append, ← hrow.current_append more]
      exact ⟨.returning hvalue, hafter.skipSemicolon_ne_nil⟩
  | expression hvalue =>
      obtain ⟨hvalue, hafter⟩ := hvalue.append hg hrow more
      rw [← hafter.skipSemicolon_append, ← hrow.current_append more]
      exact ⟨.expression hvalue, hafter.skipSemicolon_ne_nil⟩

theorem FailsStatement.append (hg : g.operand .semicolon = none)
    (h : FailsStatement g rule row d rest) (hrow : Closed row)
    (hrule : rule ≠ .expression → Closed row.tail) (more : List Token) :
    FailsStatement g rule (row ++ more) d (rest ++ more) ∧ Closed rest := by
  cases h with
  | bindingName hname =>
      rw [← (hrule nofun).peek_append more] at hname ⊢
      exact ⟨.bindingName hname, hrow⟩
  | @bindingSign word name rest hname hsign =>
      have hrest : Closed rest := (hrule nofun).tail (by simp [hname])
      rw [← hrest.current_append more] at hsign ⊢
      exact ⟨.bindingSign hname hsign, hrest.cons name⟩
  | bindingValue hname hsign hvalue =>
      have hbody := ((hrule nofun).tail (by simp [hname])).tail (by simp [hsign])
      obtain ⟨hvalue, hafter⟩ := hvalue.append hg hbody more
      exact ⟨.bindingValue hname hsign hvalue, hafter⟩
  | returning hvalue =>
      obtain ⟨hvalue, hafter⟩ := hvalue.append hg (hrule nofun) more
      rw [← hrow.tail_append] at hvalue
      exact ⟨.returning hvalue, hafter⟩
  | expression hvalue =>
      obtain ⟨hvalue, hafter⟩ := hvalue.append hg hrow more
      exact ⟨.expression hvalue, hafter⟩

/-! ### Programs -/

/-- One entry of a row that ends in a semicolon does not depend on what follows. -/
theorem entry_append (hoperand : g.operand .semicolon = none)
    (hstatement : g.statement .semicolon = none) (hrow : Closed row) (more : List Token) :
    g.entry (row ++ more) = ⟨(g.entry row).result, (g.entry row).rest ++ more⟩ := by
  have hrule := closed_tail_of_ruleAt hstatement hrow
  obtain ⟨s, rest, h⟩ | ⟨d, rest, h⟩ := readsStatement_or_fails g (g.ruleAt row) row
  · obtain ⟨hmore, hrest⟩ := h.append hoperand hrow hrule more
    rw [← ruleAt_append hrow more] at hmore
    rw [h.entry, hmore.entry]
    obtain ⟨token, rest, rfl⟩ := List.exists_cons_of_ne_nil hrest
    rfl
  · obtain ⟨hmore, hrest⟩ := h.append hoperand hrow hrule more
    rw [← ruleAt_append hrow more] at hmore
    rw [h.entry, hmore.entry, hrest.resume_append]
    obtain ⟨token, rest, hresume⟩ := List.exists_cons_of_ne_nil hrest.resume_ne_nil
    rw [hresume]
    rfl

/-- **A program that ends in a semicolon is read alike whatever follows it**, and so is what
follows. -/
theorem entries_append (hoperand : g.operand .semicolon = none)
    (hstatement : g.statement .semicolon = none) (hrow : row = [] ∨ Closed row)
    (more : List Token) : g.entries (row ++ more) = g.entries row ++ g.entries more := by
  induction row using entries.induct g with
  | case1 => rw [entries_nil, List.nil_append, List.nil_append]
  | case2 token rest _ ih =>
      have hclosed : Closed (token :: rest) := hrow.resolve_left (List.cons_ne_nil _ _)
      have hafter : (g.entry (token :: rest)).rest = [] ∨
          Closed (g.entry (token :: rest)).rest := by
        refine or_iff_not_imp_left.mpr (hclosed.of_suffix ?_)
        exact (g.rest_entry token rest).trans (List.suffix_cons token rest)
      have hentry := entry_append hoperand hstatement hclosed more
      rw [List.cons_append] at hentry ⊢
      rw [entries_cons, hentry, ih hafter, entries_cons, List.cons_append]

end Grammar

open Grammar in
/-- **Nothing leaks across a semicolon.**  A text in front of a semicolon and a text behind it have
the statements and the diagnostics that they have alone. -/
theorem parse_append_semicolon (a b : String) :
    parse (a ++ ";" ++ b) =
      (⟨(parse (a ++ ";")).1.statements ++ (parse b).1.statements⟩,
        (parse (a ++ ";")).2 ++ (parse b).2) := by
  have hfront : Token.lex (a ++ ";").toList = Token.lex a.toList ++ [Token.semicolon] := by
    rw [String.toList_append, ← Token.lex_nil]
    exact Token.lex_append_semicolon a.toList []
  have hwhole : Token.lex (a ++ ";" ++ b).toList =
      Token.lex (a ++ ";").toList ++ Token.lex b.toList := by
    rw [hfront, String.toList_append, String.toList_append, List.append_assoc, List.append_assoc]
    exact Token.lex_append_semicolon a.toList b.toList
  have hclosed : Token.Closed (Token.lex (a ++ ";").toList) :=
    ⟨Token.semicolon, by rw [hfront, List.getLast?_concat]; rfl, rfl⟩
  have hentries := entries_append (g := standard) rfl rfl (.inr hclosed) (Token.lex b.toList)
  rw [parse, hwhole, hentries]
  simp only [parse, statementsOf, diagnosticsOf, List.filterMap_append]

end Monkey
