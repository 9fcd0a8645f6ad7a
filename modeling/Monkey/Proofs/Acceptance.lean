import Monkey.Proofs.Standard
import Monkey.Proofs.Yield

/-!
# The parser accepts its grammar

The standard grammar is read in step with the automaton of `Monkey.Proofs.Phrase`.  What a reading
uses up leads the automaton from where an operand is due to where one is complete (`Reads.leads`),
and where a reading fails the automaton has no next step (`Fails.leads`).  So a row is read without
a diagnostic exactly if the automaton accepts it (`diagnosticsOf_entries_eq_nil_iff`), that is, if
it is a program by the grammar (`parse_diagnostics_eq_nil_iff`).

A statement that cannot be read is broken off in front of the token that its diagnostic is about
(`FailsStatement.breaksOff`).
-/

namespace Monkey

/-- The diagnostic is about the token: it has its literal and its kind, and it is an integer that
is told to be a bad one. -/
def Diagnostic.About (d : Diagnostic) (token : Token) : Prop :=
  d.literal = token.literal ∧
    match d.cause with
    | .unexpectedToken _ found => found = token.kind
    | .noPrefixRule kind => kind = token.kind
    | .badInteger literal => token.kind = .int ∧ literal = token.literal

/-- The row from the token that a diagnostic is about on, if the reader has given up at the row
given: it is the token behind the current one that is not the expected one. -/
def Diagnostic.faultRow (d : Diagnostic) (row : List Token) : List Token :=
  match d.cause with
  | .unexpectedToken _ _ => row.tail
  | _ => row

/-- The kinds that an operand starts with. -/
def Kind.operands : List Kind :=
  [ident, int, bang, minus]

/-- What there is to say about a token that starts no operand. -/
inductive Token.OperandFault (token : Token) : Diagnostic → Prop
  | kind :
      token.kind ∉ Kind.operands → OperandFault token ⟨.noPrefixRule token.kind, token.literal⟩
  | integer :
      token.kind = .int → Text.intValue? token.literal = none →
      OperandFault token ⟨.badInteger token.literal, token.literal⟩

namespace Token.OperandFault

variable {token : Token} {d : Diagnostic}

theorem about (h : token.OperandFault d) : d.About token := by
  cases h with
  | kind => exact ⟨rfl, rfl⟩
  | integer hkind => exact ⟨rfl, hkind, rfl⟩

theorem faultRow_eq (h : token.OperandFault d) (row : List Token) : d.faultRow row = row := by
  cases h with
  | kind | integer => rfl

end Token.OperandFault

namespace Phase

variable {phase : Phase} {row rest : List Token}

/-- No token at the front of the row may come next. -/
def Stuck (phase : Phase) (row : List Token) : Prop :=
  ∀ token ∈ row.head?, phase.step token = none

theorem stuck_nil : phase.Stuck [] :=
  nofun

theorem stuck_cons_iff {token : Token} : phase.Stuck (token :: row) ↔ phase.step token = none := by
  simp [Stuck]

theorem Stuck.of_current (h : phase.step (Token.current row) = none) : phase.Stuck row := by
  cases row with
  | nil => exact stuck_nil
  | cons token row => exact stuck_cons_iff.mpr h

/-- The program may go on with the row up to the rest, but then neither go on with the rest nor, if
nothing is left, end. -/
def BreaksOff (phase : Phase) (row rest : List Token) : Prop :=
  ∃ next, phase.Leads row next rest ∧ next.Stuck rest ∧ (rest = [] → next.mayEnd = false)

theorem BreaksOff.not_accepts (h : phase.BreaksOff row rest) : ¬ phase.Accepts row := by
  obtain ⟨next, hleads, hstuck, hend⟩ := h
  rw [hleads.accepts_iff]
  intro haccepts
  cases rest with
  | nil =>
      obtain ⟨last, hrun, hlast⟩ := haccepts
      obtain rfl : next = last := Option.some.inj hrun
      rw [hend rfl] at hlast
      cases hlast
  | cons token rest =>
      obtain ⟨_, hstep, _⟩ := accepts_cons_iff.mp haccepts
      rw [stuck_cons_iff.mp hstuck] at hstep
      cases hstep

theorem BreaksOff.of_stuck (h : phase.Stuck row) (hend : phase.mayEnd = false) :
    phase.BreaksOff row row :=
  ⟨phase, .refl phase row, h, fun _ => hend⟩

theorem Leads.breaksOff {next : Phase} {more : List Token} (h : phase.Leads row next rest)
    (hrest : next.BreaksOff rest more) : phase.BreaksOff row more := by
  obtain ⟨last, hleads, hstuck, hend⟩ := hrest
  exact ⟨last, h.trans hleads, hstuck, hend⟩

/-- Only the step on the first token depends on the phase in front of it. -/
theorem Leads.of_step_eq {other next : Phase} {token : Token}
    (hstep : other.step token = phase.step token) (h : phase.Leads (token :: row) next rest)
    (hne : next ≠ phase) : other.Leads (token :: row) next rest := by
  obtain ⟨used, hrow, hrun⟩ := h
  cases used with
  | nil => exact absurd (Option.some.inj hrun).symm hne
  | cons first used =>
      obtain ⟨rfl, -⟩ := List.cons.inj hrow
      refine ⟨token :: used, hrow, ?_⟩
      rw [← hrun, run, run, hstep]

theorem BreaksOff.of_step_eq {other : Phase} {token : Token}
    (hstep : other.step token = phase.step token) (h : phase.BreaksOff (token :: row) rest) :
    other.BreaksOff (token :: row) rest := by
  obtain ⟨next, ⟨used, hrow, hrun⟩, hstuck, hend⟩ := h
  cases used with
  | nil =>
      obtain rfl : phase = next := Option.some.inj hrun
      obtain rfl : token :: row = rest := hrow
      refine ⟨other, .refl _ _, stuck_cons_iff.mpr ?_, nofun⟩
      rw [hstep]
      exact stuck_cons_iff.mp hstuck
  | cons first used =>
      obtain ⟨rfl, -⟩ := List.cons.inj hrow
      refine ⟨next, ⟨token :: used, hrow, ?_⟩, hstuck, hend⟩
      rw [← hrun, run, run, hstep]

/-! ### Between two statements -/

/-- A statement is due, or the one in front of the row is complete and does not go on with it. -/
def Between (phase : Phase) (row : List Token) : Prop :=
  phase = statement ∨ (phase = complete ∧ (Token.current row).kind ∉ Kind.infixes ∧
    (Token.current row).kind ≠ .semicolon)

namespace Between

theorem step_eq {token : Token} (h : phase.Between (token :: row)) :
    phase.step token = statement.step token := by
  obtain rfl | ⟨rfl, hinfixes, hsemicolon⟩ := h
  · rfl
  · rw [Token.current_cons] at hinfixes hsemicolon
    change stepComplete token = stepStatement token
    rw [stepComplete, if_neg hinfixes, if_neg hsemicolon]

theorem mayEnd (h : phase.Between row) : phase.mayEnd = true := by
  obtain rfl | ⟨rfl, -⟩ := h
  · rfl
  · rfl

theorem ne_operand (h : phase.Between row) : phase ≠ operand := by
  rintro rfl
  cases h.mayEnd

/-- Between two statements the row may come next exactly if statements may start with it. -/
theorem accepts_iff (h : phase.Between row) : phase.Accepts row ↔ statement.Accepts row := by
  cases row with
  | nil => exact iff_of_true ⟨phase, rfl, h.mayEnd⟩ ⟨statement, rfl, rfl⟩
  | cons token row => rw [accepts_cons_iff, accepts_cons_iff, h.step_eq]

theorem breaksOff (h : phase.Between row) (hrow : statement.BreaksOff row rest) :
    phase.BreaksOff row rest := by
  cases row with
  | nil => exact absurd ⟨statement, rfl, rfl⟩ hrow.not_accepts
  | cons token row => exact hrow.of_step_eq h.step_eq

end Between

theorem leads_of_signs (token : Token) (hsign : token.kind = .bang ∨ token.kind = .minus)
    (row : List Token) :
    operand.Leads (token :: row) operand (row.dropWhile Token.isUnarySign) := by
  refine (Leads.step operand (stepOperand_of_sign hsign) row).trans ?_
  induction row with
  | nil => exact .refl operand []
  | cons next row ih =>
      by_cases hnext : next.isUnarySign = true
      · have hkind := Token.isUnarySign_iff.mp hnext
        rw [List.dropWhile_cons_of_pos hnext]
        exact (Leads.step operand (stepOperand_of_sign hkind) row).trans ih
      · rw [List.dropWhile_cons_of_neg hnext]
        exact .refl operand (next :: row)

end Phase

namespace Grammar

open Phase (Leads)

variable {g : Grammar} {goal : Goal} {power : Power} {rule : StatementRule}
  {row rest : List Token} {e : Expr} {s : Stmt} {d : Diagnostic}

/-! ### Expressions -/

theorem stepOperand_eq_none_of_standard {token : Token}
    (h : standard.operand token.kind = none) : Phase.stepOperand token = none := by
  unfold Phase.stepOperand
  split
  all_goals first | rfl | simp_all [standard]

theorem not_mem_operands_of_standard {kind : Kind} (h : standard.operand kind = none) :
    kind ∉ Kind.operands := by
  revert h
  cases kind <;> decide

/-- The phase in which a goal starts. -/
def Goal.phase : Goal → Phase
  | rightOperand _ _ => .complete
  | operators _ _ => .complete
  | _ => .operand

/-- The tokens that a goal has still to read. -/
def Goal.ahead : Goal → List Token → List Token
  | operators _ _, row => row.tail
  | _, row => row

/-- The row starts with a token for the rule or the operator of the goal. -/
def Goal.Fits (g : Grammar) : Goal → List Token → Prop
  | operandBy rule, row => ∃ token rest, row = token :: rest ∧ g.operand token.kind = some rule
  | rightOperand _ _, row =>
      ∃ token rest operator, row = token :: rest ∧ g.operator token.kind = some operator
  | _, _ => True

theorem fits_operandBy {token : Token} {rule : OperandRule}
    (h : g.operand token.kind = some rule) : (Goal.operandBy rule).Fits g (token :: rest) :=
  ⟨token, rest, rfl, h⟩

theorem fits_rightOperand {token : Token} {operator : Operator} {left : Expr} {p : Power}
    (h : standard.nextOperator? power (token :: rest) = some operator) :
    (Goal.rightOperand left p).Fits standard rest := by
  have hnext := operator_of_nextOperator? h
  cases rest with
  | nil => cases hnext
  | cons next rest => exact ⟨next, rest, operator, rfl, hnext⟩

theorem operand_of_fits {token : Token} {rule : OperandRule}
    (h : (Goal.operandBy rule).Fits g (token :: rest)) : g.operand token.kind = some rule := by
  obtain ⟨_, _, hrow, hrule⟩ := h
  obtain ⟨rfl, rfl⟩ := List.cons.inj hrow
  exact hrule

theorem mem_infixes_of_fits {token : Token} {left : Expr}
    (h : (Goal.rightOperand left power).Fits standard (token :: rest)) :
    token.kind ∈ Kind.infixes := by
  obtain ⟨_, _, _, hrow, hoperator⟩ := h
  obtain ⟨rfl, rfl⟩ := List.cons.inj hrow
  exact mem_infixes_of_operator hoperator

theorem sign_of_fits {token : Token}
    (h : (Goal.operandBy .unaryRun).Fits standard (token :: rest)) :
    token.kind = .bang ∨ token.kind = .minus := by
  obtain ⟨hrule, _⟩ | ⟨_, hkind⟩ := operand_standard_cases (operand_of_fits h)
  · cases hrule
  · exact hkind

/-- **What a reading uses up leads to a complete operand.** -/
theorem Reads.leads (h : Reads standard goal row e rest) (hrow : goal.Fits standard row) :
    goal.phase.Leads (goal.ahead row) .complete rest.tail := by
  induction h with
  | expression _ _ ih₁ ih₂ => exact (ih₁ trivial).trans (ih₂ trivial)
  | operand hrule _ ih => exact ih (fits_operandBy hrule)
  | name hkind => exact Leads.step .operand (Phase.stepOperand_of_name hkind) _
  | integer hkind hvalue => exact Leads.step .operand (Phase.stepOperand_of_integer hkind hvalue) _
  | unaryRun _ ih => exact (Phase.leads_of_signs _ (sign_of_fits hrow) _).trans (ih trivial)
  | unaryOnce | group =>
      obtain ⟨hrule, _⟩ | ⟨hrule, _⟩ := operand_standard_cases (operand_of_fits hrow)
      · cases hrule
      · cases hrule
  | rightOperand _ ih =>
      have hstep := Phase.stepComplete_of_mem_infixes (mem_infixes_of_fits hrow)
      exact (Leads.step .complete hstep _).trans (ih trivial)
  | operatorsNil => exact .refl _ _
  | operatorsStop => exact .refl _ _
  | operatorsStep hnext _ _ ih₁ ih₂ => exact (ih₁ (fits_rightOperand hnext)).trans (ih₂ trivial)

/-- **Where a reading fails** an operand is due, and the row does not go on with one. -/
theorem Fails.leads (h : Fails standard goal row d rest) (hrow : goal.Fits standard row) :
    goal.phase.Leads (goal.ahead row) .operand rest ∧ Phase.operand.Stuck rest := by
  induction h with
  | expressionOperand _ ih => exact ih trivial
  | expressionOperators hleft _ ih =>
      obtain ⟨hrest, hstuck⟩ := ih trivial
      exact ⟨(hleft.leads trivial).trans hrest, hstuck⟩
  | operandNil => exact ⟨.refl _ _, Phase.stuck_nil⟩
  | operandNone hrule =>
      exact ⟨.refl _ _, Phase.stuck_cons_iff.mpr (stepOperand_eq_none_of_standard hrule)⟩
  | operand hrule _ ih => exact ih (fits_operandBy hrule)
  | operandByNil =>
      obtain ⟨_, _, hnil, _⟩ := hrow
      cases hnil
  | primaryInteger hkind hvalue =>
      refine ⟨.refl _ _, Phase.stuck_cons_iff.mpr ?_⟩
      simp [Phase.step, Phase.stepOperand, hkind, hvalue]
  | primaryKind hint hident =>
      obtain ⟨_, hkind | hkind⟩ | ⟨hrule, _⟩ := operand_standard_cases (operand_of_fits hrow)
      · exact absurd hkind hident
      · exact absurd hkind hint
      · cases hrule
  | unaryRun _ ih =>
      obtain ⟨hrest, hstuck⟩ := ih trivial
      exact ⟨(Phase.leads_of_signs _ (sign_of_fits hrow) _).trans hrest, hstuck⟩
  | unaryOnce | groupInner | groupEnd =>
      obtain ⟨hrule, _⟩ | ⟨hrule, _⟩ := operand_standard_cases (operand_of_fits hrow)
      · cases hrule
      · cases hrule
  | rightOperandNil =>
      obtain ⟨_, _, _, hnil, _⟩ := hrow
      cases hnil
  | rightOperand _ ih =>
      obtain ⟨hrest, hstuck⟩ := ih trivial
      have hstep := Phase.stepComplete_of_mem_infixes (mem_infixes_of_fits hrow)
      exact ⟨(Leads.step .complete hstep _).trans hrest, hstuck⟩
  | operatorsRight hnext _ ih => exact ih (fits_rightOperand hnext)
  | operatorsStep hnext hright _ ih =>
      obtain ⟨hrest, hstuck⟩ := ih trivial
      exact ⟨(hright.leads (fits_rightOperand hnext)).trans hrest, hstuck⟩

theorem Fails.breaksOff (h : Fails standard (.expression power) row d rest) :
    Phase.operand.BreaksOff row rest := by
  obtain ⟨hleads, hstuck⟩ := h.leads trivial
  exact ⟨.operand, hleads, hstuck, fun _ => rfl⟩

/-- **The diagnostic of an expression is about the token where the reader gives up**, which starts
no operand. -/
theorem Fails.operandFault (h : Fails standard goal row d rest) (hrow : goal.Fits standard row) :
    (Token.current rest).OperandFault d := by
  induction h with
  | expressionOperand _ ih => exact ih trivial
  | expressionOperators _ _ ih => exact ih trivial
  | operandNil => exact .kind (by decide)
  | operandNone hrule => exact .kind (not_mem_operands_of_standard hrule)
  | operand hrule _ ih => exact ih (fits_operandBy hrule)
  | operandByNil =>
      obtain ⟨_, _, hnil, _⟩ := hrow
      cases hnil
  | primaryInteger hkind hvalue => exact .integer hkind hvalue
  | primaryKind hint hident =>
      obtain ⟨_, hkind | hkind⟩ | ⟨hrule, _⟩ := operand_standard_cases (operand_of_fits hrow)
      · exact absurd hkind hident
      · exact absurd hkind hint
      · cases hrule
  | unaryRun _ ih => exact ih trivial
  | unaryOnce | groupInner | groupEnd =>
      obtain ⟨hrule, _⟩ | ⟨hrule, _⟩ := operand_standard_cases (operand_of_fits hrow)
      · cases hrule
      · cases hrule
  | rightOperandNil =>
      obtain ⟨_, _, _, hnil, _⟩ := hrow
      cases hnil
  | rightOperand _ ih => exact ih trivial
  | operatorsRight hnext _ ih => exact ih (fits_rightOperand hnext)
  | operatorsStep _ _ _ ih => exact ih trivial

theorem Reads.not_mem_infixes (h : Reads standard (.expression .lowest) row e rest) :
    (Token.peek rest).kind ∉ Kind.infixes := by
  obtain rfl | hnext := h.stopped
  · decide
  · exact not_mem_infixes_of_nextOperator? hnext

/-! ### Statements -/

theorem Reads.leads_skipSemicolon (h : Reads standard (.expression .lowest) row e rest) :
    ∃ phase : Phase, phase.Between (Token.skipSemicolon rest).tail ∧
      Phase.operand.Leads row phase (Token.skipSemicolon rest).tail := by
  have hleads : Phase.operand.Leads row .complete rest.tail := h.leads trivial
  obtain ⟨hskip, hpeek⟩ | ⟨current, mark, after, rfl, hmark, hskip⟩ := Token.skipSemicolon_eq rest
  · rw [hskip]
    exact ⟨.complete, .inr ⟨rfl, h.not_mem_infixes, hpeek⟩, hleads⟩
  · rw [hskip]
    refine ⟨.statement, .inl rfl, hleads.trans ?_⟩
    exact .step .complete (Phase.stepComplete_of_semicolon hmark) after

theorem stepStatement_of_current {token : Token} (hlet : token.kind ≠ .letKw)
    (hreturn : token.kind ≠ .returnKw) : Phase.stepStatement token = Phase.stepOperand token := by
  unfold Phase.stepStatement
  split
  · contradiction
  · contradiction
  · rfl

/-- **A statement that is read may stand where it stands**, and another may follow it. -/
theorem ReadsStatement.leads (h : ReadsStatement standard (standard.ruleAt row) row s rest) :
    ∃ phase : Phase, phase.Between rest.tail ∧ Phase.statement.Leads row phase rest.tail := by
  have hrule := ruleAt_standard row
  generalize standard.ruleAt row = rule at h hrule
  cases h with
  | @binding word name sign body after e hname hsign hvalue =>
      have hword : word.kind = .letKw := by simpa using hrule
      obtain ⟨phase, hbetween, hleads⟩ := hvalue.leads_skipSemicolon
      have hstep : Phase.statement.step word = some .name := Phase.stepStatement_of_let hword
      exact ⟨phase, hbetween, (Leads.step .statement hstep _).trans
        ((Leads.step .name (if_pos hname) _).trans
          ((Leads.step .sign (if_pos hsign) body).trans hleads))⟩
  | @returning _ after e hvalue =>
      have hword : (Token.current row).kind = .returnKw := by simpa using hrule
      obtain ⟨phase, hbetween, hleads⟩ := hvalue.leads_skipSemicolon
      cases row with
      | nil => cases hword
      | cons word row =>
          have hstep : Phase.statement.step word = some .operand :=
            Phase.stepStatement_of_return hword
          exact ⟨phase, hbetween, (Leads.step .statement hstep row).trans hleads⟩
  | @expression _ after e hvalue =>
      obtain ⟨hlet, hreturn⟩ : (Token.current row).kind ≠ .letKw ∧
          (Token.current row).kind ≠ .returnKw := by simpa using hrule
      obtain ⟨phase, hbetween, hleads⟩ := hvalue.leads_skipSemicolon
      cases row with
      | nil => exact absurd rfl hvalue.row_ne_nil
      | cons token row =>
          have hstep : Phase.statement.step token = Phase.operand.step token :=
            stepStatement_of_current hlet hreturn
          exact ⟨phase, hbetween, Leads.of_step_eq hstep hleads hbetween.ne_operand⟩

/-- The row is a program if the rest behind its first statement is one. -/
theorem ReadsStatement.accepts_iff (h : ReadsStatement standard (standard.ruleAt row) row s rest) :
    Phase.statement.Accepts row ↔ Phase.statement.Accepts rest.tail := by
  obtain ⟨phase, hbetween, hleads⟩ := h.leads
  exact hleads.accepts_iff.trans hbetween.accepts_iff

/-- **A statement that cannot be read breaks off** in front of the token that its diagnostic is
about. -/
theorem FailsStatement.breaksOff
    (h : FailsStatement standard (standard.ruleAt row) row d rest) (hrow : row ≠ []) :
    Phase.statement.BreaksOff row (d.faultRow rest) ∧
      d.About (Token.current (d.faultRow rest)) := by
  have value {body after : List Token} {d : Diagnostic}
      (hvalue : Fails standard (.expression .lowest) body d after) :
      Phase.operand.BreaksOff body (d.faultRow after) ∧
        d.About (Token.current (d.faultRow after)) := by
    have hfault := hvalue.operandFault trivial
    rw [hfault.faultRow_eq]
    exact ⟨hvalue.breaksOff, hfault.about⟩
  have hrule := ruleAt_standard row
  generalize standard.ruleAt row = rule at h hrule
  obtain ⟨token, row, rfl⟩ := List.exists_cons_of_ne_nil hrow
  rw [Token.current_cons] at hrule
  cases h with
  | bindingName hname =>
      have hstep : Phase.statement.step token = some .name :=
        Phase.stepStatement_of_let (by simpa using hrule)
      have hstuck : Phase.name.Stuck row := .of_current (if_neg hname)
      exact ⟨(Leads.step .statement hstep row).breaksOff (.of_stuck hstuck rfl), rfl, rfl⟩
  | @bindingSign _ name row hname hsign =>
      have hstep : Phase.statement.step token = some .name :=
        Phase.stepStatement_of_let (by simpa using hrule)
      have hstuck : Phase.sign.Stuck row := .of_current (if_neg hsign)
      have hleads := (Leads.step .statement hstep (name :: row)).trans
        (.step .name (if_pos hname) row)
      exact ⟨hleads.breaksOff (.of_stuck hstuck rfl), rfl, rfl⟩
  | @bindingValue _ name sign body _ _ hname hsign hvalue =>
      have hstep : Phase.statement.step token = some .name :=
        Phase.stepStatement_of_let (by simpa using hrule)
      have hleads := (Leads.step .statement hstep (name :: sign :: body)).trans
        ((Leads.step .name (if_pos hname) (sign :: body)).trans (.step .sign (if_pos hsign) body))
      exact ⟨hleads.breaksOff (value hvalue).1, (value hvalue).2⟩
  | returning hvalue =>
      have hstep : Phase.statement.step token = some .operand :=
        Phase.stepStatement_of_return (by simpa using hrule)
      exact ⟨(Leads.step .statement hstep row).breaksOff (value hvalue).1, (value hvalue).2⟩
  | expression hvalue =>
      obtain ⟨hlet, hreturn⟩ : token.kind ≠ .letKw ∧ token.kind ≠ .returnKw := by
        simpa using hrule
      have hstep : Phase.statement.step token = Phase.operand.step token :=
        stepStatement_of_current hlet hreturn
      exact ⟨(value hvalue).1.of_step_eq hstep, (value hvalue).2⟩

/-! ### Programs -/

/-- **A row is read without a diagnostic exactly if the automaton accepts it.** -/
theorem diagnosticsOf_entries_eq_nil_iff (row : List Token) :
    diagnosticsOf (standard.entries row) = [] ↔ Phase.statement.Accepts row := by
  induction row using entries.induct standard with
  | case1 =>
      rw [entries_nil]
      exact ⟨fun _ => ⟨.statement, rfl, rfl⟩, fun _ => rfl⟩
  | case2 token rest _ ih =>
      rw [entries_cons]
      obtain ⟨s, after, h⟩ | ⟨d, after, h⟩ :=
        readsStatement_or_fails standard (standard.ruleAt (token :: rest)) (token :: rest)
      · rw [h.entry] at ih ⊢
        rw [h.accepts_iff]
        exact ih
      · rw [h.entry]
        obtain ⟨hbreaks, -⟩ := h.breaksOff (List.cons_ne_nil token rest)
        exact iff_of_false (List.cons_ne_nil _ _) hbreaks.not_accepts

end Grammar

/-- **The parser accepts exactly its grammar.**  A source text is read without a diagnostic exactly
if its tokens, without the one at the end, are a program. -/
theorem parse_diagnostics_eq_nil_iff (source : String) :
    (parse source).2 = [] ↔ Phrase.Program (Token.tokenize source).dropLast := by
  rw [Token.tokenize, List.dropLast_concat, Phase.program_iff_accepts]
  exact Grammar.diagnosticsOf_entries_eq_nil_iff (Token.lex source.toList)

end Monkey
