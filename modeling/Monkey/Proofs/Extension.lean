import Monkey.Proofs.Forward

/-!
# More kinds of operands

A grammar extends another one if it has the same statements and operators, the same operands, and
maybe rules for operands that start with further kinds of tokens (`Grammar.Extends`).  Such rules
may be for any kinds: for operators, for the words that statements start with, for the sign of
assignment, for the semicolon, and for the end of the tokens.

Where an operand is read, its kind has a rule; where none has one, reading fails.  So a reader that
succeeds has never asked for the rule of a kind without one, and does the same under the larger
grammar (`Pull.Conserves`).  `PullParser.ends_of_extends` says so for expressions, statements and
programs without diagnostics.  Nothing is assumed about the end of the tokens: a sign registered
there is read for ever, but only by readers that did not succeed before.
-/

namespace Monkey

/-- The first grammar has the rules of the second one, and maybe rules for operands that start with
further kinds. -/
structure Grammar.Extends (g' g : Grammar) : Prop where
  statement_eq : g'.statement = g.statement
  operator_eq : g'.operator = g.operator
  operand_eq : ∀ kind rule, g.operand kind = some rule → g'.operand kind = some rule

namespace Grammar.Extends

variable {g g' : Grammar}

theorem refl (g : Grammar) : g.Extends g :=
  ⟨rfl, rfl, fun _ _ h => h⟩

theorem setOperand (h : g'.Extends g) {kind : Kind} (hkind : g.operand kind = none)
    (rule : OperandRule) : (g'.setOperand kind rule).Extends g := by
  refine ⟨h.statement_eq, h.operator_eq, ?_⟩
  intro k r hrule
  have hne : k ≠ kind := by
    rintro rfl
    rw [hkind] at hrule
    cases hrule
  simp only [Grammar.setOperand, if_neg hne]
  exact h.operand_eq k r hrule

end Grammar.Extends

/-! ### Readers -/

namespace Pull

variable {α β : Type}

/-- Whatever the first reader reads, the second one reads too, and leaves the same window. -/
def Conserves (m m' : Pull α) : Prop :=
  ∀ (w : Window) (a : α) (after : Window),
    m.startAt w = some (.ok a, after) → m'.startAt w = some (.ok a, after)

theorem Conserves.refl (m : Pull α) : Conserves m m :=
  fun _ _ _ h => h

theorem conserves_throw (d : Diagnostic) (m : Pull α) : Conserves (throw d) m := by
  intro w a after h
  cases h

variable {m m' : Pull α} {f f' : α → Pull β}

/-- Readers one after the other succeed only if each of them does. -/
theorem Conserves.bind (hm : Conserves m m') (hf : ∀ a, Conserves (f a) (f' a)) :
    Conserves (m >>= f) (m' >>= f') := by
  intro w b after h
  cases hstart : m.startAt w with
  | none =>
      rw [Reader.startAt_bind_none hstart] at h
      cases h
  | some p =>
      obtain ⟨result, middle⟩ := p
      cases result with
      | error d =>
          rw [Reader.startAt_bind_error hstart] at h
          cases h
      | ok a =>
          rw [Reader.startAt_bind_ok hstart] at h
          rw [Reader.startAt_bind_ok (hm w a middle hstart)]
          exact hf a middle b after h

theorem Ends.conserves {m m' : Nat → Pull α} {w after : Window} {a : α}
    (hm : ∀ depth, Conserves (m depth) (m' depth)) (h : Ends m w (.ok a) after) :
    Ends m' w (.ok a) after :=
  h.mono fun depth => hm depth w a after

variable {g g' : Grammar}

/-- The rule that is found for an operand is found under a grammar that extends the first one. -/
theorem conserves_operandRule (hg : g'.Extends g) :
    Conserves (steps g).operandRule (steps g').operandRule := by
  refine (Conserves.refl moves.current).bind fun token => ?_
  cases hrule : g.operand token.kind with
  | none => exact conserves_throw _ _
  | some rule =>
      rw [hg.operand_eq token.kind rule hrule]
      exact .refl _

/-- **The steps under two grammars differ in nothing but the rule that is looked up for an
operand**, and what is read under a grammar is read under one that extends it. -/
theorem conserves_steps (hg : g'.Extends g) : (steps g).Related Conserves (steps g') where
  pure a := .refl _
  throw d := .refl _
  exhausted := .refl _
  bind := Conserves.bind
  current := .refl _
  peek := .refl _
  advance := .refl _
  statementRule := by
    rw [steps, steps, hg.statement_eq]
    exact .refl _
  operandRule := conserves_operandRule hg
  takeOperator? power := by
    simp only [steps, takeOperator?, operatorAt?, hg.operator_eq]
    exact .refl _

end Pull

/-! ### Programs -/

namespace PullParser

variable {g g' : Grammar}

theorem frame_of_programAfter {depth : Nat} {statements : List Stmt} {p after : PullParser}
    {program : Program} (h : programAfter depth statements p = some (program, after)) :
    after.grammar = p.grammar ∧ p.diagnostics <+: after.diagnostics := by
  induction depth generalizing statements p with
  | zero => cases h
  | succ depth ih =>
      rw [programAfter] at h
      split at h
      · cases h
        exact ⟨rfl, List.prefix_rfl⟩
      · obtain ⟨⟨result, w⟩, -, h⟩ := Option.bind_eq_some_iff.mp h
        cases result with
        | ok s =>
            have hafter := ih h
            exact hafter
        | error d =>
            obtain ⟨hgrammar, hprefix⟩ := ih h
            exact ⟨hgrammar, (List.prefix_append _ _).trans hprefix⟩

/-- **A program that is read without a new diagnostic is read the same under a grammar that
extends the first one.** -/
theorem programAfter_of_extends (hg : g'.Extends g) {depth : Nat} {statements : List Stmt}
    {w last : Window} {diagnostics : List Diagnostic} {program : Program}
    (h : programAfter depth statements ⟨g, w, diagnostics⟩ =
      some (program, ⟨g, last, diagnostics⟩)) :
    programAfter depth statements ⟨g', w, diagnostics⟩ =
      some (program, ⟨g', last, diagnostics⟩) := by
  induction depth generalizing statements w with
  | zero => cases h
  | succ depth ih =>
      rw [programAfter] at h ⊢
      by_cases hcurrent : w.current.kind = .eof
      · rw [if_pos hcurrent] at h ⊢
        cases h
        rfl
      · rw [if_neg hcurrent] at h ⊢
        obtain ⟨⟨result, middle⟩, hstatement, h⟩ := Option.bind_eq_some_iff.mp h
        cases result with
        | ok s =>
            have hsame : (Pull.statement g' depth).startAt w = some (.ok s, middle) :=
              (Pull.conserves_steps hg).statement depth w s middle hstatement
            rw [hsame]
            exact ih h
        | error d =>
            obtain ⟨-, hrecorded⟩ := frame_of_programAfter h
            have hlength : (diagnostics ++ [d]).length ≤ diagnostics.length := hrecorded.length_le
            rw [List.length_append, List.length_singleton] at hlength
            omega

/-- **Rules for operands of further kinds change nothing that could be read before.**  Under a
grammar that extends another one, and from every window, each expression, each statement by its own
rule or by the rule given, and each program without new diagnostics that is read under the other one
is read as it is there, and the same window is left. -/
theorem ends_of_extends (hg : g'.Extends g) (w after : Window) :
    (∀ power e, Pull.Ends (Pull.read g · (.expression power)) w (.ok e) after →
      Pull.Ends (Pull.read g' · (.expression power)) w (.ok e) after) ∧
    (∀ s, Pull.Ends (Pull.statement g) w (.ok s) after →
      Pull.Ends (Pull.statement g') w (.ok s) after) ∧
    (∀ rule s, Pull.Ends (Pull.statementBy g · rule) w (.ok s) after →
      Pull.Ends (Pull.statementBy g' · rule) w (.ok s) after) ∧
    ∀ program diagnostics, Ends ⟨g, w, diagnostics⟩ program ⟨g, after, diagnostics⟩ →
      Ends ⟨g', w, diagnostics⟩ program ⟨g', after, diagnostics⟩ := by
  refine ⟨?_, ?_, ?_, ?_⟩
  · intro power e h
    exact h.conserves fun depth => (Pull.conserves_steps hg).read depth (.expression power)
  · intro s h
    exact h.conserves (Pull.conserves_steps hg).statement
  · intro rule s h
    exact h.conserves fun depth => (Pull.conserves_steps hg).statementBy depth rule
  · intro program diagnostics h
    exact h.mono fun depth => programAfter_of_extends hg

/-- An operator, a word, the sign of assignment, the semicolon and the end as operands, the last of
which would be read for ever. -/
theorem ends_of_extends_terminators :
    let g' := Grammar.standard.setOperand .plus .unaryRun |>.setOperand .letKw .primary
      |>.setOperand .assign .unaryOnce |>.setOperand .semicolon .group
      |>.setOperand .eof .unaryRun
    let cursor := Cursor.ofSource "let x = -1 + y; return x x * 2"
    let w := Window.ofCursor cursor
    g'.Extends .standard ∧ ∃ (program : Program) (after : Window),
      Ends ⟨.standard, w, []⟩ program ⟨.standard, after, []⟩ ∧
      Ends ⟨g', w, []⟩ program ⟨g', after, []⟩ ∧
      program.text = "let x = ((-1) + y);return x;(x * 2)" := by
  intro g' cursor w
  have hg : g'.Extends .standard :=
    (Grammar.Extends.refl .standard).setOperand rfl .unaryRun |>.setOperand rfl .primary
      |>.setOperand rfl .unaryOnce |>.setOperand rfl .group |>.setOperand rfl .unaryRun
  have htext : Program.text ⟨Grammar.statementsOf (Grammar.standard.entries cursor.tokens)⟩ =
      "let x = ((-1) + y);return x;(x * 2)" := by
    decide +kernel
  have hdiagnostics : Grammar.diagnosticsOf (Grammar.standard.entries cursor.tokens) = [] := by
    decide +kernel
  have hends := ends_program Grammar.registered_standard.stops cursor 0 []
  simp only [List.drop_zero, List.nil_append, hdiagnostics] at hends
  exact ⟨hg, _, _, hends, (ends_of_extends hg w _).2.2.2 _ _ hends, htext⟩

end PullParser

end Monkey
