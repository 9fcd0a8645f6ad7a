import Monkey.Proofs.Pulling
import Monkey.Proofs.Registered

/-!
# Parsing comes to an end

A parser that pulls its tokens comes to the end of every text, whichever rules of the language are
registered for whichever kinds of tokens, if only the end of the tokens is no sign
(`PullParser.program_ends`); a sign there would be read for ever (`Pull.not_ends_of_sign`).  Each
turn of the loop uses up a token, so that there are no more statements and diagnostics than tokens.
This holds from every point of a text on, as a window shows what is left of the tokens however far
it has moved on.

All that a parser sees of its cursor are the tokens that are left: texts in different layouts and
cursors at different places give the same program and the same diagnostics
(`PullParser.program_congr`).
-/

namespace Monkey

namespace Grammar

variable {g : Grammar}

theorem Registered.stops (h : g.Registered) : g.Stops := by
  intro rule hrule
  obtain hprimary | ⟨-, heof⟩ := h.operand_cases hrule
  · exact hprimary
  · exact absurd rfl heof

theorem length_entries_le (g : Grammar) (row : List Token) :
    (g.entries row).length ≤ row.length := by
  induction row using entries.induct g with
  | case1 =>
      rw [entries_nil]
      exact Nat.le_refl 0
  | case2 token rest hle ih =>
      rw [entries_cons, List.length_cons, List.length_cons]
      exact Nat.succ_le_succ (Nat.le_trans ih hle)

end Grammar

namespace Cursor

theorem kind_ne_eof_of_mem_tokens (cursor : Cursor) : ∀ token ∈ cursor.tokens, token.kind ≠ .eof :=
  fun _ h => (Token.scanned_of_mem_lex h).kind_ne_eof

end Cursor

/-! ### A sign at the end -/

namespace Pull

variable {g : Grammar} {w : Window}

open Reader

theorem startAt_current_of_shows_nil (hw : w.Shows []) :
    moves.current.startAt w = some (.ok .eof, w) := by
  rw [← show w.current = .eof from hw.current_eq]
  rfl

theorem startAt_signs_of_shows_nil (hw : w.Shows []) (depth : Nat) :
    (moves.signs (depth + 1)).startAt w = some (.ok [], w) :=
  startAt_bind_ok (startAt_current_of_shows_nil hw)

theorem startAt_operandRule_of_sign (hg : g.operand .eof = some .unaryRun) (hw : w.Shows []) :
    (steps g).operandRule.startAt w = some (.ok .unaryRun, w) := by
  refine (startAt_bind_ok (startAt_current_of_shows_nil hw)).trans ?_
  rw [show Token.eof.kind = .eof from rfl, hg]
  rfl

/-- With the end of the tokens registered as a sign, the operand of the sign is one more sign: the
goals for it call each other in turn, and the window stays at the end. -/
theorem startAt_eq_none_of_sign (hg : g.operand .eof = some .unaryRun) (depth : Nat) {w : Window}
    (hw : w.Shows []) :
    (read g depth .operand).startAt w = none ∧
      (read g depth (.operandBy .unaryRun)).startAt w = none ∧
      ∀ power, (read g depth (.expression power)).startAt w = none := by
  induction depth generalizing w with
  | zero => exact ⟨rfl, rfl, fun _ => rfl⟩
  | succ depth ih =>
      obtain ⟨hoperand, hsign, -⟩ := ih hw
      have hadvance : moves.advance.startAt w = some (.ok (), w.advance) := rfl
      refine ⟨?_, ?_, fun power => startAt_bind_none hoperand⟩
      · exact (startAt_bind_ok (startAt_operandRule_of_sign hg hw)).trans hsign
      · refine (startAt_bind_ok (startAt_current_of_shows_nil hw)).trans ?_
        refine (startAt_bind_ok hadvance).trans ?_
        cases depth with
        | zero => exact startAt_bind_none rfl
        | succ depth =>
            refine (startAt_bind_ok (startAt_signs_of_shows_nil hw.advance depth)).trans ?_
            exact startAt_bind_none ((ih hw.advance).2.2 .unary)

/-- **A sign at the end of the tokens is followed by itself for ever**, and no expression that
starts there is read or given up. -/
theorem not_ends_of_sign (hg : g.operand .eof = some .unaryRun) (hw : w.Shows []) (power : Power) :
    ¬ ∃ result after, Ends (read g · (.expression power)) w result after := by
  rintro ⟨result, after, h⟩
  obtain ⟨depth, hdepth⟩ := h.exists
  rw [(startAt_eq_none_of_sign hg depth hw).2.2 power] at hdepth
  cases hdepth

end Pull

/-! ### Parsing to the end -/

namespace PullParser

theorem ends_of_shows_nil {p : PullParser} (h : p.window.Shows []) : p.Ends ⟨[]⟩ p := by
  have hcurrent : p.window.current.kind = .eof := by rw [h.current_eq]; rfl
  exact endsAfter_of_eof hcurrent

/-- **Parsing comes to its end from every point of every text**, under every grammar made of the
rules of the language.  Afterwards the current token and the next one mark the end, there are no
more statements and new diagnostics than there were tokens, parsing again finds nothing, and all of
it is what the parser for the remaining tokens gives. -/
theorem program_ends {g : Grammar} (hg : g.Registered) (cursor : Cursor) (n : Nat)
    (diagnostics : List Diagnostic) :
    let p : PullParser := ⟨g, (Window.ofCursor cursor).skip n, diagnostics⟩
    ∃ (program : Program) (after : PullParser) (added : List Diagnostic),
      p.Ends program after ∧
      after.window.current = Token.eof ∧ after.window.peek = Token.eof ∧
      after.diagnostics = diagnostics ++ added ∧
      program.statements.length + added.length ≤ p.window.unread.length ∧
      after.Ends ⟨[]⟩ after ∧
      p.toParser.program = (program, after.toParser) := by
  intro p
  have hshows : p.window.Shows (cursor.tokens.drop n) := (Window.shows_ofCursor cursor).skip n
  have hrow : ∀ token ∈ cursor.tokens.drop n, token.kind ≠ .eof := fun token htoken =>
    cursor.kind_ne_eof_of_mem_tokens token (List.mem_of_mem_drop htoken)
  obtain ⟨after, hends, hafter, hend⟩ := ends_toParser hg.stops hshows hrow
  refine ⟨_, after, Grammar.diagnosticsOf (g.entries p.window.unread), hends,
    hend.current_eq, hend.peek_eq, ?_, ?_, ends_of_shows_nil hend, Prod.ext rfl hafter⟩
  · exact (congrArg Parser.diagnostics hafter).symm
  · calc
      (Grammar.statementsOf (g.entries p.window.unread)).length +
            (Grammar.diagnosticsOf (g.entries p.window.unread)).length
        = (g.entries p.window.unread).length := Grammar.length_statementsOf_add _
      _ ≤ p.window.unread.length := g.length_entries_le _

/-- With the end of the tokens and the semicolon registered as operators, the operand behind the
end is what is missing. -/
theorem program_ends_operator_eof :
    let g : Grammar :=
      (Grammar.standard.setOperator .eof ⟨.product, .left⟩).setOperator .semicolon ⟨.sum, .left⟩
    let p : PullParser := ⟨g, (Window.ofCursor (.ofSource "let x = 1; -y")).skip 1, []⟩
    g.Registered ∧ ∃ (program : Program) (after : PullParser),
      p.Ends program after ∧ program.text = "x1" ∧
      after.diagnostics = [⟨.noPrefixRule .assign, "="⟩, ⟨.noPrefixRule .eof, ""⟩] ∧
      after.Ends ⟨[]⟩ after := by
  intro g p
  have hg : g.Registered :=
    (Grammar.registered_standard.operator .eof .product).operator .semicolon .sum
  obtain ⟨program, after, -, hends, -, -, -, -, hagain, hparser⟩ :=
    program_ends hg (.ofSource "let x = 1; -y") 1 []
  have htext : p.toParser.program.1.text = "x1" := by decide +kernel
  have hdiagnostics : p.toParser.program.2.diagnostics =
      [⟨.noPrefixRule .assign, "="⟩, ⟨.noPrefixRule .eof, ""⟩] := by decide +kernel
  rw [show p.toParser.program = (program, after.toParser) from hparser] at htext hdiagnostics
  exact ⟨hg, program, after, hends, htext, hdiagnostics, hagain⟩

/-! ### What a parse depends on -/

theorem toParser_ofCursor (cursor : Cursor) : (ofCursor cursor).toParser = .ofCursor cursor := by
  rw [toParser, ofCursor, Parser.ofCursor,
    (Window.shows_ofCursor cursor).unread_eq cursor.kind_ne_eof_of_mem_tokens]

theorem ends_ofCursor (cursor : Cursor) :
    ∃ after : PullParser, (ofCursor cursor).Ends (Parser.ofCursor cursor).program.1 after ∧
      (Parser.ofCursor cursor).program.2 = after.toParser := by
  have hshows : (ofCursor cursor).window.Shows cursor.tokens := Window.shows_ofCursor cursor
  obtain ⟨after, hends, hafter, -⟩ :=
    ends_toParser Grammar.registered_standard.stops hshows cursor.kind_ne_eof_of_mem_tokens
  rw [toParser_ofCursor] at hends hafter
  exact ⟨after, hends, hafter⟩

/-- **A parse depends on its cursor only through the tokens that are left**: if two cursors drain
to the same tokens, parsers that pull from them give the same program and the same diagnostics,
which are those of the parsers for these tokens. -/
theorem program_congr {c₁ c₂ : Cursor} (h : c₁.drain.1 = c₂.drain.1) :
    ∃ (program : Program) (after₁ after₂ : PullParser),
      (ofCursor c₁).Ends program after₁ ∧ (ofCursor c₂).Ends program after₂ ∧
      after₁.diagnostics = after₂.diagnostics ∧
      (Parser.ofCursor c₁).program = (program, after₁.toParser) ∧
      (Parser.ofCursor c₂).program = (program, after₂.toParser) := by
  have htokens : c₁.tokens = c₂.tokens := List.append_cancel_right h
  have hparser : Parser.ofCursor c₂ = Parser.ofCursor c₁ := by
    rw [Parser.ofCursor, Parser.ofCursor, htokens]
  obtain ⟨after₁, hends₁, hafter₁⟩ := ends_ofCursor c₁
  obtain ⟨after₂, hends₂, hafter₂⟩ := ends_ofCursor c₂
  rw [hparser] at hends₂ hafter₂
  have hdiagnostics : after₁.toParser.diagnostics = after₂.toParser.diagnostics := by
    rw [← hafter₁, hafter₂]
  refine ⟨_, after₁, after₂, hends₁, hends₂, hdiagnostics, Prod.ext rfl hafter₁, ?_⟩
  rw [hparser]
  exact Prod.ext rfl hafter₂

/-- What has been taken from a cursor and how the rest is laid out make no difference. -/
theorem program_congr_layout :
    let c₁ : Cursor := (Cursor.ofSource "let x=5;\n-y").skip 2
    let c₂ : Cursor := .ofSource "= 5 ; - y"
    c₁.drain.1 = c₂.drain.1 ∧ ∃ (program : Program) (after₁ after₂ : PullParser),
      (ofCursor c₁).Ends program after₁ ∧ (ofCursor c₂).Ends program after₂ ∧
      program.text = "5(-y)" ∧ after₁.diagnostics = [⟨.noPrefixRule .assign, "="⟩] ∧
      after₂.diagnostics = after₁.diagnostics := by
  intro c₁ c₂
  have h : c₁.drain.1 = c₂.drain.1 := by decide +kernel
  obtain ⟨program, after₁, after₂, hends₁, hends₂, hdiagnostics, hparser, -⟩ := program_congr h
  have htext : (Parser.ofCursor c₁).program.1.text = "5(-y)" := by decide +kernel
  have hfound : (Parser.ofCursor c₁).program.2.diagnostics = [⟨.noPrefixRule .assign, "="⟩] := by
    decide +kernel
  rw [hparser] at htext hfound
  exact ⟨h, program, after₁, after₂, hends₁, hends₂, htext, hfound, hdiagnostics.symm⟩

end PullParser

end Monkey
