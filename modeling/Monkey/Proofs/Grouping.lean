import Monkey.Parser
import Monkey.Proofs.Rendering

/-!
# Programs that are read back from their text

The text of a program is full of parentheses, for which the standard grammar has no rule.  With the
rule `group` for them (`Grammar.grouped`) every tree is read back from its text, whatever the powers
of its operators (`Expr.WellFormed.reads_text`), and a whole program from its text if no statement
runs into the next one (`program_of_text`).  Then the text of what is read is the text again.

Inside a pair of parentheses there is one operator only.  Reading goes on to the operator at the
power `lowest`, and stops in front of the closing parenthesis, which binds nothing.
-/

namespace Monkey

namespace Grammar

variable {power : Power} {row after : List Token} {last : Token} {e : Expr}

/-- The grammar of the language with operands in parentheses. -/
def grouped : Grammar :=
  standard.setOperand .lparen .group

theorem operand_grouped {kind : Kind} {rule : OperandRule}
    (h : standard.operand kind = some rule) : grouped.operand kind = some rule := by
  have hkind : kind ≠ .lparen := by
    rintro rfl
    cases h
  rw [← h]
  exact if_neg hkind

theorem nextOperator?_of_not_mem_infixes (h : (Token.peek row).kind ∉ Kind.infixes) :
    standard.nextOperator? power row = none := by
  refine nextOperator?_eq_none_iff.mpr (.inr ?_)
  rw [power_of_not_mem_infixes h]
  exact power.lowest_le

/-- An operand is the whole of an expression in front of a token that is no operator. -/
theorem Reads.alone (h : Reads grouped .operand row e (last :: after))
    (hafter : (Token.current after).kind ∉ Kind.infixes) :
    Reads grouped (.expression power) row e (last :: after) :=
  .expression h (.operatorsStop (nextOperator?_of_not_mem_infixes hafter))

theorem Reads.pair {left right : Expr} {operator leftLast rightLast : Token}
    {body : List Token} (hleft : Reads grouped .operand row left (leftLast :: operator :: body))
    (hoperator : operator.kind ∈ Kind.infixes)
    (hright : Reads grouped .operand body right (rightLast :: after))
    (hafter : (Token.current after).kind ∉ Kind.infixes) :
    Reads grouped (.expression .lowest) row (.binary left operator right) (rightLast :: after) := by
  have hnext : grouped.nextOperator? .lowest (leftLast :: operator :: body) =
      some ⟨standard.power operator.kind, .left⟩ :=
    nextOperator?_of_mem_infixes hoperator (power_of_mem_infixes _ hoperator).1
  refine .expression hleft (.operatorsStep hnext (.rightOperand (hright.alone hafter)) ?_)
  exact .operatorsStop (nextOperator?_of_not_mem_infixes hafter)

theorem Reads.signed {operator first : Token} {body : List Token}
    (hsign : operator.kind = .bang ∨ operator.kind = .minus) (hfirst : first.isUnarySign = false)
    (h : Reads grouped .operand (first :: body) e (last :: after))
    (hafter : (Token.current after).kind ∉ Kind.infixes) :
    Reads grouped .operand (operator :: first :: body) (.unary operator e) (last :: after) := by
  have hnot : ¬ first.isUnarySign = true := Bool.eq_false_iff.mp hfirst
  have hinner : Reads grouped (.expression .unary)
      ((first :: body).dropWhile Token.isUnarySign) e (last :: after) := by
    rw [List.dropWhile_cons_of_neg hnot]
    exact h.alone hafter
  have hrun := @Reads.unaryRun _ operator _ _ _ hinner
  rw [List.takeWhile_cons_of_neg hnot] at hrun
  exact .operand (operand_grouped (operand_of_sign hsign)) hrun

theorem Reads.enclosed
    (h : Reads grouped (.expression .lowest) row e (last :: Token.rparen :: after)) :
    Reads grouped .operand (Token.lparen :: row) e (Token.rparen :: after) :=
  .operand rfl (.group h rfl)

end Grammar

open Grammar

variable {after : List Token}

theorem Token.rparen_not_mem_infixes (after : List Token) :
    (Token.current (Token.rparen :: after)).kind ∉ Kind.infixes :=
  (by decide : Kind.rparen ∉ Kind.infixes)

theorem Expr.WellFormed.isUnarySign_edge {e : Expr} (h : e.WellFormed) :
    (e.edge Token.lparen).isUnarySign = false := by
  rw [Bool.eq_false_iff]
  intro hsign
  rw [Token.isUnarySign_iff, h.kind_edge] at hsign
  obtain hedge | hedge | hedge := e.edgeKind_cases .lparen
  all_goals
    rw [Token.lparen, hedge] at hsign
    revert hsign
    decide

/-- **A tree is read back from its text** as an operand, whatever its operators and whatever
follows. -/
theorem Expr.WellFormed.reads_text {e : Expr} (h : e.WellFormed) (after : List Token) :
    Reads grouped .operand (e.textTokens ++ after) e (e.edge Token.rparen :: after) := by
  induction e generalizing after with
  | ident name =>
      obtain ⟨token, value⟩ := name
      obtain ⟨hkind, rfl⟩ : token.kind = .ident ∧ value = token.literal := h
      exact .operand (operand_grouped (operand_of_leaf (.inl hkind))) (.name hkind)
  | int token value =>
      obtain ⟨hkind, hvalue⟩ := h
      obtain ⟨n, hn, rfl⟩ := Option.map_eq_some_iff.mp hvalue
      exact .operand (operand_grouped (operand_of_leaf (.inr hkind))) (.integer hkind hn)
  | unary operator operand ih =>
      obtain ⟨hsign, hoperand⟩ := h
      obtain ⟨tokens, htokens⟩ := operand.textTokens_eq_cons
      have hread := ih hoperand (Token.rparen :: after)
      have hafter := Token.rparen_not_mem_infixes after
      rw [htokens, List.cons_append] at hread
      rw [textTokens, edge, htokens]
      simp only [List.cons_append, List.append_assoc, List.nil_append]
      exact ((hread.signed hsign hoperand.isUnarySign_edge hafter).alone hafter).enclosed
  | binary left operator right ihleft ihright =>
      obtain ⟨hinfixes, hleft, hright⟩ := h
      have hafter := Token.rparen_not_mem_infixes after
      rw [textTokens, edge]
      simp only [List.cons_append, List.append_assoc, List.nil_append]
      exact ((ihleft hleft _).pair hinfixes (ihright hright _) hafter).enclosed

/-! ### Statements -/

namespace Stmt

variable {s : Stmt}

/-- A statement as it is read from its text: an expression alone comes with the token that its text
starts with. -/
def reread : Stmt → Stmt
  | letStmt token name value => letStmt token name value
  | returnStmt token value => returnStmt token value
  | exprStmt _ value => exprStmt (value.edge Token.lparen) value

theorem text_reread (s : Stmt) : s.reread.text = s.text := by
  cases s with
  | letStmt | returnStmt | exprStmt => rfl

/-- The text of a statement starts with nothing that could go on with a statement in front of it. -/
theorem firstKind_ends_before (s : Stmt) :
    s.firstKind ∉ Kind.infixes ∧ s.firstKind ≠ .semicolon := by
  cases s with
  | letStmt | returnStmt =>
      rw [firstKind]
      decide
  | exprStmt token value =>
      obtain hedge | hedge | hedge := value.edgeKind_cases .lparen
      all_goals
        rw [firstKind, hedge]
        decide

theorem reads_value {value : Expr} (h : value.WellFormed) (after : List Token) :
    Reads grouped (.expression .lowest) (value.textTokens ++ Token.semicolon :: after) value
      (value.edge Token.rparen :: Token.semicolon :: after) :=
  (h.reads_text (Token.semicolon :: after)).alone semicolon_not_mem_infixes

/-- **A statement is read back from its text**, in front of nothing that could go on with it. -/
theorem Fits.reads_text (h : s.Fits) (hinfixes : (Token.current after).kind ∉ Kind.infixes)
    (hsemicolon : (Token.current after).kind ≠ .semicolon) :
    ReadsStatement grouped (grouped.ruleAt (s.textTokens ++ after)) (s.textTokens ++ after)
      s.reread (s.textLast :: after) := by
  cases s with
  | letStmt token name value =>
      obtain ⟨hword, ⟨hname, hvalue⟩, hwell⟩ := h
      obtain ⟨nameToken, nameValue⟩ := name
      obtain rfl : nameValue = nameToken.literal := hvalue
      simp only [textTokens, List.cons_append, List.append_assoc, List.nil_append]
      rw [ruleAt, Token.current_cons, hword]
      exact .binding hname rfl (reads_value hwell after)
  | returnStmt token value =>
      obtain ⟨hword, hwell⟩ := h
      simp only [textTokens, List.cons_append, List.append_assoc, List.nil_append]
      rw [ruleAt, Token.current_cons, hword]
      have hbody : Reads grouped (.expression .lowest)
          (token :: (value.textTokens ++ Token.semicolon :: after)).tail value
          (value.edge Token.rparen :: Token.semicolon :: after) := reads_value hwell after
      exact .returning hbody
  | exprStmt token value =>
      have hwell : value.WellFormed := h
      have hread := ReadsStatement.expression ((hwell.reads_text after).alone hinfixes)
      obtain ⟨tokens, htokens⟩ := value.textTokens_eq_cons
      have hcurrent : Token.current (value.textTokens ++ after) = value.edge Token.lparen := by
        rw [htokens]
        rfl
      have hrule : grouped.ruleAt (value.textTokens ++ after) = .expression := by
        rw [ruleAt, hcurrent, hwell.kind_edge]
        obtain hedge | hedge | hedge := value.edgeKind_cases .lparen
        all_goals
          rw [Token.lparen, hedge]
          rfl
      rw [hcurrent, Token.skipSemicolon, Token.peek_cons, if_neg hsemicolon] at hread
      rw [textTokens, hrule]
      exact hread

end Stmt

/-! ### Programs -/

/-- What is written down for further statements goes on with no statement in front of them. -/
theorem current_flatMap_textTokens {statements : List Stmt}
    (hstatements : ∀ s ∈ statements, s.Fits) :
    (Token.current (statements.flatMap Stmt.textTokens)).kind ∉ Kind.infixes ∧
      (Token.current (statements.flatMap Stmt.textTokens)).kind ≠ .semicolon := by
  cases statements with
  | nil => decide
  | cons s statements =>
      have hs : s.Fits := hstatements s List.mem_cons_self
      obtain ⟨tokens, htokens⟩ := s.textTokens_eq_cons
      rw [List.flatMap_cons, htokens, List.cons_append, Token.current_cons, hs.kind_textFirst]
      exact s.firstKind_ends_before

theorem entries_flatMap_textTokens {statements : List Stmt}
    (hstatements : ∀ s ∈ statements, s.Fits) :
    grouped.entries (statements.flatMap Stmt.textTokens) =
      (statements.map Stmt.reread).map .ok := by
  induction statements with
  | nil => exact grouped.entries_nil
  | cons s statements ih =>
      obtain ⟨hs, hrest⟩ := List.forall_mem_cons.mp hstatements
      obtain ⟨hinfixes, hsemicolon⟩ := current_flatMap_textTokens hrest
      have hentry := (hs.reads_text hinfixes hsemicolon).entry
      have hrow : s.textTokens ++ statements.flatMap Stmt.textTokens ≠ [] := by
        obtain ⟨tokens, htokens⟩ := s.textTokens_eq_cons
        simp [htokens]
      rw [List.flatMap_cons, entries_of_entry hrow hentry, List.tail_cons, ih hrest]
      rfl

/-- **A program is read back from its text** once parentheses have a rule, whatever the shapes of
its trees, if no statement runs into the next one: the same statements, without a diagnostic.  Only
the token that an expression alone comes with is that of its text, and the text of what is read is
the text again. -/
theorem program_of_text (p : Program) (hstatements : ∀ s ∈ p.statements, s.Genuine)
    (hchain : p.statements.IsChain fun s next => s.glues next = false) :
    let parser := (Parser.ofCursor (.ofSource p.text)).withGrammar (·.setOperand .lparen .group)
    parser.program.1.statements = p.statements.map Stmt.reread ∧
      parser.program.2.diagnostics = [] ∧ parser.program.1.text = p.text := by
  intro parser
  have hrow : parser.row = p.statements.flatMap Stmt.textTokens :=
    Program.lex_text hstatements hchain
  have hentries : grouped.entries parser.row = (p.statements.map Stmt.reread).map .ok := by
    rw [hrow]
    exact entries_flatMap_textTokens fun s hs => (hstatements s hs).fits
  have hread : parser.program.1.statements = p.statements.map Stmt.reread :=
    (congrArg statementsOf hentries).trans (statementsOf_map_ok _)
  refine ⟨hread, ?_, ?_⟩
  · exact (congrArg diagnosticsOf hentries).trans (diagnosticsOf_map_ok _)
  · rw [Program.text, hread, List.map_map, Program.text]
    exact congrArg String.join (List.map_congr_left fun s _ => s.text_reread)

/-- A binding whose value needs both pairs of parentheses, a name, an integer and a tree that leans
to the right. -/
theorem program_of_text_leaning :
    let p : Program :=
      ⟨[.letStmt ⟨.letKw, "let"⟩ ⟨⟨.ident, "a"⟩, "a"⟩
          (.binary (.unary ⟨.minus, "-"⟩ (.binary (.int ⟨.int, "1"⟩ 1) ⟨.plus, "+"⟩
            (.ident ⟨⟨.ident, "b"⟩, "b"⟩))) ⟨.asterisk, "*"⟩ (.int ⟨.int, "02"⟩ 2)),
        .exprStmt ⟨.ident, "c"⟩ (.ident ⟨⟨.ident, "c"⟩, "c"⟩),
        .exprStmt ⟨.int, "3"⟩ (.int ⟨.int, "3"⟩ 3),
        .exprStmt ⟨.ident, "d"⟩ (.binary (.ident ⟨⟨.ident, "d"⟩, "d"⟩) ⟨.minus, "-"⟩
          (.binary (.ident ⟨⟨.ident, "e"⟩, "e"⟩) ⟨.minus, "-"⟩ (.ident ⟨⟨.ident, "f"⟩, "f"⟩)))]⟩
    let parser := (Parser.ofCursor (.ofSource p.text)).withGrammar (·.setOperand .lparen .group)
    p.text = "let a = ((-(1 + b)) * 02);c3(d - (e - f))" ∧
      parser.program.1.statements = p.statements.map Stmt.reread ∧
      parser.program.2.diagnostics = [] ∧ parser.program.1.text = p.text := by
  intro p parser
  exact ⟨by decide +kernel, program_of_text p (by decide +kernel) (by decide)⟩

end Monkey
