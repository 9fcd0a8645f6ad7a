import Monkey.Proofs.Precedence
import Monkey.Proofs.Yield
import Mathlib.Data.List.Chain

/-!
# Programs as they are written

A program is written down statement by statement, each by its tokens and with a semicolon or
without one.  A semicolon may be left out unless the next statement starts with a minus sign, which
would be taken for an operator (`Written.Separate`).  Then the statements, with canonical
expressions, are what a parse of the text yields (`parse_of_written`).
-/

namespace Monkey

/-! ### Statements -/

/-- A statement with a canonical expression, made of tokens for its parts.  An expression alone
starts with the token of the statement. -/
def Stmt.WellFormed : Stmt → Prop
  | letStmt token name value => token.kind = .letKw ∧ name.WellFormed ∧ value.Canonical
  | returnStmt token value => token.kind = .returnKw ∧ value.Canonical
  | exprStmt token value => value.tokens.head? = some token ∧ value.Canonical

instance (s : Stmt) : Decidable s.WellFormed :=
  match s with
  | .letStmt .. => inferInstanceAs (Decidable (_ ∧ _ ∧ _))
  | .returnStmt .. => inferInstanceAs (Decidable (_ ∧ _))
  | .exprStmt .. => inferInstanceAs (Decidable (_ ∧ _))

namespace Stmt.WellFormed

variable {s : Stmt} {after : List Token}

theorem tokens_eq_cons (h : s.WellFormed) :
    ∃ token more, s.tokens = token :: more ∧
      (token.kind = .letKw ∨ token.kind = .returnKw ∨
        ∃ rule, Grammar.standard.operand token.kind = some rule) := by
  cases s with
  | letStmt token name value => exact ⟨token, _, rfl, .inl h.1⟩
  | returnStmt token value => exact ⟨token, _, rfl, .inr (.inl h.1)⟩
  | exprStmt token value =>
      obtain ⟨first, more, rule, htokens, hrule⟩ := h.2.wellFormed.tokens_eq_cons
      exact ⟨first, more, htokens, .inr (.inr ⟨rule, hrule⟩)⟩

/-- A statement that does not start with a minus sign starts with nothing that could go on with the
statement in front of it. -/
theorem ends_before (h : s.WellFormed) (hminus : (Token.current s.tokens).kind ≠ .minus) :
    (Token.current s.tokens).kind ∉ Kind.infixes ∧
      (Token.current s.tokens).kind ≠ .semicolon := by
  obtain ⟨token, more, htokens, hkind⟩ := h.tokens_eq_cons
  rw [htokens, Token.current_cons] at hminus ⊢
  obtain hkind | hkind | ⟨rule, hrule⟩ := hkind
  · rw [hkind]
    decide
  · rw [hkind]
    decide
  · refine ⟨Grammar.not_mem_infixes_of_operand hrule hminus, ?_⟩
    intro hsemicolon
    rw [hsemicolon] at hrule
    cases hrule

/-- **A statement is read back from its tokens**, in front of anything but an operator. -/
theorem reads (h : s.WellFormed) (hafter : (Token.current after).kind ∉ Kind.infixes) :
    Grammar.ReadsStatement .standard (Grammar.standard.ruleAt (s.tokens ++ after))
      (s.tokens ++ after) s (Token.skipSemicolon (s.value.last :: after)) := by
  cases s with
  | letStmt token name value =>
      obtain ⟨hword, ⟨hname, hvalue⟩, hcanonical⟩ := h
      have hrule : Grammar.standard.ruleAt ((letStmt token name value).tokens ++ after) =
          .binding := by
        simp [Stmt.tokens, Grammar.ruleAt, Grammar.standard, hword]
      obtain ⟨nameToken, nameValue⟩ := name
      obtain rfl : nameValue = nameToken.literal := hvalue
      rw [hrule]
      exact .binding hname rfl (hcanonical.reads hafter)
  | returnStmt token value =>
      obtain ⟨hword, hcanonical⟩ := h
      have hrule : Grammar.standard.ruleAt ((returnStmt token value).tokens ++ after) =
          .returning := by
        simp [Stmt.tokens, Grammar.ruleAt, Grammar.standard, hword]
      rw [hrule]
      exact .returning (hcanonical.reads hafter)
  | exprStmt token value =>
      obtain ⟨hfirst, hcanonical⟩ := h
      obtain ⟨first, more, rule, htokens, hoperand⟩ := hcanonical.wellFormed.tokens_eq_cons
      obtain rfl : first = token := by
        rw [htokens] at hfirst
        exact Option.some.inj hfirst
      have hcurrent : Token.current (value.tokens ++ after) = first := by rw [htokens]; rfl
      have hrule : Grammar.standard.ruleAt (value.tokens ++ after) = .expression := by
        rw [Grammar.ruleAt, hcurrent]
        obtain ⟨-, hkind | hkind⟩ | ⟨-, hkind | hkind⟩ := Grammar.operand_standard_cases hoperand
        all_goals
          rw [hkind]
          rfl
      have hread := Grammar.ReadsStatement.expression (hcanonical.reads hafter)
      rw [hcurrent] at hread
      rw [Stmt.tokens, hrule]
      exact hread

end Stmt.WellFormed

/-! ### Programs -/

/-- A statement as it is written down, and whether a semicolon ends it. -/
structure Written where
  statement : Stmt
  closed : Bool
  deriving DecidableEq, Repr

namespace Written

variable {w : Written} {written : List Written} {more : List Token}

/-- The tokens of a statement and of the semicolon that ends it. -/
def tokens (w : Written) : List Token :=
  w.statement.tokens ++ if w.closed then [Token.semicolon] else []

/-- A statement may stand in front of the next one: a semicolon ends it, or the next one does not
start with a minus sign. -/
def Separate (w next : Written) : Prop :=
  w.closed = true ∨ (Token.current next.statement.tokens).kind ≠ .minus

instance (w next : Written) : Decidable (w.Separate next) :=
  inferInstanceAs (Decidable (_ ∨ _))

theorem entry_append (hw : w.statement.WellFormed)
    (hmore : w.closed = true ∨ ((Token.current more).kind ∉ Kind.infixes ∧
      (Token.current more).kind ≠ .semicolon)) :
    Grammar.standard.entry (w.tokens ++ more) = ⟨.ok w.statement, more⟩ := by
  obtain ⟨s, closed⟩ := w
  cases closed with
  | true =>
      have hrow : tokens ⟨s, true⟩ ++ more = s.tokens ++ Token.semicolon :: more := by
        simp [tokens]
      have hsemicolon : (Token.current (Token.semicolon :: more)).kind ∉ Kind.infixes :=
        Grammar.semicolon_not_mem_infixes
      rw [hrow, (hw.reads hsemicolon).entry]
      rfl
  | false =>
      obtain ⟨hinfixes, hsemicolon⟩ := hmore.resolve_left Bool.false_ne_true
      have hrow : tokens ⟨s, false⟩ ++ more = s.tokens ++ more := by
        simp [tokens]
      rw [hrow, (hw.reads hinfixes).entry, Token.skipSemicolon, Token.peek_cons,
        if_neg hsemicolon]
      rfl

theorem separate_flatMap (hwell : ∀ next ∈ written, next.statement.WellFormed)
    (hchain : (w :: written).IsChain Separate) :
    w.closed = true ∨ ((Token.current (written.flatMap tokens)).kind ∉ Kind.infixes ∧
      (Token.current (written.flatMap tokens)).kind ≠ .semicolon) := by
  cases written with
  | nil => exact .inr (by decide)
  | cons next written =>
      have hnext : next.statement.WellFormed := hwell next List.mem_cons_self
      obtain ⟨token, more, htokens, -⟩ := hnext.tokens_eq_cons
      have hcurrent : Token.current ((next :: written).flatMap tokens) =
          Token.current next.statement.tokens := by
        rw [List.flatMap_cons, tokens, htokens]
        rfl
      rw [hcurrent]
      obtain hclosed | hminus := (List.isChain_cons_cons.mp hchain).1
      · exact .inl hclosed
      · exact .inr (hnext.ends_before hminus)

/-- **The statements are read back from their tokens**, one entry for each. -/
theorem entries_flatMap (hwell : ∀ w ∈ written, w.statement.WellFormed)
    (hchain : written.IsChain Separate) :
    Grammar.standard.entries (written.flatMap tokens) = (written.map statement).map .ok := by
  induction written with
  | nil => exact Grammar.standard.entries_nil
  | cons w written ih =>
      obtain ⟨hw, hwritten⟩ := List.forall_mem_cons.mp hwell
      have hentry := entry_append hw (separate_flatMap hwritten hchain)
      have hrow : w.tokens ++ written.flatMap tokens ≠ [] := by
        obtain ⟨token, more, htokens, -⟩ := hw.tokens_eq_cons
        simp [tokens, htokens]
      rw [List.flatMap_cons, Grammar.entries_of_entry hrow hentry, ih hwritten hchain.tail]
      rfl

end Written

/-- **Parsing undoes writing.**  A text whose tokens are those of well-formed statements, each with
a semicolon or without one, is parsed to exactly these statements and without a diagnostic. -/
theorem parse_of_written (source : String) (written : List Written)
    (hwell : ∀ w ∈ written, w.statement.WellFormed) (hchain : written.IsChain Written.Separate)
    (hsource : Token.tokenize source = written.flatMap Written.tokens ++ [Token.eof]) :
    parse source = (⟨written.map Written.statement⟩, []) := by
  have hlex : Token.lex source.toList = written.flatMap Written.tokens :=
    List.append_cancel_right hsource
  rw [parse, hlex, Written.entries_flatMap hwell hchain]
  simp only [Grammar.statementsOf_map_ok, Grammar.diagnosticsOf_map_ok]

/-- Three statements, of which the first ends with a semicolon. -/
theorem parse_let_return_expression :
    parse "let a = 1 + 2 * b; return -a\n!c == 3" =
      (⟨[.letStmt ⟨.letKw, "let"⟩ ⟨⟨.ident, "a"⟩, "a"⟩
          (.binary (.int ⟨.int, "1"⟩ 1) ⟨.plus, "+"⟩
            (.binary (.int ⟨.int, "2"⟩ 2) ⟨.asterisk, "*"⟩ (.ident ⟨⟨.ident, "b"⟩, "b"⟩))),
        .returnStmt ⟨.returnKw, "return"⟩ (.unary ⟨.minus, "-"⟩ (.ident ⟨⟨.ident, "a"⟩, "a"⟩)),
        .exprStmt ⟨.bang, "!"⟩
          (.binary (.unary ⟨.bang, "!"⟩ (.ident ⟨⟨.ident, "c"⟩, "c"⟩)) ⟨.eq, "=="⟩
            (.int ⟨.int, "3"⟩ 3))]⟩, []) :=
  parse_of_written _
    [⟨.letStmt ⟨.letKw, "let"⟩ ⟨⟨.ident, "a"⟩, "a"⟩
        (.binary (.int ⟨.int, "1"⟩ 1) ⟨.plus, "+"⟩
          (.binary (.int ⟨.int, "2"⟩ 2) ⟨.asterisk, "*"⟩ (.ident ⟨⟨.ident, "b"⟩, "b"⟩))), true⟩,
      ⟨.returnStmt ⟨.returnKw, "return"⟩
        (.unary ⟨.minus, "-"⟩ (.ident ⟨⟨.ident, "a"⟩, "a"⟩)), false⟩,
      ⟨.exprStmt ⟨.bang, "!"⟩
        (.binary (.unary ⟨.bang, "!"⟩ (.ident ⟨⟨.ident, "c"⟩, "c"⟩)) ⟨.eq, "=="⟩
          (.int ⟨.int, "3"⟩ 3)), false⟩]
    (by decide) (by decide) (by decide +kernel)

end Monkey
