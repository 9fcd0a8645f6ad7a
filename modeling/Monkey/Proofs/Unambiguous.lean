import Monkey.Proofs.Grouping
import Monkey.Proofs.Nodes

/-!
# The text of a statement tells which statement it is

No two statements of programs have the same text (`eq_of_text_eq`), whatever is wrong with the
programs around them.  The text has no separators but the parentheses around each operator; that
these are enough is known from reading the text back with a rule for parentheses, which gives one
statement only.

The token that an expression alone comes with is the one thing that is not written down.  It is the
first token of the expression, as of every statement that is read (`ReadsStatement.headed`).
-/

namespace Monkey

theorem Expr.tokens_ne_nil (e : Expr) : e.tokens ≠ [] := by
  cases e with
  | ident | int | unary => exact List.cons_ne_nil _ _
  | binary => exact List.append_ne_nil_of_right_ne_nil _ (List.cons_ne_nil _ _)

namespace Stmt

variable {s t : Stmt}

/-- The token that the statement comes with is the first of its tokens. -/
def Headed (s : Stmt) : Prop :=
  s.tokens.head? = some s.token

/-- What is lost in the text is restored by the first token. -/
theorem eq_of_reread_eq (hs : s.Headed) (ht : t.Headed) (h : s.reread = t.reread) : s = t := by
  cases s with
  | letStmt | returnStmt =>
      cases t with
      | letStmt | returnStmt => exact h
      | exprStmt => cases h
  | exprStmt token value =>
      cases t with
      | letStmt | returnStmt => cases h
      | exprStmt other value' =>
          obtain ⟨-, rfl⟩ := Stmt.exprStmt.inj h
          have hother : some token = some other := hs.symm.trans ht
          rw [Option.some.inj hother]

theorem Genuine.lex_text (h : s.Genuine) : Token.lex s.text.toList = s.textTokens := by
  have happend := h.lex_text_append h.lexeme_textLast
  rwa [List.append_nil, Token.lex_nil, List.append_nil] at happend

/-- **Statements with one text are read back as one.** -/
theorem Genuine.reread_eq (hs : s.Genuine) (ht : t.Genuine) (h : s.text = t.text) :
    s.reread = t.reread := by
  have htokens : s.textTokens = t.textTokens := by rw [← hs.lex_text, ← ht.lex_text, h]
  have hread := entries_flatMap_textTokens (List.forall_mem_singleton.mpr hs.fits)
  have hread' := entries_flatMap_textTokens (List.forall_mem_singleton.mpr ht.fits)
  rw [List.flatMap_singleton, htokens] at hread
  rw [List.flatMap_singleton, hread] at hread'
  exact Except.ok.inj (List.singleton_inj.mp hread')

end Stmt

namespace Grammar

variable {g : Grammar} {rule : StatementRule} {row rest : List Token} {s : Stmt}

/-- **A statement comes with the first of its tokens.** -/
theorem ReadsStatement.headed (hg : g.GroupFree) (h : ReadsStatement g rule row s rest) :
    s.Headed := by
  cases h with
  | binding | returning => rfl
  | @expression _ after e hvalue =>
      obtain ⟨token, more, htokens⟩ := List.exists_cons_of_ne_nil e.tokens_ne_nil
      have hrow : row = token :: (more ++ after.tail) := by
        rw [hvalue.row_eq hg, htokens, List.cons_append]
      rw [Stmt.Headed, Stmt.tokens, Stmt.token, htokens, hrow]
      rfl

end Grammar

theorem headed_of_mem_parse {source : String} {s : Stmt} (hs : s ∈ (parse source).1.statements) :
    s.Headed := by
  obtain ⟨part, after, -, hread⟩ := exists_readsStatement_of_mem_parse hs
  exact hread.headed Grammar.groupFree_standard

/-- **Statements are known by their texts.**  If two statements of two programs have the same text,
they are the same: of one form, with the same tokens and the same tree, names and values.  The
programs may be read from any texts, and anything may be wrong with them. -/
theorem eq_of_text_eq {source source' : String} {s t : Stmt}
    (hs : s ∈ (parse source).1.statements) (ht : t ∈ (parse source').1.statements)
    (h : s.text = t.text) : s = t :=
  Stmt.eq_of_reread_eq (headed_of_mem_parse hs) (headed_of_mem_parse ht)
    ((genuine_of_mem_parse hs).reread_eq (genuine_of_mem_parse ht) h)

/-- The first statement of one text and the second of another, behind something that cannot be
read. -/
theorem eq_of_text_eq_layout :
    ∃ s ∈ (parse "-a * 007 == !b").1.statements,
      ∃ t ∈ (parse "c; let = d;-a*007==!b;").1.statements,
      s.text = "(((-a) * 007) == (!b))" ∧ s.text = t.text ∧ s = t := by
  let s : Stmt :=
    .exprStmt ⟨.minus, "-"⟩
      (.binary
        (.binary (.unary ⟨.minus, "-"⟩ (.ident ⟨⟨.ident, "a"⟩, "a"⟩)) ⟨.asterisk, "*"⟩
          (.int ⟨.int, "007"⟩ 7))
        ⟨.eq, "=="⟩ (.unary ⟨.bang, "!"⟩ (.ident ⟨⟨.ident, "b"⟩, "b"⟩)))
  have hs : s ∈ (parse "-a * 007 == !b").1.statements := by decide +kernel
  have ht : s ∈ (parse "c; let = d;-a*007==!b;").1.statements := by decide +kernel
  exact ⟨s, hs, s, ht, by decide, rfl, eq_of_text_eq hs ht rfl⟩

end Monkey
