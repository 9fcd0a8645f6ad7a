import Monkey.Proofs.Derivation
import Monkey.Proofs.Lexeme

/-!
# The tokens of what is read

A reading that succeeds uses up exactly the tokens of the tree that it yields
(`Reads.unread_eq`), a statement in addition at most one semicolon (`ReadsStatement.row_eq`).  A
program is read in iterations that use up one piece of the row each (`Iterations`): none of its
tokens is lost, taken twice or moved, whether or not the statements in it can be read
(`exists_pieces_of_parse`).
-/

namespace Monkey

/-- The tokens of a statement in the order in which they are read, without the semicolon that may
end it. -/
def Stmt.tokens : Stmt → List Token
  | letStmt token name value => token :: name.token :: Token.assign :: value.tokens
  | returnStmt token value => token :: value.tokens
  | exprStmt _ value => value.tokens

namespace Grammar

variable {g : Grammar} {goal : Goal} {power : Power} {rule : StatementRule}
  {row rest : List Token} {e : Expr} {s : Stmt}

/-! ### Expressions -/

/-- No operand is read through parentheses, which leave no node in a tree. -/
def GroupFree (g : Grammar) : Prop :=
  ∀ kind, g.operand kind ≠ some .group

theorem groupFree_standard : standard.GroupFree := by
  intro kind
  cases kind <;> decide

/-- The goal is not an operand in parentheses. -/
def Goal.GroupFree : Goal → Prop
  | operandBy rule => rule ≠ .group
  | _ => True

/-- All tokens that a goal is about: those of its left operand and those still to be read.  The
first token of the row belongs to the left operand where operators are to be read. -/
def Goal.unread : Goal → List Token → List Token
  | rightOperand left _, row => left.tokens ++ row
  | operators left _, row => left.tokens ++ row.tail
  | _, row => row

/-- **A reading uses up the tokens of its tree**, the current one at its end included. -/
theorem Reads.unread_eq (hg : g.GroupFree) (h : Reads g goal row e rest)
    (hgoal : goal.GroupFree) : goal.unread row = e.tokens ++ rest.tail := by
  induction h with
  | expression _ _ ih₁ ih₂ => exact (ih₁ trivial).trans (ih₂ trivial)
  | @operand token _ _ rule _ hrule _ ih =>
      refine ih ?_
      rintro rfl
      exact hg token.kind hrule
  | name => rfl
  | integer => rfl
  | @unaryRun token rest after e _ ih =>
      have hrest : rest.dropWhile Token.isUnarySign = e.tokens ++ after.tail := ih trivial
      rw [Expr.tokens_underAll, List.append_assoc, ← hrest, List.cons_append,
        List.takeWhile_append_dropWhile]
      rfl
  | @unaryOnce token rest after e _ ih =>
      have hrest : rest = e.tokens ++ after.tail := ih trivial
      show token :: rest = token :: (e.tokens ++ after.tail)
      rw [hrest]
  | group => exact absurd rfl hgoal
  | @rightOperand left right _ operator rest after _ ih =>
      have hrest : rest = right.tokens ++ after.tail := ih trivial
      rw [Goal.unread, hrest, Expr.tokens, List.append_assoc, List.cons_append]
  | operatorsNil => rfl
  | operatorsStop => rfl
  | operatorsStep _ _ _ ih₁ ih₂ => exact (ih₁ trivial).trans (ih₂ trivial)

theorem Reads.row_eq (hg : g.GroupFree) (h : Reads g (.expression power) row e rest) :
    row = e.tokens ++ rest.tail :=
  h.unread_eq hg trivial

/-! ### Statements -/

/-- **A statement uses up its tokens** and at most one semicolon after them. -/
theorem ReadsStatement.row_eq (hg : g.GroupFree) (hrow : ∀ token ∈ row, token.Scanned)
    (h : ReadsStatement g rule row s rest) :
    row = s.tokens ++ rest.tail ∨ row = s.tokens ++ Token.semicolon :: rest.tail := by
  have closing {after : List Token} (hvalue : row = s.tokens ++ after.tail) :
      row = s.tokens ++ (Token.skipSemicolon after).tail ∨
        row = s.tokens ++ Token.semicolon :: (Token.skipSemicolon after).tail := by
    obtain ⟨hskip, -⟩ | ⟨current, mark, rest, rfl, hmark, hskip⟩ := Token.skipSemicolon_eq after
    · rw [hskip]
      exact .inl hvalue
    · have hmem : mark ∈ row := by
        rw [hvalue]
        exact List.mem_append_right _ List.mem_cons_self
      rw [hskip, ← (hrow mark hmem).eq_semicolon hmark]
      exact .inr hvalue
  cases h with
  | @binding word name sign body after e _ hsign hvalue =>
      have hassign : sign = Token.assign := (hrow sign (by simp)).eq_assign hsign
      exact closing (by rw [hvalue.row_eq hg, hassign]; rfl)
  | @returning _ after e hvalue =>
      obtain ⟨word, body, rfl⟩ : ∃ word body, row = word :: body := by
        refine List.exists_cons_of_ne_nil ?_
        rintro rfl
        exact hvalue.row_ne_nil rfl
      have hbody : body = e.tokens ++ after.tail := hvalue.row_eq hg
      exact closing (by rw [hbody]; rfl)
  | expression hvalue => exact closing (hvalue.row_eq hg)

/-! ### Programs -/

/-- The iterations in which a row is read as a program: the tokens that each uses up, at least one,
and the statement or the diagnostic it ends with. -/
inductive Iterations (g : Grammar) :
    List Token → List (List Token × Except Diagnostic Stmt) → Prop
  | nil : Iterations g [] []
  | cons {used rest : List Token} {result : Except Diagnostic Stmt}
      {pieces : List (List Token × Except Diagnostic Stmt)} :
      used ≠ [] → g.entry (used ++ rest) = ⟨result, rest⟩ → Iterations g rest pieces →
      Iterations g (used ++ rest) ((used, result) :: pieces)

variable {pieces : List (List Token × Except Diagnostic Stmt)}

theorem exists_iterations (g : Grammar) (row : List Token) : ∃ pieces, Iterations g row pieces := by
  induction row using entries.induct g with
  | case1 => exact ⟨[], .nil⟩
  | case2 token rest _ ih =>
      obtain ⟨pieces, hpieces⟩ := ih
      obtain ⟨before, hbefore⟩ := g.rest_entry token rest
      have hsplit : (token :: before) ++ (g.entry (token :: rest)).rest = token :: rest := by
        rw [List.cons_append, hbefore]
      refine ⟨(token :: before, (g.entry (token :: rest)).result) :: pieces, ?_⟩
      rw [← hsplit]
      exact .cons (List.cons_ne_nil token before) (by rw [hsplit]) (hsplit.symm ▸ hpieces)

namespace Iterations

theorem flatten_eq (h : Iterations g row pieces) : (pieces.map Prod.fst).flatten = row := by
  induction h with
  | nil => rfl
  | cons _ _ _ ih => rw [List.map_cons, List.flatten_cons, ih]

theorem entries_eq (h : Iterations g row pieces) : g.entries row = pieces.map Prod.snd := by
  induction h with
  | nil => exact g.entries_nil
  | @cons used rest result pieces hused hentry _ ih =>
      have hrow : used ++ rest ≠ [] := List.append_ne_nil_of_left_ne_nil hused rest
      rw [entries_of_entry hrow hentry, List.map_cons, ih]

theorem used_ne_nil (h : Iterations g row pieces) : ∀ piece ∈ pieces, piece.1 ≠ [] := by
  induction h with
  | nil => exact List.forall_mem_nil _
  | cons hused _ _ ih => exact List.forall_mem_cons.mpr ⟨hused, ih⟩

theorem used_eq (hg : g.GroupFree) (h : Iterations g row pieces)
    (hrow : ∀ token ∈ row, token.Scanned) :
    ∀ used s, (used, .ok s) ∈ pieces → used = s.tokens ∨ used = s.tokens ++ [Token.semicolon] := by
  induction h with
  | nil => exact fun _ _ hmem => absurd hmem List.not_mem_nil
  | @cons used rest result pieces _ hentry _ ih =>
      intro used' s hmem
      obtain heq | hmem := List.mem_cons.mp hmem
      · obtain ⟨rfl, rfl⟩ := Prod.mk.inj heq
        obtain ⟨s', after, h⟩ | ⟨d, after, h⟩ :=
          readsStatement_or_fails g (g.ruleAt (used' ++ rest)) (used' ++ rest)
        · obtain ⟨hs, rfl⟩ := Outcome.mk.inj (h.entry.symm.trans hentry)
          cases hs
          obtain heq | heq := h.row_eq hg hrow
          · exact .inl (List.append_cancel_right heq)
          · rw [List.append_cons] at heq
            exact .inr (List.append_cancel_right heq)
        · cases (Outcome.mk.inj (h.entry.symm.trans hentry)).1
      · exact ih (fun token htoken => hrow token (List.mem_append_right used htoken)) used' s hmem

end Iterations

end Grammar

open Grammar in
/-- **Every token has its place.**  The tokens of a source text are cut into the pieces that the
iterations of a parse use up one after another.  The pieces of the iterations that succeed are those
of the statements of the program, in their order, and consist of their tokens and at most a
semicolon; the other pieces are those of the diagnostics, in their order. -/
theorem exists_pieces_of_parse (source : String) :
    ∃ pieces : List (List Token × Except Diagnostic Stmt),
      Iterations standard ((Token.tokenize source).filter (·.kind ≠ .eof)) pieces ∧
      (pieces.map Prod.fst).flatten = (Token.tokenize source).filter (·.kind ≠ .eof) ∧
      (∀ piece ∈ pieces, piece.1 ≠ []) ∧
      (∀ used s, (used, .ok s) ∈ pieces →
        used = s.tokens ∨ used = s.tokens ++ [Token.semicolon]) ∧
      statementsOf (pieces.map Prod.snd) = (parse source).1.statements ∧
      diagnosticsOf (pieces.map Prod.snd) = (parse source).2 := by
  rw [Token.filter_tokenize]
  obtain ⟨pieces, h⟩ := exists_iterations standard (Token.lex source.toList)
  refine ⟨pieces, h, h.flatten_eq, h.used_ne_nil, ?_, ?_, ?_⟩
  · exact h.used_eq groupFree_standard fun token => Token.scanned_of_mem_lex
  · rw [← h.entries_eq]
    rfl
  · rw [← h.entries_eq]
    rfl

end Monkey
