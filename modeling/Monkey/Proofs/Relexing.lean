import Monkey.Proofs.Nodes

/-!
# The tokens of a program and of its text

The text of a program has the tokens of the source text it was read from, but for parentheses and
semicolons, exactly if no statement runs into the one behind it (`retokenize_text_eq_iff`).

Where a statement does run into the next one, the token that is read in the place of its name or
its integer is a longer one (`Stmt.Genuine.lex_text_of_glues`).  It is a word or a number, so it
takes the place of that name or integer also among the tokens that remain without the parentheses
and the semicolons.
-/

namespace Monkey

/-- The kinds of tokens that no tree and no statement consists of. -/
def Kind.separators : List Kind :=
  [eof, semicolon, lparen, rparen]

/-- The token is one that trees and statements consist of. -/
def Token.isContent (token : Token) : Bool :=
  token.kind ∉ Kind.separators

namespace Token

variable {token : Token} {c : Char} {cs : List Char}

theorem isContent_of_kind {kind : Kind} (hkind : token.kind = kind)
    (hnot : kind ∉ Kind.separators) : token.isContent = true := by
  rw [isContent, decide_eq_true_iff, hkind]
  exact hnot

/-! ### Tokens that start with a letter or a digit -/

theorem lex_cons (hc : Text.isBlank c = false) (cs : List Char) :
    lex (c :: cs) = (scan c cs).1 :: lex (scan c cs).2 := by
  refine lex_of_read?_eq_some ?_
  rw [read?, List.dropWhile_cons_of_neg (Bool.eq_false_iff.mp hc)]

theorem isContent_scan (hc : Text.isLetter c = true ∨ c.isDigit = true) (cs : List Char) :
    (scan c cs).1.isContent = true := by
  have hwords : ∀ kind ∈ Kind.words, kind ∉ Kind.separators := by decide
  obtain hletter | hdigit := hc
  · rw [scan, if_pos hletter, isContent, decide_eq_true_iff]
    exact hwords _ (mem_words_of_classifies (classifies_ofWord _))
  · rw [scan, Text.isLetter_eq_false_of_isDigit hdigit, if_neg Bool.false_ne_true, if_pos hdigit]
    rfl

end Token

/-! ### Trees and statements without their separators -/

namespace Expr

variable {e : Expr}

theorem WellFormed.isContent (h : e.WellFormed) : ∀ token ∈ e.tokens, token.isContent = true := by
  have hinfixes : ∀ kind ∈ Kind.infixes, kind ∉ Kind.separators := by decide
  induction e with
  | ident name => exact List.forall_mem_singleton.mpr (Token.isContent_of_kind h.1 (by decide))
  | int token value => exact List.forall_mem_singleton.mpr (Token.isContent_of_kind h.1 (by decide))
  | unary operator operand ih =>
      obtain ⟨hsign, hoperand⟩ := h
      refine List.forall_mem_cons.mpr ⟨?_, ih hoperand⟩
      obtain hsign | hsign := hsign
      · exact Token.isContent_of_kind hsign (by decide)
      · exact Token.isContent_of_kind hsign (by decide)
  | binary left operator right ihleft ihright =>
      obtain ⟨hoperator, hleft, hright⟩ := h
      rw [tokens, List.forall_mem_append, List.forall_mem_cons]
      exact ⟨ihleft hleft, Token.isContent_of_kind rfl (hinfixes _ hoperator), ihright hright⟩

theorem WellFormed.filter_textTokens (h : e.WellFormed) :
    e.textTokens.filter Token.isContent = e.tokens := by
  have hlparen : Token.lparen.isContent = false := by decide
  have hrparen : Token.rparen.isContent = false := by decide
  induction e with
  | ident name => exact List.filter_eq_self.mpr h.isContent
  | int token value => exact List.filter_eq_self.mpr h.isContent
  | unary operator operand ih =>
      have hoperator : operator.isContent = true := h.isContent operator List.mem_cons_self
      simp [textTokens, tokens, hlparen, hrparen, hoperator, ih h.2]
  | binary left operator right ihleft ihright =>
      have hoperator : operator.isContent = true :=
        h.isContent operator (List.mem_append_right _ List.mem_cons_self)
      simp [textTokens, tokens, hlparen, hrparen, hoperator, ihleft h.2.1, ihright h.2.2]

end Expr

namespace Stmt

variable {s next : Stmt}

theorem Fits.isContent (h : s.Fits) : ∀ token ∈ s.tokens, token.isContent = true := by
  cases s with
  | letStmt token name value =>
      obtain ⟨hword, ⟨hname, -⟩, hvalue⟩ := h
      rw [tokens, List.forall_mem_cons, List.forall_mem_cons, List.forall_mem_cons]
      exact ⟨Token.isContent_of_kind hword (by decide), Token.isContent_of_kind hname (by decide),
        rfl, hvalue.isContent⟩
  | returnStmt token value =>
      obtain ⟨hword, hvalue⟩ := h
      exact List.forall_mem_cons.mpr ⟨Token.isContent_of_kind hword (by decide), hvalue.isContent⟩
  | exprStmt token value => exact Expr.WellFormed.isContent h

theorem Fits.filter_textTokens (h : s.Fits) :
    s.textTokens.filter Token.isContent = s.tokens := by
  have hsemicolon : Token.semicolon.isContent = false := by decide
  have hcontent := h.isContent
  cases s with
  | letStmt token name value =>
      rw [tokens, List.forall_mem_cons, List.forall_mem_cons, List.forall_mem_cons] at hcontent
      obtain ⟨htoken, hname, hassign, -⟩ := hcontent
      simp [textTokens, tokens, htoken, hname, hassign, hsemicolon, h.2.2.filter_textTokens]
  | returnStmt token value =>
      have htoken : token.isContent = true := hcontent token List.mem_cons_self
      simp [textTokens, tokens, htoken, hsemicolon, h.2.filter_textTokens]
  | exprStmt token value => exact Expr.WellFormed.filter_textTokens h

/-! ### Statements that run into the next one -/

/-- Only a name or an integer alone runs into the next statement. -/
theorem glues_cases (h : s.glues next = true) :
    (∃ token name, s = exprStmt token (.ident name)) ∨
      ∃ token integer value, s = exprStmt token (.int integer value) := by
  unfold glues at h
  split at h
  · exact .inl ⟨_, _, rfl⟩
  · exact .inl ⟨_, _, rfl⟩
  · exact .inl ⟨_, _, rfl⟩
  · exact .inr ⟨_, _, _, rfl⟩
  · cases h

theorem Genuine.text_of_glues (h : s.Genuine) (hglues : s.glues next = true) :
    s.tokens = [s.textLast] ∧ s.text = s.textLast.literal ∧
      ∃ c cs, s.textLast.literal.toList = c :: cs ∧ Text.isBlank c = false ∧
        (Text.isLetter c = true ∨ c.isDigit = true) := by
  have hlexeme := h.lexeme_textLast
  obtain ⟨c, cs, hliteral, hblank, -⟩ := hlexeme.scan
  have hc : c ∈ s.textLast.literal.toList.head? := by
    rw [hliteral]
    rfl
  obtain ⟨token, name, rfl⟩ | ⟨token, integer, value, rfl⟩ := glues_cases hglues
  · obtain ⟨hkind, hvalue⟩ : name.WellFormed := h.fits
    have hword : name.token.kind ∈ Kind.words := by
      rw [hkind]
      decide
    have hletter := (hlexeme.isWord_iff hc).mp (hlexeme.isWord_iff_kind.mpr hword)
    exact ⟨rfl, hvalue, c, cs, hliteral, hblank, .inl hletter⟩
  · have hkind : integer.kind = .int := h.fits.1
    have hdigit := (hlexeme.kind_eq_int_iff hc).mp hkind
    exact ⟨rfl, rfl, c, cs, hliteral, hblank, .inr hdigit⟩

/-- **Where a statement runs into the next one**, the token in the place of its name or its integer
is another one. -/
theorem Genuine.lex_text_of_glues (h : s.Genuine) (hnext : next.Genuine)
    (hglues : s.glues next = true) (rest : List Char) :
    ∃ token tokens, Token.lex (s.text.toList ++ (next.text.toList ++ rest)) = token :: tokens ∧
      token.isContent = true ∧ token ≠ s.textLast := by
  obtain ⟨-, htext, c, cs, hliteral, hblank, hc⟩ := h.text_of_glues hglues
  obtain ⟨more, hstarts⟩ := hnext.fits.text_starts
  have hfuses : s.textLast.Fuses next.textFirst := by
    rw [Token.fuses_iff_kind h.lexeme_textLast hnext.lexeme_textFirst, h.fits.kind_textLast,
      hnext.fits.kind_textFirst]
    exact glues_eq_true_iff.mp hglues
  have hnot : ¬ s.textLast.Lexeme (next.text.toList ++ rest) := by
    rw [hstarts, List.append_assoc, h.lexeme_textLast.append_iff_not_fuses hnext.lexeme_textFirst,
      not_not]
    exact hfuses
  have hlex := Token.lex_cons hblank (cs ++ (next.text.toList ++ rest))
  rw [← List.cons_append, ← hliteral] at hlex
  refine ⟨_, _, by rw [htext]; exact hlex, Token.isContent_scan hc _, fun heq => hnot ?_⟩
  rw [heq] at hlex
  exact ((Token.lex_literal_append_iff h.lexeme_textLast
    (List.forall_mem_nil _ : Text.Blank [])).mp hlex).1

end Stmt

/-! ### Programs -/

namespace Program

/-- **The tokens of the statements are those of their text** without its separators exactly if no
statement runs into the next one. -/
theorem filter_lex_text_iff {statements : List Stmt} (hstatements : ∀ s ∈ statements, s.Genuine) :
    (Token.lex (text ⟨statements⟩).toList).filter Token.isContent =
        statements.flatMap Stmt.tokens ↔
      statements.IsChain fun s next => s.glues next = false := by
  induction statements with
  | nil => exact iff_of_true (congrArg (List.filter _) Token.lex_nil) .nil
  | cons s statements ih =>
      obtain ⟨hs, hrest⟩ := List.forall_mem_cons.mp hstatements
      rw [toList_text_cons, List.flatMap_cons, List.isChain_cons, ← ih hrest]
      by_cases hhead : ∀ next ∈ statements.head?, s.glues next = false
      · rw [hs.lex_text_append (lexeme_text hs hrest hhead), List.filter_append,
          hs.fits.filter_textTokens, List.append_cancel_left_eq]
        exact (and_iff_right hhead).symm
      · refine iff_of_false (fun heq => ?_) (fun h => hhead h.1)
        push Not at hhead
        obtain ⟨next, hmem, hglues⟩ := hhead
        obtain ⟨more, rfl⟩ := List.head?_eq_some_iff.mp hmem
        rw [Ne, Bool.not_eq_false] at hglues
        have hnext : next.Genuine := hrest next List.mem_cons_self
        obtain ⟨token, tokens, hlex, hcontent, hne⟩ :=
          hs.lex_text_of_glues hnext hglues (text ⟨more⟩).toList
        rw [toList_text_cons, hlex, List.filter_cons_of_pos hcontent,
          (hs.text_of_glues hglues).1] at heq
        exact hne (List.cons.inj heq).1

end Program

namespace Grammar

variable {row : List Token}

/-- In a row that is read without a diagnostic, the tokens of the statements are all but the
semicolons. -/
theorem filter_row (hrow : ∀ token ∈ row, token.Lexable)
    (h : diagnosticsOf (standard.entries row) = []) :
    row.filter (·.kind ∉ [.eof, .semicolon]) =
      (statementsOf (standard.entries row)).flatMap Stmt.tokens := by
  induction row using entries.induct standard with
  | case1 =>
      rw [entries_nil]
      rfl
  | case2 token rest _ ih =>
      obtain ⟨s, after, hread⟩ | ⟨d, after, hfail⟩ :=
        readsStatement_or_fails standard (standard.ruleAt (token :: rest)) (token :: rest)
      · have htokens : s.tokens.filter (·.kind ∉ [.eof, .semicolon]) = s.tokens := by
          refine List.filter_eq_self.mpr fun t ht => ?_
          have hcontent := (hread.genuine hrow).fits.isContent t ht
          rw [Token.isContent, decide_eq_true_iff, Kind.separators] at hcontent
          simp_all
        have hscanned : ∀ t ∈ token :: rest, t.Scanned := fun t ht => (hrow t ht).scanned
        rw [entries_cons, hread.entry] at h ⊢
        rw [hread.entry] at ih
        have hrest := ih (fun t ht => hrow t ?_) h
        · show _ = s.tokens ++ (statementsOf (standard.entries after.tail)).flatMap Stmt.tokens
          obtain heq | heq := hread.row_eq groupFree_standard hscanned
          · rw [heq, List.filter_append, htokens, hrest]
          · rw [heq, List.filter_append, htokens, List.filter_cons_of_neg (by decide), hrest]
        · have hsuffix := standard.rest_entry token rest
          rw [hread.entry] at hsuffix
          exact List.mem_cons_of_mem token (hsuffix.subset ht)
      · rw [entries_cons, hfail.entry] at h
        cases h

end Grammar

/-- **Reading the text of a program again keeps every token exactly if no statement runs into the
next one.**  The program is read from a source text without a diagnostic, and the semicolons of
both texts and the parentheses of the second are left out. -/
theorem retokenize_text_eq_iff (source : String) (h : (parse source).2 = []) :
    (Token.tokenize (parse source).1.text).filter
        (·.kind ∉ [.eof, .semicolon, .lparen, .rparen]) =
      (Token.tokenize source).filter (·.kind ∉ [.eof, .semicolon]) ↔
    (parse source).1.statements.IsChain fun s next => s.glues next = false := by
  have hsource := Grammar.filter_row (fun _ => Token.lexable_of_mem_lex) h
  have htext := Program.filter_lex_text_iff
    fun s (hs : s ∈ (parse source).1.statements) => genuine_of_mem_parse hs
  have heof : [Token.eof].filter (·.kind ∉ [.eof, .semicolon]) = [] := by decide
  have heofText :
      [Token.eof].filter (·.kind ∉ [.eof, .semicolon, .lparen, .rparen]) = [] := by decide
  rw [Token.tokenize, Token.tokenize, List.filter_append, List.filter_append, hsource, heof,
    heofText, List.append_nil, List.append_nil]
  exact htext

/-- An integer does not run into a name, but one name into another, and two of them make a
keyword. -/
theorem retokenize_text_keyword :
    (parse "2 f; -a").2 = [] ∧ (parse "2; i f").2 = [] ∧
    (Token.tokenize (parse "2 f; -a").1.text).filter
        (·.kind ∉ [.eof, .semicolon, .lparen, .rparen]) =
      (Token.tokenize "2 f; -a").filter (·.kind ∉ [.eof, .semicolon]) ∧
    (Token.tokenize (parse "2; i f").1.text).filter
        (·.kind ∉ [.eof, .semicolon, .lparen, .rparen]) ≠
      (Token.tokenize "2; i f").filter (·.kind ∉ [.eof, .semicolon]) :=
  have h := by decide +kernel
  have h' := by decide +kernel
  ⟨h, h', (retokenize_text_eq_iff _ h).mpr (by decide +kernel),
    mt (retokenize_text_eq_iff _ h').mp (by decide +kernel)⟩

end Monkey
