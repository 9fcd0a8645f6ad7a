import Monkey.Proofs.Layout
import Monkey.Proofs.Precedence
import Monkey.Proofs.Yield

/-!
# The tokens of a text that was written for a program

The text of a tree puts every operator with its operands in parentheses, and the text of a program
puts its statements one right after another.  `Expr.textTokens` and `Stmt.textTokens` list the
tokens that are written down.  They are the tokens of the text as it is read, except where the name
or the integer that a statement consists of runs into the statement behind it (`Stmt.glues`):
`lex_text` says so for a whole program.

Inside a statement nothing runs into what follows it.  A sign stands in front of a name, an integer
or a parenthesis, and everything else in front of a blank, a parenthesis or a semicolon.
-/

namespace Monkey

namespace Token

variable {token : Token} {rest : List Char}

def lparen : Token := ⟨.lparen, "("⟩

def rparen : Token := ⟨.rparen, ")"⟩

theorem lexeme_lparen (rest : List Char) : lparen.Lexeme rest :=
  .mark (c := '(') (by decide)

theorem lexeme_rparen (rest : List Char) : rparen.Lexeme rest :=
  .mark (c := ')') (by decide)

theorem lexeme_semicolon (rest : List Char) : semicolon.Lexeme rest :=
  .mark (c := ';') (by decide)

theorem breaks_rparen : Breaks ')' :=
  ⟨by decide, by decide, by decide⟩

theorem breaks_semicolon : Breaks ';' :=
  ⟨by decide, by decide, by decide⟩

theorem breaks_space : Breaks ' ' :=
  breaks_of_isBlank rfl

theorem Lexable.lexeme_space (h : token.Lexable) (rest : List Char) :
    token.Lexeme (' ' :: rest) :=
  (lexable_iff.mp h).of_breaks breaks_space

theorem Lexeme.lex_append (h : token.Lexeme rest) :
    lex (token.literal.toList ++ rest) = token :: lex rest :=
  (lex_literal_append_iff h (List.forall_mem_nil _ : Text.Blank [])).mpr ⟨h, rfl⟩

theorem lex_space_cons (rest : List Char) : lex (' ' :: rest) = lex rest := by
  have hread : read? (' ' :: rest) = read? rest := by
    rw [read?, read?, List.dropWhile_cons_of_pos (by decide)]
  cases h : read? rest with
  | none => rw [lex_of_read?_eq_none h, lex_of_read?_eq_none (hread.trans h)]
  | some p => rw [lex_of_read?_eq_some h, lex_of_read?_eq_some (hread.trans h)]

end Token

/-! ### Trees -/

namespace Expr

variable {e : Expr} {rest : List Char}

/-- The tokens that are written down for a tree. -/
def textTokens : Expr → List Token
  | ident name => [name.token]
  | int token _ => [token]
  | unary operator operand =>
      Token.lparen :: operator :: (operand.textTokens ++ [Token.rparen])
  | binary left operator right =>
      Token.lparen :: (left.textTokens ++ operator :: (right.textTokens ++ [Token.rparen]))

/-- The token that the text of a tree starts or ends with, if the parenthesis given stands there
around operators. -/
def edge (paren : Token) : Expr → Token
  | ident name => name.token
  | int token _ => token
  | unary _ _ => paren
  | binary _ _ _ => paren

/-- The kind of the token that the text of a tree starts or ends with. -/
def edgeKind (paren : Kind) : Expr → Kind
  | ident _ => .ident
  | int _ _ => .int
  | unary _ _ => paren
  | binary _ _ _ => paren

theorem edgeKind_cases (paren : Kind) (e : Expr) :
    e.edgeKind paren = .ident ∨ e.edgeKind paren = .int ∨ e.edgeKind paren = paren := by
  cases e with
  | ident => exact .inl rfl
  | int => exact .inr (.inl rfl)
  | unary | binary => exact .inr (.inr rfl)

theorem WellFormed.kind_edge (h : e.WellFormed) (paren : Token) :
    (e.edge paren).kind = e.edgeKind paren.kind := by
  cases e with
  | ident => exact h.1
  | int => exact h.1
  | unary | binary => rfl

/-- A tree of the language whose tokens can all be read. -/
structure Genuine (e : Expr) : Prop where
  wellFormed : e.WellFormed
  lexable : ∀ token ∈ e.tokens, token.Lexable

theorem Genuine.operand {operator : Token} {operand : Expr}
    (h : (unary operator operand).Genuine) : operand.Genuine :=
  ⟨h.wellFormed.2, fun token htoken => h.lexable token (List.mem_cons_of_mem operator htoken)⟩

theorem Genuine.left {operator : Token} {left right : Expr}
    (h : (binary left operator right).Genuine) : left.Genuine :=
  ⟨h.wellFormed.2.1, fun token htoken => h.lexable token (List.mem_append_left _ htoken)⟩

theorem Genuine.right {operator : Token} {left right : Expr}
    (h : (binary left operator right).Genuine) : right.Genuine :=
  ⟨h.wellFormed.2.2, fun token htoken =>
    h.lexable token (List.mem_append_right _ (List.mem_cons_of_mem operator htoken))⟩

theorem toList_text_unary (operator : Token) (operand : Expr) :
    (unary operator operand).text.toList =
      Token.lparen.literal.toList ++ (operator.literal.toList ++
        (operand.text.toList ++ Token.rparen.literal.toList)) := by
  simp [text, Token.lparen, Token.rparen]

theorem toList_text_binary (left : Expr) (operator : Token) (right : Expr) :
    (binary left operator right).text.toList =
      Token.lparen.literal.toList ++ (left.text.toList ++ ' ' :: (operator.literal.toList ++
        ' ' :: (right.text.toList ++ Token.rparen.literal.toList))) := by
  simp [text, Token.lparen, Token.rparen]

theorem textTokens_eq_cons (e : Expr) :
    ∃ tokens, e.textTokens = e.edge Token.lparen :: tokens := by
  cases e with
  | ident | int | unary | binary => exact ⟨_, rfl⟩

theorem WellFormed.text_starts (h : e.WellFormed) :
    ∃ cs, e.text.toList = (e.edge Token.lparen).literal.toList ++ cs := by
  cases e with
  | ident name => exact ⟨[], by rw [text, h.2, edge, List.append_nil]⟩
  | int token value => exact ⟨[], by rw [text, edge, List.append_nil]⟩
  | unary operator operand => exact ⟨_, toList_text_unary operator operand⟩
  | binary left operator right => exact ⟨_, toList_text_binary left operator right⟩

theorem Genuine.lexeme_edge (h : e.Genuine) {paren : Token} (hparen : paren.Lexeme []) :
    (e.edge paren).Lexeme [] := by
  cases e with
  | ident name => exact Token.lexable_iff.mp (h.lexable name.token List.mem_cons_self)
  | int token value => exact Token.lexable_iff.mp (h.lexable token List.mem_cons_self)
  | unary | binary => exact hparen

theorem Genuine.lexeme_edge_cons (h : e.Genuine) {c : Char} (hc : Token.Breaks c)
    (rest : List Char) : (e.edge Token.rparen).Lexeme (c :: rest) :=
  (h.lexeme_edge (Token.lexeme_rparen [])).of_breaks hc

theorem Genuine.lexeme_sign {operator : Token} {operand : Expr}
    (h : (unary operator operand).Genuine) (rest : List Char) :
    operator.Lexeme (operand.text.toList ++ rest) := by
  have hoperator := Token.lexable_iff.mp (h.lexable operator List.mem_cons_self)
  have hfirst := h.operand.lexeme_edge (Token.lexeme_lparen [])
  obtain ⟨cs, htext⟩ := h.operand.wellFormed.text_starts
  rw [htext, List.append_assoc, hoperator.append_iff_not_fuses hfirst,
    Token.fuses_iff_kind hoperator hfirst, h.operand.wellFormed.kind_edge]
  obtain hsign | hsign := h.wellFormed.1
  all_goals
    obtain hedge | hedge | hedge := operand.edgeKind_cases .lparen
    all_goals
      rw [hsign, Token.lparen, hedge]
      decide

/-- **The text of a tree has the tokens that were written down for it**, in front of anything that
does not go on with the last of them. -/
theorem Genuine.lex_text_append (h : e.Genuine) (hlast : (e.edge Token.rparen).Lexeme rest) :
    Token.lex (e.text.toList ++ rest) = e.textTokens ++ Token.lex rest := by
  induction e generalizing rest with
  | ident name =>
      obtain ⟨hkind, hvalue⟩ : name.WellFormed := h.wellFormed
      rw [text, hvalue]
      exact Token.Lexeme.lex_append hlast
  | int token value => exact Token.Lexeme.lex_append hlast
  | unary operator operand ih =>
      have hoperand : (operand.edge Token.rparen).Lexeme (Token.rparen.literal.toList ++ rest) :=
        h.operand.lexeme_edge_cons Token.breaks_rparen rest
      rw [toList_text_unary, textTokens]
      simp only [List.append_assoc, List.cons_append, List.nil_append]
      rw [(Token.lexeme_lparen _).lex_append, (h.lexeme_sign _).lex_append,
        ih h.operand hoperand, (Token.lexeme_rparen rest).lex_append]
  | binary left operator right ihleft ihright =>
      have hmem : operator ∈ (binary left operator right).tokens :=
        List.mem_append_right _ List.mem_cons_self
      have hoperator := (h.lexable operator hmem).lexeme_space
      have hleft := h.left.lexeme_edge_cons Token.breaks_space
      have hright : (right.edge Token.rparen).Lexeme (Token.rparen.literal.toList ++ rest) :=
        h.right.lexeme_edge_cons Token.breaks_rparen rest
      rw [toList_text_binary, textTokens]
      simp only [List.append_assoc, List.cons_append, List.nil_append]
      rw [(Token.lexeme_lparen _).lex_append, ihleft h.left (hleft _), Token.lex_space_cons,
        (hoperator _).lex_append, Token.lex_space_cons, ihright h.right hright,
        (Token.lexeme_rparen rest).lex_append]

theorem Genuine.lex_text_append_semicolon (h : e.Genuine) (rest : List Char) :
    Token.lex (e.text.toList ++ (Token.semicolon.literal.toList ++ rest)) =
      e.textTokens ++ Token.semicolon :: Token.lex rest := by
  have hlast : (e.edge Token.rparen).Lexeme (Token.semicolon.literal.toList ++ rest) :=
    h.lexeme_edge_cons Token.breaks_semicolon rest
  rw [h.lex_text_append hlast, (Token.lexeme_semicolon rest).lex_append]

end Expr

/-! ### Statements -/

namespace Stmt

variable {s next : Stmt} {rest : List Char}

/-- The tokens that are written down for a statement. -/
def textTokens : Stmt → List Token
  | letStmt token name value =>
      token :: name.token :: Token.assign :: (value.textTokens ++ [Token.semicolon])
  | returnStmt token value => token :: (value.textTokens ++ [Token.semicolon])
  | exprStmt _ value => value.textTokens

/-- The first token that is written down for a statement. -/
def textFirst : Stmt → Token
  | letStmt token _ _ => token
  | returnStmt token _ => token
  | exprStmt _ value => value.edge Token.lparen

def textLast : Stmt → Token
  | letStmt _ _ _ => Token.semicolon
  | returnStmt _ _ => Token.semicolon
  | exprStmt _ value => value.edge Token.rparen

/-- The kind of the first token that is written down for a statement. -/
def firstKind : Stmt → Kind
  | letStmt _ _ _ => .letKw
  | returnStmt _ _ => .returnKw
  | exprStmt _ value => value.edgeKind .lparen

def lastKind : Stmt → Kind
  | letStmt _ _ _ => .semicolon
  | returnStmt _ _ => .semicolon
  | exprStmt _ value => value.edgeKind .rparen

/-- Each token of the statement is of a kind that its place asks for.  The token that an expression
alone comes with has no place of its own in the text. -/
def Fits : Stmt → Prop
  | letStmt token name value => token.kind = .letKw ∧ name.WellFormed ∧ value.WellFormed
  | returnStmt token value => token.kind = .returnKw ∧ value.WellFormed
  | exprStmt _ value => value.WellFormed

instance (s : Stmt) : Decidable s.Fits :=
  match s with
  | .letStmt .. => inferInstanceAs (Decidable (_ ∧ _ ∧ _))
  | .returnStmt .. => inferInstanceAs (Decidable (_ ∧ _))
  | .exprStmt _ value => inferInstanceAs (Decidable value.WellFormed)

/-- A statement of the language whose tokens can all be read. -/
structure Genuine (s : Stmt) : Prop where
  fits : s.Fits
  lexable : ∀ token ∈ s.tokens, token.Lexable

instance (s : Stmt) : Decidable s.Genuine :=
  decidable_of_iff (s.Fits ∧ ∀ token ∈ s.tokens, token.Lexable)
    ⟨fun h => ⟨h.1, h.2⟩, fun h => ⟨h.fits, h.lexable⟩⟩

/-- The text of the first statement runs into that of the second: a name alone into a word, and an
integer alone into another one. -/
def glues : Stmt → Stmt → Bool
  | exprStmt _ (.ident _), letStmt _ _ _ => true
  | exprStmt _ (.ident _), returnStmt _ _ => true
  | exprStmt _ (.ident _), exprStmt _ (.ident _) => true
  | exprStmt _ (.int _ _), exprStmt _ (.int _ _) => true
  | _, _ => false

theorem Genuine.value (h : s.Genuine) : s.value.Genuine := by
  obtain ⟨hfits, hlexable⟩ := h
  cases s with
  | letStmt token name value =>
      refine ⟨hfits.2.2, fun t ht => hlexable t ?_⟩
      exact List.mem_cons_of_mem _ (List.mem_cons_of_mem _ (List.mem_cons_of_mem _ ht))
  | returnStmt token value =>
      exact ⟨hfits.2, fun t ht => hlexable t (List.mem_cons_of_mem _ ht)⟩
  | exprStmt token value => exact ⟨hfits, hlexable⟩

theorem toList_text_letStmt (token : Token) (name : Ident) (value : Expr) :
    (letStmt token name value).text.toList =
      token.literal.toList ++ ' ' :: (name.value.toList ++ ' ' :: (Token.assign.literal.toList ++
        ' ' :: (value.text.toList ++ Token.semicolon.literal.toList))) := by
  simp [text, Token.assign, Token.semicolon]

theorem toList_text_returnStmt (token : Token) (value : Expr) :
    (returnStmt token value).text.toList =
      token.literal.toList ++ ' ' :: (value.text.toList ++ Token.semicolon.literal.toList) := by
  simp [text, Token.semicolon]

theorem textTokens_eq_cons (s : Stmt) : ∃ tokens, s.textTokens = s.textFirst :: tokens := by
  cases s with
  | letStmt | returnStmt => exact ⟨_, rfl⟩
  | exprStmt token value => exact value.textTokens_eq_cons

theorem Fits.text_starts (h : s.Fits) :
    ∃ cs, s.text.toList = s.textFirst.literal.toList ++ cs := by
  cases s with
  | letStmt token name value => exact ⟨_, toList_text_letStmt token name value⟩
  | returnStmt token value => exact ⟨_, toList_text_returnStmt token value⟩
  | exprStmt token value => exact Expr.WellFormed.text_starts h

theorem Fits.kind_textFirst (h : s.Fits) : s.textFirst.kind = s.firstKind := by
  cases s with
  | letStmt => exact h.1
  | returnStmt => exact h.1
  | exprStmt token value => exact Expr.WellFormed.kind_edge h Token.lparen

theorem Fits.kind_textLast (h : s.Fits) : s.textLast.kind = s.lastKind := by
  cases s with
  | letStmt | returnStmt => rfl
  | exprStmt token value => exact Expr.WellFormed.kind_edge h Token.rparen

theorem Genuine.lexeme_textFirst (h : s.Genuine) : s.textFirst.Lexeme [] := by
  cases s with
  | letStmt token => exact Token.lexable_iff.mp (h.lexable token List.mem_cons_self)
  | returnStmt token => exact Token.lexable_iff.mp (h.lexable token List.mem_cons_self)
  | exprStmt token value => exact h.value.lexeme_edge (Token.lexeme_lparen [])

theorem Genuine.lexeme_textLast (h : s.Genuine) : s.textLast.Lexeme [] := by
  cases s with
  | letStmt | returnStmt => exact Token.lexeme_semicolon []
  | exprStmt token value => exact h.value.lexeme_edge (Token.lexeme_rparen [])

/-- The text of a statement has the tokens that were written down for it, in front of anything that
does not go on with the last of them. -/
theorem Genuine.lex_text_append (h : s.Genuine) (hlast : s.textLast.Lexeme rest) :
    Token.lex (s.text.toList ++ rest) = s.textTokens ++ Token.lex rest := by
  cases s with
  | letStmt token name value =>
      obtain ⟨-, ⟨-, hname⟩, -⟩ := h.fits
      have hvalue : value.Genuine := h.value
      have hword := (h.lexable token (by simp [tokens])).lexeme_space
      have hnameToken := (h.lexable name.token (by simp [tokens])).lexeme_space
      have hassign := (h.lexable Token.assign (by simp [tokens])).lexeme_space
      rw [toList_text_letStmt, hname, textTokens]
      simp only [List.append_assoc, List.cons_append, List.nil_append]
      rw [(hword _).lex_append, Token.lex_space_cons, (hnameToken _).lex_append,
        Token.lex_space_cons, (hassign _).lex_append, Token.lex_space_cons,
        hvalue.lex_text_append_semicolon]
  | returnStmt token value =>
      have hvalue : value.Genuine := h.value
      have hword := (h.lexable token List.mem_cons_self).lexeme_space
      rw [toList_text_returnStmt, textTokens]
      simp only [List.append_assoc, List.cons_append, List.nil_append]
      rw [(hword _).lex_append, Token.lex_space_cons, hvalue.lex_text_append_semicolon]
  | exprStmt token value => exact h.value.lex_text_append hlast

theorem glues_eq_true_iff : s.glues next = true ↔ s.lastKind.Fuses next.firstKind := by
  have hglues : s.glues next = decide (s.lastKind.Fuses next.firstKind) := by
    obtain _ | _ | ⟨_, _ | _ | _ | _⟩ := s <;>
      obtain _ | _ | ⟨_, _ | _ | _ | _⟩ := next <;> rfl
  rw [hglues, decide_eq_true_iff]

theorem Genuine.lexeme_text (h : s.Genuine) (hnext : next.Genuine) (hglues : s.glues next = false)
    (rest : List Char) : s.textLast.Lexeme (next.text.toList ++ rest) := by
  have hfuses := mt glues_eq_true_iff.mpr (Bool.eq_false_iff.mp hglues)
  obtain ⟨cs, htext⟩ := hnext.fits.text_starts
  rw [htext, List.append_assoc, h.lexeme_textLast.append_iff_not_fuses hnext.lexeme_textFirst,
    Token.fuses_iff_kind h.lexeme_textLast hnext.lexeme_textFirst, h.fits.kind_textLast,
    hnext.fits.kind_textFirst]
  exact hfuses

end Stmt

/-! ### Programs -/

namespace Program

variable {s : Stmt} {statements : List Stmt}

theorem toList_text_cons (s : Stmt) (statements : List Stmt) :
    (text ⟨s :: statements⟩).toList = s.text.toList ++ (text ⟨statements⟩).toList := by
  simp [text, String.join_cons]

/-- The last token of a statement may stand in front of the text of the statements behind it. -/
theorem lexeme_text (hs : s.Genuine) (hstatements : ∀ next ∈ statements, next.Genuine)
    (hhead : ∀ next ∈ statements.head?, s.glues next = false) :
    s.textLast.Lexeme (text ⟨statements⟩).toList := by
  cases statements with
  | nil => exact hs.lexeme_textLast
  | cons next statements =>
      have hnext : next.Genuine := hstatements next List.mem_cons_self
      rw [toList_text_cons]
      exact hs.lexeme_text hnext (hhead next rfl) _

/-- **The text of a program has the tokens that were written down for it** if no statement runs into
the next one. -/
theorem lex_text (hstatements : ∀ s ∈ statements, s.Genuine)
    (hchain : statements.IsChain fun s next => s.glues next = false) :
    Token.lex (text ⟨statements⟩).toList = statements.flatMap Stmt.textTokens := by
  induction statements with
  | nil => exact Token.lex_nil
  | cons s statements ih =>
      obtain ⟨hs, hrest⟩ := List.forall_mem_cons.mp hstatements
      obtain ⟨hhead, hchain⟩ := List.isChain_cons.mp hchain
      rw [toList_text_cons, hs.lex_text_append (lexeme_text hs hrest hhead), ih hrest hchain,
        List.flatMap_cons]

end Program

end Monkey
