import Monkey.Proofs.Integers
import Monkey.Proofs.Unambiguous

/-!
# What the nodes of a program are made of

Nothing checks the nodes of a tree once they are built: a name is written by its value, an operator
by the text of its token, and trees are compared token by token.  `Stmt.Spelled` says what all of
this relies on, character by character: each name is a word that is not reserved, each integer a row
of digits, each sign and each operator one of the few tokens there are for them, and each statement
comes with the word it starts with, or with the first token of its expression.

Every statement of a program is of this kind, wherever it stands and whatever else is wrong with the
text (`spelled_of_mem_parse`).
-/

namespace Monkey

/-! ### The tokens of nodes -/

namespace Token

def signs : List Token :=
  [⟨.bang, "!"⟩, ⟨.minus, "-"⟩]

def infixes : List Token :=
  [⟨.eq, "=="⟩, ⟨.notEq, "!="⟩, ⟨.lt, "<"⟩, ⟨.gt, ">"⟩, ⟨.plus, "+"⟩, ⟨.minus, "-"⟩,
   ⟨.asterisk, "*"⟩, ⟨.slash, "/"⟩]

/-- The token is a word of letters and underscores that is not reserved. -/
structure Named (token : Token) : Prop where
  kind_eq : token.kind = .ident
  ne_empty : token.literal ≠ ""
  letters : ∀ c ∈ token.literal.toList,
    ('A' ≤ c ∧ c ≤ 'Z') ∨ ('a' ≤ c ∧ c ≤ 'z') ∨ c = '_'
  not_reserved : ∀ entry ∈ reservedWords, entry.1 ≠ token.literal

/-- The token is a row of digits. -/
structure Numbered (token : Token) : Prop where
  kind_eq : token.kind = .int
  ne_empty : token.literal ≠ ""
  digits : ∀ c ∈ token.literal.toList, '0' ≤ c ∧ c ≤ '9'

end Token

/-- The node at the root of a tree is made of a token for it, and a name stands for its text. -/
def Expr.Spelled : Expr → Prop
  | ident name => name.token.Named ∧ name.value = name.token.literal
  | int token _ => token.Numbered
  | unary operator _ => operator ∈ Token.signs
  | binary _ operator _ => operator ∈ Token.infixes

/-- The statement comes with its word or with the first token of its expression, and all of its
nodes are made of tokens for them. -/
def Stmt.Spelled : Stmt → Prop
  | letStmt token name value =>
      token = ⟨.letKw, "let"⟩ ∧ (name.token.Named ∧ name.value = name.token.literal) ∧
        ∀ node ∈ value.preorder, node.Spelled
  | returnStmt token value =>
      token = ⟨.returnKw, "return"⟩ ∧ ∀ node ∈ value.preorder, node.Spelled
  | exprStmt token value =>
      value.tokens.head? = some token ∧ ∀ node ∈ value.preorder, node.Spelled

/-! ### Characters -/

namespace Text

theorem isLetter_iff {c : Char} :
    isLetter c = true ↔ ('A' ≤ c ∧ c ≤ 'Z') ∨ ('a' ≤ c ∧ c ≤ 'z') ∨ c = '_' := by
  have hranges : isLetter c = ((decide ('A' ≤ c ∧ c ≤ 'Z') ||
      (decide ('a' ≤ c) && decide (c ≤ 'z'))) || c == '_') := rfl
  simp only [hranges, Bool.or_eq_true, Bool.and_eq_true, decide_eq_true_eq, beq_iff_eq, or_assoc]

theorem isDigit_iff {c : Char} : c.isDigit = true ↔ '0' ≤ c ∧ c ≤ '9' := by
  have hrange : c.isDigit = (decide ('0' ≤ c) && decide (c ≤ '9')) := rfl
  rw [hrange, Bool.and_eq_true, decide_eq_true_eq, decide_eq_true_eq]

end Text

/-! ### Tokens that can be read -/

namespace Token

variable {token : Token}

theorem Lexable.named (h : token.Lexable) (hkind : token.kind = .ident) : token.Named := by
  have hlexeme := lexable_iff.mp h
  cases hlexeme with
  | @word kind literal _ hne hletters hclass =>
      obtain rfl : kind = .ident := hkind
      obtain hmem | ⟨-, hreserved⟩ := hclass
      · have hspelling : Kind.spelling? .ident = some literal :=
          spelling_of_mem_reservedWords _ hmem
        cases hspelling
      · refine ⟨rfl, ?_, fun c hc => Text.isLetter_iff.mp (hletters c hc), hreserved⟩
        rintro rfl
        exact hne rfl
  | @mark c kind _ hmark =>
      obtain rfl : kind = .ident := hkind
      have hword : Kind.ident ∈ Kind.words := by decide
      exact absurd hword (not_mem_words_of_mem_marks _ hmark).1
  | number | eq | notEq | assign | bang | illegal => cases hkind

theorem Lexable.numbered (h : token.Lexable) (hkind : token.kind = .int) : token.Numbered := by
  obtain ⟨n, hn⟩ := h.exists_natValue? hkind
  obtain ⟨hne, hdigits, -⟩ := Text.natValue?_eq_some_iff.mp hn
  refine ⟨hkind, fun hempty => hne ?_, fun c hc => Text.isDigit_iff.mp (hdigits c hc)⟩
  rw [hempty]
  rfl

theorem Lexable.mem_signs (h : token.Lexable) (hkind : token.kind = .bang ∨ token.kind = .minus) :
    token ∈ signs := by
  obtain hkind | hkind := hkind
  · rw [h.scanned.eq_of_spelling hkind rfl]
    decide
  · rw [h.scanned.eq_of_spelling hkind rfl]
    decide

theorem spelled_mem_infixes :
    ∀ kind ∈ Kind.infixes, ∃ text, kind.spelling? = some text ∧ ⟨kind, text⟩ ∈ infixes := by
  decide

theorem Lexable.mem_infixes (h : token.Lexable) (hkind : token.kind ∈ Kind.infixes) :
    token ∈ infixes := by
  obtain ⟨text, htext, hmem⟩ := spelled_mem_infixes token.kind hkind
  rw [h.scanned.eq_of_spelling rfl htext]
  exact hmem

end Token

/-! ### Trees and statements -/

namespace Expr

variable {e node : Expr}

theorem token_mem_tokens (e : Expr) : e.token ∈ e.tokens := by
  cases e with
  | ident | int | unary => exact List.mem_cons_self
  | binary => exact List.mem_append_right _ List.mem_cons_self

theorem Genuine.of_mem_preorder (h : e.Genuine) (hnode : node ∈ e.preorder) : node.Genuine := by
  induction e with
  | ident | int =>
      rw [List.mem_singleton.mp hnode]
      exact h
  | unary operator operand ih =>
      obtain rfl | hnode := List.mem_cons.mp hnode
      · exact h
      · exact ih h.operand hnode
  | binary left operator right ihleft ihright =>
      obtain rfl | hnode := List.mem_cons.mp hnode
      · exact h
      · obtain hnode | hnode := List.mem_append.mp hnode
        · exact ihleft h.left hnode
        · exact ihright h.right hnode

/-- The root of a genuine tree is made of a token for it. -/
theorem Genuine.spelled (h : e.Genuine) : e.Spelled := by
  have hlexable := h.lexable e.token e.token_mem_tokens
  cases e with
  | ident name =>
      obtain ⟨hkind, hvalue⟩ : name.WellFormed := h.wellFormed
      exact ⟨hlexable.named hkind, hvalue⟩
  | int token value => exact hlexable.numbered h.wellFormed.1
  | unary operator operand => exact hlexable.mem_signs h.wellFormed.1
  | binary left operator right => exact hlexable.mem_infixes h.wellFormed.1

end Expr

theorem Stmt.Genuine.spelled {s : Stmt} (h : s.Genuine) (hhead : s.Headed) : s.Spelled := by
  have hnodes : ∀ node ∈ s.value.preorder, node.Spelled :=
    fun node hnode => (h.value.of_mem_preorder hnode).spelled
  cases s with
  | letStmt token name value =>
      obtain ⟨hword, ⟨hkind, hvalue⟩, -⟩ := h.fits
      have hname : name.token.Lexable := h.lexable name.token (by simp [Stmt.tokens])
      have htoken : token.Scanned := (h.lexable token List.mem_cons_self).scanned
      exact ⟨htoken.eq_of_spelling hword rfl, ⟨hname.named hkind, hvalue⟩, hnodes⟩
  | returnStmt token value =>
      have htoken : token.Scanned := (h.lexable token List.mem_cons_self).scanned
      exact ⟨htoken.eq_of_spelling h.fits.1 rfl, hnodes⟩
  | exprStmt token value => exact ⟨hhead, hnodes⟩

/-- **Every node of a program is made of a token for it.**  Whatever the text is and whatever is
wrong with it: a binding comes with the word `let` and a name, a return with the word `return`, and
an expression alone with its first token; every name in them is a word of letters and underscores
that is not reserved, and stands for itself; every integer is a row of digits; every sign is `!` or
`-`; and every operator is one of the eight that stand between two operands. -/
theorem spelled_of_mem_parse {source : String} {s : Stmt} (hs : s ∈ (parse source).1.statements) :
    s.Spelled :=
  (genuine_of_mem_parse hs).spelled (headed_of_mem_parse hs)

/-- The last statement of a text in which others cannot be read. -/
theorem spelled_of_mem_parse_faulty :
    let e : Expr := .binary (.unary ⟨.bang, "!"⟩ (.ident ⟨⟨.ident, "fnx"⟩, "fnx"⟩)) ⟨.notEq, "!="⟩
      (.int ⟨.int, "007"⟩ 7)
    let source := "let let = 1; return a_; @; !fnx!=007"
    .exprStmt ⟨.bang, "!"⟩ e ∈ (parse source).1.statements ∧ (parse source).2 ≠ [] ∧
      (Stmt.exprStmt ⟨.bang, "!"⟩ e).Spelled := by
  intro e source
  have hs : .exprStmt ⟨.bang, "!"⟩ e ∈ (parse source).1.statements := by decide +kernel
  have hfaulty : (parse source).2 ≠ [] := by decide +kernel
  exact ⟨hs, hfaulty, spelled_of_mem_parse hs⟩

end Monkey
