import Monkey.Proofs.Acceptance
import Monkey.Proofs.Rendering

/-!
# The nodes that are read

Every node of a tree that the standard grammar reads is made of tokens of the kinds that its place
asks for (`Reads.wellFormed`), and every statement of a program is genuine, whether or not there is
something wrong with the text around it (`genuine_of_mem_parse`).
-/

namespace Monkey

namespace Token

variable {token : Token} {text : List Char} {tokens : List Token}

theorem Segmented.lexable (h : Segmented text tokens) : ∀ token ∈ tokens, token.Lexable := by
  induction h with
  | nil => exact List.forall_mem_nil _
  | cons _ hlexeme _ ih =>
      exact List.forall_mem_cons.mpr ⟨lexable_iff.mpr (hlexeme.of_not_continues nofun), ih⟩

theorem lexable_of_mem_lex (h : token ∈ lex text) : token.Lexable :=
  (segmented_lex text).lexable token h

theorem Lexable.exists_natValue? (h : token.Lexable) (hkind : token.kind = .int) :
    ∃ n, Text.natValue? token.literal = some n := by
  have hlexeme := lexable_iff.mp h
  cases hlexeme with
  | word _ _ hclass => exact absurd hkind (ne_of_mem_words _ (mem_words_of_classifies hclass)).1
  | number hne hdigits => exact ⟨_, if_pos ⟨hne, List.all_eq_true.mpr hdigits⟩⟩
  | mark hmark => exact absurd hkind (not_mem_words_of_mem_marks _ hmark).2.1
  | eq | notEq | assign | bang | illegal => cases hkind

theorem Lexable.scanned (h : token.Lexable) : token.Scanned := by
  have hlex : lex token.literal.toList = [token] := List.append_cancel_right h.2
  have hmem : token ∈ lex token.literal.toList := by
    rw [hlex]
    exact List.mem_cons_self
  exact scanned_of_mem_lex hmem

end Token

namespace Grammar

variable {goal : Goal} {row rest : List Token} {e : Expr} {s : Stmt}

/-! ### Trees -/

/-- The left operand of the goal, if it has one, is well-formed. -/
def Goal.WellFormed : Goal → Prop
  | rightOperand left _ => left.WellFormed
  | operators left _ => left.WellFormed
  | _ => True

theorem wellFormed_underAll {operators : List Token}
    (hsigns : ∀ operator ∈ operators, operator.kind = .bang ∨ operator.kind = .minus)
    (he : e.WellFormed) : (Expr.underAll operators e).WellFormed := by
  induction operators with
  | nil => exact he
  | cons operator operators ih =>
      obtain ⟨hsign, hsigns⟩ := List.forall_mem_cons.mp hsigns
      exact ⟨hsign, ih hsigns⟩

/-- **Every tree that is read is well-formed.** -/
theorem Reads.wellFormed (h : Reads standard goal row e rest) (hrow : goal.Fits standard row)
    (hgoal : goal.WellFormed) : e.WellFormed := by
  induction h with
  | expression _ _ ih₁ ih₂ => exact ih₂ trivial (ih₁ trivial trivial)
  | operand hrule _ ih => exact ih (fits_operandBy hrule) trivial
  | name hkind => exact ⟨hkind, rfl⟩
  | integer hkind hvalue =>
      refine ⟨hkind, ?_⟩
      rw [hvalue]
      rfl
  | unaryRun _ ih =>
      refine wellFormed_underAll (List.forall_mem_cons.mpr ⟨sign_of_fits hrow, ?_⟩)
        (ih trivial trivial)
      intro operator hoperator
      exact Token.isUnarySign_iff.mp (List.mem_takeWhile_imp hoperator)
  | unaryOnce | group =>
      obtain ⟨hrule, _⟩ | ⟨hrule, _⟩ := operand_standard_cases (operand_of_fits hrow)
      · cases hrule
      · cases hrule
  | rightOperand _ ih => exact ⟨mem_infixes_of_fits hrow, hgoal, ih trivial trivial⟩
  | operatorsNil => exact hgoal
  | operatorsStop => exact hgoal
  | operatorsStep hnext _ _ ih₁ ih₂ => exact ih₂ trivial (ih₁ (fits_rightOperand hnext) hgoal)

/-! ### Statements -/

theorem ReadsStatement.fits (h : ReadsStatement standard (standard.ruleAt row) row s rest) :
    s.Fits := by
  have hrule := ruleAt_standard row
  generalize standard.ruleAt row = rule at h hrule
  cases h with
  | @binding word name sign body after e hname hsign hvalue =>
      have hword : word.kind = .letKw := by simpa using hrule
      exact ⟨hword, ⟨hname, rfl⟩, hvalue.wellFormed trivial trivial⟩
  | @returning _ after e hvalue =>
      have hword : (Token.current row).kind = .returnKw := by simpa using hrule
      exact ⟨hword, hvalue.wellFormed trivial trivial⟩
  | expression hvalue => exact hvalue.wellFormed trivial trivial

/-- **Every statement that is read is genuine** if its tokens are. -/
theorem ReadsStatement.genuine (h : ReadsStatement standard (standard.ruleAt row) row s rest)
    (hrow : ∀ token ∈ row, token.Lexable) : s.Genuine := by
  refine ⟨h.fits, fun token htoken => hrow token ?_⟩
  obtain heq | heq := h.row_eq groupFree_standard fun token htoken => (hrow token htoken).scanned
  · rw [heq]
    exact List.mem_append_left _ htoken
  · rw [heq]
    exact List.mem_append_left _ htoken

end Grammar

/-- **Every statement of a program is genuine**, whatever is wrong with the rest of its text. -/
theorem genuine_of_mem_parse {source : String} {s : Stmt} (hs : s ∈ (parse source).1.statements) :
    s.Genuine := by
  obtain ⟨part, after, hpart, hread⟩ := exists_readsStatement_of_mem_parse hs
  exact hread.genuine fun token htoken => Token.lexable_of_mem_lex (hpart.subset htoken)

end Monkey
