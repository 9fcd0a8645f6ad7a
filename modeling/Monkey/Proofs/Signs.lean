import Mathlib.Data.List.TakeWhile
import Monkey.Proofs.Extent

/-!
# Which signs there are in a tree

The table of operands says which kinds of tokens are signs.  It is asked for the rule of a token
where an operand starts: at the front of an expression and behind an operator.  Behind a sign the
rule for runs passes over all tokens `!` and `-` without asking, so that these two are signs there
whatever the table says about them.

`Grammar.Reads.goal_signed` keeps account of the two cases along a reading.  From it follows what
signs the tree of an expression has (`Lookups.sign_of_mem_preorder`): each has the rule for runs, or
is `!` or `-` and stands right behind another sign.  That the second case comes up is shown by
`Lookups.sign_without_rule`.
-/

namespace Monkey

namespace Grammar

/-- Tokens of the kind are signs by the table. -/
def IsSign (g : Grammar) (kind : Kind) : Prop :=
  g.operand kind = some .unaryRun ∨ g.operand kind = some .unaryOnce

end Grammar

namespace Expr

/-- Every sign in the tree is one by the table, or is `!` or `-` and stands right behind another
sign.  The flag says whether the tree itself stands behind a sign. -/
def Signed (g : Grammar) : Expr → Bool → Prop
  | ident _, _ => True
  | int _ _, _ => True
  | unary operator operand, behind =>
      (g.IsSign operator.kind ∨ (behind = true ∧ operator.isUnarySign = true)) ∧
        operand.Signed g true
  | binary left _ right, _ => left.Signed g false ∧ right.Signed g false

variable {g : Grammar} {e : Expr}

theorem Signed.behind (h : e.Signed g false) : e.Signed g true := by
  cases e with
  | ident name => trivial
  | int token value => trivial
  | unary operator operand =>
      obtain ⟨hsign | ⟨hflag, -⟩, hoperand⟩ := h
      · exact ⟨.inl hsign, hoperand⟩
      · cases hflag
  | binary left operator right => exact h

theorem signed_underAll {operators : List Token}
    (hoperators : ∀ operator ∈ operators, operator.isUnarySign = true) (h : e.Signed g true) :
    (underAll operators e).Signed g true := by
  induction operators with
  | nil => exact h
  | cons operator operators ih =>
      obtain ⟨hoperator, hrest⟩ := List.forall_mem_cons.mp hoperators
      exact ⟨.inr ⟨rfl, hoperator⟩, ih hrest⟩

/-- A sign in the tree is one by the table, or is `!` or `-` and has a sign in front of it, in the
tree or in front of the tree. -/
theorem Signed.of_mem_preorder {behind : Bool} (h : e.Signed g behind) {operator : Token}
    {operand : Expr} (hmem : unary operator operand ∈ e.preorder) :
    g.IsSign operator.kind ∨ (operator.isUnarySign = true ∧
      ((behind = true ∧ e = unary operator operand) ∨
        ∃ outer, unary outer (unary operator operand) ∈ e.preorder)) := by
  induction e generalizing behind with
  | ident name => simp [preorder] at hmem
  | int token value => simp [preorder] at hmem
  | unary first body ih =>
      obtain ⟨hfirst, hbody⟩ := h
      obtain heq | hmem := List.mem_cons.mp hmem
      · injection heq with hoperator hoperand
        subst hoperator hoperand
        obtain hsign | ⟨hflag, hsign⟩ := hfirst
        · exact .inl hsign
        · exact .inr ⟨hsign, .inl ⟨hflag, rfl⟩⟩
      · obtain hsign | ⟨hsign, ⟨-, rfl⟩ | ⟨outer, houter⟩⟩ := ih hbody hmem
        · exact .inl hsign
        · exact .inr ⟨hsign, .inr ⟨first, List.mem_cons_self⟩⟩
        · exact .inr ⟨hsign, .inr ⟨outer, List.mem_cons_of_mem _ houter⟩⟩
  | binary left token right ihleft ihright =>
      obtain ⟨hleft, hright⟩ := h
      obtain heq | hmem := List.mem_cons.mp hmem
      · cases heq
      · obtain hmem | hmem := List.mem_append.mp hmem
        · obtain hsign | ⟨hsign, ⟨hflag, -⟩ | ⟨outer, houter⟩⟩ := ihleft hleft hmem
          · exact .inl hsign
          · cases hflag
          · exact .inr
              ⟨hsign, .inr ⟨outer, List.mem_cons_of_mem _ (List.mem_append_left _ houter)⟩⟩
        · obtain hsign | ⟨hsign, ⟨hflag, -⟩ | ⟨outer, houter⟩⟩ := ihright hright hmem
          · exact .inl hsign
          · cases hflag
          · exact .inr
              ⟨hsign, .inr ⟨outer, List.mem_cons_of_mem _ (List.mem_append_right _ houter)⟩⟩

end Expr

/-! ### Readings -/

namespace Grammar

variable {g : Grammar} {goal : Goal} {row rest : List Token} {e : Expr}

/-- An operand is read by the rule of the token it starts with. -/
def Goal.ByTable (g : Grammar) : Goal → List Token → Prop
  | operandBy rule, row => g.operand (Token.current row).kind = some rule
  | _, _ => True

/-- What is known of the tree of a goal, given the same of the left operand. -/
def Goal.Signed (g : Grammar) : Goal → Expr → Prop
  | rightOperand left _, e => left.Signed g false → e.Signed g false
  | operators left _, e => left.Signed g false → e.Signed g false
  | _, e => e.Signed g false

/-- **Every reading yields a tree whose signs are those of the table**, apart from the tokens `!`
and `-` that a run of signs goes on with. -/
theorem Reads.goal_signed (h : Reads g goal row e rest) (hgoal : goal.ByTable g row) :
    goal.Signed g e := by
  induction h with
  | expression _ _ ih₁ ih₂ => exact ih₂ trivial (ih₁ trivial)
  | operand hrule _ ih => exact ih hrule
  | name => trivial
  | integer => trivial
  | @unaryRun token rest after e _ ih =>
      have hoperand : e.Signed g false := ih trivial
      have hsigns : ∀ operator ∈ rest.takeWhile Token.isUnarySign, operator.isUnarySign = true :=
        fun operator hoperator => List.mem_takeWhile_imp hoperator
      exact ⟨.inl (.inl hgoal), Expr.signed_underAll hsigns hoperand.behind⟩
  | @unaryOnce token rest after e _ ih =>
      have hoperand : e.Signed g false := ih trivial
      exact ⟨.inl (.inr hgoal), hoperand.behind⟩
  | group _ _ ih => exact ih trivial
  | @rightOperand left right power operator rest after _ ih =>
      intro hleft
      exact ⟨hleft, ih trivial⟩
  | operatorsNil => exact id
  | operatorsStop => exact id
  | operatorsStep _ _ _ ih₁ ih₂ =>
      intro hleft
      exact ih₂ trivial (ih₁ trivial hleft)

theorem Registered.operand_eq_of_isSign (hg : g.Registered) {kind : Kind} (h : g.IsSign kind) :
    g.operand kind = some .unaryRun := by
  obtain hrun | honce := h
  · exact hrun
  · obtain hrule | ⟨hrule, -⟩ := hg.operand_cases honce
    · cases hrule
    · cases hrule

end Grammar

/-! ### Tables -/

namespace Lookups

/-- **The table of operands governs all signs but those behind another sign**, in all tables that
are reached by registering rules and from every place in every text: a sign in the tree of an
expression has the rule for runs, or is `!` or `-` and the operand of another sign.  If `!` and `-`
have the rule for runs, so has every sign. -/
theorem sign_of_mem_preorder {t : Lookups} (ht : t.Registered) {cursor : Cursor} {n : Nat}
    {power : Power} {e : Expr} {after : Window}
    (h : Pull.Ends (t.read · (.expression power)) ((Window.ofCursor cursor).skip n) (.ok e) after)
    {operator : Token} {operand : Expr} (hmem : .unary operator operand ∈ e.preorder) :
    (t.operand operator.kind = some .unaryRun ∨
      ((operator.kind = .bang ∨ operator.kind = .minus) ∧
        ∃ outer, .unary outer (.unary operator operand) ∈ e.preorder)) ∧
    (t.operand .bang = some .unaryRun → t.operand .minus = some .unaryRun →
      t.operand operator.kind = some .unaryRun) := by
  have hg := ht.toGrammar
  simp only [read_eq] at h
  obtain ⟨rest, hreads, -⟩ := Pull.exists_reads_of_ends hg.stops h
  have hsigned : e.Signed t.toGrammar false := hreads.goal_signed trivial
  have hcases : t.operand operator.kind = some .unaryRun ∨
      ((operator.kind = .bang ∨ operator.kind = .minus) ∧
        ∃ outer, .unary outer (.unary operator operand) ∈ e.preorder) := by
    obtain hsign | ⟨hsign, ⟨hflag, -⟩ | houter⟩ := hsigned.of_mem_preorder hmem
    · exact .inl (hg.operand_eq_of_isSign hsign)
    · cases hflag
    · exact .inr ⟨Token.isUnarySign_iff.mp hsign, houter⟩
  refine ⟨hcases, ?_⟩
  intro hbang hminus
  obtain hrule | ⟨hkind | hkind, -⟩ := hcases
  · exact hrule
  · rw [hkind, hbang]
  · rw [hkind, hminus]

/-- The sign of assignment as a sign, in front of a run. -/
theorem sign_of_mem_preorder_assign :
    let t := empty.withStandard.setOperand .assign .unaryRun
    let cursor := Cursor.ofSource "return a + =!-b * c"
    let operand : Expr := .unary ⟨.bang, "!"⟩ (.unary ⟨.minus, "-"⟩ (.ident ⟨⟨.ident, "b"⟩, "b"⟩))
    t.Registered ∧ ∃ (e : Expr) (after : Window),
      Pull.Ends (t.read · (.expression .lowest)) ((Window.ofCursor cursor).skip 1) (.ok e) after ∧
      .unary ⟨.assign, "="⟩ operand ∈ e.preorder ∧ t.operand .assign = some .unaryRun := by
  intro t cursor operand
  have ht : t.Registered := (Registered.standard .empty).unaryRun .assign nofun
  let e : Expr := .binary (.ident ⟨⟨.ident, "a"⟩, "a"⟩) ⟨.plus, "+"⟩
    (.binary (.unary ⟨.assign, "="⟩ operand) ⟨.asterisk, "*"⟩ (.ident ⟨⟨.ident, "c"⟩, "c"⟩))
  have hread : (t.toGrammar.read (.expression .lowest) (cursor.tokens.drop 1)).result = .ok e := by
    decide +kernel
  have hends := ht.ends_read cursor 1 .lowest
  simp only [hread] at hends
  have hmem : .unary ⟨.assign, "="⟩ operand ∈ e.preorder := by decide
  exact ⟨ht, e, _, hends, hmem, (sign_of_mem_preorder ht hends hmem).2 rfl rfl⟩

/-- **Behind a sign the table is not asked**: with the rule for names and integers registered for
`!`, no expression starts with `!`, and yet `!` is a sign in the tree of `-!x`. -/
theorem sign_without_rule :
    let t := empty.withStandard.setOperand .bang .primary
    let w := Window.ofCursor (.ofSource "-!x")
    let operand : Expr := .unary ⟨.bang, "!"⟩ (.ident ⟨⟨.ident, "x"⟩, "x"⟩)
    t.Registered ∧ t.operand .bang = some .primary ∧
    (∃ after, Pull.Ends (t.read · (.expression .lowest)) w.advance
      (.error ⟨.noPrefixRule .bang, "!"⟩) after) ∧
    ∃ after,
      Pull.Ends (t.read · (.expression .lowest)) w (.ok (.unary ⟨.minus, "-"⟩ operand)) after ∧
      operand ∈ (Expr.unary ⟨.minus, "-"⟩ operand).preorder := by
  intro t w operand
  have ht : t.Registered := (Registered.standard .empty).primary .bang
  have hread : (t.toGrammar.read (.expression .lowest)
      ((Cursor.ofSource "-!x").tokens.drop 0)).result = .ok (.unary ⟨.minus, "-"⟩ operand) := by
    decide +kernel
  have hfail : (t.toGrammar.read (.expression .lowest)
      ((Cursor.ofSource "-!x").tokens.drop 1)).result = .error ⟨.noPrefixRule .bang, "!"⟩ := by
    decide +kernel
  have hends := ht.ends_read (.ofSource "-!x") 0 .lowest
  have hstart := ht.ends_read (.ofSource "-!x") 1 .lowest
  simp only [hread] at hends
  simp only [hfail] at hstart
  exact ⟨ht, rfl, ⟨_, hstart⟩, _, hends, by decide⟩

end Lookups

end Monkey
