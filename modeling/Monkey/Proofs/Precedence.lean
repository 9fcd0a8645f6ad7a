import Monkey.Proofs.Standard

/-!
# Trees that are read back from their tokens

Parentheses leave no node, so a row of tokens can stand for one tree only: the one in which the
operators are ordered by their powers.

* `Expr.WellFormed` says that each token of a tree is of a kind that its place asks for.
* `Expr.Ordered` says that the operators are where their powers put them.
* `Expr.Canonical` puts the two together for the standard grammar.

The tokens of a canonical tree are read as this tree, in front of anything but an operator
(`Expr.Canonical.reads`).  The induction carries more (`reads_of_ordered`): behind a part of a tree
an outer operator may follow, which no inner reading takes for its own.
-/

namespace Monkey

/-! ### The shape of a tree -/

/-- A name is made of a token for names and stands for its text. -/
def Ident.WellFormed (name : Ident) : Prop :=
  name.token.kind = .ident ∧ name.value = name.token.literal

instance (name : Ident) : Decidable name.WellFormed :=
  inferInstanceAs (Decidable (_ ∧ _))

namespace Expr

variable {g : Grammar} {e : Expr}

/-- Names, integers, signs and operators are made of tokens for them, and an integer has the value
of its text, which is within the limit. -/
def WellFormed : Expr → Prop
  | ident name => name.WellFormed
  | int token value =>
      token.kind = .int ∧ (Text.intValue? token.literal).map Int.ofNat = some value
  | unary operator operand =>
      (operator.kind = .bang ∨ operator.kind = .minus) ∧ operand.WellFormed
  | binary left operator right =>
      operator.kind ∈ Kind.infixes ∧ left.WellFormed ∧ right.WellFormed

instance decidableWellFormed : (e : Expr) → Decidable e.WellFormed
  | ident name => inferInstanceAs (Decidable name.WellFormed)
  | int _ _ => inferInstanceAs (Decidable (_ ∧ _))
  | unary _ operand =>
      have := decidableWellFormed operand
      inferInstanceAs (Decidable (_ ∧ _))
  | binary left _ right =>
      have := decidableWellFormed left
      have := decidableWellFormed right
      inferInstanceAs (Decidable (_ ∧ _ ∧ _))

/-- The power of the operator at the root of a tree, if it stands between two operands. -/
def rootPower? (g : Grammar) : Expr → Option Power
  | binary _ operator _ => some (g.power operator.kind)
  | _ => none

/-- An operator at the root of the tree binds more tightly than the power. -/
def Above (g : Grammar) (power : Power) (e : Expr) : Prop :=
  ∀ p ∈ e.rootPower? g, power < p

/-- An operator at the root of the tree binds at least as tightly as the power. -/
def AtLeast (g : Grammar) (power : Power) (e : Expr) : Prop :=
  ∀ p ∈ e.rootPower? g, power ≤ p

instance (power : Power) : Decidable (e.Above g power) :=
  inferInstanceAs (Decidable (∀ p ∈ e.rootPower? g, power < p))

instance (power : Power) : Decidable (e.AtLeast g power) :=
  inferInstanceAs (Decidable (∀ p ∈ e.rootPower? g, power ≤ p))

/-- No part of a tree needs parentheses: what an operator or a sign holds is held together more
tightly, and the left operand of an operator at least as tightly. -/
def Ordered (g : Grammar) : Expr → Prop
  | ident _ => True
  | int _ _ => True
  | unary _ operand => operand.Above g .unary ∧ operand.Ordered g
  | binary left operator right =>
      left.AtLeast g (g.power operator.kind) ∧ right.Above g (g.power operator.kind) ∧
        left.Ordered g ∧ right.Ordered g

instance decidableOrdered : (e : Expr) → Decidable (e.Ordered g)
  | ident _ => .isTrue trivial
  | int _ _ => .isTrue trivial
  | unary _ operand =>
      have := decidableOrdered operand
      inferInstanceAs (Decidable (_ ∧ _))
  | binary left _ right =>
      have := decidableOrdered left
      have := decidableOrdered right
      inferInstanceAs (Decidable (_ ∧ _ ∧ _ ∧ _))

/-- A tree of the language that can be written without parentheses. -/
structure Canonical (e : Expr) : Prop where
  wellFormed : e.WellFormed
  ordered : e.Ordered .standard

instance (e : Expr) : Decidable e.Canonical :=
  decidable_of_iff (e.WellFormed ∧ e.Ordered .standard)
    ⟨fun h => ⟨h.1, h.2⟩, fun h => ⟨h.wellFormed, h.ordered⟩⟩

/-- The last token of a tree. -/
def last : Expr → Token
  | ident name => name.token
  | int token _ => token
  | unary _ operand => operand.last
  | binary _ _ right => right.last

/-- An operand of a sign in the standard grammar has no operator at its root. -/
theorem above_unary_standard_iff : e.Above .standard .unary ↔ e.rootPower? .standard = none := by
  cases e with
  | binary left operator right =>
      have hpower := le_of_lt (Grammar.power_lt_unary operator.kind)
      simp [Above, rootPower?, hpower]
  | ident | int | unary => simp [Above, rootPower?]

theorem WellFormed.above_lowest (h : e.WellFormed) : e.Above .standard .lowest := by
  cases e with
  | binary left operator right =>
      have hpower := (Grammar.power_of_mem_infixes operator.kind h.1).1
      simp [Above, rootPower?, hpower]
  | ident | int | unary => simp [Above, rootPower?]

theorem WellFormed.tokens_eq_cons (h : e.WellFormed) :
    ∃ token more rule, e.tokens = token :: more ∧
      Grammar.standard.operand token.kind = some rule := by
  induction e with
  | ident name => exact ⟨name.token, [], .primary, rfl, Grammar.operand_of_leaf (.inl h.1)⟩
  | int token value => exact ⟨token, [], .primary, rfl, Grammar.operand_of_leaf (.inr h.1)⟩
  | unary operator operand =>
      exact ⟨operator, operand.tokens, .unaryRun, rfl, Grammar.operand_of_sign h.1⟩
  | binary left operator right ihleft =>
      obtain ⟨token, more, rule, htokens, hrule⟩ := ihleft h.2.1
      exact ⟨token, more ++ operator :: right.tokens, rule, by rw [tokens, htokens]; rfl, hrule⟩

end Expr

namespace Grammar

variable {row rest after : List Token} {power : Power} {e tree : Expr}

/-! ### Operands -/

theorem reads_operators_unary (e : Expr) (row : List Token) :
    Reads standard (.operators e .unary) row e row := by
  cases row with
  | nil => exact .operatorsNil
  | cons token row => exact .operatorsStop (nextOperator?_unary (token :: row))

/-- **A sign in front of an operand** makes an operand with it, although a run of signs is read at
once. -/
theorem Reads.sign {token : Token} (hsign : token.kind = .bang ∨ token.kind = .minus)
    (h : Reads standard .operand row e rest) :
    Reads standard .operand (token :: row) (.unary token e) rest := by
  refine .operand (operand_of_sign hsign) ?_
  cases h with
  | @operand first row _ rule _ hfirst hread =>
      obtain ⟨rfl, hkind⟩ | ⟨rfl, hkind⟩ := operand_standard_cases hfirst
      · have hends : ¬ first.isUnarySign = true := by
          obtain hkind | hkind := hkind
          · simp [Token.isUnarySign, hkind]
          · simp [Token.isUnarySign, hkind]
        have hinner : Reads standard (.expression .unary)
            ((first :: row).dropWhile Token.isUnarySign) e rest := by
          rw [List.dropWhile_cons_of_neg hends]
          exact .expression (.operand hfirst hread) (reads_operators_unary e rest)
        have hrun := @Reads.unaryRun _ token _ _ _ hinner
        rw [List.takeWhile_cons_of_neg hends] at hrun
        exact hrun
      · have hgoesOn : first.isUnarySign = true := Token.isUnarySign_iff.mpr hkind
        cases hread with
        | @unaryRun _ _ _ e hinner =>
            rw [← List.dropWhile_cons_of_pos hgoesOn] at hinner
            have hrun := @Reads.unaryRun _ token _ _ _ hinner
            rw [List.takeWhile_cons_of_pos hgoesOn] at hrun
            exact hrun

/-- A tree without an operator at its root is read as an operand, whatever follows. -/
theorem reads_operand (h : e.Canonical) (hroot : e.rootPower? standard = none)
    (after : List Token) : Reads standard .operand (e.tokens ++ after) e (e.last :: after) := by
  obtain ⟨hwell, hordered⟩ := h
  induction e with
  | ident name =>
      obtain ⟨token, value⟩ := name
      obtain ⟨hkind, rfl⟩ : token.kind = .ident ∧ value = token.literal := hwell
      exact .operand (operand_of_leaf (.inl hkind)) (.name hkind)
  | int token value =>
      obtain ⟨hkind, hvalue⟩ := hwell
      obtain ⟨n, hn, rfl⟩ := Option.map_eq_some_iff.mp hvalue
      exact .operand (operand_of_leaf (.inr hkind)) (.integer hkind hn)
  | unary operator operand ih =>
      obtain ⟨hsign, hoperand⟩ := hwell
      obtain ⟨habove, hordered⟩ := hordered
      exact .sign hsign (ih (Expr.above_unary_standard_iff.mp habove) hoperand hordered)
  | binary => cases hroot

/-! ### Expressions -/

/-- **A tree is read up to its end and handed over there.**  The tree is read in a place where
operators have to bind more tightly than the power, as that at its root does, and what follows the
tree binds no more tightly than the root.  Then reading at this place goes on behind the tree with
the whole tree as the left operand. -/
theorem reads_of_ordered (hwell : e.WellFormed) (hordered : e.Ordered standard)
    (habove : e.Above standard power)
    (hafter : e.AtLeast standard (standard.power (Token.current after).kind))
    (hgo : Reads standard (.operators e power) (e.last :: after) tree rest) :
    Reads standard (.expression power) (e.tokens ++ after) tree rest := by
  induction e generalizing power after tree rest with
  | ident | int | unary => exact .expression (reads_operand ⟨hwell, hordered⟩ rfl after) hgo
  | binary left operator right ihleft ihright =>
      obtain ⟨hinfixes, hwellLeft, hwellRight⟩ := hwell
      obtain ⟨hleft, hright, horderedLeft, horderedRight⟩ := hordered
      have hpower : power < standard.power operator.kind := habove _ rfl
      have hnext : standard.power (Token.current after).kind ≤ standard.power operator.kind :=
        hafter _ rfl
      have hends : Reads standard (.expression (standard.power operator.kind))
          (right.tokens ++ after) right (right.last :: after) := by
        refine ihright hwellRight horderedRight hright ?_ ?_
        · intro p hp
          exact le_of_lt (lt_of_le_of_lt hnext (hright p hp))
        · exact .operatorsStop (nextOperator?_eq_none_iff.mpr (.inr hnext))
      have hhanded : Reads standard (.operators left power)
          (left.last :: operator :: (right.tokens ++ after)) tree rest :=
        .operatorsStep (nextOperator?_of_mem_infixes hinfixes hpower) (.rightOperand hends) hgo
      have habove : left.Above standard power := fun p hp => lt_of_lt_of_le hpower (hleft p hp)
      rw [Expr.tokens, List.append_assoc, List.cons_append]
      exact ihleft hwellLeft horderedLeft habove hleft hhanded

end Grammar

/-- **A canonical tree is read back from its tokens**, in front of anything but an operator. -/
theorem Expr.Canonical.reads {e : Expr} (h : e.Canonical) {after : List Token}
    (hafter : (Token.current after).kind ∉ Kind.infixes) :
    Grammar.Reads .standard (.expression .lowest) (e.tokens ++ after) e (e.last :: after) := by
  have hlowest := Grammar.power_of_not_mem_infixes hafter
  refine Grammar.reads_of_ordered h.wellFormed h.ordered h.wellFormed.above_lowest ?_ ?_
  · intro p _
    rw [hlowest]
    exact p.lowest_le
  · exact .operatorsStop (Grammar.nextOperator?_eq_none_iff.mpr (.inr (le_of_eq hlowest)))

end Monkey
