import Monkey.Lookups
import Monkey.Proofs.Forward
import Monkey.Proofs.Yield

/-!
# How far an expression extends

An expression is read with the tables of a parser.  Tables make up a grammar (`Lookups.toGrammar`),
in which an operator is its power together with its rule, and reading with the tables is reading
with the grammar (`Lookups.read_eq`), whatever the tables are.

Tables that are reached by registering rules (`Lookups.Registered`) have a power for a kind exactly
if they have a rule for it as an operator (`Registered.paired`), so that the loop over operators
never meets a kind that binds tightly and has no rule.  Then an expression is over exactly where it
must be: the tokens from the one it starts at to the one that is current afterwards are those of
its tree, and a semicolon or an operator that binds no more tightly than was asked for comes next
(`Lookups.tokens_eq_of_ends`).
-/

namespace Monkey

namespace Pull

variable {α : Type} {w : Window}

theorem startAt_current_bind (f : Token → Pull α) :
    (moves.current >>= f).startAt w = (f w.current).startAt w :=
  Reader.startAt_bind_ok rfl

theorem startAt_peek_bind (f : Token → Pull α) :
    (moves.peek >>= f).startAt w = (f w.peek).startAt w :=
  Reader.startAt_bind_ok rfl

end Pull

namespace Lookups

/-! ### The grammar of the tables -/

/-- The grammar that the tables make up: an operator is a kind with a rule, with the power that is
looked up for it. -/
def toGrammar (t : Lookups) : Grammar where
  statement := t.statement
  operand := t.operand
  operator kind := (t.operator kind).map fun associativity => ⟨t.powerOf kind, associativity⟩

section Reading

variable (t : Lookups)

theorem operator_toGrammar (kind : Kind) : t.toGrammar.operator kind =
    (t.operator kind).map fun associativity => ⟨t.powerOf kind, associativity⟩ := rfl

theorem operatorAt?_toGrammar (power : Power) (kind : Kind) :
    Pull.operatorAt? t.toGrammar power kind =
      match t.next power kind with
      | .operator associativity => some ⟨t.powerOf kind, associativity⟩
      | _ => none := by
  unfold Pull.operatorAt? next toGrammar
  by_cases hkind : kind = .semicolon
  · simp [hkind]
  · by_cases hpower : power < t.powerOf kind
    · cases hrule : t.operator kind <;> simp [hkind, hpower, hrule]
    · have hle : t.powerOf kind ≤ power := not_lt.mp hpower
      cases hrule : t.operator kind <;> simp [hle, hpower, hrule]

/-- The token that comes next is the current one after moving on, so that its power is the same. -/
theorem takeOperator?_eq (power : Power) :
    takeOperator? Pull.moves (pure t) power = Pull.takeOperator? t.toGrammar power := by
  funext w
  change (takeOperator? Pull.moves (pure t) power).startAt w =
    (Pull.takeOperator? t.toGrammar power).startAt w
  rw [takeOperator?, Pull.takeOperator?, Pull.startAt_peek_bind, Pull.startAt_peek_bind,
    operatorAt?_toGrammar, pure_bind]
  cases t.next power w.peek.kind with
  | stop => rfl
  | unhandled => rfl
  | operator associativity => rfl

theorem statementRule_eq :
    (steps Pull.moves (pure t)).statementRule = (Pull.steps t.toGrammar).statementRule := by
  refine congrArg (Pull.moves.current >>= ·) (funext fun token => ?_)
  rw [show t.toGrammar.statement = t.statement from rfl, pure_bind]
  cases t.statement token.kind <;> rfl

theorem steps_eq : steps Pull.moves (pure t) = Pull.steps t.toGrammar :=
  congr (congr (congr rfl t.statementRule_eq) rfl) (funext t.takeOperator?_eq)

/-- **Reading with the tables is reading with their grammar.** -/
theorem read_eq (depth : Nat) (goal : Grammar.Goal) :
    t.read depth goal = Pull.read t.toGrammar depth goal := by
  rw [read, Pull.read, steps_eq]

end Reading

/-! ### Tables that are reached by registering rules -/

/-- The tables are reached by registering rules of the language.  The end of the tokens is not
registered as a sign. -/
inductive Registered : Lookups → Prop
  | empty : Registered empty
  | statement {t : Lookups} (kind : Kind) (rule : StatementRule) :
      Registered t → Registered (t.setStatement kind rule)
  | primary {t : Lookups} (kind : Kind) : Registered t → Registered (t.setOperand kind .primary)
  | unaryRun {t : Lookups} (kind : Kind) :
      kind ≠ .eof → Registered t → Registered (t.setOperand kind .unaryRun)
  | operator {t : Lookups} (kind : Kind) (power : Power) :
      Registered t → Registered (t.setOperator kind power .left)
  | standard {t : Lookups} : Registered t → Registered t.withStandard

/-- The kinds with a power are those with a rule as an operator. -/
def Paired (t : Lookups) : Prop :=
  ∀ kind, (t.power kind).isSome = (t.operator kind).isSome

variable {t : Lookups}

theorem Paired.setOperator (h : t.Paired) (kind : Kind) (power : Power)
    (associativity : Associativity) : (t.setOperator kind power associativity).Paired := by
  intro k
  simp only [Lookups.setOperator]
  split
  · rfl
  · exact h k

theorem Paired.withStandard (h : t.Paired) : t.withStandard.Paired := by
  have hoperators := h
    |>.setOperator .eq .equals .left |>.setOperator .notEq .equals .left
    |>.setOperator .lt .lessGreater .left |>.setOperator .gt .lessGreater .left
    |>.setOperator .plus .sum .left |>.setOperator .minus .sum .left
    |>.setOperator .asterisk .product .left |>.setOperator .slash .product .left
  exact hoperators

/-- **A kind has a power exactly if it has a rule as an operator**, in all tables that are
reached by registering rules. -/
theorem Registered.paired (h : t.Registered) : t.Paired := by
  induction h with
  | empty => exact fun _ => rfl
  | statement _ _ _ ih => exact ih
  | primary _ _ ih => exact ih
  | unaryRun _ _ _ ih => exact ih
  | operator kind power _ ih => exact ih.setOperator kind power .left
  | standard _ ih => exact ih.withStandard

theorem Paired.power_eq_none (h : t.Paired) {kind : Kind} (hrule : t.operator kind = none) :
    t.power kind = none := by
  have hkind := h kind
  rwa [hrule, Option.isSome_none, Option.isSome_eq_false_iff, Option.isNone_iff_eq_none] at hkind

/-- The loop over operators never meets a kind that binds tightly and has no rule. -/
theorem Paired.next_ne_unhandled (h : t.Paired) (power : Power) (kind : Kind) :
    t.next power kind ≠ .unhandled := by
  intro hnext
  unfold next at hnext
  split at hnext
  · next hlt =>
    cases hrule : t.operator kind with
    | some associativity =>
        rw [hrule] at hnext
        cases hnext
    | none =>
        have hlowest : t.powerOf kind = .lowest := by rw [powerOf, h.power_eq_none hrule]; rfl
        rw [hlowest] at hlt
        exact Nat.not_lt_zero _ hlt.2
  · cases hnext

theorem Paired.power_toGrammar (h : t.Paired) (kind : Kind) :
    t.toGrammar.power kind = t.powerOf kind := by
  rw [Grammar.power, operator_toGrammar]
  cases hrule : t.operator kind with
  | some associativity => rfl
  | none =>
      rw [powerOf, h.power_eq_none hrule]
      rfl

theorem toGrammar_setOperator (t : Lookups) (kind : Kind) (power : Power)
    (associativity : Associativity) :
    (t.setOperator kind power associativity).toGrammar =
      t.toGrammar.setOperator kind ⟨power, associativity⟩ := by
  refine congrArg (Grammar.mk t.statement t.operand) (funext fun k => ?_)
  simp only [Lookups.setOperator, powerOf]
  split <;> rfl

theorem toGrammar_withStandard (t : Lookups) :
    t.withStandard.toGrammar = t.toGrammar.withStandard := by
  have hstatement : t.withStandard.toGrammar.statement = t.toGrammar.withStandard.statement := by
    funext kind
    cases kind <;> rfl
  have hoperand : t.withStandard.toGrammar.operand = t.toGrammar.withStandard.operand := by
    funext kind
    cases kind <;> rfl
  have hoperator : t.withStandard.toGrammar.operator = t.toGrammar.withStandard.operator := by
    funext kind
    cases kind <;> rfl
  exact congr (congr (congrArg Grammar.mk hstatement) hoperand) hoperator

theorem Registered.toGrammar (h : t.Registered) : t.toGrammar.Registered := by
  induction h with
  | empty => exact .empty
  | statement kind rule _ ih => exact ih.statement kind rule
  | primary kind _ ih => exact ih.primary kind
  | unaryRun kind hkind _ ih => exact ih.unaryRun kind hkind
  | operator kind power _ ih =>
      rw [toGrammar_setOperator]
      exact ih.operator kind power
  | standard _ ih =>
      rw [toGrammar_withStandard]
      exact ih.standard

end Lookups

/-! ### The tokens of an expression -/

theorem Grammar.Registered.groupFree {g : Grammar} (h : g.Registered) : g.GroupFree := by
  intro kind hgroup
  obtain hprimary | ⟨hrun, -⟩ := h.operand_cases hgroup
  · cases hprimary
  · cases hrun

namespace Window

/-- The tokens from the current one to the one that is current after moving on, both included. -/
def through (w : Window) : Nat → List Token
  | 0 => [w.current]
  | n + 1 => w.current :: w.advance.through n

theorem Shows.through_eq {w : Window} {row : List Token} (h : w.Shows row) {n : Nat}
    (hn : n < row.length) : w.through n = row.take (n + 1) := by
  induction n generalizing w row with
  | zero =>
      cases row with
      | nil => cases hn
      | cons token rest => rw [through, h.current_eq]; rfl
  | succ n ih =>
      cases row with
      | nil => cases hn
      | cons token rest =>
          have hrest : w.advance.through n = rest.take (n + 1) :=
            ih h.advance (Nat.lt_of_succ_lt_succ hn)
          rw [through, h.current_eq, hrest]
          rfl

end Window

namespace Pull

open Grammar

variable {g : Grammar} {cursor : Cursor} {n : Nat} {power : Power} {e : Expr} {after : Window}

theorem exists_reads_of_ends (hg : g.Stops)
    (h : Ends (read g · (.expression power)) ((Window.ofCursor cursor).skip n) (.ok e) after) :
    ∃ rest, Reads g (.expression power) (cursor.tokens.drop n) e rest ∧
      after = (Window.ofCursor cursor).skip (cursor.tokens.length - rest.length) ∧
      after.Shows rest := by
  obtain ⟨hresult, rfl⟩ := h.unique (ends_expression hg cursor n power)
  have hreads : Reads g (.expression power) (cursor.tokens.drop n) e
      (g.read (.expression power) (cursor.tokens.drop n)).rest := by
    rw [← read_eq_ok_iff, Outcome.ok, hresult]
  have hsuffix := hreads.suffix.trans (List.drop_suffix n cursor.tokens)
  have hshows := Window.shows_skip cursor (cursor.tokens.length -
    (g.read (.expression power) (cursor.tokens.drop n)).rest.length)
  rw [← List.suffix_iff_eq_drop.mp hsuffix] at hshows
  exact ⟨_, hreads, rfl, hshows⟩

/-- **The tokens that an expression moves through are those of its tree.** -/
theorem through_eq_of_ends (hg : g.Stops) (hfree : g.GroupFree)
    (h : Ends (read g · (.expression power)) ((Window.ofCursor cursor).skip n) (.ok e) after) :
    ∃ k, after = ((Window.ofCursor cursor).skip n).skip k ∧
      ((Window.ofCursor cursor).skip n).through k = e.tokens := by
  obtain ⟨rest, hreads, rfl, -⟩ := exists_reads_of_ends hg h
  have hrow := hreads.row_eq hfree
  have hpos := List.length_pos_iff.mpr (hreads.rest_ne_nil trivial)
  have hle := hreads.suffix.length_le
  have hlength : cursor.tokens.length - n = e.tokens.length + (rest.length - 1) := by
    rw [← List.length_drop, hrow, List.length_append, List.length_tail]
  rw [List.length_drop] at hle
  refine ⟨e.tokens.length - 1, ?_, ?_⟩
  · rw [← Window.skip_add]
    congr 1
    omega
  · have hshows := Window.shows_skip cursor n
    rw [hrow] at hshows
    have hlt : e.tokens.length - 1 < (e.tokens ++ rest.tail).length := by
      rw [List.length_append]
      omega
    rw [hshows.through_eq hlt, Nat.sub_add_cancel (by omega), List.take_left]

/-- **An expression stops** in front of a semicolon or of an operator that binds no more tightly
than was asked for. -/
theorem stopped_of_ends (hg : g.Stops)
    (h : Ends (read g · (.expression power)) ((Window.ofCursor cursor).skip n) (.ok e) after) :
    after.peek.kind = .semicolon ∨ g.power after.peek.kind ≤ power := by
  obtain ⟨rest, hreads, -, hshows⟩ := exists_reads_of_ends hg h
  obtain hnil | hnext := hreads.stopped
  · exact absurd hnil (hreads.rest_ne_nil trivial)
  · rw [hshows.peek_eq]
    exact nextOperator?_eq_none_iff.mp hnext

end Pull

namespace Lookups

/-- An expression comes to its end from every place in every text, read or given up. -/
theorem Registered.ends_read {t : Lookups} (ht : t.Registered) (cursor : Cursor) (n : Nat)
    (power : Power) :
    let o := t.toGrammar.read (.expression power) (cursor.tokens.drop n)
    Pull.Ends (t.read · (.expression power)) ((Window.ofCursor cursor).skip n) o.result
      ((Window.ofCursor cursor).skip (cursor.tokens.length - o.rest.length)) := by
  simp only [read_eq]
  exact Pull.ends_expression ht.toGrammar.stops cursor n power

/-- **An expression is over exactly where it must be**, for all tables that are reached by
registering rules and from every place in every text: the tokens that it moves through are those of
its tree, and next comes a semicolon or an operator that binds no more tightly than was asked for,
never a kind that binds tightly and has no rule. -/
theorem tokens_eq_of_ends {t : Lookups} (ht : t.Registered) {cursor : Cursor} {n : Nat}
    {power : Power} {e : Expr} {after : Window}
    (h : Pull.Ends (t.read · (.expression power)) ((Window.ofCursor cursor).skip n) (.ok e) after) :
    (∃ k, after = ((Window.ofCursor cursor).skip n).skip k ∧
      ((Window.ofCursor cursor).skip n).through k = e.tokens) ∧
    (after.peek.kind = .semicolon ∨ t.powerOf after.peek.kind ≤ power) ∧
    ∀ power kind, t.next power kind ≠ .unhandled := by
  have hg := ht.toGrammar
  simp only [read_eq] at h
  refine ⟨Pull.through_eq_of_ends hg.stops hg.groupFree h, ?_, ht.paired.next_ne_unhandled⟩
  rw [← ht.paired.power_toGrammar]
  exact Pull.stopped_of_ends hg.stops h

/-- The sign of assignment in front of an operand, and a comma as the tightest operator; the sum
that comes next is not asked for. -/
theorem tokens_eq_of_ends_comma :
    let t := (empty.withStandard.setOperator .comma .call .left).setOperand .assign .unaryRun
    let w := (Window.ofCursor (.ofSource "return =a, b * -c + d;")).skip 1
    t.Registered ∧ ∃ (e : Expr) (after : Window) (k : Nat),
      Pull.Ends (t.read · (.expression .sum)) w (.ok e) after ∧ e.text = "((=(a , b)) * (-c))" ∧
      after = w.skip k ∧ w.through k = e.tokens ∧ e.tokens.length = 7 ∧
      (after.peek.kind = .semicolon ∨ t.powerOf after.peek.kind ≤ .sum) ∧
      after.peek.kind = .plus := by
  intro t w
  have ht : t.Registered :=
    ((Registered.standard .empty).operator .comma .call).unaryRun .assign nofun
  let cursor := Cursor.ofSource "return =a, b * -c + d;"
  let o := t.toGrammar.read (.expression .sum) (cursor.tokens.drop 1)
  let after := (Window.ofCursor cursor).skip (cursor.tokens.length - o.rest.length)
  have htext : o.result.toOption.map Expr.text = some "((=(a , b)) * (-c))" := by decide +kernel
  have hlength : o.result.toOption.map (fun e => e.tokens.length) = some 7 := by decide +kernel
  have hpeek : after.peek.kind = .plus := by decide +kernel
  have hends : Pull.Ends (t.read · (.expression .sum)) w o.result after :=
    ht.ends_read cursor 1 .sum
  cases hresult : o.result with
  | error d =>
      rw [hresult] at htext
      cases htext
  | ok e =>
      rw [hresult] at htext hlength hends
      obtain ⟨⟨k, hafter, hthrough⟩, hnext, -⟩ := tokens_eq_of_ends ht hends
      exact ⟨ht, e, after, k, hends, Option.some.inj htext, hafter, hthrough,
        Option.some.inj hlength, hnext, hpeek⟩

end Lookups

end Monkey
