import Monkey.Proofs.Extent

/-!
# Weaker powers read further

The power that an expression is asked for with decides nothing but where the loop over operators
stops.  Asked for with a weaker power, an expression is read as with a stronger one, and then the
loop goes on (`Grammar.read_expression_of_le`).  This is one equation between outcomes, so it holds
of readings that fail as well.

What is read with the stronger power is found in the tree for the weaker one by going down left
operands (`Expr.LeftPart`), and its tokens are the first ones of that tree.  What cannot be read
with the stronger power cannot be read with the weaker one, for the same reason and at the same
place.  `Lookups.ends_of_le` says so for parsers that pull their tokens, whatever their tables are.
-/

namespace Monkey

/-! ### Left parts of a tree -/

namespace Expr

/-- The first tree is the second one, or is found in it by going down left operands. -/
inductive LeftPart : Expr → Expr → Prop
  | refl (e : Expr) : LeftPart e e
  | binary {part left right : Expr} {operator : Token} :
      LeftPart part left → LeftPart part (.binary left operator right)

theorem LeftPart.trans {part middle e : Expr} (h : part.LeftPart middle)
    (h' : middle.LeftPart e) : part.LeftPart e := by
  induction h' with
  | refl => exact h
  | binary _ ih => exact .binary ih

end Expr

/-! ### Rows of tokens -/

namespace Grammar

variable {g : Grammar} {goal : Goal} {weak strong : Power} {row rest : List Token} {left e : Expr}
  {d : Diagnostic}

theorem nextOperator?_of_le (hle : weak ≤ strong) {operator : Operator}
    (h : g.nextOperator? strong row = some operator) :
    g.nextOperator? weak row = some operator := by
  unfold nextOperator? at h ⊢
  split at h
  · cases h
  · next hkind =>
    obtain ⟨hoperator, hpower⟩ := Option.filter_eq_some_iff.mp h
    have hlt : weak < operator.power := lt_of_le_of_lt hle (of_decide_eq_true hpower)
    rw [if_neg hkind]
    exact Option.filter_eq_some_iff.mpr ⟨hoperator, decide_eq_true hlt⟩

/-- **The loop for a weaker power takes the operators of the loop for a stronger one and goes on
from there.**  Both loops take the same operator, or the one for the stronger power stops. -/
theorem read_operators_of_le (hle : weak ≤ strong) (left : Expr) (row : List Token) :
    g.read (.operators left weak) row =
      (g.read (.operators left strong) row).andThen fun part rest =>
        g.read (.operators part weak) rest := by
  induction hlength : row.length using Nat.strong_induction_on generalizing left row with
  | _ length ih =>
      subst hlength
      cases row with
      | nil => simp only [read_operators_nil, Outcome.andThen_ok]
      | cons token rest =>
          cases hnext : g.nextOperator? strong (token :: rest) with
          | none =>
              have hstop : g.read (.operators left strong) (token :: rest) =
                  .ok left (token :: rest) := by
                rw [read_operators_cons, hnext]
              rw [hstop, Outcome.andThen_ok]
          | some operator =>
              rw [read_operators_cons, read_operators_cons, nextOperator?_of_le hle hnext, hnext]
              simp only
              rw [Outcome.andThen_assoc]
              apply Outcome.andThen_congr rfl
              intro joined after hjoined
              have hsuffix := (read_eq_ok_iff.mp hjoined).suffix.length_le
              have hshorter : after.length < (token :: rest).length := by
                rw [List.length_cons]
                omega
              exact ih after.length hshorter joined after rfl

/-- **An expression is read with a weaker power as with a stronger one**, and then the loop over
operators goes on. -/
theorem read_expression_of_le (hle : weak ≤ strong) (row : List Token) :
    g.read (.expression weak) row =
      (g.read (.expression strong) row).andThen fun part rest =>
        g.read (.operators part weak) rest := by
  rw [read_expression, read_expression, Outcome.andThen_assoc]
  apply Outcome.andThen_congr rfl
  intro left rest _
  exact read_operators_of_le hle left rest

/-- What is known of the tree of a goal: where operators are to be read, it starts with their left
operand. -/
def Goal.LeftBound : Goal → Expr → Prop
  | rightOperand left _, e => left.LeftPart e
  | operators left _, e => left.LeftPart e
  | _, _ => True

theorem Reads.leftBound (h : Reads g goal row e rest) : goal.LeftBound e := by
  induction h with
  | expression | operand | name | integer | unaryRun | unaryOnce | group => trivial
  | rightOperand => exact .binary (.refl _)
  | operatorsNil => exact .refl _
  | operatorsStop => exact .refl _
  | operatorsStep _ _ _ ih₁ ih₂ =>
      have hjoined : Expr.LeftPart _ _ := ih₁
      exact hjoined.trans ih₂

/-- A reading with a weaker power starts with one with the stronger power. -/
theorem Reads.strengthen (hle : weak ≤ strong) (h : Reads g (.expression weak) row e rest) :
    ∃ part middle, Reads g (.expression strong) row part middle ∧
      Reads g (.operators part weak) middle e rest := by
  have hread := h.read
  rw [read_expression_of_le hle] at hread
  obtain ⟨part, middle, hpart⟩ | ⟨d, middle, hfails⟩ := reads_or_fails g (.expression strong) row
  · rw [hpart.read, Outcome.andThen_ok] at hread
    exact ⟨part, middle, hpart, read_eq_ok_iff.mp hread⟩
  · rw [hfails.read, Outcome.andThen_error] at hread
    exact absurd hread.symm Outcome.ok_ne_error

/-- What cannot be read with a power cannot be read with a weaker one. -/
theorem Fails.weaken (hle : weak ≤ strong) (h : Fails g (.expression strong) row d rest) :
    Fails g (.expression weak) row d rest := by
  rw [← read_eq_error_iff, read_expression_of_le hle, h.read, Outcome.andThen_error]

end Grammar

/-! ### Windows -/

namespace Window

theorem through_prefix (w : Window) (i j : Nat) : w.through i <+: w.through (i + j) := by
  induction i generalizing w with
  | zero =>
      rw [Nat.zero_add]
      cases j with
      | zero => exact List.prefix_rfl
      | succ j => exact ⟨w.advance.through j, rfl⟩
  | succ i ih =>
      rw [Nat.add_right_comm, through, through]
      exact (List.prefix_cons_inj w.current).mpr (ih w.advance)

theorem unread_skip (cursor : Cursor) (n : Nat) :
    ((ofCursor cursor).skip n).unread = cursor.tokens.drop n :=
  (shows_skip cursor n).unread_eq fun token htoken =>
    cursor.kind_ne_eof_of_mem_tokens token (List.mem_of_mem_drop htoken)

theorem skip_length_sub (cursor : Cursor) {n : Nat} {rest : List Token}
    (h : rest <:+ cursor.tokens.drop n) :
    (ofCursor cursor).skip (cursor.tokens.length - rest.length) =
      ((ofCursor cursor).skip n).skip ((cursor.tokens.drop n).length - rest.length) := by
  have hle := h.length_le
  rw [List.length_drop] at hle ⊢
  rw [← skip_add]
  apply skip_eq_of_drop_eq
  by_cases hn : n ≤ cursor.tokens.length
  · congr 1
    omega
  · rw [List.drop_of_length_le (by omega), List.drop_of_length_le (by omega)]

end Window

namespace Pull

open Grammar

variable {g : Grammar} {cursor : Cursor} {n : Nat} {power : Power} {rest : List Token}

theorem ends_of_reads (hg : g.Stops) {e : Expr}
    (h : Reads g (.expression power) (cursor.tokens.drop n) e rest) :
    let w := (Window.ofCursor cursor).skip n
    Ends (read g · (.expression power)) w (.ok e) (w.skip (w.unread.length - rest.length)) := by
  intro w
  have hends := ends_expression hg cursor n power
  rw [h.read, Outcome.ok] at hends
  rw [Window.unread_skip, ← Window.skip_length_sub cursor h.suffix]
  exact hends

theorem ends_of_fails (hg : g.Stops) {d : Diagnostic}
    (h : Fails g (.expression power) (cursor.tokens.drop n) d rest) :
    Ends (read g · (.expression power)) ((Window.ofCursor cursor).skip n) (.error d)
      ((Window.ofCursor cursor).skip (cursor.tokens.length - rest.length)) := by
  have hends := ends_expression hg cursor n power
  rw [h.read] at hends
  exact hends

theorem exists_fails_of_ends (hg : g.Stops) {d : Diagnostic} {after : Window}
    (h : Ends (read g · (.expression power)) ((Window.ofCursor cursor).skip n) (.error d) after) :
    ∃ rest, Fails g (.expression power) (cursor.tokens.drop n) d rest ∧
      after = (Window.ofCursor cursor).skip (cursor.tokens.length - rest.length) := by
  obtain ⟨hresult, rfl⟩ := h.unique (ends_expression hg cursor n power)
  refine ⟨_, ?_, rfl⟩
  rw [← read_eq_error_iff, hresult]

end Pull

namespace Lookups

/-- **A weaker power reads further and fails no less**, for all tables in which no sign starts at
the end, and from every place in every text.  Where an expression is read with the weaker power, the
stronger one reads a left part of it, and the tokens that are moved through are the first of those
for the whole.  Where the stronger power comes to a diagnostic, the weaker one comes to the same
with the same window. -/
theorem ends_of_le {t : Lookups} (ht : t.toGrammar.Stops) {weak strong : Power}
    (hle : weak ≤ strong) (cursor : Cursor) (n : Nat) :
    let w := (Window.ofCursor cursor).skip n
    (∀ e after, Pull.Ends (t.read · (.expression weak)) w (.ok e) after →
      ∃ (part : Expr) (i j : Nat),
        Pull.Ends (t.read · (.expression strong)) w (.ok part) (w.skip i) ∧
        part.LeftPart e ∧ after = w.skip (i + j) ∧ i + j < w.unread.length ∧
        w.through i <+: w.through (i + j)) ∧
    ∀ d after, Pull.Ends (t.read · (.expression strong)) w (.error d) after →
      Pull.Ends (t.read · (.expression weak)) w (.error d) after := by
  intro w
  simp only [read_eq]
  constructor
  · intro e after h
    obtain ⟨rest, hreads, hafter, -⟩ := Pull.exists_reads_of_ends ht h
    obtain ⟨part, middle, hpart, hoperators⟩ := hreads.strengthen hle
    have hsuffix := hpart.suffix.length_le
    have hmiddle := hoperators.suffix.length_le
    have hpos := List.length_pos_iff.mpr (hreads.rest_ne_nil trivial)
    have hunread : w.unread = cursor.tokens.drop n := Window.unread_skip cursor n
    have hsum : w.unread.length - middle.length + (middle.length - rest.length) =
        (cursor.tokens.drop n).length - rest.length := by
      rw [hunread]
      omega
    refine ⟨part, w.unread.length - middle.length, middle.length - rest.length,
      Pull.ends_of_reads ht hpart, hoperators.leftBound, ?_, ?_, w.through_prefix _ _⟩
    · rw [hsum, hafter]
      exact Window.skip_length_sub cursor hreads.suffix
    · rw [hsum, hunread]
      omega
  · intro d after h
    obtain ⟨rest, hfails, rfl⟩ := Pull.exists_fails_of_ends ht h
    exact Pull.ends_of_fails ht (hfails.weaken hle)

/-- A comma as the tightest operator and the sign of assignment in front of an operand: a comparison
of which only the left side is read, and an operand that is missing. -/
theorem ends_of_le_comma :
    let t := (empty.withStandard.setOperator .comma .call .left).setOperand .assign .unaryRun
    let cursor := Cursor.ofSource "return =a, b * -c + d < e; f - *"
    let w := (Window.ofCursor cursor).skip 1
    let w' := (Window.ofCursor cursor).skip 13
    t.toGrammar.Stops ∧ Power.equals ≤ Power.lessGreater ∧
    (∃ (e part : Expr) (i j : Nat),
      Pull.Ends (t.read · (.expression .equals)) w (.ok e) (w.skip (i + j)) ∧
      Pull.Ends (t.read · (.expression .lessGreater)) w (.ok part) (w.skip i) ∧
      e.text = "((((=(a , b)) * (-c)) + d) < e)" ∧ part.text = "(((=(a , b)) * (-c)) + d)" ∧
      part.LeftPart e ∧ w.through i <+: w.through (i + j)) ∧
    ∃ (d : Diagnostic) (after : Window), d.cause = .noPrefixRule .asterisk ∧
      Pull.Ends (t.read · (.expression .lessGreater)) w' (.error d) after ∧
      Pull.Ends (t.read · (.expression .equals)) w' (.error d) after := by
  intro t cursor w w'
  have ht : t.Registered :=
    ((Registered.standard .empty).operator .comma .call).unaryRun .assign nofun
  have hstops : t.toGrammar.Stops := ht.toGrammar.stops
  have hle : Power.equals ≤ Power.lessGreater := by decide
  refine ⟨hstops, hle, ?_, ?_⟩
  · let o := t.toGrammar.read (.expression .equals) (cursor.tokens.drop 1)
    let o' := t.toGrammar.read (.expression .lessGreater) (cursor.tokens.drop 1)
    have htext : o.result.toOption.map Expr.text = some "((((=(a , b)) * (-c)) + d) < e)" := by
      decide +kernel
    have hleft : o'.result.toOption.map Expr.text = some "(((=(a , b)) * (-c)) + d)" := by
      decide +kernel
    have hweak : Pull.Ends (t.read · (.expression .equals)) w o.result _ :=
      ht.ends_read cursor 1 .equals
    have hstrong : Pull.Ends (t.read · (.expression .lessGreater)) w o'.result _ :=
      ht.ends_read cursor 1 .lessGreater
    cases hresult : o.result with
    | error d =>
        rw [hresult] at htext
        cases htext
    | ok e =>
        rw [hresult] at htext hweak
        obtain ⟨part, i, j, hends, hpart, hafter, -, hthrough⟩ :=
          (ends_of_le hstops hle cursor 1).1 e _ hweak
        obtain ⟨heq, -⟩ := hends.unique hstrong
        rw [← heq] at hleft
        rw [hafter] at hweak
        exact ⟨e, part, i, j, hweak, hends, Option.some.inj htext, Option.some.inj hleft, hpart,
          hthrough⟩
  · have herror : (t.toGrammar.read (.expression .lessGreater) (cursor.tokens.drop 13)).result =
        .error ⟨.noPrefixRule .asterisk, "*"⟩ := by
      decide +kernel
    have hstrong := ht.ends_read cursor 13 .lessGreater
    simp only [herror] at hstrong
    exact ⟨_, _, rfl, hstrong, (ends_of_le hstops hle cursor 13).2 _ _ hstrong⟩

end Lookups

end Monkey
