import Monkey.Proofs.Progress

/-!
# Readers move forward only

Whatever a reader that pulls tokens comes to, it leaves the window that it was given or one that is
reached from it by moving on (`Pull.Forward`).  A window over a cursor is known by the tokens that
it still has in front of it: at the end of the text moving on changes nothing any more
(`Window.skip_eq_of_drop_eq`).

So the readers of rows tell not only what a reader that pulls tokens yields, but also the window
that it leaves, with its cursor: the one in front of the tokens that are left of the row
(`Pull.ends_expression`, `PullParser.ends_program`).
-/

namespace Monkey

/-! ### Moving on -/

namespace Cursor

variable {cursor : Cursor}

theorem next_of_rest_eq_nil (h : cursor.rest = []) : cursor.next = (Token.eof, cursor) := by
  obtain ⟨rest, pos⟩ := cursor
  obtain rfl : rest = [] := h
  rfl

theorem next_of_tokens_eq_nil (h : cursor.tokens = []) : cursor.next.2.rest = [] := by
  rw [next, cursor.tokens_eq_nil_iff.mp h]
  rfl

theorem rest_skip_of_rest_eq_nil (h : cursor.rest = []) (n : Nat) : (cursor.skip n).rest = [] := by
  induction n with
  | zero => exact h
  | succ n ih =>
      rw [skip, next_of_rest_eq_nil h]
      exact ih

theorem rest_skip (cursor : Cursor) {n : Nat} (h : cursor.tokens.length < n) :
    (cursor.skip n).rest = [] := by
  induction n generalizing cursor with
  | zero => exact absurd h (Nat.not_lt_zero _)
  | succ n ih =>
      rw [skip]
      by_cases hnil : cursor.tokens = []
      · exact rest_skip_of_rest_eq_nil (next_of_tokens_eq_nil hnil) n
      · refine ih cursor.next.2 ?_
        have hpos := List.length_pos_iff.mpr hnil
        rw [cursor.next_eq.2, List.length_tail]
        omega

end Cursor

namespace Window

variable {w w' w'' : Window}

/-- The window is reached by moving on. -/
def Reaches (w w' : Window) : Prop :=
  ∃ n, w' = w.skip n

theorem skip_add (w : Window) (m n : Nat) : w.skip (m + n) = (w.skip m).skip n := by
  induction m generalizing w with
  | zero => rw [Nat.zero_add, skip]
  | succ m ih =>
      rw [Nat.add_right_comm, skip, skip]
      exact ih w.advance

theorem cursor_skip (w : Window) (n : Nat) : (w.skip n).cursor = w.cursor.skip n := by
  induction n generalizing w with
  | zero => rfl
  | succ n ih => exact ih w.advance

namespace Reaches

theorem refl (w : Window) : w.Reaches w :=
  ⟨0, rfl⟩

theorem trans (h : w.Reaches w') (h' : w'.Reaches w'') : w.Reaches w'' := by
  obtain ⟨m, rfl⟩ := h
  obtain ⟨n, rfl⟩ := h'
  exact ⟨m + n, (w.skip_add m n).symm⟩

theorem advance (w : Window) : w.Reaches w.advance :=
  ⟨1, rfl⟩

theorem resume (w : Window) : w.Reaches w.resume := by
  rw [Window.resume]
  split
  · exact advance w
  · exact refl w

end Reaches

/-! ### The window in front of the tokens that are left -/

variable {cursor : Cursor} {row rest : List Token} {m n : Nat}

theorem shows_skip (cursor : Cursor) (n : Nat) :
    ((ofCursor cursor).skip n).Shows (cursor.tokens.drop n) :=
  (shows_ofCursor cursor).skip n

theorem Shows.advance_eq (h : w.Shows []) (hrest : w.cursor.rest = []) : w.advance = w := by
  obtain ⟨current, peek, cursor⟩ := w
  obtain rfl : current = Token.eof := h.current_eq
  obtain rfl : peek = Token.eof := h.peek_eq
  rw [Window.advance, Cursor.next_of_rest_eq_nil hrest]

theorem skip_eq_of_length_le (cursor : Cursor) (h : cursor.tokens.length ≤ n) :
    (ofCursor cursor).skip n = (ofCursor cursor).skip cursor.tokens.length := by
  induction n, h using Nat.le_induction with
  | base => rfl
  | succ n hle ih =>
      have hshows := shows_skip cursor n
      rw [List.drop_of_length_le hle] at hshows
      have hrest : ((ofCursor cursor).skip n).cursor.rest = [] := by
        rw [cursor_skip]
        exact cursor.rest_skip (n := n + 2) (by omega)
      rw [← ih, skip_add]
      exact hshows.advance_eq hrest

/-- **A window over a cursor is known by the tokens that are left.** -/
theorem skip_eq_of_drop_eq (h : cursor.tokens.drop m = cursor.tokens.drop n) :
    (ofCursor cursor).skip m = (ofCursor cursor).skip n := by
  have hlength := congrArg List.length h
  rw [List.length_drop, List.length_drop] at hlength
  by_cases hm : cursor.tokens.length ≤ m
  · rw [skip_eq_of_length_le cursor hm, skip_eq_of_length_le cursor (n := n) (by omega)]
  · rw [show m = n by omega]

theorem skip_eq_of_shows (h : ((ofCursor cursor).skip n).Shows row)
    (hrow : row <:+ cursor.tokens) :
    (ofCursor cursor).skip n =
      (ofCursor cursor).skip (cursor.tokens.length - row.length) := by
  have hall := cursor.kind_ne_eof_of_mem_tokens
  have hunread := h.unread_eq fun token htoken => hall token (hrow.subset htoken)
  have hdrop : ((ofCursor cursor).skip n).unread = cursor.tokens.drop n :=
    (shows_skip cursor n).unread_eq fun token htoken => hall token (List.mem_of_mem_drop htoken)
  refine skip_eq_of_drop_eq ?_
  rw [← hdrop, hunread]
  exact List.suffix_iff_eq_drop.mp hrow

end Window

/-! ### Readers -/

namespace Pull

variable {α β : Type} {m : Pull α} {f : α → Pull β}

/-- Whatever the reader comes to, it has moved its window forward only. -/
def Forward (m : Pull α) : Prop :=
  ∀ (w : Window) (result : Except Diagnostic α) (after : Window),
    m.startAt w = some (result, after) → w.Reaches after

theorem forward_exhausted : Forward (Reader.exhausted : Pull α) := by
  intro w result after h
  have hnone : (Reader.exhausted : Pull α).startAt w = none := rfl
  rw [hnone] at h
  cases h

theorem forward_pure (a : α) : Forward (pure a : Pull α) := by
  intro w result after h
  cases h
  exact .refl w

theorem forward_throw (d : Diagnostic) : Forward (throw d : Pull α) := by
  intro w result after h
  cases h
  exact .refl w

theorem Forward.bind (hm : Forward m) (hf : ∀ a, Forward (f a)) : Forward (m >>= f) := by
  intro w result after h
  cases hstart : m.startAt w with
  | none =>
      rw [Reader.startAt_bind_none hstart] at h
      cases h
  | some p =>
      obtain ⟨first, middle⟩ := p
      have hmiddle := hm w first middle hstart
      cases first with
      | error d =>
          rw [Reader.startAt_bind_error hstart] at h
          cases h
          exact hmiddle
      | ok a =>
          rw [Reader.startAt_bind_ok hstart] at h
          exact hmiddle.trans (hf a middle result after h)

theorem forward_current : Forward moves.current := by
  intro w result after h
  cases h
  exact .refl w

theorem forward_peek : Forward moves.peek := by
  intro w result after h
  cases h
  exact .refl w

theorem forward_advance : Forward moves.advance := by
  intro w result after h
  cases h
  exact .advance w

theorem forward_moves : moves.Related (fun m _ => Forward m) moves where
  pure := forward_pure
  throw := forward_throw
  exhausted := forward_exhausted
  bind := Forward.bind
  current := forward_current
  peek := forward_peek
  advance := forward_advance

theorem forward_takeOperator? (g : Grammar) (power : Power) : Forward (takeOperator? g power) := by
  refine forward_peek.bind fun next => ?_
  cases operatorAt? g power next.kind with
  | none => exact forward_pure none
  | some operator => exact forward_advance.bind fun _ => forward_pure _

/-- **Every step moves the window forward only**, and so does all reading. -/
theorem forward_steps (g : Grammar) : (steps g).Related (fun m _ => Forward m) (steps g) where
  toRelated := forward_moves
  statementRule := forward_current.bind fun _ => forward_pure _
  operandRule := forward_moves.operandRule g.operand
  takeOperator? := forward_takeOperator? g

end Pull

theorem PullParser.reaches_of_programAfter {depth : Nat} {statements : List Stmt}
    {p after : PullParser} {program : Program}
    (h : programAfter depth statements p = some (program, after)) :
    p.window.Reaches after.window := by
  induction depth generalizing statements p with
  | zero => cases h
  | succ depth ih =>
      rw [programAfter] at h
      split at h
      · cases h
        exact .refl _
      · obtain ⟨⟨result, w⟩, hstatement, h⟩ := Option.bind_eq_some_iff.mp h
        have hw := (Pull.forward_steps p.grammar).statement depth p.window result w hstatement
        cases result with
        | ok s => exact hw.trans ((Window.Reaches.advance w).trans (ih h))
        | error d =>
            have hafter := (Window.Reaches.resume w).trans (.advance w.resume)
            exact hw.trans (hafter.trans (ih h))

/-! ### The window that a reader leaves -/

section Ends

variable {cursor : Cursor} {row : List Token} {n : Nat}

/-- A reader that agrees with one of rows leaves the window in front of the tokens that are left of
the row. -/
theorem Pull.Yields.ends_skip {α : Type} {m : Nat → Pull α} {o : Outcome α}
    (hm : Yields m (cursor.tokens.drop n) o) (hforward : ∀ depth, Forward (m depth))
    (hrest : o.rest <:+ cursor.tokens.drop n) :
    Ends m ((Window.ofCursor cursor).skip n) o.result
      ((Window.ofCursor cursor).skip (cursor.tokens.length - o.rest.length)) := by
  obtain ⟨after, hends, hshows⟩ := hm _ (Window.shows_skip cursor n)
  obtain ⟨depth, hdepth⟩ := Filter.Eventually.exists hends
  obtain ⟨k, rfl⟩ := hforward depth _ _ _ hdepth
  rw [← Window.skip_add] at hends hshows
  rw [Window.skip_eq_of_shows hshows (hrest.trans (List.drop_suffix n _))] at hends
  exact hends

/-- **An expression is pulled as it is read off the tokens that are left**, to the window in front
of those that are left then. -/
theorem Pull.ends_expression {g : Grammar} (hg : g.Stops) (cursor : Cursor) (n : Nat)
    (power : Power) :
    let o := g.read (.expression power) (cursor.tokens.drop n)
    Ends (read g · (.expression power)) ((Window.ofCursor cursor).skip n) o.result
      ((Window.ofCursor cursor).skip (cursor.tokens.length - o.rest.length)) :=
  (yields_read hg (.expression power) _ trivial).ends_skip
    (fun depth => (forward_steps g).read depth _) (g.rest_read _ _)

/-- **A program is pulled as it is read off the tokens that are left**, to the window in front of
the end. -/
theorem PullParser.ends_program {g : Grammar} (hg : g.Stops) (cursor : Cursor) (n : Nat)
    (diagnostics : List Diagnostic) :
    let entries := g.entries (cursor.tokens.drop n)
    Ends ⟨g, (Window.ofCursor cursor).skip n, diagnostics⟩ ⟨Grammar.statementsOf entries⟩
      ⟨g, (Window.ofCursor cursor).skip cursor.tokens.length,
        diagnostics ++ Grammar.diagnosticsOf entries⟩ := by
  intro entries
  have hrow : ∀ token ∈ cursor.tokens.drop n, token.kind ≠ .eof := fun token htoken =>
    cursor.kind_ne_eof_of_mem_tokens token (List.mem_of_mem_drop htoken)
  obtain ⟨last, hlast, hends⟩ :=
    endsAfter_entries hg hrow (Window.shows_skip cursor n) [] diagnostics
  obtain ⟨depth, hdepth⟩ := Filter.Eventually.exists hends
  obtain ⟨k, rfl⟩ : ∃ k, last = ((Window.ofCursor cursor).skip n).skip k :=
    reaches_of_programAfter hdepth
  rw [← Window.skip_add] at hends hlast
  rw [Window.skip_eq_of_shows hlast List.nil_suffix] at hends
  exact hends

end Ends

end Monkey
