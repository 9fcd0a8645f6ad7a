import Monkey.Action
import Monkey.Proofs.Extension
import Monkey.Proofs.Extent

/-!
# What readers leave as it is

A reader that works on a whole parser could change anything in it.  Those of `Monkey.Action` are
confined to the window (`Action.Confined`): on a parser with the tables `t` they do to the window
what a reader of windows does, and keep the rest.  Being confined goes along with putting readers
together, and a look into the tables finds the same ones at any time, so that it is enough to
compare the steps (`Action.confined_steps`).

`ParserState.frame_of_run` says what follows for everything that a parser can be asked for, whether
it is read or given up: tables and diagnostics are kept, and the window moves forward only.  A
program adds diagnostics behind those that there are (`ParserState.frame_of_programAfter`).
-/

namespace Monkey

theorem Moves.Related.lookups {σ τ : Type} {R : {α : Type} → Reader σ α → Reader τ α → Prop}
    {r : Moves σ} {r' : Moves τ} {tables : Reader σ Lookups} {tables' : Reader τ Lookups}
    (h : r.Related R r') (ht : R tables tables') :
    (Lookups.steps r tables).Related R (Lookups.steps r' tables') where
  toRelated := h
  statementRule := by
    refine h.bind h.current fun token => h.bind ht fun t => ?_
    cases t.statement token.kind with
    | none => exact h.pure _
    | some rule => exact h.pure rule
  operandRule := h.bind ht fun t => h.operandRule t.operand
  takeOperator? power := by
    refine h.bind h.peek fun next => h.bind ht fun t => ?_
    cases t.next power next.kind with
    | stop => exact h.pure none
    | unhandled => exact h.pure none
    | operator associativity =>
        refine h.bind h.advance fun _ => h.bind h.current fun operator => ?_
        exact h.bind ht fun t => h.pure _

namespace Action

variable {α β : Type} {t : Lookups} {m : Action α} {f : α → Action β} {p : Pull α}
  {h : α → Pull β}

/-- On a parser with these tables the reader does to the window what the reader of windows does,
and keeps the tables and the diagnostics. -/
def Confined (t : Lookups) (m : Action α) (p : Pull α) : Prop :=
  ∀ (w : Window) (diagnostics : List Diagnostic), m.startAt ⟨t, w, diagnostics⟩ =
    (p.startAt w).map fun q => (q.1, ⟨t, q.2, diagnostics⟩)

theorem Confined.bind (hm : Confined t m p) (hf : ∀ a, Confined t (f a) (h a)) :
    Confined t (m >>= f) (p >>= h) := by
  intro w diagnostics
  rw [Reader.startAt_bind, hm w diagnostics]
  obtain hnone | ⟨⟨result, after⟩, hstart⟩ := Option.eq_none_or_eq_some (p.startAt w)
  · rw [Reader.startAt_bind_none hnone, hnone]
    rfl
  · rw [hstart]
    cases result with
    | error d =>
        rw [Reader.startAt_bind_error hstart]
        rfl
    | ok a =>
        rw [Reader.startAt_bind_ok hstart]
        exact hf a after diagnostics

theorem confined_moves (t : Lookups) : moves.Related (Confined t) Pull.moves where
  pure _ _ _ := rfl
  throw _ _ _ := rfl
  exhausted _ _ := rfl
  bind := Confined.bind
  current _ _ := rfl
  peek _ _ := rfl
  advance _ _ := rfl

/-- Whenever the tables are looked at, they are those that there were at first. -/
theorem confined_tables (t : Lookups) : Confined t tables (pure t) :=
  fun _ _ => rfl

/-- **A whole parser is read on as its window is**, with the grammar of the tables that it has. -/
theorem confined_steps (t : Lookups) : steps.Related (Confined t) (Pull.steps t.toGrammar) := by
  rw [← t.steps_eq]
  exact (confined_moves t).lookups (confined_tables t)

/-! ### Programs -/

theorem startAt_attempt (m : Action α) (s : ParserState) :
    (attempt m).startAt s = (m.startAt s).map fun q => (.ok q.1, q.2) := by
  have hstart : (attempt m).startAt s = (m.startAt s).bind fun q => some (.ok q.1, q.2) := rfl
  rw [hstart, Option.map_eq_bind]
  rfl

theorem startAt_record_bind (d : Diagnostic) (f : Unit → Action β) (s : ParserState) :
    (record d >>= f).startAt s = (f ()).startAt { s with diagnostics := s.diagnostics ++ [d] } := by
  rw [Reader.startAt_bind]
  rfl

theorem startAt_resume_bind (f : Unit → Action β) (s : ParserState) :
    (resume >>= f).startAt s = (f ()).startAt { s with window := s.window.resume } := by
  have hresume : resume.startAt s = some (.ok (), { s with window := s.window.resume }) := by
    change (if s.window.current.kind ≠ .semicolon ∧ s.window.peek.kind = .semicolon then
      moves.advance else pure ()).startAt s = _
    rw [Window.resume]
    split <;> rfl
  rw [Reader.startAt_bind, hresume]
  rfl

/-- A program is read on a whole parser as by one that has the grammar of its tables.  No failure
ends it. -/
theorem startAt_programAfter (depth : Nat) (statements : List Stmt) (t : Lookups) (w : Window)
    (diagnostics : List Diagnostic) :
    (programAfter depth statements).startAt ⟨t, w, diagnostics⟩ =
      (PullParser.programAfter depth statements ⟨t.toGrammar, w, diagnostics⟩).map fun q =>
        (.ok q.1, ⟨t, q.2.window, q.2.diagnostics⟩) := by
  induction depth generalizing statements w diagnostics with
  | zero => rfl
  | succ depth ih =>
      rw [programAfter, Reader.startAt_bind, PullParser.programAfter]
      change (if w.current.kind = .eof then _ else _ : Action Program).startAt _ = _
      split
      · rfl
      · have hstatement := (confined_steps t).statement depth w diagnostics
        rw [Reader.startAt_bind, startAt_attempt, hstatement, Pull.statement]
        cases ((Pull.steps t.toGrammar).statement depth).startAt w with
        | none => rfl
        | some q =>
            obtain ⟨result, middle⟩ := q
            cases result with
            | ok s => exact ih (statements ++ [s]) middle.advance diagnostics
            | error d =>
                change (record d >>= fun _ => resume >>= fun _ => moves.advance >>= fun _ =>
                  programAfter depth statements).startAt ⟨t, middle, diagnostics⟩ = _
                rw [startAt_record_bind, startAt_resume_bind]
                exact ih statements middle.resume.advance (diagnostics ++ [d])

end Action

/-! ### Everything that a parser can be asked for -/

namespace ParserState

namespace Request

theorem readBy_related {σ τ : Type} {R : {α : Type} → Reader σ α → Reader τ α → Prop}
    {steps : Steps σ} {steps' : Steps τ} (h : steps.Related R steps') (r : Request) (depth : Nat) :
    R (r.readBy steps depth) (r.readBy steps' depth) := by
  cases r with
  | advance => exact h.advance
  | expectPeek kind => exact h.expectPeek kind
  | expression power => exact h.read depth (.expression power)
  | operandBy rule => exact h.read depth (.operandBy rule)
  | rightOperand left power => exact h.read depth (.rightOperand left power)
  | statement => exact h.statement depth
  | statementBy rule => exact h.statementBy depth rule

/-- The reader of windows that is called, with the grammar of the tables. -/
def pull (g : Grammar) (depth : Nat) (r : Request) : Pull r.Value :=
  r.readBy (Pull.steps g) depth

theorem confined_run {t : Lookups} (r : Request) (depth : Nat) :
    Action.Confined t (r.run depth) (r.pull t.toGrammar depth) :=
  readBy_related (Action.confined_steps t) r depth

theorem forward_pull (g : Grammar) (depth : Nat) (r : Request) : (r.pull g depth).Forward :=
  readBy_related (Pull.forward_steps g) r depth

end Request

variable {s after : ParserState}

/-- **A request moves the window forward and changes nothing else**, whatever it comes to, with all
tables and from every window. -/
theorem frame_of_run {r : Request} {depth : Nat} {result : Except Diagnostic r.Value}
    (h : (r.run depth).startAt s = some (result, after)) :
    ∃ k, after = { s with window := s.window.skip k } := by
  rw [r.confined_run depth s.window s.diagnostics, Option.map_eq_some_iff] at h
  obtain ⟨⟨result', w⟩, hpull, heq⟩ := h
  obtain ⟨k, hk⟩ : s.window.Reaches w := r.forward_pull s.tables.toGrammar depth _ _ _ hpull
  obtain ⟨-, rfl⟩ := Prod.mk.inj heq
  exact ⟨k, by rw [← hk]⟩

/-- **A program moves the window forward, adds diagnostics, and changes nothing else**, with all
tables and from every window.  It does not fail. -/
theorem frame_of_programAfter {depth : Nat} {statements : List Stmt}
    {result : Except Diagnostic Program}
    (h : (Action.programAfter depth statements).startAt s = some (result, after)) :
    ∃ (program : Program) (k : Nat) (added : List Diagnostic), result = .ok program ∧
      after = ⟨s.tables, s.window.skip k, s.diagnostics ++ added⟩ := by
  have hstart := Action.startAt_programAfter depth statements s.tables s.window s.diagnostics
  rw [h] at hstart
  obtain ⟨⟨program, last⟩, hprogram, heq⟩ := Option.map_eq_some_iff.mp hstart.symm
  obtain ⟨k, hk⟩ := PullParser.reaches_of_programAfter hprogram
  obtain ⟨-, added, hadded⟩ := PullParser.frame_of_programAfter hprogram
  obtain ⟨rfl, rfl⟩ := Prod.mk.inj heq
  refine ⟨program, k, added, rfl, ?_⟩
  rw [hk, ← hadded]

end ParserState

end Monkey
