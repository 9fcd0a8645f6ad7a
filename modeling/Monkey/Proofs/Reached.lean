import Monkey.Proofs.Frame
import Monkey.Proofs.Monotone

/-!
# Parsers on their way along a text

A source text stands for a row of tokens without end (`Token.stream`): those of the text, and behind
them one token `eof` after the other.  A parser may be started anywhere in a text, and then be asked
for anything in any order, with rules registered in between (`ParserState.Reached`).

`ParserState.Reached.confined_to_window` says what holds at every time.  The two tokens that the
parser holds and those that its cursor will give are neighbours in the row of the text.  Every
request comes to an end, with the answer that the parser for the tokens still to be read gives; read
or given up, it moves on along the row and changes nothing else.  A program does so too, and adds
its diagnostics behind those that there are.
-/

namespace Monkey

/-! ### The tokens of a text without end -/

namespace Token

/-- The tokens of a source text one by one, with one token `eof` after the other at the end. -/
def stream (source : String) (n : Nat) : Token :=
  (tokenize source).getD n eof

theorem stream_eq_current (source : String) (n : Nat) :
    stream source n = current ((lex source.toList).drop n) := by
  rw [stream, tokenize, current, List.getD_eq_getElem?_getD, List.headD_eq_head?_getD,
    List.head?_drop]
  obtain hlt | hle := Nat.lt_or_ge n (lex source.toList).length
  · rw [List.getElem?_append_left hlt]
  · rw [List.getElem?_append_right hle, List.getElem?_eq_none hle]
    cases n - (lex source.toList).length <;> rfl

end Token

namespace Window

variable {source : String} {w : Window} {n : Nat}

/-- The tokens that the window holds and those that its cursor will give are neighbours in the row
of the text. -/
structure At (source : String) (n : Nat) (w : Window) : Prop where
  current_eq : w.current = Token.stream source n
  peek_eq : w.peek = Token.stream source (n + 1)
  next_eq : ∀ i, (w.cursor.skip i).next.1 = Token.stream source (n + 2 + i)

theorem at_skip (source : String) (n : Nat) :
    ((ofCursor (.ofSource source)).skip n).At source n := by
  have hcurrent (n : Nat) :
      ((ofCursor (.ofSource source)).skip n).current = Token.stream source n := by
    rw [Token.stream_eq_current]
    exact (shows_skip (.ofSource source) n).current_eq
  have hpeek (n : Nat) :
      ((ofCursor (.ofSource source)).skip n).peek = Token.stream source (n + 1) := by
    rw [← hcurrent (n + 1), skip_add]
    rfl
  refine ⟨hcurrent n, hpeek n, ?_⟩
  intro i
  rw [show n + 2 + i = n + i + 1 + 1 by omega, ← hpeek (n + i + 1), skip_add, skip_add,
    ← cursor_skip]
  rfl

theorem ofCursor_skip (cursor : Cursor) (n : Nat) :
    ofCursor (cursor.skip n) = (ofCursor cursor).skip n := by
  induction n generalizing cursor with
  | zero => rfl
  | succ n ih => exact ih cursor.next.2

end Window

namespace ParserState

/-! ### What a request is answered -/

/-- The parser for the tokens that are still to be read. -/
def toParser (s : ParserState) : Parser :=
  ⟨s.tables.toGrammar, s.window.unread, s.diagnostics⟩

namespace Request

/-- What the parser for a row of tokens answers. -/
def answer : (r : Request) → Parser → Except Diagnostic r.Value × Parser
  | advance, p => (.ok (), p.advance)
  | expectPeek kind, p => p.expectPeek kind
  | expression power, p => p.expression power
  | operandBy rule, p => p.operandBy rule
  | rightOperand left power, p => p.rightOperand left power
  | statement, p => p.statement
  | statementBy rule, p => p.statementBy rule

/-- The reader of rows that is called. -/
def reader : (r : Request) → Grammar → List Token → Outcome r.Value
  | advance, _, row => .ok () row.tail
  | expectPeek kind, _, row => Token.expectPeek kind row
  | expression power, g, row => g.read (.expression power) row
  | operandBy rule, g, row => g.read (.operandBy rule) row
  | rightOperand left power, g, row => g.read (.rightOperand left power) row
  | statement, g, row => g.readStatement row
  | statementBy rule, g, row => g.statementBy rule row

theorem answer_eq (r : Request) (p : Parser) : r.answer p = p.run r.reader := by
  cases r <;> rfl

theorem rest_reader (g : Grammar) (row : List Token) (r : Request) :
    (r.reader g row).rest <:+ row := by
  cases r with
  | advance => exact List.tail_suffix row
  | expectPeek kind => exact Token.rest_expectPeek kind row
  | expression power => exact g.rest_read (.expression power) row
  | operandBy rule => exact g.rest_read (.operandBy rule) row
  | rightOperand left power => exact g.rest_read (.rightOperand left power) row
  | statement => exact g.rest_readStatement row
  | statementBy rule => exact g.rest_statementBy rule row

theorem yields_pull {g : Grammar} (hg : g.Stops) (row : List Token) (r : Request) :
    Pull.Yields (r.pull g ·) row (r.reader g row) := by
  cases r with
  | advance => exact Pull.yields_advance row
  | expectPeek kind => exact Pull.yields_expectPeek kind row
  | expression power => exact Pull.yields_read hg (.expression power) row trivial
  | operandBy rule => exact Pull.yields_read hg (.operandBy rule) row trivial
  | rightOperand left power => exact Pull.yields_read hg (.rightOperand left power) row trivial
  | statement => exact Pull.yields_statement hg row
  | statementBy rule => exact Pull.yields_statementBy hg rule row

end Request

/-! ### Requests and programs come to an end -/

/-- The reader comes to its end on the parser, with the result and the parser it leaves: no depth
that is large enough is used up. -/
def Ends {α : Type} (m : Nat → Action α) (s : ParserState) (result : Except Diagnostic α)
    (after : ParserState) : Prop :=
  ∀ᶠ depth in Filter.atTop, (m depth).startAt s = some (result, after)

section Frame

variable {s after : ParserState}

theorem exists_skip_of_ends_run {r : Request} {result : Except Diagnostic r.Value}
    (h : Ends r.run s result after) : ∃ k, after = { s with window := s.window.skip k } := by
  obtain ⟨depth, hdepth⟩ := Filter.Eventually.exists h
  exact frame_of_run hdepth

theorem exists_skip_of_ends_programAfter {result : Except Diagnostic Program}
    (h : Ends (Action.programAfter · []) s result after) :
    ∃ (k : Nat) (added : List Diagnostic),
      after = ⟨s.tables, s.window.skip k, s.diagnostics ++ added⟩ := by
  obtain ⟨depth, hdepth⟩ := Filter.Eventually.exists h
  obtain ⟨-, k, added, -, hafter⟩ := frame_of_programAfter hdepth
  exact ⟨k, added, hafter⟩

end Frame

section Ends

variable {t : Lookups} (hg : t.toGrammar.Stops) (cursor : Cursor) (n : Nat)
  (diagnostics : List Diagnostic)

theorem toParser_skip (t : Lookups) :
    toParser ⟨t, (Window.ofCursor cursor).skip n, diagnostics⟩ =
      ⟨t.toGrammar, cursor.tokens.drop n, diagnostics⟩ := by
  rw [toParser, Window.unread_skip]

include hg

/-- **A request comes to an end** as it is read off the tokens that are left, in front of those that
are left then. -/
theorem ends_run (r : Request) :
    let o := r.reader t.toGrammar (cursor.tokens.drop n)
    Ends r.run ⟨t, (Window.ofCursor cursor).skip n, diagnostics⟩ o.result
      ⟨t, (Window.ofCursor cursor).skip (cursor.tokens.length - o.rest.length), diagnostics⟩ := by
  intro o
  have hpull := (r.yields_pull hg (cursor.tokens.drop n)).ends_skip
    (fun depth => r.forward_pull t.toGrammar depth) (r.rest_reader _ _)
  refine hpull.mono fun depth hdepth => ?_
  rw [r.confined_run depth _ diagnostics, hdepth]
  rfl

/-- **A program comes to an end** as it is read off the tokens that are left, in front of the
end. -/
theorem ends_programAfter :
    let entries := t.toGrammar.entries (cursor.tokens.drop n)
    Ends (Action.programAfter · []) ⟨t, (Window.ofCursor cursor).skip n, diagnostics⟩
      (.ok ⟨Grammar.statementsOf entries⟩)
      ⟨t, (Window.ofCursor cursor).skip cursor.tokens.length,
        diagnostics ++ Grammar.diagnosticsOf entries⟩ := by
  intro entries
  refine (PullParser.ends_program hg cursor n diagnostics).mono fun depth hdepth => ?_
  rw [Action.startAt_programAfter, hdepth]
  rfl

end Ends

/-! ### Parsers that are reached -/

/-- The parsers that are reached with a source text: started anywhere in it, then asked for anything
in any order, with rules of the language registered in between.  The end of the tokens is not
registered as a sign. -/
inductive Reached (source : String) : ParserState → Prop
  | start {t : Lookups} (n : Nat) :
      t.Registered → Reached source ⟨t, .ofCursor ((Cursor.ofSource source).skip n), []⟩
  | setStatement {s : ParserState} (kind : Kind) (rule : StatementRule) :
      Reached source s → Reached source { s with tables := s.tables.setStatement kind rule }
  | setPrimary {s : ParserState} (kind : Kind) :
      Reached source s → Reached source { s with tables := s.tables.setOperand kind .primary }
  | setUnaryRun {s : ParserState} (kind : Kind) :
      kind ≠ .eof → Reached source s →
        Reached source { s with tables := s.tables.setOperand kind .unaryRun }
  | setOperator {s : ParserState} (kind : Kind) (power : Power) :
      Reached source s → Reached source { s with tables := s.tables.setOperator kind power .left }
  | withStandard {s : ParserState} :
      Reached source s → Reached source { s with tables := s.tables.withStandard }
  | request {s after : ParserState} (r : Request) {result : Except Diagnostic r.Value} :
      Reached source s → Ends r.run s result after → Reached source after
  | program {s after : ParserState} {result : Except Diagnostic Program} :
      Reached source s → Ends (Action.programAfter · []) s result after → Reached source after

namespace Reached

variable {source : String} {s : ParserState}

/-- The tables are those that have been registered, and the window has moved along the text. -/
theorem registered_and_window (h : Reached source s) :
    s.tables.Registered ∧ ∃ n, s.window = (Window.ofCursor (.ofSource source)).skip n := by
  induction h with
  | start n ht => exact ⟨ht, n, Window.ofCursor_skip _ n⟩
  | setStatement kind rule _ ih => exact ⟨ih.1.statement kind rule, ih.2⟩
  | setPrimary kind _ ih => exact ⟨ih.1.primary kind, ih.2⟩
  | setUnaryRun kind hkind _ ih => exact ⟨ih.1.unaryRun kind hkind, ih.2⟩
  | setOperator kind power _ ih => exact ⟨ih.1.operator kind power, ih.2⟩
  | withStandard _ ih => exact ⟨ih.1.standard, ih.2⟩
  | request r _ hends ih =>
      obtain ⟨ht, n, hwindow⟩ := ih
      obtain ⟨k, rfl⟩ := exists_skip_of_ends_run hends
      refine ⟨ht, n + k, ?_⟩
      rw [Window.skip_add, ← hwindow]
  | program _ hends ih =>
      obtain ⟨ht, n, hwindow⟩ := ih
      obtain ⟨k, -, rfl⟩ := exists_skip_of_ends_programAfter hends
      refine ⟨ht, n + k, ?_⟩
      rw [Window.skip_add, ← hwindow]

/-- **A parser never leaves the row of its text, and its readers touch nothing but the window.**
However it is reached, its tokens are neighbours in the row of the text, and so they are after
everything that it can be asked for.  Each request comes to an end with the answer of the parser for
the tokens still to be read; read or given up, it moves the window forward and keeps the tables and
the diagnostics.  A program keeps the tables and adds its diagnostics behind those that there
are. -/
theorem confined_to_window (h : Reached source s) :
    ∃ n, s.window.At source n ∧
      (∀ r : Request, ∃ (result : Except Diagnostic r.Value) (after : ParserState) (k : Nat),
        Ends r.run s result after ∧ (result, after.toParser) = r.answer s.toParser ∧
        after = ⟨s.tables, s.window.skip k, s.diagnostics⟩ ∧ after.window.At source (n + k)) ∧
      ∃ (program : Program) (after : ParserState) (k : Nat) (added : List Diagnostic),
        Ends (Action.programAfter · []) s (.ok program) after ∧
        (program, after.toParser) = s.toParser.program ∧
        after = ⟨s.tables, s.window.skip k, s.diagnostics ++ added⟩ ∧
        after.window.At source (n + k) := by
  obtain ⟨ht, n, hwindow⟩ := h.registered_and_window
  obtain ⟨t, w, diagnostics⟩ := s
  obtain rfl : w = (Window.ofCursor (.ofSource source)).skip n := hwindow
  have hg := ht.toGrammar.stops
  have hat (k : Nat) :
      (((Window.ofCursor (.ofSource source)).skip n).skip k).At source (n + k) := by
    rw [← Window.skip_add]
    exact Window.at_skip source (n + k)
  refine ⟨n, hat 0, ?_, ?_⟩
  · intro r
    have hends := ends_run hg (.ofSource source) n diagnostics r
    obtain ⟨k, hafter⟩ := exists_skip_of_ends_run hends
    refine ⟨_, _, k, hends, ?_, hafter, ?_⟩
    · have hrest := (r.rest_reader t.toGrammar _).trans
        (List.drop_suffix n (Cursor.ofSource source).tokens)
      rw [toParser_skip, toParser_skip, ← List.suffix_iff_eq_drop.mp hrest, Request.answer_eq]
      rfl
    · rw [hafter]
      exact hat k
  · have hends := ends_programAfter hg (.ofSource source) n diagnostics
    obtain ⟨k, added, hafter⟩ := exists_skip_of_ends_programAfter hends
    refine ⟨_, _, k, added, hends, ?_, hafter, ?_⟩
    · rw [toParser_skip, toParser_skip, List.drop_length]
      rfl
    · rw [hafter]
      exact hat k

/-- A statement is given up at `let`, a comma is registered, and a program is read from there on. -/
theorem confined_to_window_comma :
    let source := "5 + let; a, b"
    let w := Window.ofCursor (.ofSource source)
    let start : ParserState := ⟨Lookups.empty.withStandard, w, []⟩
    let s : ParserState :=
      ⟨Lookups.empty.withStandard.setOperator .comma .call .left, w.skip 2, []⟩
    let d : Diagnostic := ⟨.unexpectedToken .ident .semicolon, ";"⟩
    Ends (Request.run .statement) start (.error ⟨.noPrefixRule .letKw, "let"⟩)
      { start with window := w.skip 2 } ∧
    Reached source s ∧
    (∃ k, Ends (Request.run .statement) s (.error d) { s with window := s.window.skip k }) ∧
    ∃ (program : Program) (k : Nat),
      Ends (Action.programAfter · []) s (.ok program) ⟨s.tables, s.window.skip k, [d]⟩ ∧
      program.text = "(a , b)" := by
  intro source w start s d
  let cursor := Cursor.ofSource source
  have hregistered : Lookups.empty.withStandard.Registered := .standard .empty
  have hstart : Reached source start := .start 0 hregistered
  have hends := ends_run hregistered.toGrammar.stops cursor 0 [] .statement
  let q : Parser := ⟨s.tables.toGrammar, cursor.tokens.drop 2, []⟩
  have hq : s.toParser = q := toParser_skip cursor 2 [] s.tables
  let o := Lookups.empty.withStandard.toGrammar.readStatement (cursor.tokens.drop 0)
  have hresult : o.result = .error ⟨.noPrefixRule .letKw, "let"⟩ := by decide +kernel
  have hrest : cursor.tokens.length - o.rest.length = 2 := by decide +kernel
  change Ends _ _ o.result ⟨_, w.skip (cursor.tokens.length - o.rest.length), _⟩ at hends
  rw [hresult, hrest] at hends
  have hs : Reached source s := .setOperator .comma .call (.request .statement hstart hends)
  obtain ⟨n, -, hrequests, program, after, k, added, hprogram, hparser, rfl, -⟩ :=
    confined_to_window hs
  obtain ⟨result, failed, i, hfailure, hanswer, rfl, -⟩ := hrequests .statement
  rw [hq] at hanswer hparser
  have hd : result = .error d :=
    (congrArg Prod.fst hanswer).trans (show q.statement.1 = .error d by decide +kernel)
  have hadded : added = [d] :=
    (congrArg (fun x => x.2.diagnostics) hparser).trans (by decide +kernel)
  have htext : program.text = "(a , b)" :=
    (congrArg (fun x => x.1.text) hparser).trans (by decide +kernel)
  rw [hd] at hfailure
  rw [hadded] at hprogram
  exact ⟨hends, hs, ⟨i, hfailure⟩, program, k, hprogram, htext⟩

end Reached

end ParserState

end Monkey
