import Mathlib.Data.List.Infix
import Mathlib.Order.Bounds.Defs
import Monkey.Proofs.Acceptance

/-!
# The first fault of a text

A row of tokens is viable if some program starts with it.  The automaton of `Monkey.Proofs.Phrase`
has a step for each token of exactly the viable rows, as a program can be brought to its end from
every phase (`Phase.exists_run_iff_viable`).

The statements in front of the first fault are read, and the statement with the fault breaks off
there.  So the first diagnostic of a parse is about the earliest token with which no program can go
on (`parse_first_diagnostic`), which is the end of the text where something is still due.
-/

namespace Monkey

namespace Phrase

variable {row more : List Token} {index : Nat}

/-- Some program starts with the row. -/
def Viable (row : List Token) : Prop :=
  ∃ more, Program (row ++ more)

/-- The token at the index is a fault: what is in front of it is viable, but not with it. -/
def FaultAt (row : List Token) (index : Nat) : Prop :=
  Viable (row.take index) ∧ ¬ Viable (row.take (index + 1))

theorem Viable.mono (h : Viable more) (hrow : row <+: more) : Viable row := by
  obtain ⟨between, rfl⟩ := hrow
  obtain ⟨rest, h⟩ := h
  rw [List.append_assoc] at h
  exact ⟨between ++ rest, h⟩

/-- There is one fault at most, as no token in front of a viable one is a fault. -/
theorem FaultAt.isLeast (h : FaultAt row index) : IsLeast {i | FaultAt row i} index := by
  refine ⟨h, fun i hi => ?_⟩
  by_contra hlt
  have hle : i + 1 ≤ index := by omega
  exact hi.2 (h.1.mono (List.take_prefix_take_left hle))

end Phrase

open Phrase (Viable FaultAt)

/-! ### Viable rows -/

namespace Phase

variable {phase next : Phase} {token : Token} {row rest used : List Token}

/-- A program can be brought to its end from every phase. -/
theorem exists_accepts (phase : Phase) : ∃ more, phase.Accepts more := by
  cases phase with
  | statement => exact ⟨[], statement, rfl, rfl⟩
  | name => exact ⟨[⟨.ident, "x"⟩, Token.assign, ⟨.ident, "x"⟩], complete, rfl, rfl⟩
  | sign => exact ⟨[Token.assign, ⟨.ident, "x"⟩], complete, rfl, rfl⟩
  | operand => exact ⟨[⟨.ident, "x"⟩], complete, rfl, rfl⟩
  | complete => exact ⟨[], complete, rfl, rfl⟩

theorem exists_run_of_append {last : Phase} (h : phase.run (row ++ rest) = some last) :
    ∃ next, phase.run row = some next := by
  induction row generalizing phase with
  | nil => exact ⟨phase, rfl⟩
  | cons token row ih =>
      obtain ⟨middle, hstep, hrun⟩ := Option.bind_eq_some_iff.mp h
      obtain ⟨next, hnext⟩ := ih hrun
      exact ⟨next, (run_cons phase hstep row).trans hnext⟩

/-- **Some program starts with a row exactly if the automaton has a step for each of its
tokens.** -/
theorem exists_run_iff_viable : (∃ next, statement.run row = some next) ↔ Viable row := by
  constructor
  · rintro ⟨next, hrun⟩
    obtain ⟨more, hmore⟩ := next.exists_accepts
    have hleads : statement.Leads (row ++ more) next more := ⟨row, rfl, hrun⟩
    exact ⟨more, program_iff_accepts.mpr (hleads.accepts_iff.mpr hmore)⟩
  · rintro ⟨more, hprogram⟩
    obtain ⟨last, hrun, -⟩ := program_iff_accepts.mp hprogram
    exact exists_run_of_append hrun

theorem not_viable_of_step_eq_none (hrun : statement.run used = some next)
    (hstep : next.step token = none) : ¬ Viable (used ++ [token]) := by
  intro hviable
  obtain ⟨last, hlast⟩ := exists_run_iff_viable.mpr hviable
  rw [run_append hrun, run, hstep] at hlast
  cases hlast

theorem faultAt_of_step_eq_none (hrun : statement.run used = some next)
    (hstep : next.step token = none) (more : List Token) :
    FaultAt (used ++ token :: more) used.length := by
  refine ⟨?_, fun hviable => ?_⟩
  · rw [List.take_left]
    exact exists_run_iff_viable.mp ⟨next, hrun⟩
  · have hlength : (used ++ [token]).length = used.length + 1 := by simp
    rw [List.append_cons, ← hlength, List.take_left] at hviable
    exact not_viable_of_step_eq_none hrun hstep hviable

theorem step_eof (phase : Phase) : phase.step Token.eof = none := by
  cases phase with
  | statement | name | sign | operand | complete => rfl

theorem BreaksOff.suffix (h : phase.BreaksOff row rest) : rest <:+ row := by
  obtain ⟨next, ⟨used, rfl, -⟩, -⟩ := h
  exact List.suffix_append used rest

/-- **Where a program breaks off there is a fault**, which is the end of the text if nothing else is
left. -/
theorem BreaksOff.exists_faultAt (h : statement.BreaksOff row rest) :
    ∃ index, FaultAt (row ++ [Token.eof]) index ∧
      (row ++ [Token.eof])[index]? = some (Token.current rest) ∧
      (rest = [] ↔ Viable row) := by
  obtain ⟨next, ⟨used, rfl, hrun⟩, hstuck, -⟩ := h
  refine ⟨used.length, ?_⟩
  cases rest with
  | nil =>
      rw [List.append_nil]
      refine ⟨faultAt_of_step_eq_none hrun next.step_eof [], List.getElem?_concat_length, ?_⟩
      exact iff_of_true rfl (exists_run_iff_viable.mp ⟨next, hrun⟩)
  | cons token rest =>
      have hfault := faultAt_of_step_eq_none hrun (stuck_cons_iff.mp hstuck)
      rw [List.append_assoc, List.cons_append]
      refine ⟨hfault _, by simp, ?_⟩
      refine iff_of_false (List.cons_ne_nil token rest) fun hviable => (hfault rest).2 ?_
      exact hviable.mono (List.take_prefix _ _)

end Phase

/-! ### The first diagnostic -/

namespace Grammar

/-- The first diagnostic of a row is about the token where the program breaks off. -/
theorem exists_breaksOff {row : List Token} {d : Diagnostic} {more : List Diagnostic}
    (h : diagnosticsOf (standard.entries row) = d :: more) :
    ∃ fault, Phase.statement.BreaksOff row fault ∧ d.About (Token.current fault) := by
  induction row using entries.induct standard with
  | case1 =>
      rw [entries_nil] at h
      cases h
  | case2 token rest _ ih =>
      rw [entries_cons] at h
      obtain ⟨s, after, hread⟩ | ⟨other, after, hfail⟩ :=
        readsStatement_or_fails standard (standard.ruleAt (token :: rest)) (token :: rest)
      · rw [hread.entry] at ih h
        obtain ⟨fault, hbreaks, habout⟩ := ih h
        obtain ⟨phase, hbetween, hleads⟩ := hread.leads
        exact ⟨fault, hleads.breaksOff (hbetween.breaksOff hbreaks), habout⟩
      · rw [hfail.entry] at h
        obtain rfl : other = d := (List.cons.inj h).1
        exact ⟨_, hfail.breaksOff (List.cons_ne_nil token rest)⟩

end Grammar

/-- **The first fault is reported where it is.**  If a parse has diagnostics, the first of them is
about the earliest token of the source text with which no program can go on after the tokens in
front of it.  This is the token at the end exactly if the text is no program, but the beginning of
one. -/
theorem parse_first_diagnostic (source : String) (d : Diagnostic) (more : List Diagnostic)
    (h : (parse source).2 = d :: more) :
    ∃ index token,
      IsLeast {i | FaultAt (Token.tokenize source) i} index ∧
      (Token.tokenize source)[index]? = some token ∧ d.About token ∧
      (token.kind = .eof ↔ Viable (Token.tokenize source).dropLast ∧
        ¬ Phrase.Program (Token.tokenize source).dropLast) := by
  obtain ⟨fault, hbreaks, habout⟩ := Grammar.exists_breaksOff h
  obtain ⟨index, hfault, htoken, hviable⟩ := hbreaks.exists_faultAt
  have hkind : (Token.current fault).kind = .eof ↔ fault = [] := by
    refine ⟨fun heof => ?_, fun hnil => by rw [hnil]; rfl⟩
    by_contra hne
    obtain ⟨first, rest, rfl⟩ := List.exists_cons_of_ne_nil hne
    have hmem : first ∈ Token.lex source.toList := hbreaks.suffix.subset List.mem_cons_self
    exact (Token.scanned_of_mem_lex hmem).kind_ne_eof heof
  have hprogram : ¬ Phrase.Program (Token.lex source.toList) :=
    fun h => hbreaks.not_accepts (Phase.program_iff_accepts.mp h)
  refine ⟨index, Token.current fault, hfault.isLeast, htoken, habout, ?_⟩
  rw [hkind, hviable, Token.tokenize, List.dropLast_concat, and_iff_left hprogram]

/-- A word that starts no operand, in front of a parenthesis that does not either. -/
theorem parse_first_diagnostic_keyword :
    (parse "let a = 5 * fn; b c )").2 =
      [⟨.noPrefixRule .functionKw, "fn"⟩, ⟨.noPrefixRule .rparen, ")"⟩] ∧
    ∃ index token,
      IsLeast {i | FaultAt (Token.tokenize "let a = 5 * fn; b c )") i} index ∧
      (Token.tokenize "let a = 5 * fn; b c )")[index]? = some token ∧
      Diagnostic.About ⟨.noPrefixRule .functionKw, "fn"⟩ token ∧
      (token.kind = .eof ↔ Viable (Token.tokenize "let a = 5 * fn; b c )").dropLast ∧
        ¬ Phrase.Program (Token.tokenize "let a = 5 * fn; b c )").dropLast) :=
  have h := by decide +kernel
  ⟨h, parse_first_diagnostic _ _ _ h⟩

end Monkey
