import Monkey.Token

/-!
# The phrases of the language

The language of the programs without fault, as a grammar on rows of tokens:

* an operand is a name or an integer within the limit, after any number of signs `!` and `-`;
* an expression is a row of operands with one of eight operators between every two of them;
* a statement is an expression, after a word `let` with a name and a sign of assignment, or after
  the word `return`, or after nothing, and a semicolon may end it;
* a program is a row of statements.

The grammar is ambiguous, as a sign `-` may go on with an expression or start the next statement.
`Phase.step` is a deterministic automaton for the same language: `program_iff_accepts` says that
it accepts exactly the programs, because after `-` an operand is due in either reading.
-/

namespace Monkey

/-- The kinds that stand between two operands. -/
def Kind.infixes : List Kind :=
  [plus, minus, asterisk, slash, eq, notEq, lt, gt]

/-! ### The grammar -/

namespace Phrase

/-- A name or an integer within the limit, and the signs in front of it. -/
inductive Operand : List Token → Prop
  | name {token : Token} : token.kind = .ident → Operand [token]
  | integer {token : Token} {n : Nat} :
      token.kind = .int → Text.natValue? token.literal = some n → n ≤ Text.maxInt →
      Operand [token]
  | sign {token : Token} {row : List Token} :
      token.kind = .bang ∨ token.kind = .minus → Operand row → Operand (token :: row)

/-- Operands with operators between them. -/
inductive Expression : List Token → Prop
  | operand {row : List Token} : Operand row → Expression row
  | operator {row more : List Token} {token : Token} :
      Operand row → token.kind ∈ Kind.infixes → Expression more →
      Expression (row ++ token :: more)

/-- What stands in front of the expression of a statement. -/
inductive Opening : List Token → Prop
  | binding {word name sign : Token} :
      word.kind = .letKw → name.kind = .ident → sign.kind = .assign → Opening [word, name, sign]
  | returning {word : Token} : word.kind = .returnKw → Opening [word]
  | bare : Opening []

/-- What stands behind the expression of a statement. -/
inductive Closing : List Token → Prop
  | semicolon {token : Token} : token.kind = .semicolon → Closing [token]
  | nothing : Closing []

/-- An expression with what stands in front of it and behind it. -/
def Statement (row : List Token) : Prop :=
  ∃ opening body closing,
    Opening opening ∧ Expression body ∧ Closing closing ∧ row = opening ++ body ++ closing

/-- Any number of statements. -/
def Program (row : List Token) : Prop :=
  ∃ statements : List (List Token), (∀ s ∈ statements, Statement s) ∧ row = statements.flatten

theorem Expression.sign {token : Token} {row : List Token}
    (htoken : token.kind = .bang ∨ token.kind = .minus) (h : Expression row) :
    Expression (token :: row) := by
  cases h with
  | operand hrow => exact .operand (.sign htoken hrow)
  | operator hrow hinfixes hmore => exact .operator (.sign htoken hrow) hinfixes hmore

theorem Expression.append {token : Token} {row more : List Token} (h : Expression row)
    (hinfixes : token.kind ∈ Kind.infixes) (hmore : Expression more) :
    Expression (row ++ token :: more) := by
  induction h with
  | operand hrow => exact .operator hrow hinfixes hmore
  | @operator row rest first hrow hfirst _ ih =>
      rw [List.append_assoc, List.cons_append]
      exact .operator hrow hfirst ih

theorem program_nil : Program [] :=
  ⟨[], List.forall_mem_nil _, rfl⟩

theorem Program.cons {row more : List Token} (h : Statement row) (hmore : Program more) :
    Program (row ++ more) := by
  obtain ⟨statements, hstatements, rfl⟩ := hmore
  exact ⟨row :: statements, List.forall_mem_cons.mpr ⟨h, hstatements⟩, rfl⟩

end Phrase

/-! ### The automaton -/

/-- What may come next in a program. -/
inductive Phase where
  /-- A statement or the end. -/
  | statement
  /-- The name of a binding. -/
  | name
  /-- The sign of assignment. -/
  | sign
  /-- An operand. -/
  | operand
  /-- An operator, a semicolon, another statement or the end. -/
  | complete
  deriving DecidableEq, Repr

namespace Phase

/-- The phase after a token where an operand is due. -/
def stepOperand (token : Token) : Option Phase :=
  match token.kind with
  | .bang | .minus => some operand
  | .ident => some complete
  | .int => if (Text.intValue? token.literal).isSome then some complete else none
  | _ => none

/-- The phase after a token where a statement is due. -/
def stepStatement (token : Token) : Option Phase :=
  match token.kind with
  | .letKw => some name
  | .returnKw => some operand
  | _ => stepOperand token

/-- The phase after a token behind an operand. -/
def stepComplete (token : Token) : Option Phase :=
  if token.kind ∈ Kind.infixes then some operand
  else if token.kind = .semicolon then some statement
  else stepStatement token

/-- The phase after a token, if the token may come next. -/
def step (phase : Phase) (token : Token) : Option Phase :=
  match phase with
  | statement => stepStatement token
  | name => if token.kind = .ident then some sign else none
  | sign => if token.kind = .assign then some operand else none
  | operand => stepOperand token
  | complete => stepComplete token

/-- The phase after a row of tokens, if each of them may come next. -/
def run : Phase → List Token → Option Phase
  | phase, [] => some phase
  | phase, token :: row => (phase.step token).bind fun next => run next row

/-- The phases in which a program may end. -/
def mayEnd : Phase → Bool
  | statement | complete => true
  | _ => false

/-- The row may come next, and the program may end after it. -/
def Accepts (phase : Phase) (row : List Token) : Prop :=
  ∃ last, phase.run row = some last ∧ last.mayEnd = true

theorem run_cons (phase : Phase) {next : Phase} {token : Token} (h : phase.step token = some next)
    (row : List Token) : phase.run (token :: row) = next.run row := by
  rw [run, h, Option.bind_some]

theorem run_append {phase next : Phase} {row : List Token} (h : phase.run row = some next)
    (more : List Token) : phase.run (row ++ more) = next.run more := by
  induction row generalizing phase with
  | nil =>
      obtain rfl : phase = next := Option.some.inj h
      rfl
  | cons token row ih =>
      obtain ⟨middle, hstep, hrun⟩ := Option.bind_eq_some_iff.mp h
      rw [List.cons_append, run_cons phase hstep, ih hrun]

theorem accepts_cons_iff {phase : Phase} {token : Token} {row : List Token} :
    phase.Accepts (token :: row) ↔ ∃ next, phase.step token = some next ∧ next.Accepts row := by
  constructor
  · rintro ⟨last, hrun, hend⟩
    obtain ⟨next, hstep, hrun⟩ := Option.bind_eq_some_iff.mp hrun
    exact ⟨next, hstep, last, hrun, hend⟩
  · rintro ⟨next, hstep, last, hrun, hend⟩
    exact ⟨last, (run_cons phase hstep row).trans hrun, hend⟩

/-! ### Passing along a row -/

/-- The automaton passes from a phase in front of a row to another in front of a rest of it. -/
def Leads (phase : Phase) (row : List Token) (next : Phase) (rest : List Token) : Prop :=
  ∃ used, row = used ++ rest ∧ phase.run used = some next

namespace Leads

variable {phase next last : Phase} {token : Token} {row rest more : List Token}

theorem refl (phase : Phase) (row : List Token) : phase.Leads row phase row :=
  ⟨[], rfl, rfl⟩

theorem trans (h : phase.Leads row next rest) (h' : next.Leads rest last more) :
    phase.Leads row last more := by
  obtain ⟨used, rfl, hrun⟩ := h
  obtain ⟨used', rfl, hrun'⟩ := h'
  exact ⟨used ++ used', (List.append_assoc used used' more).symm,
    (run_append hrun used').trans hrun'⟩

theorem step (phase : Phase) {next : Phase} (h : phase.step token = some next) (row : List Token) :
    phase.Leads (token :: row) next row :=
  ⟨[token], rfl, run_cons phase h []⟩

theorem accepts_iff (h : phase.Leads row next rest) : phase.Accepts row ↔ next.Accepts rest := by
  obtain ⟨used, rfl, hrun⟩ := h
  rw [Accepts, Accepts, run_append hrun]

end Leads

/-! ### The phases of one token -/

variable {phase next : Phase} {token : Token} {row : List Token}

theorem stepOperand_of_sign (h : token.kind = .bang ∨ token.kind = .minus) :
    stepOperand token = some operand := by
  obtain h | h := h
  · simp only [stepOperand, h]
  · simp only [stepOperand, h]

theorem stepOperand_of_name (h : token.kind = .ident) : stepOperand token = some complete := by
  simp only [stepOperand, h]

theorem stepOperand_of_integer {n : Nat} (h : token.kind = .int)
    (hvalue : Text.intValue? token.literal = some n) : stepOperand token = some complete := by
  simp only [stepOperand, h, hvalue, Option.isSome_some, if_true]

theorem stepOperand_cases (h : stepOperand token = some next) :
    ((token.kind = .bang ∨ token.kind = .minus) ∧ next = operand) ∨
      (Phrase.Operand [token] ∧ next = complete) := by
  unfold stepOperand at h
  split at h
  · next hkind => exact .inl ⟨.inl hkind, (Option.some.inj h).symm⟩
  · next hkind => exact .inl ⟨.inr hkind, (Option.some.inj h).symm⟩
  · next hkind => exact .inr ⟨.name hkind, (Option.some.inj h).symm⟩
  · next hkind =>
    split at h
    · next hvalue =>
      obtain ⟨n, hn⟩ := Option.isSome_iff_exists.mp hvalue
      obtain ⟨hn, hle⟩ := Text.intValue?_eq_some_iff.mp hn
      exact .inr ⟨.integer hkind hn hle, (Option.some.inj h).symm⟩
    · cases h
  · cases h

theorem stepStatement_of_let (h : token.kind = .letKw) : stepStatement token = some name := by
  simp only [stepStatement, h]

theorem stepStatement_of_return (h : token.kind = .returnKw) :
    stepStatement token = some operand := by
  simp only [stepStatement, h]

theorem stepStatement_of_stepOperand (h : stepOperand token = some next) :
    stepStatement token = some next := by
  unfold stepStatement
  split
  · next hkind => simp [stepOperand, hkind] at h
  · next hkind => simp [stepOperand, hkind] at h
  · exact h

/-- What may come where a statement is due may also come behind an operand, and means the same
there. -/
theorem stepComplete_of_stepStatement (h : stepStatement token = some next) :
    stepComplete token = some next := by
  unfold stepComplete
  split
  · next hinfixes =>
    have hminus : token.kind = .minus := by
      simp only [Kind.infixes, List.mem_cons, List.not_mem_nil, or_false] at hinfixes
      rcases hinfixes with hkind | hkind | hkind | hkind | hkind | hkind | hkind | hkind
      all_goals simp [stepStatement, stepOperand, hkind] at h ⊢
    simpa [stepStatement, stepOperand, hminus] using h
  · split
    · next hkind => simp [stepStatement, stepOperand, hkind] at h
    · exact h

theorem stepComplete_of_mem_infixes (h : token.kind ∈ Kind.infixes) :
    stepComplete token = some operand :=
  if_pos h

theorem stepComplete_of_semicolon (h : token.kind = .semicolon) :
    stepComplete token = some statement := by
  simp [stepComplete, h, Kind.infixes]

theorem accepts_statement_of_operand (h : operand.Accepts row) : statement.Accepts row := by
  cases row with
  | nil => exact ⟨statement, rfl, rfl⟩
  | cons token row =>
      obtain ⟨next, hstep, hrow⟩ := accepts_cons_iff.mp h
      exact accepts_cons_iff.mpr ⟨next, stepStatement_of_stepOperand hstep, hrow⟩

theorem accepts_complete_of_statement (h : statement.Accepts row) : complete.Accepts row := by
  cases row with
  | nil => exact ⟨complete, rfl, rfl⟩
  | cons token row =>
      obtain ⟨next, hstep, hrow⟩ := accepts_cons_iff.mp h
      exact accepts_cons_iff.mpr ⟨next, stepComplete_of_stepStatement hstep, hrow⟩

/-! ### Programs are accepted -/

theorem run_of_operand (h : Phrase.Operand row) : operand.run row = some complete := by
  induction h with
  | name hkind => exact run_cons operand (stepOperand_of_name hkind) []
  | integer hkind hvalue hle =>
      have hvalue := Text.intValue?_eq_some_iff.mpr ⟨hvalue, hle⟩
      exact run_cons operand (stepOperand_of_integer hkind hvalue) []
  | sign hkind _ ih => exact (run_cons operand (stepOperand_of_sign hkind) _).trans ih

theorem run_of_expression (h : Phrase.Expression row) : operand.run row = some complete := by
  induction h with
  | operand hrow => exact run_of_operand hrow
  | operator hrow hinfixes _ ih =>
      have hstep : complete.step _ = some operand := stepComplete_of_mem_infixes hinfixes
      rw [run_append (run_of_operand hrow), run_cons complete hstep, ih]

/-- After a statement that a program goes on with, the program goes on. -/
theorem accepts_append_of_statement {more : List Token} (h : Phrase.Statement row)
    (hmore : statement.Accepts more) : statement.Accepts (row ++ more) := by
  obtain ⟨opening, body, closing, hopening, hbody, hclosing, rfl⟩ := h
  have hclose : complete.Accepts (closing ++ more) := by
    cases hclosing with
    | semicolon hkind =>
        exact accepts_cons_iff.mpr ⟨statement, stepComplete_of_semicolon hkind, hmore⟩
    | nothing => exact accepts_complete_of_statement hmore
  have hexpression : operand.Accepts (body ++ (closing ++ more)) :=
    (Leads.accepts_iff ⟨body, rfl, run_of_expression hbody⟩).mpr hclose
  rw [List.append_assoc, List.append_assoc]
  cases hopening with
  | binding hword hname hsign =>
      refine accepts_cons_iff.mpr ⟨name, stepStatement_of_let hword, ?_⟩
      refine accepts_cons_iff.mpr ⟨sign, if_pos hname, ?_⟩
      exact accepts_cons_iff.mpr ⟨operand, if_pos hsign, hexpression⟩
  | returning hword =>
      exact accepts_cons_iff.mpr ⟨operand, stepStatement_of_return hword, hexpression⟩
  | bare => exact accepts_statement_of_operand hexpression

theorem accepts_of_program (h : Phrase.Program row) : statement.Accepts row := by
  obtain ⟨statements, hstatements, rfl⟩ := h
  induction statements with
  | nil => exact ⟨statement, rfl, rfl⟩
  | cons s statements ih =>
      obtain ⟨hs, hstatements⟩ := List.forall_mem_cons.mp hstatements
      rw [List.flatten_cons]
      exact accepts_append_of_statement hs (ih hstatements)

/-! ### What is accepted is a program -/

/-- The rows that may be read before an expression: with any expression after them they are one. -/
def Prefixes (before : List Token) : Prop :=
  ∀ body, Phrase.Expression body → Phrase.Expression (before ++ body)

/-- The row makes a program with whatever may have been read up to the phase. -/
def Residual : Phase → List Token → Prop
  | statement, row => Phrase.Program row
  | name, row => ∀ word : Token, word.kind = .letKw → Phrase.Program (word :: row)
  | sign, row => ∀ word name : Token, word.kind = .letKw → name.kind = .ident →
      Phrase.Program (word :: name :: row)
  | operand, row => ∀ opening before, Phrase.Opening opening → Prefixes before →
      Phrase.Program (opening ++ (before ++ row))
  | complete, row => ∀ opening body, Phrase.Opening opening → Phrase.Expression body →
      Phrase.Program (opening ++ (body ++ row))

theorem program_of_stepStatement (hstep : stepStatement token = some next)
    (hrow : next.Residual row) : Phrase.Program (token :: row) := by
  have bare (h : stepOperand token = some next) : Phrase.Program (token :: row) := by
    obtain ⟨hsign, rfl⟩ | ⟨hoperand, rfl⟩ := stepOperand_cases h
    · exact hrow [] [token] .bare fun body hbody => hbody.sign hsign
    · exact hrow [] [token] .bare (.operand hoperand)
  unfold stepStatement at hstep
  split at hstep
  · next hkind =>
    obtain rfl := Option.some.inj hstep
    exact hrow token hkind
  · next hkind =>
    obtain rfl := Option.some.inj hstep
    exact hrow [token] [] (.returning hkind) fun body hbody => hbody
  · exact bare hstep

theorem residual_of_step (hstep : phase.step token = some next) (hrow : next.Residual row) :
    phase.Residual (token :: row) := by
  cases phase with
  | statement => exact program_of_stepStatement hstep hrow
  | name =>
      obtain ⟨hkind, rfl⟩ : token.kind = .ident ∧ sign = next := by simpa [step] using hstep
      exact fun word hword => hrow word token hword hkind
  | sign =>
      obtain ⟨hkind, rfl⟩ : token.kind = .assign ∧ operand = next := by simpa [step] using hstep
      intro word name hword hname
      exact hrow [word, name, token] [] (.binding hword hname hkind) fun body hbody => hbody
  | operand =>
      intro opening before hopening hbefore
      rw [List.append_cons before]
      obtain ⟨hsign, rfl⟩ | ⟨hoperand, rfl⟩ := stepOperand_cases hstep
      · refine hrow opening (before ++ [token]) hopening fun body hbody => ?_
        rw [← List.append_cons]
        exact hbefore _ (hbody.sign hsign)
      · exact hrow opening (before ++ [token]) hopening (hbefore _ (.operand hoperand))
  | complete =>
      intro opening body hopening hbody
      have closed {closing more : List Token} (hclosing : Phrase.Closing closing)
          (hmore : Phrase.Program more) :
          Phrase.Program (opening ++ (body ++ (closing ++ more))) := by
        rw [← List.append_assoc, ← List.append_assoc]
        exact .cons ⟨opening, body, closing, hopening, hbody, hclosing, rfl⟩ hmore
      change stepComplete token = some next at hstep
      unfold stepComplete at hstep
      split at hstep
      · next hinfixes =>
        obtain rfl := Option.some.inj hstep
        rw [List.append_cons body]
        refine hrow opening (body ++ [token]) hopening fun more hmore => ?_
        rw [← List.append_cons]
        exact hbody.append hinfixes hmore
      · split at hstep
        · next hkind =>
          obtain rfl := Option.some.inj hstep
          exact closed (.semicolon hkind) hrow
        · exact closed .nothing (program_of_stepStatement hstep hrow)

theorem residual_of_accepts (h : phase.Accepts row) : phase.Residual row := by
  induction row generalizing phase with
  | nil =>
      obtain ⟨last, hrun, hend⟩ := h
      obtain rfl : phase = last := Option.some.inj hrun
      cases phase with
      | statement => exact Phrase.program_nil
      | name | sign | operand => cases hend
      | complete =>
          intro opening body hopening hbody
          have := Phrase.Program.cons ⟨opening, body, [], hopening, hbody, .nothing, rfl⟩
            Phrase.program_nil
          simpa using this
  | cons token row ih =>
      obtain ⟨next, hstep, hrow⟩ := accepts_cons_iff.mp h
      exact residual_of_step hstep (ih hrow)

/-- **The automaton accepts exactly the programs.** -/
theorem program_iff_accepts : Phrase.Program row ↔ statement.Accepts row :=
  ⟨accepts_of_program, fun h => residual_of_accepts h⟩

end Phase

end Monkey
