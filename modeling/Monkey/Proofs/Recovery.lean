import Monkey.Proofs.Earliest
import Monkey.Proofs.Nodes

/-!
# Going on after a fault

A statement that cannot be read has a fault: the tokens in front of it are the beginning of some
statement, and with it they are the beginning of none.  The diagnostic is about the token at fault,
and it settles where reading goes on (`Grammar.Recovers`): a missing name or sign of assignment is
not passed, unless it is a semicolon that stands in its place, and a token that starts no operand is
passed together with a semicolon behind it.

`recovers_of_turn` says so for every turn of a parse that fails.  That no fault comes earlier is
known from the automaton for programs.  That the tokens in front of it belong to one statement is
not, as the automaton goes on from one statement to the next; `Fails.prefixes` finds what an
expression was broken off from.
-/

namespace Monkey

/-! ### Beginnings of statements -/

namespace Phrase

variable {row opening before : List Token}

/-- Some statement starts with the row. -/
def Begins (row : List Token) : Prop :=
  ∃ more, Statement (row ++ more)

/-- Some statement starts with the row and goes on. -/
def Unfinished (row : List Token) : Prop :=
  ∃ more, more ≠ [] ∧ Statement (row ++ more)

theorem Begins.viable (h : Begins row) : Viable row := by
  obtain ⟨more, hstatement⟩ := h
  refine ⟨more, ?_⟩
  have hprogram := Program.cons hstatement program_nil
  rwa [List.append_nil] at hprogram

theorem unfinished_of_prefixes (hopening : Opening opening) (hbefore : Phase.Prefixes before) :
    Unfinished (opening ++ before) := by
  let x : Token := ⟨.ident, "x"⟩
  have hbody : Expression (before ++ [x]) := hbefore [x] (.operand (.name rfl))
  refine ⟨[x], List.cons_ne_nil x [], opening, before ++ [x], [], hopening, hbody, .nothing, ?_⟩
  rw [List.append_nil, List.append_assoc]

theorem unfinished_let {word : Token} (hword : word.kind = .letKw) : Unfinished [word] := by
  let x : Token := ⟨.ident, "x"⟩
  refine ⟨[x, Token.assign, x], List.cons_ne_nil _ _, [word, x, Token.assign], [x], [], ?_⟩
  exact ⟨.binding hword rfl rfl, .operand (.name rfl), .nothing, rfl⟩

theorem unfinished_let_name {word name : Token} (hword : word.kind = .letKw)
    (hname : name.kind = .ident) : Unfinished [word, name] := by
  let x : Token := ⟨.ident, "x"⟩
  refine ⟨[Token.assign, x], List.cons_ne_nil _ _, [word, name, Token.assign], [x], [], ?_⟩
  exact ⟨.binding hword hname rfl, .operand (.name rfl), .nothing, rfl⟩

end Phrase

theorem Expr.WellFormed.expression {e : Expr} (h : e.WellFormed) : Phrase.Expression e.tokens := by
  induction e with
  | ident name => exact .operand (.name h.1)
  | int token value =>
      obtain ⟨hkind, hvalue⟩ := h
      obtain ⟨n, hn, -⟩ := Option.map_eq_some_iff.mp hvalue
      obtain ⟨hn, hle⟩ := Text.intValue?_eq_some_iff.mp hn
      exact .operand (.integer hkind hn hle)
  | unary operator operand ih => exact (ih h.2).sign h.1
  | binary left operator right ihleft ihright =>
      exact (ihleft h.2.1).append h.1 (ihright h.2.2)

namespace Phase

variable {operators before more : List Token}

theorem prefixes_nil : Prefixes [] :=
  fun _ hbody => hbody

theorem Prefixes.append (h : Prefixes before) (hmore : Prefixes more) :
    Prefixes (before ++ more) := by
  intro body hbody
  rw [List.append_assoc]
  exact h _ (hmore body hbody)

theorem prefixes_signs
    (hsigns : ∀ operator ∈ operators, operator.kind = .bang ∨ operator.kind = .minus) :
    Prefixes operators := by
  induction operators with
  | nil => exact prefixes_nil
  | cons operator operators ih =>
      obtain ⟨hsign, hsigns⟩ := List.forall_mem_cons.mp hsigns
      exact fun body hbody => (ih hsigns body hbody).sign hsign

theorem prefixes_operator {body : List Token} {operator : Token} (hbody : Phrase.Expression body)
    (hoperator : operator.kind ∈ Kind.infixes) : Prefixes (body ++ [operator]) := by
  intro more hmore
  rw [← List.append_cons]
  exact hbody.append hoperator hmore

/-- With the token where a program breaks off the row is the beginning of no statement. -/
theorem BreaksOff.not_begins {used fault : List Token}
    (h : statement.BreaksOff (used ++ fault) fault) :
    ¬ Phrase.Begins (used ++ [Token.current fault]) := by
  obtain ⟨next, ⟨used', hrow, hrun⟩, hstuck, -⟩ := h
  obtain rfl : used = used' := List.append_cancel_right hrow
  have hstep : next.step (Token.current fault) = none := by
    cases fault with
    | nil => exact next.step_eof
    | cons token rest => exact stuck_cons_iff.mp hstuck
  exact fun hbegins => not_viable_of_step_eq_none hrun hstep hbegins.viable

end Phase

namespace Token

theorem current_append_eof (row : List Token) : current (row ++ [eof]) = current row := by
  cases row with
  | nil | cons => rfl

theorem take_one_append_eof (row : List Token) : (row ++ [eof]).take 1 = [current row] := by
  cases row with
  | nil | cons => rfl

end Token

namespace Grammar

open Phrase (Begins Unfinished unfinished_let unfinished_let_name unfinished_of_prefixes)

variable {goal : Goal} {row rest : List Token} {e : Expr} {d : Diagnostic}

/-! ### What an expression is broken off from -/

/-- The tokens may be read before an expression, where the goal stands behind a left operand with
such an operand in front of them. -/
def Goal.Prefixes : Goal → List Token → Prop
  | rightOperand _ _, before => ∀ body, Phrase.Expression body → Phase.Prefixes (body ++ before)
  | operators _ _, before => ∀ body, Phrase.Expression body → Phase.Prefixes (body ++ before)
  | _, before => Phase.Prefixes before

theorem Reads.expression_append {left : Expr} {power : Power}
    (h : Reads standard (.rightOperand left power) row e rest)
    (hrow : (Goal.rightOperand left power).Fits standard row) :
    ∃ used, row = used ++ rest.tail ∧
      ∀ body, Phrase.Expression body → Phrase.Expression (body ++ used) := by
  cases h with
  | @rightOperand _ right _ operator row after hright =>
      have hwell : right.WellFormed := hright.wellFormed trivial trivial
      refine ⟨operator :: right.tokens, ?_, fun body hbody => ?_⟩
      · rw [hright.row_eq groupFree_standard, List.cons_append]
      · exact hbody.append (mem_infixes_of_fits hrow) hwell.expression

/-- **Where a reading fails an expression is broken off**: what it has used up may be read before an
operand. -/
theorem Fails.prefixes (h : Fails standard goal row d rest) (hrow : goal.Fits standard row) :
    ∃ before, goal.ahead row = before ++ rest ∧ goal.Prefixes before := by
  induction h with
  | expressionOperand _ ih => exact ih trivial
  | @expressionOperators _ _ after _ left _ hleft _ ih =>
      obtain ⟨before, hafter, hbefore⟩ := ih trivial
      have hexpression := (hleft.wellFormed trivial trivial).expression
      refine ⟨left.tokens ++ before, ?_, hbefore _ hexpression⟩
      have htail : after.tail = before ++ _ := hafter
      rw [List.append_assoc, ← htail]
      exact hleft.unread_eq groupFree_standard trivial
  | operandNil | operandNone | primaryInteger | primaryKind =>
      exact ⟨[], rfl, Phase.prefixes_nil⟩
  | operand hrule _ ih => exact ih (fits_operandBy hrule)
  | operandByNil =>
      obtain ⟨_, _, hnil, _⟩ := hrow
      cases hnil
  | @unaryRun token row after _ _ ih =>
      obtain ⟨before, hafter, hbefore⟩ := ih trivial
      have hsigns : Phase.Prefixes (token :: row.takeWhile Token.isUnarySign) := by
        refine Phase.prefixes_signs (List.forall_mem_cons.mpr ⟨sign_of_fits hrow, ?_⟩)
        intro operator hoperator
        exact Token.isUnarySign_iff.mp (List.mem_takeWhile_imp hoperator)
      refine ⟨token :: row.takeWhile Token.isUnarySign ++ before, ?_, hsigns.append hbefore⟩
      have hdrop : row.dropWhile Token.isUnarySign = before ++ after := hafter
      rw [List.append_assoc, ← hdrop, List.cons_append, List.takeWhile_append_dropWhile]
      rfl
  | unaryOnce | groupInner | groupEnd =>
      obtain ⟨hrule, _⟩ | ⟨hrule, _⟩ := operand_standard_cases (operand_of_fits hrow)
      · cases hrule
      · cases hrule
  | rightOperandNil =>
      obtain ⟨_, _, _, hnil, _⟩ := hrow
      cases hnil
  | @rightOperand _ _ operator row after _ _ ih =>
      obtain ⟨before, hafter, hbefore⟩ := ih trivial
      refine ⟨operator :: before, congrArg (operator :: ·) hafter, fun body hbody => ?_⟩
      rw [List.append_cons]
      exact (Phase.prefixes_operator hbody (mem_infixes_of_fits hrow)).append hbefore
  | operatorsRight hnext _ ih => exact ih (fits_rightOperand hnext)
  | @operatorsStep _ _ _ _ _ _ after last _ hnext hright _ ih =>
      obtain ⟨used, hused, hexpression⟩ := hright.expression_append (fits_rightOperand hnext)
      obtain ⟨before, hafter, hbefore⟩ := ih trivial
      have htail : after.tail = before ++ last := hafter
      refine ⟨used ++ before, ?_, fun body hbody => ?_⟩
      · rw [List.append_assoc, ← htail, ← hused]
        rfl
      · rw [← List.append_assoc]
        exact hbefore _ (hexpression body hbody)

/-! ### Where reading goes on -/

/-- The number of tokens that are passed from a token on that starts no operand: the token, and a
semicolon behind it unless it is one itself; the end is not passed. -/
def passed (token : Token) (rest : List Token) : Nat :=
  if token.kind = .eof then 0
  else if token.kind ≠ .semicolon ∧ (Token.current rest).kind = .semicolon then 2
  else 1

/-- A statement has a fault behind the tokens of the first row, which is the first token of the
second row: what is told about it, and how many tokens of the second row are passed before reading
goes on. -/
inductive Recovers : List Token → List Token → Diagnostic → Nat → Prop
  | name {word token : Token} {rest : List Token} :
      word.kind = .letKw → token.kind ≠ .ident →
      Recovers [word] (token :: rest) ⟨.unexpectedToken .ident token.kind, token.literal⟩
        (if token.kind = .semicolon then 1 else 0)
  | sign {word name token : Token} {rest : List Token} :
      word.kind = .letKw → name.kind = .ident → token.kind ≠ .assign →
      Recovers [word, name] (token :: rest) ⟨.unexpectedToken .assign token.kind, token.literal⟩
        (if token.kind = .semicolon then 1 else 0)
  | operand {used rest : List Token} {token : Token} :
      token.kind ∉ Kind.operands →
      Recovers used (token :: rest) ⟨.noPrefixRule token.kind, token.literal⟩ (passed token rest)
  | integer {used rest : List Token} {token : Token} {n : Nat} :
      token.kind = .int → Text.natValue? token.literal = some n → Text.maxInt < n →
      Recovers used (token :: rest) ⟨.badInteger token.literal, token.literal⟩ (passed token rest)

/-- The tokens up to a fault are the beginning of a statement, and reading goes on behind the tokens
that are passed.  The fault is the first token of the second row, or the end of the tokens. -/
structure GoesOn (used fault : List Token) (d : Diagnostic) (next : List Token) : Prop where
  unfinished : Unfinished used
  passes : ∃ n ≤ fault.length, next = fault.drop n ∧ Recovers used (fault ++ [Token.eof]) d n

/-- Reading goes on with the token that was not expected, or behind it if it is a semicolon. -/
theorem tail_resume_cons {token : Token} (htoken : token.kind ≠ .semicolon) (fault : List Token) :
    (Token.resume (token :: fault)).tail =
      fault.drop (if (Token.current fault).kind = .semicolon then 1 else 0) := by
  rw [Token.resume, Token.current_cons, Token.peek_cons]
  by_cases hfault : (Token.current fault).kind = .semicolon
  · rw [if_pos ⟨htoken, hfault⟩, if_pos hfault, List.drop_one]
    rfl
  · rw [if_neg fun h => hfault h.2, if_neg hfault]
    rfl

/-- Reading goes on behind the token that starts no operand, and behind a semicolon after it. -/
theorem tail_resume_eq_drop {token : Token} (htoken : token.kind ≠ .eof) (fault : List Token) :
    (Token.resume (token :: fault)).tail =
      (token :: fault).drop (passed token (fault ++ [Token.eof])) := by
  rw [Token.resume, passed, Token.current_cons, Token.peek_cons, Token.current_append_eof,
    if_neg htoken]
  split
  · rw [List.tail_cons, List.drop_succ_cons, List.drop_one]
  · rfl

theorem passed_le {token : Token} (fault : List Token) :
    passed token (fault ++ [Token.eof]) ≤ (token :: fault).length := by
  rw [passed, Token.current_append_eof, List.length_cons]
  split
  · exact Nat.zero_le _
  · split
    · next h =>
      cases fault with
      | nil => cases h.2
      | cons => simp
    · exact Nat.le_add_left _ _

theorem recovers_of_operandFault {used fault : List Token} {token : Token}
    (h : token.OperandFault d) (htoken : token.Lexable ∨ token = Token.eof) :
    Recovers used (token :: fault) d (passed token fault) := by
  cases h with
  | kind hkind => exact .operand hkind
  | integer hkind hvalue =>
      obtain hlexable | rfl := htoken
      · obtain ⟨n, hn⟩ := hlexable.exists_natValue? hkind
        refine .integer hkind hn ?_
        by_contra hle
        have hsome := Text.intValue?_eq_some_iff.mpr ⟨hn, Nat.not_lt.mp hle⟩
        rw [hvalue] at hsome
        cases hsome
      · cases hkind

theorem goesOn_of_unexpected {token : Token} {used fault : List Token} (hused : Unfinished used)
    (htoken : token.kind ≠ .semicolon)
    (h : ∀ more, Recovers used (Token.current fault :: more) d
      (if (Token.current fault).kind = .semicolon then 1 else 0)) :
    GoesOn used fault d (Token.resume (token :: fault)).tail := by
  refine ⟨hused, _, ?_, tail_resume_cons htoken fault, ?_⟩
  · cases fault with
    | nil => exact Nat.zero_le 0
    | cons first more =>
        rw [List.length_cons]
        split
        · exact Nat.le_add_left 1 _
        · exact Nat.zero_le _
  · cases fault with
    | nil => exact h []
    | cons first more => exact h (more ++ [Token.eof])

theorem Fails.goesOn {opening body : List Token} (hopening : Phrase.Opening opening)
    (h : Fails standard (.expression .lowest) body d rest) (hrest : ∀ token ∈ rest, token.Lexable) :
    ∃ used, opening ++ body = used ++ rest ∧ GoesOn used rest d (Token.resume rest).tail := by
  obtain ⟨before, hbody, hbefore⟩ := h.prefixes trivial
  have hsplit : body = before ++ rest := hbody
  have hfault := h.operandFault trivial
  refine ⟨opening ++ before, by rw [hsplit, List.append_assoc],
    unfinished_of_prefixes hopening hbefore, ?_⟩
  cases rest with
  | nil => exact ⟨0, Nat.le_refl 0, rfl, recovers_of_operandFault hfault (.inr rfl)⟩
  | cons token rest =>
      have htoken : token.Lexable := hrest token List.mem_cons_self
      exact ⟨_, passed_le rest, tail_resume_eq_drop htoken.scanned.kind_ne_eof rest,
        recovers_of_operandFault hfault (.inl htoken)⟩

/-- **A statement that cannot be read is given up at its fault**, and the diagnostic settles where
reading goes on. -/
theorem FailsStatement.goesOn
    (h : FailsStatement standard (standard.ruleAt row) row d rest) (hrow : row ≠ [])
    (hlexable : ∀ token ∈ row, token.Lexable) :
    ∃ used, row = used ++ d.faultRow rest ∧
      GoesOn used (d.faultRow rest) d (Token.resume rest).tail := by
  have hsuffix : rest <:+ row := by
    have := standard.rest_statementBy (standard.ruleAt row) row
    rwa [h.statementBy] at this
  have hrest : ∀ token ∈ rest, token.Lexable := fun token htoken =>
    hlexable token (hsuffix.subset htoken)
  have value {opening body : List Token} (hopening : Phrase.Opening opening)
      (hvalue : Fails standard (.expression .lowest) body d rest) :
      ∃ used, opening ++ body = used ++ d.faultRow rest ∧
        GoesOn used (d.faultRow rest) d (Token.resume rest).tail := by
    rw [(hvalue.operandFault trivial).faultRow_eq]
    exact hvalue.goesOn hopening hrest
  have hrule := ruleAt_standard row
  generalize standard.ruleAt row = rule at h hrule
  obtain ⟨word, row, rfl⟩ := List.exists_cons_of_ne_nil hrow
  rw [Token.current_cons] at hrule
  cases h with
  | bindingName hname =>
      have hword : word.kind = .letKw := by simpa using hrule
      have hsemicolon : word.kind ≠ .semicolon := by simp [hword]
      exact ⟨[word], rfl,
        goesOn_of_unexpected (unfinished_let hword) hsemicolon fun _ => .name hword hname⟩
  | @bindingSign _ name fault hname hsign =>
      have hword : word.kind = .letKw := by simpa using hrule
      have hsemicolon : name.kind ≠ .semicolon := by simp [hname]
      exact ⟨[word, name], rfl, goesOn_of_unexpected (unfinished_let_name hword hname) hsemicolon
        fun _ => .sign hword hname hsign⟩
  | bindingValue hname hsign hvalue =>
      have hword : word.kind = .letKw := by simpa using hrule
      exact value (.binding hword hname hsign) hvalue
  | returning hvalue =>
      have hword : word.kind = .returnKw := by simpa using hrule
      exact value (.returning hword) hvalue
  | expression hvalue => exact value .bare hvalue

/-! ### The turns of a parse -/

/-- A row is read in turns, and one of them starts with the token at the first index, ends with the
result, and is followed by one that starts at the second index. -/
def TurnAt (g : Grammar) (row : List Token) (start : Nat) (result : Except Diagnostic Stmt)
    (next : Nat) : Prop :=
  ∃ before used after, Iterations g row (before ++ (used, result) :: after) ∧
    start = (before.flatMap Prod.fst).length ∧ next = start + used.length

variable {g : Grammar} {result : Except Diagnostic Stmt} {start next : Nat}

theorem Iterations.split {before after : List (List Token × Except Diagnostic Stmt)}
    {used : List Token} (h : Iterations g row (before ++ (used, result) :: after)) :
    used ≠ [] ∧ ∃ rest, row = before.flatMap Prod.fst ++ (used ++ rest) ∧
      g.entry (used ++ rest) = ⟨result, rest⟩ ∧ Iterations g rest after := by
  induction before generalizing row with
  | nil =>
      cases h with
      | @cons _ rest _ _ hused hentry hrest => exact ⟨hused, rest, rfl, hentry, hrest⟩
  | cons piece before ih =>
      cases h with
      | @cons used' rest _ _ _ _ hrest =>
          obtain ⟨hused, last, rfl, hentry, hafter⟩ := ih hrest
          refine ⟨hused, last, ?_, hentry, hafter⟩
          rw [List.flatMap_cons, List.append_assoc]

theorem TurnAt.entry_drop (h : g.TurnAt row start result next) :
    row.drop start ≠ [] ∧ g.entry (row.drop start) = ⟨result, row.drop next⟩ ∧
      next ≤ row.length := by
  obtain ⟨before, used, after, hpieces, rfl, rfl⟩ := h
  obtain ⟨hused, rest, rfl, hentry, -⟩ := hpieces.split
  rw [← List.drop_drop, List.drop_left, List.drop_left]
  refine ⟨List.append_ne_nil_of_left_ne_nil hused rest, hentry, ?_⟩
  rw [List.length_append, List.length_append]
  omega

theorem turnAt_zero (hrow : row ≠ []) (hnext : next + (g.entry row).rest.length = row.length) :
    g.TurnAt row 0 (g.entry row).result next := by
  obtain ⟨pieces, hpieces⟩ := exists_iterations g row
  cases hpieces with
  | nil => exact absurd rfl hrow
  | @cons used rest result pieces hused hentry hrest =>
      rw [hentry, List.length_append] at hnext
      rw [hentry]
      refine ⟨[], used, pieces, .cons hused hentry hrest, rfl, ?_⟩
      rw [Nat.add_right_cancel hnext, Nat.zero_add]

/-- Where a turn leaves off the next one starts. -/
theorem TurnAt.succ {last : Nat} (h : g.TurnAt row start result next) (hrow : row.drop next ≠ [])
    (hlast : last + (g.entry (row.drop next)).rest.length = row.length) :
    g.TurnAt row next (g.entry (row.drop next)).result last := by
  obtain ⟨before, used, after, hpieces, rfl, rfl⟩ := h
  obtain ⟨-, rest, rfl, -, hafter⟩ := hpieces.split
  rw [← List.drop_drop, List.drop_left, List.drop_left] at hrow hlast ⊢
  cases hafter with
  | nil => exact absurd rfl hrow
  | @cons used' rest' result' pieces hused hentry hrest =>
      rw [hentry, List.length_append, List.length_append, List.length_append, ← Nat.add_assoc,
        ← Nat.add_assoc] at hlast
      rw [hentry]
      refine ⟨before ++ [(used, result)], used', pieces, ?_, ?_, Nat.add_right_cancel hlast⟩
      · rw [List.append_assoc]
        exact hpieces
      · rw [List.flatMap_append, List.length_append, List.flatMap_singleton]

theorem mem_diagnosticsOf_entries_iff :
    d ∈ diagnosticsOf (g.entries row) ↔ ∃ start next, g.TurnAt row start (.error d) next := by
  rw [mem_diagnosticsOf_iff]
  constructor
  · intro hd
    obtain ⟨pieces, hpieces⟩ := exists_iterations g row
    rw [hpieces.entries_eq] at hd
    obtain ⟨⟨used, result⟩, hmem, rfl⟩ := List.mem_map.mp hd
    obtain ⟨before, after, rfl⟩ := List.append_of_mem hmem
    exact ⟨_, _, before, used, after, hpieces, rfl, rfl⟩
  · rintro ⟨-, -, before, used, after, hpieces, -, -⟩
    rw [hpieces.entries_eq]
    exact List.mem_map.mpr ⟨(used, .error d), by simp, rfl⟩

/-- **A turn that fails has a fault**, from which on the tokens are passed that come before the next
turn. -/
theorem TurnAt.goesOn (h : standard.TurnAt row start (.error d) next)
    (hlexable : ∀ token ∈ row, token.Lexable) :
    ∃ used fault, row.drop start = used ++ fault ∧ GoesOn used fault d (row.drop next) ∧
      ¬ Begins (used ++ [Token.current fault]) := by
  obtain ⟨hne, hentry, -⟩ := h.entry_drop
  obtain ⟨s, rest, hread⟩ | ⟨other, rest, hfail⟩ :=
    readsStatement_or_fails standard (standard.ruleAt (row.drop start)) (row.drop start)
  · cases (Outcome.mk.inj (hread.entry.symm.trans hentry)).1
  · obtain ⟨hd, hafter⟩ := Outcome.mk.inj (hfail.entry.symm.trans hentry)
    obtain rfl : other = d := Except.error.inj hd
    obtain ⟨hbreaks, -⟩ := hfail.breaksOff hne
    obtain ⟨used, hsplit, hgoes⟩ :=
      hfail.goesOn hne fun token htoken => hlexable token (List.mem_of_mem_drop htoken)
    rw [hsplit] at hbreaks
    rw [hafter] at hgoes
    exact ⟨used, other.faultRow rest, hsplit, hgoes, hbreaks.not_begins⟩

end Grammar

open Grammar Phrase

/-- **After a fault reading goes on at a token that is determined by it.**  Every turn of a parse
that fails has a fault, at its start or later: the tokens from the start to the fault are the
beginning of a statement that goes on, and with the fault they are the beginning of none.  The
fault is a token that stands behind `let` in place of a name or behind `let` and a name in place of
the sign of assignment, or one that starts no operand where one is due.  The diagnostic is about it,
and the next turn starts at it or behind it as `Recovers` says. -/
theorem recovers_of_turn (source : String) (start next : Nat) (d : Diagnostic)
    (h : standard.TurnAt (Token.lex source.toList) start (.error d) next) :
    let tokens := Token.tokenize source
    ∃ fault passed, start ≤ fault ∧ fault < tokens.length ∧
      Unfinished (tokens.extract start fault) ∧ ¬ Begins (tokens.extract start (fault + 1)) ∧
      Recovers (tokens.extract start fault) (tokens.drop fault) d passed ∧
      next = fault + passed := by
  intro tokens
  obtain ⟨hne, -, hnext⟩ := h.entry_drop
  obtain ⟨used, fault, hrow, ⟨hunfinished, passed, hle, hgoes, hrecovers⟩, hbegins⟩ :=
    h.goesOn fun token => Token.lexable_of_mem_lex
  have hstart : start < (Token.lex source.toList).length :=
    Nat.lt_of_not_le fun hle => hne (List.drop_of_length_le hle)
  have hdrop : tokens.drop start = used ++ (fault ++ [Token.eof]) := by
    rw [← List.append_assoc, ← hrow]
    exact List.drop_append_of_le_length (Nat.le_of_lt hstart)
  have hbefore : tokens.extract start (start + used.length) = used := by
    rw [List.extract, hdrop, Nat.add_sub_cancel_left, List.take_left]
  have hwith : tokens.extract start (start + used.length + 1) = used ++ [Token.current fault] := by
    rw [List.extract, hdrop, Nat.add_assoc, Nat.add_sub_cancel_left,
      List.take_length_add_append, Token.take_one_append_eof]
  have hfrom : tokens.drop (start + used.length) = fault ++ [Token.eof] := by
    rw [← List.drop_drop, hdrop, List.drop_left]
  have hlength : (Token.lex source.toList).length - start = used.length + fault.length := by
    rw [← List.length_drop, hrow, List.length_append]
  have hgone : (Token.lex source.toList).length - next = fault.length - passed := by
    rw [← List.length_drop, hgoes, List.length_drop]
  refine ⟨start + used.length, passed, Nat.le_add_right _ _, ?_, ?_, ?_, ?_, ?_⟩
  · show start + used.length < (Token.tokenize source).length
    rw [Token.tokenize, List.length_append, List.length_singleton]
    omega
  · rw [hbefore]
    exact hunfinished
  · rw [hwith]
    exact hbegins
  · rw [hbefore, hfrom]
    exact hrecovers
  · omega

/-- The turn behind one that fails as well: a semicolon stands where a right operand is due, and is
passed. -/
theorem recovers_of_turn_operand :
    let source := "x; let y 5 * ; z"
    let tokens := Token.tokenize source
    standard.TurnAt (Token.lex source.toList) 4 (.error ⟨.noPrefixRule .semicolon, ";"⟩) 7 ∧
    ∃ fault passed, 4 ≤ fault ∧ fault < tokens.length ∧
      Unfinished (tokens.extract 4 fault) ∧ ¬ Begins (tokens.extract 4 (fault + 1)) ∧
      Recovers (tokens.extract 4 fault) (tokens.drop fault) ⟨.noPrefixRule .semicolon, ";"⟩ passed ∧
      7 = fault + passed := by
  intro source tokens
  let row := Token.lex source.toList
  have first : standard.TurnAt row 0 (standard.entry row).result 2 :=
    turnAt_zero (by decide +kernel) (by decide +kernel)
  have second : standard.TurnAt row 2 (standard.entry (row.drop 2)).result 4 :=
    first.succ (by decide +kernel) (by decide +kernel)
  have third : standard.TurnAt row 4 (standard.entry (row.drop 4)).result 7 :=
    second.succ (by decide +kernel) (by decide +kernel)
  have hresult : (standard.entry (row.drop 4)).result = .error ⟨.noPrefixRule .semicolon, ";"⟩ := by
    decide +kernel
  rw [hresult] at third
  exact ⟨third, recovers_of_turn source 4 7 _ third⟩

end Monkey
