import Monkey.Proofs.Dump
import Monkey.Proofs.Recovery

/-!
# The answer to a line that is parsed

The answer is the text of the program on one line, or a report of three lines for each diagnostic,
and its front tells the two apart (`Console.parse_framed`).

Literals are printed as they were read, so all depends on the characters that they may have.  No
literal has a blank in it (`Token.Lexable.lineFeed_not_mem`), and none but that of an illegal token
has a colon (`Token.Lexable.colon_not_mem`).  The text of a program is made of literals and a few
fixed characters (`Stmt.Fits.not_mem_text`), and there are no illegal tokens among them; a report is
made of fixed text, names of kinds and the literal of a token of the line
(`exists_about_of_mem_parse`).
-/

namespace Monkey

open Text

/-! ### Literals -/

namespace Token

variable {token : Token} {rest : List Char}

theorem Lexeme.not_isBlank (h : token.Lexeme rest) :
    ∀ c ∈ token.literal.toList, Text.isBlank c = false := by
  cases h with
  | word _ hletters => exact fun c hc => isBlank_eq_false_of_isLetter (hletters c hc)
  | number _ hdigits => exact fun c hc => isBlank_eq_false_of_isDigit (hdigits c hc)
  | eq | notEq | assign | bang => simp [Text.isBlank]
  | mark hmark =>
      rw [String.toList_singleton, List.forall_mem_singleton]
      exact (class_of_ofChar? (ofChar?_of_mem_marks _ hmark).1).2.2
  | illegal hstray =>
      rw [String.toList_singleton, List.forall_mem_singleton]
      exact hstray.not_blank

theorem Lexeme.colon_not_mem (h : token.Lexeme rest) (hkind : token.kind ≠ .illegal) :
    ':' ∉ token.literal.toList := by
  have hletter : Text.isLetter ':' = false := by decide
  have hdigit : Char.isDigit ':' = false := by decide
  intro hcolon
  cases h with
  | word _ hletters =>
      rw [hletters _ hcolon] at hletter
      cases hletter
  | number _ hdigits =>
      rw [hdigits _ hcolon] at hdigit
      cases hdigit
  | eq | notEq | assign | bang => revert hcolon; decide
  | @mark c kind _ hmark =>
      obtain rfl : ':' = c := by simpa using hcolon
      cases (ofChar?_of_mem_marks _ hmark).1
  | illegal => exact hkind rfl

theorem Lexable.lineFeed_not_mem (h : token.Lexable) : '\n' ∉ token.literal.toList := by
  intro hfeed
  cases (lexable_iff.mp h).not_isBlank _ hfeed

theorem Lexable.colon_not_mem (h : token.Lexable) (hkind : token.kind ≠ .illegal) :
    ':' ∉ token.literal.toList :=
  (lexable_iff.mp h).colon_not_mem hkind

theorem lineFeed_not_mem_of_mem_tokenize {source : String} (h : token ∈ tokenize source) :
    '\n' ∉ token.literal.toList := by
  obtain h | h := List.mem_append.mp h
  · exact (lexable_of_mem_lex h).lineFeed_not_mem
  · rw [List.mem_singleton.mp h]
    decide

end Token

/-! ### Texts of programs -/

/-- The characters of all texts that are written between literals. -/
def Text.fillers : List Char :=
  ['(', ')', ' ', '=', ';']

variable {c : Char}

theorem Expr.WellFormed.kind_ne_illegal {e : Expr} (h : e.WellFormed) :
    ∀ token ∈ e.tokens, token.kind ≠ .illegal := by
  have hinfixes : ∀ kind ∈ Kind.infixes, kind ≠ .illegal := by decide
  induction e with
  | ident name => exact List.forall_mem_singleton.mpr (by simp [h.1])
  | int token value => exact List.forall_mem_singleton.mpr (by simp [h.1])
  | unary operator operand ih =>
      refine List.forall_mem_cons.mpr ⟨?_, ih h.2⟩
      obtain hsign | hsign := h.1 <;> simp [hsign]
  | binary left operator right ihleft ihright =>
      rw [tokens, List.forall_mem_append, List.forall_mem_cons]
      exact ⟨ihleft h.2.1, hinfixes _ h.1, ihright h.2.2⟩

theorem Expr.WellFormed.not_mem_text {e : Expr} (h : e.WellFormed) (hc : c ∉ fillers)
    (htokens : ∀ token ∈ e.tokens, c ∉ token.literal.toList) : c ∉ e.text.toList := by
  obtain ⟨hopen, hclose, hspace, -⟩ : c ≠ '(' ∧ c ≠ ')' ∧ c ≠ ' ' ∧ c ≠ '=' ∧ c ≠ ';' := by
    simpa [fillers] using hc
  induction e with
  | ident name =>
      rw [text, h.2]
      exact htokens name.token List.mem_cons_self
  | int token value => exact htokens token List.mem_cons_self
  | unary operator operand ih =>
      obtain ⟨hoperator, htokens⟩ := List.forall_mem_cons.mp htokens
      simp [text, hopen, hclose, hoperator, ih h.2 htokens]
  | binary left operator right ihleft ihright =>
      rw [tokens, List.forall_mem_append, List.forall_mem_cons] at htokens
      obtain ⟨hleft, hoperator, hright⟩ := htokens
      simp [text, hopen, hclose, hspace, hoperator, ihleft h.2.1 hleft, ihright h.2.2 hright]

namespace Stmt

variable {s : Stmt}

theorem Fits.kind_ne_illegal (h : s.Fits) : ∀ token ∈ s.tokens, token.kind ≠ .illegal := by
  cases s with
  | letStmt token name value =>
      obtain ⟨htoken, hname, hvalue⟩ := h
      simp only [tokens, List.forall_mem_cons]
      exact ⟨by simp [htoken], by simp [hname.1], by decide, hvalue.kind_ne_illegal⟩
  | returnStmt token value =>
      obtain ⟨htoken, hvalue⟩ := h
      simp only [tokens, List.forall_mem_cons]
      exact ⟨by simp [htoken], hvalue.kind_ne_illegal⟩
  | exprStmt token value => exact Expr.WellFormed.kind_ne_illegal h

/-- The text of a statement is made of the literals of its tokens and a few fixed characters. -/
theorem Fits.not_mem_text (h : s.Fits) (hc : c ∉ fillers)
    (htokens : ∀ token ∈ s.tokens, c ∉ token.literal.toList) : c ∉ s.text.toList := by
  obtain ⟨-, -, hspace, hsign, hend⟩ : c ≠ '(' ∧ c ≠ ')' ∧ c ≠ ' ' ∧ c ≠ '=' ∧ c ≠ ';' := by
    simpa [fillers] using hc
  cases s with
  | letStmt token name value =>
      obtain ⟨-, hname, hvalue⟩ := h
      rw [tokens, List.forall_mem_cons, List.forall_mem_cons, List.forall_mem_cons] at htokens
      obtain ⟨hword, hliteral, -, htree⟩ := htokens
      simp [text, hname.2, hspace, hsign, hend, hword, hliteral, hvalue.not_mem_text hc htree]
  | returnStmt token value =>
      obtain ⟨hword, htree⟩ := List.forall_mem_cons.mp htokens
      simp [text, hspace, hend, hword, h.2.not_mem_text hc htree]
  | exprStmt token value => exact Expr.WellFormed.not_mem_text h hc htokens

end Stmt

/-- A character that is neither written between literals nor in one of them is not in the text of a
program. -/
theorem not_mem_text_of_parse {source : String} (hc : c ∉ fillers)
    (h : ∀ s ∈ (parse source).1.statements, ∀ token ∈ s.tokens, c ∉ token.literal.toList) :
    c ∉ (parse source).1.text.toList := by
  intro hmem
  rw [Program.text, String.toList_join, List.mem_flatMap] at hmem
  obtain ⟨text, htext, hmem⟩ := hmem
  obtain ⟨s, hs, rfl⟩ := List.mem_map.mp htext
  exact (genuine_of_mem_parse hs).fits.not_mem_text hc (h s hs) hmem

/-- **The text of a program is on one line and has no colon**, whatever is wrong with the source it
was read from. -/
theorem text_of_parse_framed (source : String) :
    '\n' ∉ (parse source).1.text.toList ∧ ':' ∉ (parse source).1.text.toList := by
  constructor
  · refine not_mem_text_of_parse (by decide) fun s hs token htoken => ?_
    exact ((genuine_of_mem_parse hs).lexable token htoken).lineFeed_not_mem
  · refine not_mem_text_of_parse (by decide) fun s hs token htoken => ?_
    have hgenuine := genuine_of_mem_parse hs
    exact (hgenuine.lexable token htoken).colon_not_mem
      (hgenuine.fits.kind_ne_illegal token htoken)

/-! ### Reports -/

theorem Token.current_mem_append_eof {part row : List Token} (h : part <:+ row) :
    Token.current part ∈ row ++ [Token.eof] := by
  cases part with
  | nil => exact List.mem_append_right _ List.mem_cons_self
  | cons token part => exact List.mem_append_left _ (h.subset List.mem_cons_self)

theorem Diagnostic.faultRow_suffix (d : Diagnostic) (row : List Token) :
    d.faultRow row <:+ row := by
  unfold faultRow
  split
  · exact List.tail_suffix row
  · exact List.suffix_rfl

/-- **Every diagnostic is about a token of the text.** -/
theorem exists_about_of_mem_parse {source : String} {d : Diagnostic} (hd : d ∈ (parse source).2) :
    ∃ token ∈ Token.tokenize source, d.About token := by
  obtain ⟨start, next, hturn⟩ := Grammar.mem_diagnosticsOf_entries_iff.mp hd
  obtain ⟨hne, hentry, -⟩ := hturn.entry_drop
  let part := (Token.lex source.toList).drop start
  obtain ⟨s, rest, hread⟩ | ⟨other, rest, hfail⟩ :=
    Grammar.readsStatement_or_fails .standard (Grammar.standard.ruleAt part) part
  · cases (Outcome.mk.inj (hread.entry.symm.trans hentry)).1
  · obtain rfl : other = d :=
      Except.error.inj (Outcome.mk.inj (hfail.entry.symm.trans hentry)).1
    have hrest := Grammar.standard.rest_statementBy (Grammar.standard.ruleAt part) part
    rw [hfail.statementBy] at hrest
    have hsuffix : other.faultRow rest <:+ Token.lex source.toList :=
      (other.faultRow_suffix rest).trans (hrest.trans (List.drop_suffix start _))
    exact ⟨_, Token.current_mem_append_eof hsuffix, (hfail.breaksOff hne).2⟩

namespace Diagnostic

variable {d : Diagnostic} {token : Token}

/-- The three lines of a report. -/
theorem display_eq (d : Diagnostic) :
    d.display ++ "\n" =
      d.header ++ "\n" ++ ("  | " ++ d.cause.message) ++ "\n" ++ ("  | at `" ++ d.literal ++ "`") ++
        "\n" := by
  apply String.toList_inj.mp
  simp [display]

theorem About.lineFeed_not_mem_tip (h : d.About token) (htoken : '\n' ∉ token.literal.toList) :
    ∀ tip ∈ d.tip?, '\n' ∉ tip.toList := by
  obtain ⟨cause, literal⟩ := d
  obtain ⟨rfl, hcause⟩ := h
  intro tip htip
  unfold tip? at htip
  split at htip
  · next expected found _ =>
    cases htip
    simp [htoken, expected.not_mem_name.2]
  · cases htip
    simp
  · cases htip
  · cases htip
    simp [htoken]
  · next literal heq =>
    cases htip
    dsimp only at heq
    subst heq
    obtain ⟨-, hnumber⟩ := hcause
    subst hnumber
    simp [htoken]

theorem lineFeed_not_mem_message (cause : Cause) : '\n' ∉ cause.message.toList := by
  cases cause with
  | unexpectedToken expected found =>
      show '\n' ∉ ("next token is " ++ found.name ++ ", want " ++ expected.name).toList
      simp [found.not_mem_name.2, expected.not_mem_name.2]
  | noPrefixRule kind =>
      show '\n' ∉ ("no prefix parse function for " ++ kind.name ++ " found").toList
      simp [kind.not_mem_name.2]
  | badInteger literal =>
      show '\n' ∉ ("could not parse " ++ quote literal ++ " as integer").toList
      simp [lineFeed_not_mem_quote]

theorem About.lineFeed_not_mem_header (h : d.About token)
    (htoken : '\n' ∉ token.literal.toList) : '\n' ∉ d.header.toList := by
  have hname : '\n' ∉ d.cause.name.toList := by
    cases d.cause <;> simp [Cause.name]
  unfold header
  split
  · simp [hname]
  · next tip htip => simp [hname, h.lineFeed_not_mem_tip htoken tip htip]

theorem header_starts (d : Diagnostic) : "Error: ".toList <+: d.header.toList := by
  unfold header
  split
  · exact ⟨_, String.toList_append.symm⟩
  · rw [String.append_assoc, String.append_assoc, String.append_assoc, String.toList_append]
    exact List.prefix_append _ _

end Diagnostic

/-! ### Answers -/

namespace Console

variable {line : String}

theorem evalLine_parse_of_clean (h : (parse line).2 = []) :
    evalLine line .parse = (parse line).1.text ++ "\n" := by
  simp only [evalLine]
  split
  · next program heq => rw [heq]
  · next program diagnostics hne heq =>
    rw [heq] at h
    exact absurd h hne

theorem evalLine_parse_of_faulty (h : (parse line).2 ≠ []) :
    evalLine line .parse = String.join ((parse line).2.map fun d => d.display ++ "\n") := by
  simp only [evalLine]

theorem framed_of_clean (h : (parse line).2 = []) :
    (∃ text, evalLine line .parse = text ++ "\n" ∧ '\n' ∉ text.toList) ∧
      ':' ∉ (evalLine line .parse).toList := by
  obtain ⟨hfeed, hcolon⟩ := text_of_parse_framed line
  rw [evalLine_parse_of_clean h]
  exact ⟨⟨_, rfl, hfeed⟩, by simp [hcolon]⟩

theorem report_of_mem_parse {d : Diagnostic} (hd : d ∈ (parse line).2) :
    ∃ first second third,
      d.display ++ "\n" = first ++ "\n" ++ second ++ "\n" ++ third ++ "\n" ∧
        '\n' ∉ first.toList ∧ '\n' ∉ second.toList ∧ '\n' ∉ third.toList ∧
        "Error: ".toList <+: first.toList := by
  obtain ⟨token, htoken, habout⟩ := exists_about_of_mem_parse hd
  have hfeed := Token.lineFeed_not_mem_of_mem_tokenize htoken
  have hmessage := Diagnostic.lineFeed_not_mem_message d.cause
  have hliteral : '\n' ∉ d.literal.toList := by rwa [habout.1]
  exact ⟨_, _, _, d.display_eq, habout.lineFeed_not_mem_header hfeed, by simp [hmessage],
    by simp [hliteral], d.header_starts⟩

theorem count_lineFeed_of_faulty (h : (parse line).2 ≠ []) :
    (evalLine line .parse).toList.count '\n' = 3 * (parse line).2.length := by
  rw [evalLine_parse_of_faulty h, String.toList_join, List.flatMap_map]
  refine count_flatMap fun d hd => ?_
  obtain ⟨first, second, third, heq, hfirst, hsecond, hthird, -⟩ := report_of_mem_parse hd
  rw [heq]
  simp [List.count_eq_zero_of_not_mem hfirst, List.count_eq_zero_of_not_mem hsecond,
    List.count_eq_zero_of_not_mem hthird]

theorem starts_iff :
    "Error: ".toList <+: (evalLine line .parse).toList ↔ (parse line).2 ≠ [] := by
  constructor
  · intro hstart hclean
    have hmem : ':' ∈ "Error: ".toList := by decide
    exact (framed_of_clean hclean).2 (hstart.subset hmem)
  · intro h
    obtain ⟨d, rest, heq⟩ := List.exists_cons_of_ne_nil h
    obtain ⟨first, second, third, hdisplay, -, -, -, hstart⟩ :=
      report_of_mem_parse (heq ▸ List.mem_cons_self : d ∈ (parse line).2)
    rw [evalLine_parse_of_faulty h, heq, List.map_cons, String.toList_join, List.flatMap_cons,
      hdisplay]
    simp only [String.toList_append, List.append_assoc]
    exact hstart.trans (List.prefix_append _ _)

/-- **The answer to a line that is parsed is framed, and success cannot be taken for failure.**  If
nothing is wrong, the answer is one line without a colon.  Otherwise it is made of the reports of
the diagnostics in their order, each of three lines, the first of which starts with `Error: `; and
only then does the answer start so. -/
theorem parse_framed (line : String) :
    ((parse line).2 = [] →
      (∃ text, evalLine line .parse = text ++ "\n" ∧ '\n' ∉ text.toList) ∧
        ':' ∉ (evalLine line .parse).toList) ∧
    ((parse line).2 ≠ [] →
      evalLine line .parse = String.join ((parse line).2.map fun d => d.display ++ "\n") ∧
        (evalLine line .parse).toList.count '\n' = 3 * (parse line).2.length ∧
        ∀ d ∈ (parse line).2, ∃ first second third,
          d.display ++ "\n" = first ++ "\n" ++ second ++ "\n" ++ third ++ "\n" ∧
            '\n' ∉ first.toList ∧ '\n' ∉ second.toList ∧ '\n' ∉ third.toList ∧
            "Error: ".toList <+: first.toList) ∧
    ("Error: ".toList <+: (evalLine line .parse).toList ↔ (parse line).2 ≠ []) :=
  ⟨framed_of_clean, fun h => ⟨evalLine_parse_of_faulty h, count_lineFeed_of_faulty h,
    fun _ hd => report_of_mem_parse hd⟩, starts_iff⟩

/-- A line of a statement and a colon that belongs to none, and the statement by itself. -/
theorem parse_framed_colon :
    (evalLine "let x = 5; :" .parse).toList.count '\n' = 3 ∧
      ':' ∉ (evalLine "let x = 5;" .parse).toList := by
  have hfaulty : (parse "let x = 5; :").2.length = 1 := by decide +kernel
  have hclean : (parse "let x = 5;").2 = [] := by decide +kernel
  have hne : (parse "let x = 5; :").2 ≠ [] := List.ne_nil_of_length_pos (by omega)
  refine ⟨?_, ((parse_framed "let x = 5;").1 hclean).2⟩
  rw [((parse_framed "let x = 5; :").2.1 hne).2.1, hfaulty]

end Console

end Monkey
