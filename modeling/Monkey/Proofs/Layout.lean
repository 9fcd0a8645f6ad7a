import Mathlib.Data.List.Chain
import Monkey.Proofs.Munch

/-!
# Tokens written down with gaps

A row of tokens is written down by its literals, with blanks in front of it and behind each token.
It is read back exactly if no two neighbours without a blank between them fuse
(`tokenize_layout_eq_iff`).  Two tokens fuse in three cases only (`Token.Fuses`): both are words,
both are numbers, or the first is `=` or `!` and the second starts with `=`.

What may follow a lexeme is a matter of one character: `Lexeme.iff_not_continues` says that a token
stands in front of every text whose first character does not go on with it.
-/

namespace Monkey

def Kind.words : List Kind :=
  [ident, functionKw, letKw, trueKw, falseKw, ifKw, elseKw, returnKw]

/-- Tokens of the two kinds need a blank between them. -/
def Kind.Fuses (left right : Kind) : Prop :=
  (left ∈ words ∧ right ∈ words) ∨ (left = .int ∧ right = .int) ∨
    ((left = .assign ∨ left = .bang) ∧ (right = .assign ∨ right = .eq))

instance (left right : Kind) : Decidable (left.Fuses right) :=
  inferInstanceAs (Decidable (_ ∨ _ ∨ _))

namespace Token

/-- The token is not the one at the end, and its literal alone is read as this token. -/
def Lexable (token : Token) : Prop :=
  token.kind ≠ .eof ∧ tokenize token.literal = [token, eof]

instance (token : Token) : Decidable token.Lexable :=
  inferInstanceAs (Decidable (_ ∧ _))

def IsWord (token : Token) : Prop :=
  token.literal ≠ "" ∧ ∀ c ∈ token.literal.toList, Text.isLetter c = true

instance (token : Token) : Decidable token.IsWord :=
  decidable_of_iff (token.literal ≠ "" ∧ token.literal.toList.all Text.isLetter = true)
    (and_congr_right fun _ => List.all_eq_true)

/-- The token is `=` or `!`, which make a pair with a following `=`. -/
def StartsPair (token : Token) : Prop :=
  token.kind = .assign ∨ token.kind = .bang

instance (token : Token) : Decidable token.StartsPair :=
  inferInstanceAs (Decidable (_ ∨ _))

/-- The two tokens need a blank between them. -/
def Fuses (left right : Token) : Prop :=
  (left.IsWord ∧ right.IsWord) ∨ (left.kind = .int ∧ right.kind = .int) ∨
    (left.StartsPair ∧ right.literal.toList.head? = some '=')

instance (left right : Token) : Decidable (left.Fuses right) :=
  inferInstanceAs (Decidable (_ ∨ _ ∨ _))

/-- The character goes on with the token in front of it. -/
def Continues (token : Token) (c : Char) : Prop :=
  (token.IsWord ∧ Text.isLetter c = true) ∨ (token.kind = .int ∧ c.isDigit = true) ∨
    (token.StartsPair ∧ c = '=')

variable {token next : Token} {c : Char} {cs rest other text : List Char}

/-! ### Classes of lexemes -/

theorem not_continues_of_breaks (h : Breaks c) : ¬ token.Continues c := by
  obtain ⟨hletter, hdigit, hassign⟩ := h
  rintro (⟨-, hc⟩ | ⟨-, hc⟩ | ⟨-, hc⟩)
  · rw [hletter] at hc
    cases hc
  · rw [hdigit] at hc
    cases hc
  · exact hassign hc

theorem mem_words_of_classifies {kind : Kind} {word : String} (h : kind.Classifies word) :
    kind ∈ Kind.words := by
  have hreserved : ∀ entry ∈ reservedWords, entry.2 ∈ Kind.words := by decide
  obtain hmem | ⟨rfl, -⟩ := h
  · exact hreserved _ hmem
  · decide

theorem ne_of_mem_words :
    ∀ kind ∈ Kind.words, kind ≠ .int ∧ kind ≠ .assign ∧ kind ≠ .bang ∧ kind ≠ .eq := by
  decide

theorem not_mem_words_of_mem_marks : ∀ entry ∈ Kind.marks,
    entry.2 ∉ Kind.words ∧ entry.2 ≠ .int ∧ entry.2 ≠ .assign ∧ entry.2 ≠ .bang ∧
      entry.2 ≠ .eq := by
  decide

/-- A lexeme is a word, a number, or something else, by its first character, and each of them ends
in its own way. -/
theorem Lexeme.classes (h : token.Lexeme rest) (hc : c ∈ token.literal.toList.head?) :
    (Text.isLetter c = true ∧ token.IsWord ∧ token.kind ∈ Kind.words ∧ Ends Text.isLetter rest) ∨
      (c.isDigit = true ∧ token.kind = .int ∧ Ends Char.isDigit rest) ∨
      (Text.isLetter c = false ∧ c.isDigit = false ∧ token.kind ∉ Kind.words ∧
        token.kind ≠ .int ∧ (token.StartsPair → rest.head? ≠ some '=') ∧
        (c = '=' ↔ token.kind = .assign ∨ token.kind = .eq)) := by
  have hmem : c ∈ token.literal.toList := List.mem_of_head? hc
  cases h with
  | @word kind literal _ hne hletters hkind hends =>
      refine .inl ⟨hletters c hmem, ⟨?_, hletters⟩, mem_words_of_classifies hkind, hends⟩
      rintro rfl
      exact hne rfl
  | number hne hdigits hends => exact .inr (.inl ⟨hdigits c hmem, rfl, hends⟩)
  | eq | notEq =>
      cases hc
      exact .inr (.inr ⟨rfl, rfl, by decide, by decide, nofun, by decide⟩)
  | assign hhead | bang hhead =>
      cases hc
      exact .inr (.inr ⟨rfl, rfl, by decide, by decide, fun _ => hhead, by decide⟩)
  | @mark d kind _ hmark =>
      rw [String.toList_singleton] at hc
      cases hc
      obtain ⟨hwords, hint, hassign, hbang, heq⟩ := not_mem_words_of_mem_marks _ hmark
      obtain ⟨hof, hne, -⟩ := ofChar?_of_mem_marks _ hmark
      obtain ⟨hletter, hdigit, -⟩ := class_of_ofChar? hof
      refine .inr (.inr ⟨hletter, hdigit, hwords, hint, fun hpair => ?_, ?_⟩)
      · exact absurd hpair (not_or.mpr ⟨hassign, hbang⟩)
      · exact iff_of_false hne (not_or.mpr ⟨hassign, heq⟩)
  | @illegal d _ hstray =>
      rw [String.toList_singleton] at hc
      cases hc
      have hwords : Kind.illegal ∉ Kind.words := by decide
      refine .inr (.inr ⟨hstray.not_letter, hstray.not_digit, hwords, nofun, nofun, ?_⟩)
      exact iff_of_false hstray.ne_assign nofun

theorem Lexeme.isWord_iff (h : token.Lexeme rest) (hc : c ∈ token.literal.toList.head?) :
    token.IsWord ↔ Text.isLetter c = true := by
  refine ⟨fun hword => hword.2 c (List.mem_of_head? hc), fun hletter => ?_⟩
  obtain ⟨-, hword, -⟩ | ⟨hdigit, -⟩ | ⟨hnot, -⟩ := h.classes hc
  · exact hword
  · rw [Text.isLetter_eq_false_of_isDigit hdigit] at hletter
    cases hletter
  · rw [hnot] at hletter
    cases hletter

theorem Lexeme.kind_eq_int_iff (h : token.Lexeme rest) (hc : c ∈ token.literal.toList.head?) :
    token.kind = .int ↔ c.isDigit = true := by
  obtain ⟨hletter, -, hkind, -⟩ | ⟨hdigit, hkind, -⟩ | ⟨-, hdigit, -, hkind, -⟩ := h.classes hc
  · refine iff_of_false (ne_of_mem_words _ hkind).1 fun hdigit => ?_
    rw [Text.isLetter_eq_false_of_isDigit hdigit] at hletter
    cases hletter
  · exact iff_of_true hkind hdigit
  · exact iff_of_false hkind (Bool.eq_false_iff.mp hdigit)

/-- A token goes on with the first character of a lexeme exactly if it fuses with the lexeme. -/
theorem Lexeme.continues_iff_fuses (h : next.Lexeme rest) (hc : c ∈ next.literal.toList.head?) :
    token.Continues c ↔ token.Fuses next := by
  have hhead : c = '=' ↔ next.literal.toList.head? = some '=' := by
    rw [Option.mem_def.mp hc, Option.some.injEq]
  rw [Continues, Fuses, h.isWord_iff hc, h.kind_eq_int_iff hc, hhead]

theorem Lexeme.exists_head (h : token.Lexeme rest) : ∃ c, c ∈ token.literal.toList.head? := by
  obtain ⟨c, cs, hliteral, -⟩ := h.scan
  exact ⟨c, by rw [hliteral]; rfl⟩

theorem Lexeme.isWord_iff_kind (h : token.Lexeme rest) :
    token.IsWord ↔ token.kind ∈ Kind.words := by
  obtain ⟨c, hc⟩ := h.exists_head
  rw [h.isWord_iff hc]
  obtain ⟨hletter, -, hkind, -⟩ | ⟨hdigit, hkind, -⟩ | ⟨hletter, -, hkind, -⟩ := h.classes hc
  · exact iff_of_true hletter hkind
  · rw [Text.isLetter_eq_false_of_isDigit hdigit, hkind]
    decide
  · exact iff_of_false (Bool.eq_false_iff.mp hletter) hkind

theorem Lexeme.head?_eq_assign_iff (h : token.Lexeme rest) :
    token.literal.toList.head? = some '=' ↔ token.kind = .assign ∨ token.kind = .eq := by
  obtain ⟨c, hc⟩ := h.exists_head
  rw [Option.mem_def.mp hc, Option.some.injEq]
  obtain ⟨hletter, -, hkind, -⟩ | ⟨hdigit, hkind, -⟩ | ⟨-, -, -, -, -, hassign⟩ := h.classes hc
  · obtain ⟨-, hassign, -, heq⟩ := ne_of_mem_words _ hkind
    refine iff_of_false ?_ (not_or.mpr ⟨hassign, heq⟩)
    rintro rfl
    cases hletter
  · rw [hkind]
    refine iff_of_false ?_ (by decide)
    rintro rfl
    cases hdigit
  · exact hassign

/-- **Lexemes fuse by their kinds**, whatever their literals. -/
theorem fuses_iff_kind (h : token.Lexeme rest) (hnext : next.Lexeme other) :
    token.Fuses next ↔ token.kind.Fuses next.kind := by
  rw [Fuses, h.isWord_iff_kind, hnext.isWord_iff_kind, hnext.head?_eq_assign_iff]
  rfl

/-! ### What may follow a lexeme -/

theorem Lexeme.not_continues (h : token.Lexeme rest) : ∀ c ∈ rest.head?, ¬ token.Continues c := by
  intro c hc hcontinues
  obtain ⟨first, hfirst⟩ := h.exists_head
  have hword := h.isWord_iff hfirst
  obtain ⟨-, -, hwords, hends⟩ | ⟨hdigit, hint, hends⟩ | ⟨hletter, -, -, hint, hpair, -⟩ :=
    h.classes hfirst
  · obtain ⟨hint, hassign, hbang, -⟩ := ne_of_mem_words _ hwords
    obtain ⟨-, hc'⟩ | ⟨hkind, -⟩ | ⟨hstarts | hstarts, -⟩ := hcontinues
    · rw [hends c hc] at hc'
      cases hc'
    · exact hint hkind
    · exact hassign hstarts
    · exact hbang hstarts
  · obtain ⟨hletters, -⟩ | ⟨-, hc'⟩ | ⟨hstarts | hstarts, -⟩ := hcontinues
    · have hletter := hword.mp hletters
      rw [Text.isLetter_eq_false_of_isDigit hdigit] at hletter
      cases hletter
    · rw [hends c hc] at hc'
      cases hc'
    · rw [hint] at hstarts
      cases hstarts
    · rw [hint] at hstarts
      cases hstarts
  · obtain ⟨hletters, -⟩ | ⟨hkind, -⟩ | ⟨hstarts, rfl⟩ := hcontinues
    · rw [hletter] at hword
      cases hword.mp hletters
    · exact hint hkind
    · exact hpair hstarts hc

theorem Lexeme.of_not_continues (h : token.Lexeme other)
    (hrest : ∀ c ∈ rest.head?, ¬ token.Continues c) : token.Lexeme rest := by
  cases h with
  | @word kind literal _ hne hletters hkind _ =>
      refine .word hne hletters hkind fun c hc => ?_
      have hword : IsWord ⟨kind, literal⟩ := ⟨mt String.toList_eq_nil_iff.mpr hne, hletters⟩
      exact Bool.eq_false_iff.mpr fun hletter => hrest c hc (.inl ⟨hword, hletter⟩)
  | number hne hdigits _ =>
      refine .number hne hdigits fun c hc => ?_
      exact Bool.eq_false_iff.mpr fun hdigit => hrest c hc (.inr (.inl ⟨rfl, hdigit⟩))
  | eq => exact .eq
  | notEq => exact .notEq
  | assign _ => exact .assign fun hhead => hrest '=' hhead (.inr (.inr ⟨.inl rfl, rfl⟩))
  | bang _ => exact .bang fun hhead => hrest '=' hhead (.inr (.inr ⟨.inr rfl, rfl⟩))
  | mark hmark => exact .mark hmark
  | illegal hstray => exact .illegal hstray

/-- **What follows a lexeme** only matters by its first character. -/
theorem Lexeme.iff_not_continues (h : token.Lexeme other) :
    token.Lexeme rest ↔ ∀ c ∈ rest.head?, ¬ token.Continues c :=
  ⟨Lexeme.not_continues, h.of_not_continues⟩

theorem Lexeme.of_breaks (h : token.Lexeme other) (hc : Breaks c) : token.Lexeme (c :: rest) := by
  refine h.of_not_continues fun d hd => ?_
  obtain rfl : c = d := Option.some.inj hd
  exact not_continues_of_breaks hc

theorem Lexeme.append_iff_not_fuses {more : List Char} (h : token.Lexeme other)
    (hnext : next.Lexeme rest) :
    token.Lexeme (next.literal.toList ++ more) ↔ ¬ token.Fuses next := by
  obtain ⟨c, hc⟩ := hnext.exists_head
  have hhead : (next.literal.toList ++ more).head? = some c := by
    rw [List.head?_append, Option.mem_def.mp hc]
    rfl
  rw [h.iff_not_continues, hhead, ← hnext.continues_iff_fuses hc]
  simp

theorem lexable_iff : token.Lexable ↔ token.Lexeme [] := by
  constructor
  · rintro ⟨-, h⟩
    have hlex : lex token.literal.toList = [token] := List.append_cancel_right h
    obtain ⟨rest, hread, -⟩ := lex_eq_cons_iff.mp hlex
    obtain ⟨blanks, -, hlexeme, hliteral⟩ := read?_eq_some_iff.mp hread
    have hlength := congrArg List.length hliteral
    rw [List.length_append, List.length_append] at hlength
    have hrest : rest = [] := List.eq_nil_of_length_eq_zero (by omega)
    rwa [hrest] at hlexeme
  · intro h
    have hread : read? token.literal.toList = some (token, []) :=
      read?_eq_some_iff.mpr ⟨[], List.forall_mem_nil _, h, by simp⟩
    have hlex : lex token.literal.toList = [token] := lex_eq_cons_iff.mpr ⟨[], hread, lex_nil⟩
    refine ⟨(scanned_of_read? hread).kind_ne_eof, ?_⟩
    rw [tokenize, hlex]
    rfl

theorem lex_literal_append_iff {blanks more : List Char} {tokens : List Token}
    (h : token.Lexeme other) (hblanks : Text.Blank blanks) :
    lex (blanks ++ (token.literal.toList ++ more)) = token :: tokens ↔
      token.Lexeme more ∧ lex more = tokens := by
  rw [lex_eq_cons_iff]
  constructor
  · rintro ⟨rest, hread, htokens⟩
    obtain rfl : more = rest := h.eq_of_read? hblanks hread
    obtain ⟨-, -, hlexeme, -⟩ := read?_eq_some_iff.mp hread
    exact ⟨hlexeme, htokens⟩
  · rintro ⟨hlexeme, htokens⟩
    exact ⟨more, read?_eq_some_iff.mpr ⟨blanks, hblanks, hlexeme, rfl⟩, htokens⟩

end Token

/-! ### Rows of tokens with gaps -/

/-- A token and the blanks behind it. -/
structure Spaced where
  token : Token
  gap : String
  deriving DecidableEq, Repr

namespace Spaced

/-- The literal of the token and the blanks behind it. -/
def text (piece : Spaced) : String :=
  piece.token.literal ++ piece.gap

/-- A blank stands between the two tokens, or they need none. -/
def Apart (piece next : Spaced) : Prop :=
  piece.gap = "" → ¬ piece.token.Fuses next.token

instance (piece next : Spaced) : Decidable (piece.Apart next) :=
  inferInstanceAs (Decidable (_ → _))

end Spaced

namespace Token

/-- The text of a row of tokens, with blanks in front of it and behind each token. -/
def layout (lead : String) (pieces : List Spaced) : String :=
  lead ++ String.join (pieces.map Spaced.text)

theorem toList_layout_nil (lead : String) : (layout lead []).toList = lead.toList := by
  simp [layout]

theorem toList_layout_cons (lead : String) (piece : Spaced) (pieces : List Spaced) :
    (layout lead (piece :: pieces)).toList =
      lead.toList ++ (piece.token.literal.toList ++ (layout piece.gap pieces).toList) := by
  simp [layout, Spaced.text, String.join_cons]

theorem lexeme_gap_iff {piece : Spaced} {pieces : List Spaced} (hpiece : piece.token.Lexeme [])
    (hgap : Text.Blank piece.gap.toList) (hpieces : ∀ p ∈ pieces, p.token.Lexeme []) :
    piece.token.Lexeme (layout piece.gap pieces).toList ↔
      ∀ next ∈ pieces.head?, piece.Apart next := by
  by_cases hempty : piece.gap = ""
  · rw [hempty]
    cases pieces with
    | nil => simpa [toList_layout_nil] using hpiece
    | cons next pieces =>
        have hnext : next.token.Lexeme [] := hpieces next List.mem_cons_self
        rw [toList_layout_cons, String.toList_empty, List.nil_append,
          hpiece.append_iff_not_fuses hnext]
        simp [Spaced.Apart, hempty]
  · refine iff_of_true ?_ fun next _ hnone => absurd hnone hempty
    obtain ⟨c, cs, hblanks⟩ := List.exists_cons_of_ne_nil (mt String.toList_eq_nil_iff.mp hempty)
    have hc : Text.isBlank c = true := hgap c (by rw [hblanks]; exact List.mem_cons_self)
    rw [layout, String.toList_append, hblanks, List.cons_append]
    exact hpiece.of_breaks (breaks_of_isBlank hc)

/-- The tokens of a row are read back exactly if neighbours are apart. -/
theorem lex_layout_iff {lead : String} {pieces : List Spaced} (hlead : Text.Blank lead.toList)
    (hgaps : ∀ p ∈ pieces, Text.Blank p.gap.toList) (hpieces : ∀ p ∈ pieces, p.token.Lexeme []) :
    lex (layout lead pieces).toList = pieces.map Spaced.token ↔ pieces.IsChain Spaced.Apart := by
  induction pieces generalizing lead with
  | nil =>
      rw [toList_layout_nil, lex_of_read?_eq_none (read?_eq_none_iff.mpr hlead)]
      simp
  | cons piece pieces ih =>
      obtain ⟨hgap, hgaps⟩ := List.forall_mem_cons.mp hgaps
      obtain ⟨hpiece, hpieces⟩ := List.forall_mem_cons.mp hpieces
      rw [toList_layout_cons, List.map_cons, lex_literal_append_iff hpiece hlead,
        lexeme_gap_iff hpiece hgap hpieces, ih hgap hgaps hpieces, List.isChain_cons]

/-- **A row of tokens is read back from its text exactly if no two tokens fuse.**  Tokens that can
be read at all are written down with any blanks in front of them, between them and behind them.  The
text has these tokens exactly if every two neighbours that need a blank between them have one. -/
theorem tokenize_layout_eq_iff (lead : String) (pieces : List Spaced)
    (hlead : Text.Blank lead.toList) (hgaps : ∀ p ∈ pieces, Text.Blank p.gap.toList)
    (hpieces : ∀ p ∈ pieces, p.token.Lexable) :
    tokenize (layout lead pieces) = pieces.map Spaced.token ++ [eof] ↔
      pieces.IsChain Spaced.Apart := by
  rw [tokenize, List.append_cancel_right_eq]
  exact lex_layout_iff hlead hgaps fun p hp => lexable_iff.mp (hpieces p hp)

/-- `==` and `=` need no blank between them, while `=` and `==` do. -/
theorem tokenize_layout_equals_signs :
    tokenize " x===let" =
      [⟨.ident, "x"⟩, ⟨.eq, "=="⟩, ⟨.assign, "="⟩, ⟨.letKw, "let"⟩, eof] ∧
    tokenize " x===let" ≠
      [⟨.ident, "x"⟩, ⟨.assign, "="⟩, ⟨.eq, "=="⟩, ⟨.letKw, "let"⟩, eof] := by
  constructor
  · exact (tokenize_layout_eq_iff " "
      [⟨⟨.ident, "x"⟩, ""⟩, ⟨⟨.eq, "=="⟩, ""⟩, ⟨⟨.assign, "="⟩, ""⟩, ⟨⟨.letKw, "let"⟩, ""⟩]
      (by decide) (by decide) (by decide +kernel)).mpr (by decide)
  · exact mt (tokenize_layout_eq_iff " "
      [⟨⟨.ident, "x"⟩, ""⟩, ⟨⟨.assign, "="⟩, ""⟩, ⟨⟨.eq, "=="⟩, ""⟩, ⟨⟨.letKw, "let"⟩, ""⟩]
      (by decide) (by decide) (by decide +kernel)).mp (by decide)

end Token

end Monkey
