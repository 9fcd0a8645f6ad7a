import Mathlib.Data.List.TakeWhile
import Monkey.Proofs.Lexeme

/-!
# The scanner takes the longest lexeme

How a text is divided into tokens, said without the scanner:

* `Token.Lexeme token rest`: the token may stand in front of the text `rest`.  A word and a number
  go as far as they can, a word is a keyword only as a whole, `=` and `!` stand in front of
  anything but `=`, and a character that belongs to nothing else is a token by itself.
* `Token.Segmented text tokens`: the text consists of the literals of the tokens, each a lexeme in
  front of what follows it, and of blanks.

A text can be divided in one way only, and that is the way of the scanner (`tokenize_eq_iff`).
-/

namespace Monkey

/-! ### Lexemes -/

/-- The characters that are tokens whatever follows them, and the kinds of these tokens. -/
def Kind.marks : List (Char × Kind) :=
  [('+', plus), ('-', minus), ('*', asterisk), ('/', slash), ('<', lt), ('>', gt), (',', comma),
   (';', semicolon), ('(', lparen), (')', rparen), ('\x7b', lbrace), ('\x7d', rbrace)]

/-- The kind belongs to the word: it is the word's own if the word is reserved, and that of names
otherwise. -/
def Kind.Classifies (kind : Kind) (word : String) : Prop :=
  (word, kind) ∈ reservedWords ∨ (kind = .ident ∧ ∀ entry ∈ reservedWords, entry.1 ≠ word)

/-- Nothing but characters that may stand between tokens. -/
def Text.Blank (cs : List Char) : Prop :=
  ∀ c ∈ cs, Text.isBlank c = true

instance (cs : List Char) : Decidable (Text.Blank cs) :=
  decidable_of_iff (cs.all Text.isBlank = true) List.all_eq_true

namespace Token

/-- The text does not start with a character of the class. -/
def Ends (p : Char → Bool) (rest : List Char) : Prop :=
  ∀ c ∈ rest.head?, p c = false

/-- A character that is no blank and that no other token starts with. -/
structure Stray (c : Char) : Prop where
  not_letter : Text.isLetter c = false
  not_digit : c.isDigit = false
  not_blank : Text.isBlank c = false
  ne_assign : c ≠ '='
  ne_bang : c ≠ '!'
  not_mark : ∀ entry ∈ Kind.marks, entry.1 ≠ c

/-- The token may stand in front of the text. -/
inductive Lexeme : Token → List Char → Prop
  | word {kind : Kind} {literal : String} {rest : List Char} :
      literal.toList ≠ [] → (∀ c ∈ literal.toList, Text.isLetter c = true) →
      kind.Classifies literal → Ends Text.isLetter rest → Lexeme ⟨kind, literal⟩ rest
  | number {literal : String} {rest : List Char} :
      literal.toList ≠ [] → (∀ c ∈ literal.toList, c.isDigit = true) →
      Ends Char.isDigit rest → Lexeme ⟨.int, literal⟩ rest
  | eq {rest : List Char} : Lexeme ⟨.eq, "=="⟩ rest
  | notEq {rest : List Char} : Lexeme ⟨.notEq, "!="⟩ rest
  | assign {rest : List Char} : rest.head? ≠ some '=' → Lexeme ⟨.assign, "="⟩ rest
  | bang {rest : List Char} : rest.head? ≠ some '=' → Lexeme ⟨.bang, "!"⟩ rest
  | mark {c : Char} {kind : Kind} {rest : List Char} :
      (c, kind) ∈ Kind.marks → Lexeme ⟨kind, String.singleton c⟩ rest
  | illegal {c : Char} {rest : List Char} :
      Stray c → Lexeme ⟨.illegal, String.singleton c⟩ rest

/-- The text consists of blanks and of the literals of the tokens, each of them a lexeme. -/
inductive Segmented : List Char → List Token → Prop
  | nil {blanks : List Char} : Text.Blank blanks → Segmented blanks []
  | cons {blanks rest : List Char} {token : Token} {tokens : List Token} :
      Text.Blank blanks → token.Lexeme rest → Segmented rest tokens →
      Segmented (blanks ++ (token.literal.toList ++ rest)) (token :: tokens)

/-! ### Classes of characters -/

variable {c d : Char} {cs rest text : List Char} {kind : Kind} {token : Token}

theorem breaks_of_isBlank (h : Text.isBlank c = true) : Breaks c := by
  obtain rfl | rfl | rfl | rfl := Text.isBlank_iff.mp h
  all_goals exact ⟨by decide, by decide, by decide⟩

theorem isBlank_eq_false_of_isLetter (h : Text.isLetter c = true) : Text.isBlank c = false := by
  rw [Bool.eq_false_iff]
  intro hblank
  rw [(breaks_of_isBlank hblank).1] at h
  cases h

theorem isBlank_eq_false_of_isDigit (h : c.isDigit = true) : Text.isBlank c = false := by
  rw [Bool.eq_false_iff]
  intro hblank
  rw [(breaks_of_isBlank hblank).2.1] at h
  cases h

theorem class_of_ofChar? (h : Kind.ofChar? c = some kind) :
    Text.isLetter c = false ∧ c.isDigit = false ∧ Text.isBlank c = false := by
  unfold Kind.ofChar? at h
  split at h
  all_goals cases h
  all_goals decide

theorem ofChar?_cases (h : Kind.ofChar? c = some kind) :
    (c, kind) ∈ Kind.marks ∨ (kind = .assign ∧ c = '=') ∨ (kind = .bang ∧ c = '!') := by
  unfold Kind.ofChar? at h
  split at h
  all_goals cases h
  all_goals decide

theorem ofChar?_of_mem_marks :
    ∀ entry ∈ Kind.marks, Kind.ofChar? entry.1 = some entry.2 ∧ entry.1 ≠ '=' ∧ entry.1 ≠ '!' := by
  decide

theorem ofPair?_eq_none_of_ne (hassign : c ≠ '=') (hbang : c ≠ '!') :
    Kind.ofPair? c d = none := by
  unfold Kind.ofPair?
  split
  · contradiction
  · contradiction
  · rfl

/-! ### What the scanner reads is a lexeme -/

theorem ends_dropWhile (p : Char → Bool) (cs : List Char) : Ends p (cs.dropWhile p) := by
  intro c hc
  have hhead := List.head?_dropWhile_not p cs
  rw [Option.mem_def.mp hc] at hhead
  exact hhead

theorem classifies_ofWord (word : String) : (Kind.ofWord word).Classifies word := by
  unfold Kind.ofWord
  cases h : reservedWords.lookup word with
  | none =>
      refine .inr ⟨rfl, fun entry hentry heq => ?_⟩
      have hne := List.lookup_eq_none_iff.mp h entry hentry
      simp [heq] at hne
  | some kind =>
      obtain ⟨before, after, hwords, -⟩ := List.lookup_eq_some_iff.mp h
      refine .inl ?_
      rw [hwords]
      exact List.mem_append_right before List.mem_cons_self

theorem mem_run {p : Char → Bool} (hc : p c = true) :
    ∀ d ∈ (String.ofList (c :: cs.takeWhile p)).toList, p d = true := by
  rw [String.toList_ofList]
  exact List.forall_mem_cons.mpr ⟨hc, fun d hd => List.mem_takeWhile_imp hd⟩

theorem lexeme_scanChar (hletter : Text.isLetter c = false) (hdigit : c.isDigit = false)
    (hblank : Text.isBlank c = false) (hpair : ∀ d ∈ cs.head?, Kind.ofPair? c d = none) :
    (scanChar c cs).1.Lexeme cs := by
  unfold scanChar
  cases h : Kind.ofChar? c with
  | none =>
      refine .illegal ⟨hletter, hdigit, hblank, ?_, ?_, ?_⟩
      · rintro rfl
        cases h
      · rintro rfl
        cases h
      · rintro entry hentry rfl
        rw [(ofChar?_of_mem_marks entry hentry).1] at h
        cases h
  | some kind =>
      obtain hmark | ⟨rfl, rfl⟩ | ⟨rfl, rfl⟩ := ofChar?_cases h
      · exact .mark hmark
      · refine .assign fun hhead => ?_
        cases hpair '=' hhead
      · refine .bang fun hhead => ?_
        cases hpair '=' hhead

theorem lexeme_scanMark (hletter : Text.isLetter c = false) (hdigit : c.isDigit = false)
    (hblank : Text.isBlank c = false) : (scanMark c cs).1.Lexeme (scanMark c cs).2 := by
  unfold scanMark
  split
  · exact lexeme_scanChar hletter hdigit hblank nofun
  · next d rest =>
    split
    · next kind hkind =>
      unfold Kind.ofPair? at hkind
      split at hkind
      · cases hkind
        exact .eq
      · cases hkind
        exact .notEq
      · cases hkind
    · next hnone =>
      refine lexeme_scanChar hletter hdigit hblank fun e he => ?_
      obtain rfl : d = e := Option.some.inj he
      exact hnone

/-- **The token that is read is a lexeme** in front of the text that is left. -/
theorem lexeme_scan (hblank : Text.isBlank c = false) : (scan c cs).1.Lexeme (scan c cs).2 := by
  unfold scan
  split
  · next hletter =>
    exact .word (by simp) (mem_run hletter) (classifies_ofWord _) (ends_dropWhile _ cs)
  · next hletter =>
    split
    · next hdigit => exact .number (by simp) (mem_run hdigit) (ends_dropWhile _ cs)
    · next hdigit =>
      exact lexeme_scanMark (Bool.eq_false_iff.mpr hletter) (Bool.eq_false_iff.mpr hdigit) hblank

/-! ### Every lexeme is read -/

theorem takeWhile_append_of_ends {p : Char → Bool} (hcs : ∀ c ∈ cs, p c = true)
    (hrest : Ends p rest) : (cs ++ rest).takeWhile p = cs := by
  rw [takeWhile_append_of_head hrest, List.takeWhile_eq_self_iff.mpr hcs]

theorem dropWhile_append_of_ends {p : Char → Bool} (hcs : ∀ c ∈ cs, p c = true)
    (hrest : Ends p rest) : (cs ++ rest).dropWhile p = rest := by
  rw [dropWhile_append_of_head hrest, List.dropWhile_eq_nil_iff.mpr hcs, List.nil_append]

theorem scanRun_append_of_ends {p : Char → Bool} (kindOf : String → Kind)
    (hcs : ∀ c ∈ cs, p c = true) (hrest : Ends p rest) (c : Char) :
    scanRun p kindOf c (cs ++ rest) =
      (⟨kindOf (String.ofList (c :: cs)), String.ofList (c :: cs)⟩, rest) := by
  simp only [scanRun, takeWhile_append_of_ends hcs hrest, dropWhile_append_of_ends hcs hrest]

theorem ofWord_eq_of_classifies {word : String} (h : kind.Classifies word) :
    Kind.ofWord word = kind := by
  obtain hmem | ⟨rfl, hne⟩ := h
  · have hreserved : ∀ entry ∈ reservedWords, Kind.ofWord entry.1 = entry.2 := by decide
    exact hreserved _ hmem
  · have hnone : reservedWords.lookup word = none := by
      refine List.lookup_eq_none_iff.mpr fun entry hentry => ?_
      simpa using (hne entry hentry).symm
    rw [Kind.ofWord, hnone]
    rfl

/-- A character that makes no pair with the next one is scanned alone. -/
theorem scan_eq_scanChar (hletter : Text.isLetter c = false) (hdigit : c.isDigit = false)
    (hpair : ∀ d ∈ cs.head?, Kind.ofPair? c d = none) : scan c cs = scanChar c cs := by
  rw [scan, hletter, hdigit, if_neg Bool.false_ne_true, if_neg Bool.false_ne_true]
  cases cs with
  | nil => rfl
  | cons d cs =>
      have hnone : Kind.ofPair? c d = none := hpair d rfl
      simp only [scanMark, hnone]

theorem ofPair?_eq_none_of_head (h : cs.head? ≠ some '=') :
    ∀ d ∈ cs.head?, Kind.ofPair? c d = none := by
  intro d hd
  refine ofPair?_eq_none ?_
  rintro rfl
  exact h hd

theorem Lexeme.scan (h : token.Lexeme rest) :
    ∃ c cs, token.literal.toList = c :: cs ∧ Text.isBlank c = false ∧
      Token.scan c (cs ++ rest) = (token, rest) := by
  cases h with
  | @word kind literal _ hne hletters hkind hrest =>
      obtain ⟨c, cs, hliteral⟩ := List.exists_cons_of_ne_nil hne
      rw [hliteral] at hletters
      obtain ⟨hc, hcs⟩ := List.forall_mem_cons.mp hletters
      refine ⟨c, cs, hliteral, isBlank_eq_false_of_isLetter hc, ?_⟩
      rw [Token.scan, if_pos hc, scanRun_append_of_ends _ hcs hrest, ← hliteral,
        String.ofList_toList, ofWord_eq_of_classifies hkind]
  | @number literal _ hne hdigits hrest =>
      obtain ⟨c, cs, hliteral⟩ := List.exists_cons_of_ne_nil hne
      rw [hliteral] at hdigits
      obtain ⟨hc, hcs⟩ := List.forall_mem_cons.mp hdigits
      refine ⟨c, cs, hliteral, isBlank_eq_false_of_isDigit hc, ?_⟩
      rw [Token.scan, Text.isLetter_eq_false_of_isDigit hc, if_neg Bool.false_ne_true, if_pos hc,
        scanRun_append_of_ends _ hcs hrest, ← hliteral, String.ofList_toList]
  | eq => exact ⟨'=', ['='], rfl, rfl, rfl⟩
  | notEq => exact ⟨'!', ['='], rfl, rfl, rfl⟩
  | assign hhead =>
      refine ⟨'=', [], rfl, rfl, ?_⟩
      rw [List.nil_append, scan_eq_scanChar rfl rfl (ofPair?_eq_none_of_head hhead)]
      rfl
  | bang hhead =>
      refine ⟨'!', [], rfl, rfl, ?_⟩
      rw [List.nil_append, scan_eq_scanChar rfl rfl (ofPair?_eq_none_of_head hhead)]
      rfl
  | @mark c kind _ hmark =>
      obtain ⟨hof, hassign, hbang⟩ : Kind.ofChar? c = some kind ∧ c ≠ '=' ∧ c ≠ '!' :=
        ofChar?_of_mem_marks _ hmark
      obtain ⟨hletter, hdigit, hblank⟩ := class_of_ofChar? hof
      refine ⟨c, [], String.toList_singleton c, hblank, ?_⟩
      have hpair : ∀ d ∈ rest.head?, Kind.ofPair? c d = none :=
        fun d _ => ofPair?_eq_none_of_ne hassign hbang
      rw [List.nil_append, scan_eq_scanChar hletter hdigit hpair, scanChar, hof]
      rfl
  | @illegal c _ hstray =>
      have hof : Kind.ofChar? c = none := by
        rw [Option.eq_none_iff_forall_ne_some]
        intro kind hkind
        obtain hmark | ⟨-, hc⟩ | ⟨-, hc⟩ := ofChar?_cases hkind
        · exact hstray.not_mark _ hmark rfl
        · exact hstray.ne_assign hc
        · exact hstray.ne_bang hc
      refine ⟨c, [], String.toList_singleton c, hstray.not_blank, ?_⟩
      have hpair : ∀ d ∈ rest.head?, Kind.ofPair? c d = none :=
        fun d _ => ofPair?_eq_none_of_ne hstray.ne_assign hstray.ne_bang
      rw [List.nil_append, scan_eq_scanChar hstray.not_letter hstray.not_digit hpair, scanChar, hof]
      rfl

theorem Lexeme.ends_isBlank {other : List Char} (h : token.Lexeme other) (rest : List Char) :
    Ends Text.isBlank (token.literal.toList ++ rest) := by
  obtain ⟨c, cs, hliteral, hblank, -⟩ := h.scan
  rw [hliteral]
  intro d hd
  obtain rfl : c = d := Option.some.inj hd
  exact hblank

/-! ### The first token of a text -/

theorem read?_eq_none_iff : read? text = none ↔ Text.Blank text := by
  refine Iff.trans ?_ List.dropWhile_eq_nil_iff
  unfold read?
  cases text.dropWhile Text.isBlank with
  | nil => simp
  | cons c cs => simp

/-- **A token is read off a text** exactly if the text consists of blanks, the literal of the
token, and a text in front of which the token is a lexeme. -/
theorem read?_eq_some_iff :
    read? text = some (token, rest) ↔
      ∃ blanks, Text.Blank blanks ∧ token.Lexeme rest ∧
        text = blanks ++ (token.literal.toList ++ rest) := by
  constructor
  · intro h
    unfold read? at h
    split at h
    · cases h
    · next c cs hdrop =>
      have hscan : Token.scan c cs = (token, rest) := Option.some.inj h
      have hhead : c ∈ (text.dropWhile Text.isBlank).head? := by
        rw [hdrop]
        rfl
      have hblank : Text.isBlank c = false := ends_dropWhile Text.isBlank text c hhead
      have hlexeme : (Token.scan c cs).1.Lexeme (Token.scan c cs).2 := lexeme_scan hblank
      have hliteral := literal_scan c cs
      rw [hscan] at hlexeme hliteral
      refine ⟨text.takeWhile Text.isBlank, fun d hd => List.mem_takeWhile_imp hd, hlexeme, ?_⟩
      rw [hliteral, ← hdrop, List.takeWhile_append_dropWhile]
  · rintro ⟨blanks, hblanks, hlexeme, rfl⟩
    obtain ⟨c, cs, hliteral, -, hscan⟩ := hlexeme.scan
    rw [read?, dropWhile_append_of_ends hblanks (hlexeme.ends_isBlank rest), hliteral,
      List.cons_append]
    exact congrArg some hscan

/-- The text behind the first token of a text is found by taking off blanks and the literal. -/
theorem Lexeme.eq_of_read? {blanks other more : List Char} (h : token.Lexeme other)
    (hblanks : Text.Blank blanks)
    (hread : read? (blanks ++ (token.literal.toList ++ more)) = some (token, rest)) :
    more = rest := by
  obtain ⟨blanks', hblanks', hlexeme, htext⟩ := read?_eq_some_iff.mp hread
  have hdrop := congrArg (List.dropWhile Text.isBlank) htext
  rw [dropWhile_append_of_ends hblanks (h.ends_isBlank more),
    dropWhile_append_of_ends hblanks' (hlexeme.ends_isBlank rest)] at hdrop
  exact List.append_cancel_left hdrop

/-! ### All tokens of a text -/

theorem lex_eq_cons_iff {tokens : List Token} :
    lex text = token :: tokens ↔ ∃ rest, read? text = some (token, rest) ∧ lex rest = tokens := by
  cases hread : read? text with
  | none =>
      rw [lex_of_read?_eq_none hread]
      simp
  | some p =>
      obtain ⟨first, rest⟩ := p
      rw [lex_of_read?_eq_some hread]
      simp [and_assoc]

theorem segmented_lex (text : List Char) : Segmented text (lex text) := by
  induction text using lex.induct with
  | case1 text hread =>
      rw [lex_of_read?_eq_none hread]
      exact .nil (read?_eq_none_iff.mp hread)
  | case2 text token rest hread _ ih =>
      rw [lex_of_read?_eq_some hread]
      obtain ⟨blanks, hblanks, hlexeme, rfl⟩ := read?_eq_some_iff.mp hread
      exact .cons hblanks hlexeme ih

theorem Segmented.lex_eq {tokens : List Token} (h : Segmented text tokens) : lex text = tokens := by
  induction h with
  | nil hblanks => exact lex_of_read?_eq_none (read?_eq_none_iff.mpr hblanks)
  | cons hblanks hlexeme _ ih =>
      rw [lex_of_read?_eq_some (read?_eq_some_iff.mpr ⟨_, hblanks, hlexeme, rfl⟩), ih]

/-- **The scanner takes the longest lexeme.**  The tokens of a source text are those into which it
is divided by its blanks and by the rules for lexemes, none of them of the kind of the end, and
after them one token of that kind with an empty literal. -/
theorem tokenize_eq_iff (source : String) (row : List Token) :
    tokenize source = row ↔
      ∃ tokens, row = tokens ++ [⟨.eof, ""⟩] ∧ (∀ token ∈ tokens, token.kind ≠ .eof) ∧
        Segmented source.toList tokens := by
  constructor
  · rintro rfl
    refine ⟨lex source.toList, rfl, ?_, segmented_lex source.toList⟩
    intro token htoken
    exact (scanned_of_mem_lex htoken).kind_ne_eof
  · rintro ⟨tokens, rfl, -, hsegmented⟩
    rw [tokenize, hsegmented.lex_eq]
    rfl

end Token

end Monkey
