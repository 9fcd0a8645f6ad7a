import Monkey.Token.Scan

/-!
# Tokens as they are read off a text

What is known of every token of a text (`scanned_of_mem_lex`), and where a text can be cut without
a change to its tokens (`lex_append`): before a character that continues no lexeme, such as a
semicolon.
-/

namespace Monkey

/-- The text of a kind whose tokens are all spelled alike. -/
def Kind.spelling? : Kind → Option String
  | assign => some "="
  | plus => some "+"
  | minus => some "-"
  | bang => some "!"
  | asterisk => some "*"
  | slash => some "/"
  | lt => some "<"
  | gt => some ">"
  | eq => some "=="
  | notEq => some "!="
  | comma => some ","
  | semicolon => some ";"
  | lparen => some "("
  | rparen => some ")"
  | lbrace => some "\x7b"
  | rbrace => some "\x7d"
  | functionKw => some "fn"
  | letKw => some "let"
  | trueKw => some "true"
  | falseKw => some "false"
  | ifKw => some "if"
  | elseKw => some "else"
  | returnKw => some "return"
  | eof | illegal | ident | int => none

namespace Token

def assign : Token := ⟨.assign, "="⟩

def semicolon : Token := ⟨.semicolon, ";"⟩

/-- What holds of every token that is read off a text: it is not the one at the end, and a kind
with one spelling is spelled that way. -/
structure Scanned (token : Token) : Prop where
  kind_ne_eof : token.kind ≠ .eof
  literal_eq : ∀ text, token.kind.spelling? = some text → token.literal = text

namespace Scanned

variable {token : Token}

theorem eq_of_spelling (h : token.Scanned) {kind : Kind} {text : String} (hkind : token.kind = kind)
    (htext : kind.spelling? = some text) : token = ⟨kind, text⟩ := by
  obtain ⟨k, literal⟩ := token
  subst hkind
  rw [Token.mk.injEq]
  exact ⟨rfl, h.literal_eq text htext⟩

theorem eq_assign (h : token.Scanned) (hkind : token.kind = .assign) : token = assign :=
  h.eq_of_spelling hkind rfl

theorem eq_semicolon (h : token.Scanned) (hkind : token.kind = .semicolon) : token = semicolon :=
  h.eq_of_spelling hkind rfl

end Scanned

/-! ### Every token of a text -/

theorem spelling_of_mem_reservedWords :
    ∀ entry ∈ reservedWords, entry.2.spelling? = some entry.1 := by
  decide

theorem ofWord_eq_ident_or_spelling (word : String) :
    Kind.ofWord word = .ident ∨ (Kind.ofWord word).spelling? = some word := by
  unfold Kind.ofWord
  cases h : reservedWords.lookup word with
  | none => exact .inl rfl
  | some kind =>
      obtain ⟨before, after, hwords, -⟩ := List.lookup_eq_some_iff.mp h
      have hmem : (word, kind) ∈ reservedWords := by
        rw [hwords]
        exact List.mem_append_right before List.mem_cons_self
      exact .inr (spelling_of_mem_reservedWords _ hmem)

theorem spelling_of_ofChar? {c : Char} {kind : Kind} (h : Kind.ofChar? c = some kind) :
    kind.spelling? = some (String.singleton c) := by
  unfold Kind.ofChar? at h
  split at h
  all_goals cases h
  all_goals decide

theorem spelling_of_ofPair? {c d : Char} {kind : Kind} (h : Kind.ofPair? c d = some kind) :
    kind.spelling? = some (String.ofList [c, d]) := by
  unfold Kind.ofPair? at h
  split at h
  all_goals cases h
  all_goals decide

theorem scanned_of_spelling {kind : Kind} {text : String} (h : kind.spelling? = some text) :
    Scanned ⟨kind, text⟩ := by
  refine ⟨fun heof => ?_, fun other hother => Option.some.inj (h.symm.trans hother)⟩
  rw [show kind = .eof from heof] at h
  cases h

theorem scanned_scanWord (c : Char) (cs : List Char) :
    (scanRun Text.isLetter Kind.ofWord c cs).1.Scanned := by
  unfold scanRun
  obtain h | h := ofWord_eq_ident_or_spelling (String.ofList (c :: cs.takeWhile Text.isLetter))
  · dsimp only
    rw [h]
    exact ⟨nofun, nofun⟩
  · exact scanned_of_spelling h

theorem scanned_scanNumber (c : Char) (cs : List Char) :
    (scanRun Char.isDigit (fun _ => .int) c cs).1.Scanned :=
  ⟨nofun, nofun⟩

theorem scanned_scanChar (c : Char) (cs : List Char) : (scanChar c cs).1.Scanned := by
  unfold scanChar
  cases h : Kind.ofChar? c with
  | none => exact ⟨nofun, nofun⟩
  | some kind => exact scanned_of_spelling (spelling_of_ofChar? h)

theorem scanned_scanMark (c : Char) (cs : List Char) : (scanMark c cs).1.Scanned := by
  unfold scanMark
  split
  · exact scanned_scanChar c []
  · next d rest =>
    split
    · next kind hkind => exact scanned_of_spelling (spelling_of_ofPair? hkind)
    · exact scanned_scanChar c (d :: rest)

theorem scanned_scan (c : Char) (cs : List Char) : (scan c cs).1.Scanned := by
  unfold scan
  split
  · exact scanned_scanWord c cs
  · split
    · exact scanned_scanNumber c cs
    · exact scanned_scanMark c cs

theorem lex_of_read?_eq_none {text : List Char} (h : read? text = none) : lex text = [] := by
  rw [lex]
  split
  · rfl
  · next h' => rw [h] at h'; cases h'

theorem lex_of_read?_eq_some {text rest : List Char} {token : Token}
    (h : read? text = some (token, rest)) : lex text = token :: lex rest := by
  rw [lex]
  split
  · next h' => rw [h] at h'; cases h'
  · next h' => rw [h] at h'; cases h'; rfl

theorem lex_nil : lex [] = [] :=
  lex_of_read?_eq_none rfl

theorem scanned_of_read? {text rest : List Char} {token : Token}
    (h : read? text = some (token, rest)) : token.Scanned := by
  unfold read? at h
  split at h
  · cases h
  · next c cs _ =>
    have := scanned_scan c cs
    rwa [Option.some.inj h] at this

theorem scanned_of_mem_lex {text : List Char} {token : Token} (h : token ∈ lex text) :
    token.Scanned := by
  induction text using lex.induct with
  | case1 text hread =>
      rw [lex_of_read?_eq_none hread] at h
      cases h
  | case2 text first rest hread _ ih =>
      rw [lex_of_read?_eq_some hread, List.mem_cons] at h
      obtain rfl | h := h
      · exact scanned_of_read? hread
      · exact ih h

theorem filter_tokenize (source : String) :
    (tokenize source).filter (·.kind ≠ .eof) = lex source.toList := by
  have hlex : (lex source.toList).filter (·.kind ≠ .eof) = lex source.toList :=
    List.filter_eq_self.mpr fun token h => by
      simpa using (scanned_of_mem_lex h).kind_ne_eof
  have heof : [eof].filter (·.kind ≠ .eof) = [] := by decide
  rw [tokenize, List.filter_append, hlex, heof, List.append_nil]

/-! ### Cutting a text -/

/-- A character that continues no lexeme in front of it. -/
def Breaks (c : Char) : Prop :=
  Text.isLetter c = false ∧ c.isDigit = false ∧ c ≠ '='

/-- A text whose first character continues no lexeme in front of it. -/
def BreaksAtFront (ds : List Char) : Prop :=
  ∀ d ∈ ds.head?, Breaks d

theorem takeWhile_append_of_head {α : Type} {p : α → Bool} {ds : List α}
    (h : ∀ d ∈ ds.head?, p d = false) (cs : List α) :
    (cs ++ ds).takeWhile p = cs.takeWhile p := by
  induction cs with
  | nil =>
      cases ds with
      | nil => rfl
      | cons d ds => simp [h d rfl]
  | cons c cs ih => simp only [List.cons_append, List.takeWhile_cons, ih]

theorem dropWhile_append_of_head {α : Type} {p : α → Bool} {ds : List α}
    (h : ∀ d ∈ ds.head?, p d = false) (cs : List α) :
    (cs ++ ds).dropWhile p = cs.dropWhile p ++ ds := by
  induction cs with
  | nil =>
      cases ds with
      | nil => rfl
      | cons d ds => simp [h d rfl]
  | cons c cs ih =>
      simp only [List.cons_append, List.dropWhile_cons, ih]
      split <;> rfl

variable {ds : List Char}

theorem scanRun_append {p : Char → Bool} (h : ∀ d ∈ ds.head?, p d = false)
    (kind : String → Kind) (c : Char) (cs : List Char) :
    scanRun p kind c (cs ++ ds) = ((scanRun p kind c cs).1, (scanRun p kind c cs).2 ++ ds) := by
  simp only [scanRun, takeWhile_append_of_head h, dropWhile_append_of_head h]

theorem ofPair?_eq_none {c d : Char} (h : d ≠ '=') : Kind.ofPair? c d = none := by
  unfold Kind.ofPair?
  split
  · contradiction
  · contradiction
  · rfl

theorem scanMark_append (h : BreaksAtFront ds) (c : Char) (cs : List Char) :
    scanMark c (cs ++ ds) = ((scanMark c cs).1, (scanMark c cs).2 ++ ds) := by
  cases cs with
  | cons d cs =>
      simp only [List.cons_append, scanMark]
      split <;> rfl
  | nil =>
      cases ds with
      | nil => rfl
      | cons d ds =>
          have hd : d ≠ '=' := (h d rfl).2.2
          simp [scanMark, ofPair?_eq_none hd, scanChar]

theorem scan_append (h : BreaksAtFront ds) (c : Char) (cs : List Char) :
    scan c (cs ++ ds) = ((scan c cs).1, (scan c cs).2 ++ ds) := by
  unfold scan
  split
  · exact scanRun_append (fun d hd => (h d hd).1) _ c cs
  · split
    · exact scanRun_append (fun d hd => (h d hd).2.1) _ c cs
    · exact scanMark_append h c cs

theorem read?_append_of_none {cs : List Char} (h : read? cs = none) :
    read? (cs ++ ds) = read? ds := by
  have hblank : cs.dropWhile Text.isBlank = [] := by
    unfold read? at h
    split at h
    · assumption
    · cases h
  rw [read?, read?, List.dropWhile_append, hblank, List.isEmpty_nil, if_pos rfl]

theorem read?_append_of_some (h : BreaksAtFront ds) {cs rest : List Char} {token : Token}
    (hread : read? cs = some (token, rest)) :
    read? (cs ++ ds) = some (token, rest ++ ds) := by
  unfold read? at hread
  split at hread
  · cases hread
  · next c tail hdrop =>
    have hscan := Option.some.inj hread
    rw [read?, List.dropWhile_append, hdrop, List.isEmpty_cons, if_neg Bool.false_ne_true,
      List.cons_append]
    dsimp only
    rw [scan_append h, hscan]

/-- A text can be cut before a character that continues no lexeme. -/
theorem lex_append (h : BreaksAtFront ds) (cs : List Char) :
    lex (cs ++ ds) = lex cs ++ lex ds := by
  induction cs using lex.induct with
  | case1 cs hread =>
      rw [lex_of_read?_eq_none hread, List.nil_append]
      cases hds : read? ds with
      | none =>
          rw [lex_of_read?_eq_none hds,
            lex_of_read?_eq_none ((read?_append_of_none hread).trans hds)]
      | some p =>
          obtain ⟨token, rest⟩ := p
          rw [lex_of_read?_eq_some hds,
            lex_of_read?_eq_some ((read?_append_of_none hread).trans hds)]
  | case2 cs token rest hread _ ih =>
      rw [lex_of_read?_eq_some hread, lex_of_read?_eq_some (read?_append_of_some h hread), ih,
        List.cons_append]

theorem breaksAtFront_semicolon (ds : List Char) : BreaksAtFront (';' :: ds) := by
  intro d hd
  obtain rfl : ';' = d := Option.some.inj hd
  exact ⟨by decide, by decide, by decide⟩

theorem read?_semicolon (ds : List Char) : read? (';' :: ds) = some (semicolon, ds) := by
  have hblank : (';' :: ds).dropWhile Text.isBlank = ';' :: ds :=
    List.dropWhile_cons_of_neg (by decide)
  have hscan : scan ';' ds = (semicolon, ds) := by
    cases ds <;> rfl
  rw [read?, hblank]
  dsimp only
  rw [hscan]

theorem lex_append_semicolon (cs ds : List Char) :
    lex (cs ++ ';' :: ds) = lex cs ++ semicolon :: lex ds := by
  rw [lex_append (breaksAtFront_semicolon ds), lex_of_read?_eq_some (read?_semicolon ds)]

end Token

end Monkey
