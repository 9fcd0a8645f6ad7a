import Mathlib.Logic.Function.Basic
import Monkey.Console
import Monkey.Proofs.Lexeme

/-!
# Token dumps tell tokens apart

The line of a token dump is a name, a colon and a quoted literal.  No two tokens have the same line
(`Token.display_injective`), and two texts have the same dump exactly if they have the same tokens
(`Console.dump_lossless`).

Both the quoted literal and the dump are written piece by piece in a code that delimits itself: the
code of the first piece is known whatever comes behind it (`Text.SelfDelimiting`).  A character is
written as it is, as a backslash and a letter, or as a backslash, `u` and a code point that ends
with a brace (`Text.Escape`); a line of the dump ends with a line feed, which it does not contain.
-/

namespace Monkey

namespace Text

/-! ### Codes -/

section Codes

variable {α β : Type} {code : α → List β}

/-- Texts in front of a mark that they do not contain are told apart by where it stands. -/
theorem append_cons_inj {mark : β} {cs ds rest rest' : List β} (hcs : mark ∉ cs)
    (hds : mark ∉ ds) (h : cs ++ mark :: rest = ds ++ mark :: rest') : cs = ds ∧ rest = rest' := by
  induction cs generalizing ds with
  | nil =>
      cases ds with
      | nil => exact ⟨rfl, (List.cons.inj h).2⟩
      | cons d ds =>
          obtain ⟨rfl, -⟩ := List.cons.inj h
          exact absurd List.mem_cons_self hds
  | cons c cs ih =>
      cases ds with
      | nil =>
          obtain ⟨rfl, -⟩ := List.cons.inj h
          exact absurd List.mem_cons_self hcs
      | cons d ds =>
          obtain ⟨rfl, htail⟩ := List.cons.inj h
          rw [List.mem_cons, not_or] at hcs hds
          obtain ⟨rfl, hrest⟩ := ih hcs.2 hds.2 htail
          exact ⟨rfl, hrest⟩

/-- What is coded first is known, and where its code ends, whatever comes behind it. -/
structure SelfDelimiting (code : α → List β) : Prop where
  ne_nil : ∀ a, code a ≠ []
  eq_of_append : ∀ {a b rest rest'}, code a ++ rest = code b ++ rest' → a = b ∧ rest = rest'

/-- **A row is known from the codes of its members**, one right behind the other. -/
theorem SelfDelimiting.flatMap_injective (h : SelfDelimiting code) :
    Function.Injective fun row : List α => row.flatMap code := by
  intro row row' heq
  dsimp only at heq
  induction row generalizing row' with
  | nil =>
      cases row' with
      | nil => rfl
      | cons b row' =>
          rw [List.flatMap_nil, List.flatMap_cons] at heq
          exact absurd (List.append_eq_nil_iff.mp heq.symm).1 (h.ne_nil b)
  | cons a row ih =>
      cases row' with
      | nil =>
          rw [List.flatMap_nil, List.flatMap_cons] at heq
          exact absurd (List.append_eq_nil_iff.mp heq).1 (h.ne_nil a)
      | cons b row' =>
          rw [List.flatMap_cons, List.flatMap_cons] at heq
          obtain ⟨rfl, hrest⟩ := h.eq_of_append heq
          rw [ih hrest]

theorem selfDelimiting_append_singleton {mark : β} (hcode : Function.Injective code)
    (hmark : ∀ a, mark ∉ code a) : SelfDelimiting fun a => code a ++ [mark] where
  ne_nil a := List.append_ne_nil_of_right_ne_nil _ (List.cons_ne_nil _ _)
  eq_of_append {a b rest rest'} h := by
    rw [List.append_assoc, List.append_assoc] at h
    obtain ⟨heq, hrest⟩ := append_cons_inj (hmark a) (hmark b) h
    exact ⟨hcode heq, hrest⟩

theorem count_flatMap [BEq β] {x : β} {k : Nat} {row : List α}
    (h : ∀ a ∈ row, (code a).count x = k) : (row.flatMap code).count x = k * row.length := by
  induction row with
  | nil => rfl
  | cons a row ih =>
      obtain ⟨ha, hrow⟩ := List.forall_mem_cons.mp h
      rw [List.flatMap_cons, List.count_append, ha, ih hrow, List.length_cons, Nat.mul_succ,
        Nat.add_comm]

end Codes

/-! ### Hexadecimal numerals -/

variable {m n : Nat} {c d : Char}

theorem digitChar_inj : ∀ m < 16, ∀ n < 16, Nat.digitChar m = Nat.digitChar n → m = n := by
  decide

theorem toDigits_eq_append (n : Nat) :
    Nat.toDigits 16 n =
      (if n < 16 then [] else Nat.toDigits 16 (n / 16)) ++ [Nat.digitChar (n % 16)] := by
  split
  · next hn => rw [Nat.toDigits_of_lt_base hn, Nat.mod_eq_of_lt hn, List.nil_append]
  · next hn => exact Nat.toDigits_of_base_le (by decide) (Nat.not_lt.mp hn)

/-- **A number is known from its hexadecimal digits.** -/
theorem eq_of_toDigits_eq (h : Nat.toDigits 16 m = Nat.toDigits 16 n) : m = n := by
  induction m using Nat.strongRecOn generalizing n with
  | ind m ih =>
      rw [toDigits_eq_append m, toDigits_eq_append n] at h
      obtain ⟨hfront, hlast⟩ := List.append_inj' h rfl
      have hmod : m % 16 = n % 16 := digitChar_inj _ (Nat.mod_lt _ (by decide)) _
        (Nat.mod_lt _ (by decide)) (List.singleton_inj.mp hlast)
      have hdiv : m / 16 = n / 16 := by
        split at hfront
        · split at hfront
          · omega
          · exact absurd hfront.symm Nat.toDigits_ne_nil
        · split at hfront
          · exact absurd hfront Nat.toDigits_ne_nil
          · exact ih (m / 16) (by omega) hfront
      omega

theorem exists_eq_digitChar_of_mem_toDigits (h : c ∈ Nat.toDigits 16 n) :
    ∃ k, c = Nat.digitChar k := by
  induction n using Nat.strongRecOn with
  | ind n ih =>
      rw [toDigits_eq_append] at h
      obtain h | h := List.mem_append.mp h
      · split at h
        · cases h
        · exact ih (n / 16) (by omega) h
      · exact ⟨n % 16, List.mem_singleton.mp h⟩

theorem not_mem_toDigits (hc : ∀ k, Nat.digitChar k ≠ c) : c ∉ Nat.toDigits 16 n := by
  intro h
  obtain ⟨k, hk⟩ := exists_eq_digitChar_of_mem_toDigits h
  exact hc k hk.symm

theorem brace_not_mem_toDigits (n : Nat) : '\x7d' ∉ Nat.toDigits 16 n :=
  not_mem_toDigits fun _ => Nat.digitChar_ne '\x7d' (by decide)

theorem lineFeed_not_mem_toDigits (n : Nat) : '\n' ∉ Nat.toDigits 16 n :=
  not_mem_toDigits fun _ => Nat.digitChar_ne '\n' (by decide)

/-! ### Escapes -/

/-- The characters with an escape of their own, each behind the letter of its escape. -/
def shortEscapes : List (Char × Char) :=
  [('0', '\x00'), ('t', '\t'), ('r', '\r'), ('n', '\n'), ('"', '"'), ('\\', '\\')]

/-- How a character is written between quotes. -/
inductive Escape (c : Char) : List Char → Prop
  /-- As it is. -/
  | plain : c ≠ '\\' → c ≠ '"' → c ≠ '\n' → Escape c [c]
  /-- By a letter. -/
  | short {letter : Char} : (letter, c) ∈ shortEscapes → Escape c ['\\', letter]
  /-- By its code point. -/
  | code : Escape c (codeEscape c)

theorem escape_spec (c : Char) : Escape c (escape c) := by
  unfold escape
  split
  case h_7 hnul htab hreturn hfeed hquote hbackslash =>
    split
    · exact .code
    · exact .plain hbackslash hquote hfeed
  all_goals exact .short (by decide)

theorem codeEscape_append (c : Char) (rest : List Char) :
    codeEscape c ++ rest =
      '\\' :: 'u' :: '\x7b' :: (Nat.toDigits 16 c.toNat ++ '\x7d' :: rest) := by
  simp [codeEscape]

theorem eq_of_mem_shortEscapes : ∀ entry ∈ shortEscapes, ∀ entry' ∈ shortEscapes,
    entry.1 = entry'.1 → entry.2 = entry'.2 := by
  decide

theorem ne_u_of_mem_shortEscapes : ∀ entry ∈ shortEscapes, entry.1 ≠ 'u' := by
  decide

/-- **Escapes are told apart at their front**, and each shows where it ends. -/
theorem Escape.eq_of_append {cs ds rest rest' : List Char} (hc : Escape c cs) (hd : Escape d ds)
    (h : cs ++ rest = ds ++ rest') : c = d ∧ rest = rest' := by
  cases hc with
  | plain hbackslash =>
      cases hd with
      | plain => exact List.cons.inj h
      | short => exact absurd (List.cons.inj h).1 hbackslash
      | code =>
          rw [codeEscape_append] at h
          exact absurd (List.cons.inj h).1 hbackslash
  | short hc =>
      cases hd with
      | plain hbackslash => exact absurd (List.cons.inj h).1.symm hbackslash
      | short hd =>
          obtain ⟨hletter, hrest⟩ := List.cons.inj (List.cons.inj h).2
          exact ⟨eq_of_mem_shortEscapes _ hc _ hd hletter, hrest⟩
      | code =>
          rw [codeEscape_append] at h
          exact absurd (List.cons.inj (List.cons.inj h).2).1 (ne_u_of_mem_shortEscapes _ hc)
  | code =>
      rw [codeEscape_append] at h
      cases hd with
      | plain hbackslash => exact absurd (List.cons.inj h).1.symm hbackslash
      | short hd =>
          exact absurd (List.cons.inj (List.cons.inj h).2).1.symm (ne_u_of_mem_shortEscapes _ hd)
      | code =>
          rw [codeEscape_append] at h
          have hdigits := (List.cons.inj (List.cons.inj (List.cons.inj h).2).2).2
          obtain ⟨hcode, hrest⟩ :=
            append_cons_inj (brace_not_mem_toDigits _) (brace_not_mem_toDigits _) hdigits
          exact ⟨Char.toNat_inj.mp (eq_of_toDigits_eq hcode), hrest⟩

theorem Escape.lineFeed_not_mem {cs : List Char} (h : Escape c cs) : '\n' ∉ cs := by
  cases h with
  | plain _ _ hfeed => simpa using hfeed.symm
  | short h =>
      have hall : ∀ entry ∈ shortEscapes, '\n' ∉ ['\\', entry.1] := by decide
      exact hall _ h
  | code => simp [codeEscape, lineFeed_not_mem_toDigits]

theorem selfDelimiting_escape : SelfDelimiting escape where
  ne_nil c h := by
    have hspec := escape_spec c
    rw [h] at hspec
    generalize hcs : ([] : List Char) = cs at hspec
    cases hspec with
    | plain | short => cases hcs
    | code => cases hcs
  eq_of_append {c d _ _} h := (escape_spec c).eq_of_append (escape_spec d) h

/-! ### Quoted texts -/

theorem toList_quote (text : String) :
    (quote text).toList = '"' :: text.toList.flatMap escape ++ ['"'] := by
  rw [quote, String.toList_ofList]

/-- **A text is known from its quoted form.** -/
theorem quote_injective : Function.Injective quote := by
  intro text text' h
  have hlist := congrArg String.toList h
  rw [toList_quote, toList_quote, List.cons_append, List.cons_append] at hlist
  have hescaped := List.append_cancel_right (List.cons.inj hlist).2
  exact String.toList_inj.mp (selfDelimiting_escape.flatMap_injective hescaped)

theorem lineFeed_not_mem_quote (text : String) : '\n' ∉ (quote text).toList := by
  rw [toList_quote]
  intro h
  obtain h | h := List.mem_append.mp h
  · obtain h | h := List.mem_cons.mp h
    · cases h
    · obtain ⟨c, -, hc⟩ := List.mem_flatMap.mp h
      exact (escape_spec c).lineFeed_not_mem hc
  · cases List.mem_singleton.mp h

end Text

/-! ### Tokens -/

theorem Kind.ofName?_name (kind : Kind) : Kind.ofName? kind.name = some kind := by
  cases kind <;> decide

theorem Kind.name_injective : Function.Injective Kind.name := by
  intro kind kind' h
  have hsome := kind.ofName?_name
  rw [h, kind'.ofName?_name] at hsome
  exact (Option.some.inj hsome).symm

theorem Kind.not_mem_name (kind : Kind) :
    ':' ∉ kind.name.toList ∧ '\n' ∉ kind.name.toList := by
  cases kind <;> decide

namespace Token

theorem toList_display (token : Token) :
    token.display.toList = token.kind.name.toList ++ ':' :: (Text.quote token.literal).toList := by
  simp [display]

/-- **No two tokens have the same line in a dump.** -/
theorem display_injective : Function.Injective display := by
  intro token token' h
  have hlist := congrArg String.toList h
  rw [toList_display, toList_display] at hlist
  obtain ⟨hname, hquote⟩ :=
    Text.append_cons_inj token.kind.not_mem_name.1 token'.kind.not_mem_name.1 hlist
  have hkind : token.kind = token'.kind := Kind.name_injective (String.toList_inj.mp hname)
  have hliteral : token.literal = token'.literal :=
    Text.quote_injective (String.toList_inj.mp hquote)
  cases token
  cases token'
  exact (Token.mk.injEq ..).mpr ⟨hkind, hliteral⟩

theorem lineFeed_not_mem_display (token : Token) : '\n' ∉ token.display.toList := by
  rw [toList_display]
  intro h
  obtain h | h := List.mem_append.mp h
  · exact token.kind.not_mem_name.2 h
  · obtain h | h := List.mem_cons.mp h
    · cases h
    · exact Text.lineFeed_not_mem_quote token.literal h

end Token

/-! ### Dumps -/

namespace Console

theorem toList_evalLine_tokens (line : String) :
    (evalLine line .tokens).toList =
      (Token.lex line.toList).flatMap fun token => token.display.toList ++ ['\n'] := by
  rw [evalLine, String.toList_join, List.flatMap_map]
  simp

/-- The lines of a dump delimit themselves. -/
theorem selfDelimiting_line :
    Text.SelfDelimiting fun token : Token => token.display.toList ++ ['\n'] :=
  Text.selfDelimiting_append_singleton
    (fun _ _ h => Token.display_injective (String.toList_inj.mp h)) Token.lineFeed_not_mem_display

/-- **A token dump is lossless.**  No two tokens have the same line, and no line contains a line
feed.  So two texts have the same dump exactly if they have the same tokens, and a dump has one line
for each token but the one at the end, which ends with a line feed. -/
theorem dump_lossless :
    Function.Injective Token.display ∧
    (∀ token : Token, '\n' ∉ token.display.toList) ∧
    (∀ line line' : String, evalLine line .tokens = evalLine line' .tokens ↔
      Token.tokenize line = Token.tokenize line') ∧
    ∀ line : String,
      let tokens := (Token.tokenize line).filter (·.kind ≠ .eof)
      evalLine line .tokens = String.join (tokens.map fun token => token.display ++ "\n") ∧
        (evalLine line .tokens).toList.count '\n' = tokens.length := by
  refine ⟨Token.display_injective, Token.lineFeed_not_mem_display, ?_, ?_⟩
  · intro line line'
    constructor
    · intro h
      have hlist := congrArg String.toList h
      rw [toList_evalLine_tokens, toList_evalLine_tokens] at hlist
      rw [Token.tokenize, Token.tokenize, selfDelimiting_line.flatMap_injective hlist]
    · intro h
      have hlex : Token.lex line.toList = Token.lex line'.toList := List.append_cancel_right h
      rw [evalLine, evalLine, hlex]
  · intro line tokens
    have htokens : tokens = Token.lex line.toList := Token.filter_tokenize line
    rw [htokens]
    refine ⟨rfl, ?_⟩
    have hline : ∀ token ∈ Token.lex line.toList,
        (token.display.toList ++ ['\n']).count '\n' = 1 := fun token _ => by
      rw [List.count_append, List.count_eq_zero.mpr token.lineFeed_not_mem_display]
      rfl
    rw [toList_evalLine_tokens, Text.count_flatMap hline, Nat.one_mul]

end Console

end Monkey
