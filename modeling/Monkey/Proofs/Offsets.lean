import Monkey.Lexer
import Monkey.Cursor
import Monkey.Proofs.Munch

/-!
# The offset of the lexer

A lexer cuts its source at a byte offset each time it looks at the text, and it passes a match of a
pattern by the bytes of the match, but a character without a match by the size of the character.

* `Lexer.remainder?_eq_some_iff`: the source can be cut at the offset exactly if the offset is the
  size of some front of the source, and what remains is the text behind that front.
* `Lexer.front_eq`: the patterns find the tokens of `Token.scan`, and what is passed is the literal
  in both cases.
* `Lexer.Shows`: a lexer and a cursor are at one place.  One call keeps them together
  (`Shows.next?`), and so does any number of calls (`Shows.after?`).
* `Lexer.Call`: what a call gives and how it moves the offset.
* `Lexer.call_after_ofSource`: in every state that a lexer gets into, the offset is between two
  characters and the next call is as described by `Call`.
-/

namespace Monkey

namespace Lexer

open Token

/-! ### Patterns -/

namespace Pattern

variable {c d : Char} {cs text : List Char} {kind : Kind} {p : Char → Bool}

theorem token?_run (kindOf : String → Kind) (hc : p c = true) (cs : List Char) :
    (run p kindOf).token? (c :: cs) =
      some ((scanRun p kindOf c cs).1, (scanRun p kindOf c cs).1.literal.utf8ByteSize) := by
  simp [token?, run, scanRun, hc]

theorem token?_run_eq_none (kindOf : String → Kind) (hc : p c = false) (cs : List Char) :
    (run p kindOf).token? (c :: cs) = none := by
  simp [token?, run, hc]

theorem token?_fixed (literal : String) (kind : Kind) (text : List Char) :
    (fixed literal kind).token? text =
      if literal.toList.isPrefixOf text then some (⟨kind, literal⟩, literal.utf8ByteSize)
      else none := by
  simp only [token?, fixed]
  split
  · rfl
  · rfl

/-- The first of the literals that stands at the front of the text. -/
def mark? (text : List Char) : Option (String × Kind) :=
  marks.find? (·.1.toList.isPrefixOf text)

theorem findSome?_token?_fixed (table : List (String × Kind)) (text : List Char) :
    (table.map fun mark => fixed mark.1 mark.2).findSome? (·.token? text) =
      (table.find? (·.1.toList.isPrefixOf text)).map fun mark =>
        (⟨mark.2, mark.1⟩, mark.1.utf8ByteSize) := by
  induction table with
  | nil => rfl
  | cons mark table ih =>
      rw [List.map_cons, List.findSome?_cons, List.find?_cons, token?_fixed, ih]
      by_cases hprefix : mark.1.toList.isPrefixOf text = true
      · rw [if_pos hprefix, hprefix]
        rfl
      · rw [if_neg hprefix, Bool.eq_false_iff.mpr hprefix]

theorem mark?_of_ofPair? (h : Kind.ofPair? c d = some kind) (cs : List Char) :
    mark? (c :: d :: cs) = some (String.ofList [c, d], kind) := by
  unfold Kind.ofPair? at h
  split at h
  · cases h
    rfl
  · cases h
    rfl
  · cases h

theorem mark?_of_ofChar? (h : Kind.ofChar? c = some kind)
    (hpair : ∀ d ∈ cs.head?, Kind.ofPair? c d = none) :
    mark? (c :: cs) = some (String.singleton c, kind) := by
  unfold Kind.ofChar? at h
  split at h
  all_goals cases h
  case h_1 | h_2 =>
    cases cs with
    | nil => rfl
    | cons d cs =>
        have hd : '=' ≠ d := by
          rintro rfl
          cases hpair '=' rfl
        simp [mark?, marks, hd]
  all_goals rfl

theorem isSome_ofChar?_of_mem_marks :
    ∀ mark ∈ marks, (mark.1.toList.head?.bind Kind.ofChar?).isSome = true := by
  decide

theorem mark?_eq_none (h : Kind.ofChar? c = none) (cs : List Char) : mark? (c :: cs) = none := by
  apply List.find?_eq_none.mpr
  intro mark hmark hprefix
  have hsome := isSome_ofChar?_of_mem_marks mark hmark
  cases hliteral : mark.1.toList with
  | nil =>
      rw [hliteral] at hsome
      cases hsome
  | cons d ds =>
      rw [hliteral, List.isPrefixOf_iff_prefix, List.cons_prefix_cons] at hprefix
      rw [hliteral, List.head?_cons, Option.bind_some, hprefix.1, h] at hsome
      cases hsome

/-- The token and the bytes of the first literal at the front, or of the character alone. -/
def frontMark (c : Char) (cs : List Char) : Token × Nat :=
  match mark? (c :: cs) with
  | some (literal, kind) => (⟨kind, literal⟩, literal.utf8ByteSize)
  | none => (⟨.illegal, String.singleton c⟩, c.utf8Size)

theorem frontMark_eq_scanChar (hpair : ∀ d ∈ cs.head?, Kind.ofPair? c d = none) :
    frontMark c cs = ((scanChar c cs).1, (scanChar c cs).1.literal.utf8ByteSize) := by
  unfold frontMark scanChar
  cases h : Kind.ofChar? c with
  | none =>
      rw [mark?_eq_none h]
      simp
  | some kind =>
      rw [mark?_of_ofChar? h hpair]
      rfl

theorem frontMark_eq (c : Char) (cs : List Char) :
    frontMark c cs = ((scanMark c cs).1, (scanMark c cs).1.literal.utf8ByteSize) := by
  unfold scanMark
  split
  · exact frontMark_eq_scanChar nofun
  · next d rest =>
    split
    · next kind hkind =>
      rw [frontMark, mark?_of_ofPair? hkind]
    · next hnone =>
      apply frontMark_eq_scanChar
      intro e he
      obtain rfl : d = e := Option.some.inj he
      exact hnone

end Pattern

open Pattern

/-- **The patterns find the token that is scanned**, and the bytes to pass are those of its
literal, also for a character at which no pattern matches. -/
theorem front_eq (c : Char) (cs : List Char) :
    front c cs = ((scan c cs).1, (scan c cs).1.literal.utf8ByteSize) := by
  unfold front Pattern.all scan
  rw [List.findSome?_cons]
  by_cases hletter : Text.isLetter c = true
  · rw [token?_run _ hletter, if_pos hletter]
    rfl
  rw [token?_run_eq_none _ (Bool.eq_false_iff.mpr hletter), if_neg hletter]
  dsimp only
  rw [List.findSome?_cons]
  by_cases hdigit : c.isDigit = true
  · rw [token?_run _ hdigit, if_pos hdigit]
    rfl
  rw [token?_run_eq_none _ (Bool.eq_false_iff.mpr hdigit), if_neg hdigit]
  dsimp only
  rw [findSome?_token?_fixed, ← frontMark_eq, frontMark, mark?]
  cases marks.find? (·.1.toList.isPrefixOf (c :: cs)) with
  | none => rfl
  | some mark => rfl

/-! ### Cutting the source -/

variable {lexer next : Lexer} {cursor : Cursor} {text front rest : List Char}

/-- **The source can be cut at the offset** exactly if the offset is the size of a front of the
source; what remains is the text behind it. -/
theorem remainder?_eq_some_iff :
    lexer.remainder? = some text ↔
      ∃ passed : String, lexer.source = passed ++ String.ofList text ∧
        lexer.pos = passed.utf8ByteSize := by
  unfold remainder?
  constructor
  · intro h
    split at h
    · next hvalid =>
      have hsplits := (lexer.source.pos ⟨lexer.pos⟩ hvalid).splits
      refine ⟨_, ?_, congrArg String.Pos.Raw.byteIdx hsplits.offset_eq_rawEndPos⟩
      rw [← Option.some.inj h, String.ofList_toList]
      exact hsplits.eq_append
    · cases h
  · rintro ⟨passed, hsource, hpos⟩
    have hvalid : (⟨lexer.pos⟩ : String.Pos.Raw).IsValid lexer.source :=
      String.Pos.Raw.isValid_iff_exists_append.mpr
        ⟨passed, _, hsource, String.Pos.Raw.ext hpos⟩
    have hsplits : (lexer.source.pos ⟨lexer.pos⟩ hvalid).Splits passed (String.ofList text) :=
      ⟨hsource, String.Pos.Raw.ext hpos⟩
    rw [dif_pos hvalid, hsplits.copy_sliceFrom_eq, String.toList_ofList]

theorem byteSize_eq (cs : List Char) : Text.byteSize cs = (String.ofList cs).utf8ByteSize := by
  rw [← Text.byteSize_toList, String.toList_ofList]

theorem remainder?_advance (h : lexer.remainder? = some (front ++ rest)) :
    (lexer.advance (Text.byteSize front)).remainder? = some rest := by
  obtain ⟨passed, hsource, hpos⟩ := remainder?_eq_some_iff.mp h
  apply remainder?_eq_some_iff.mpr
  refine ⟨passed ++ String.ofList front, ?_, ?_⟩
  · rw [String.append_assoc, ← String.ofList_append]
    exact hsource
  · rw [String.utf8ByteSize_append, ← hpos, ← byteSize_eq]
    rfl

theorem remainder?_advance_all (h : lexer.remainder? = some text) :
    (lexer.advance (Text.byteSize text)).remainder? = some [] := by
  apply remainder?_advance
  rw [List.append_nil]
  exact h

theorem pos_add_byteSize (h : lexer.remainder? = some text) :
    lexer.pos + Text.byteSize text = lexer.source.utf8ByteSize := by
  obtain ⟨passed, hsource, hpos⟩ := remainder?_eq_some_iff.mp h
  rw [hsource, String.utf8ByteSize_append, ← hpos, byteSize_eq]

theorem extract_toByteArray (passed front rest : String) :
    (passed ++ (front ++ rest)).toByteArray.extract passed.utf8ByteSize
      (passed.utf8ByteSize + front.utf8ByteSize) = front.toByteArray := by
  rw [String.toByteArray_append, String.toByteArray_append]
  calc (passed.toByteArray ++ (front.toByteArray ++ rest.toByteArray)).extract
        (passed.utf8ByteSize + 0) (passed.utf8ByteSize + front.utf8ByteSize)
      = (front.toByteArray ++ rest.toByteArray).extract 0 front.utf8ByteSize :=
        ByteArray.extract_append_size_add' rfl
    _ = front.toByteArray := ByteArray.extract_append_eq_left rfl

theorem extract_advance (h : lexer.remainder? = some (front ++ rest)) :
    lexer.source.toByteArray.extract lexer.pos (lexer.pos + Text.byteSize front) =
      (String.ofList front).toByteArray := by
  obtain ⟨passed, hsource, hpos⟩ := remainder?_eq_some_iff.mp h
  rw [hsource, hpos, byteSize_eq, String.ofList_append]
  exact extract_toByteArray passed (String.ofList front) (String.ofList rest)

/-! ### One call -/

theorem eq_of_read? {token : Token} (h : read? text = some (token, rest)) :
    text = text.takeWhile Text.isBlank ++ token.literal.toList ++ rest := by
  obtain ⟨blanks, hblanks, hlexeme, rfl⟩ := read?_eq_some_iff.mp h
  rw [takeWhile_append_of_ends hblanks (hlexeme.ends_isBlank rest), List.append_assoc]

theorem literal_ne_empty_of_read? {token : Token} (h : read? text = some (token, rest)) :
    token.literal ≠ "" := by
  obtain ⟨blanks, -, hlexeme, -⟩ := read?_eq_some_iff.mp h
  obtain ⟨c, cs, hliteral, -⟩ := hlexeme.scan
  intro hempty
  rw [hempty] at hliteral
  cases hliteral

theorem skipBlanks?_eq (h : lexer.remainder? = some text) :
    ∃ behind, lexer.skipBlanks? = some behind ∧
      behind = lexer.advance (Text.byteSize (text.takeWhile Text.isBlank)) ∧
      behind.remainder? = some (text.dropWhile Text.isBlank) := by
  refine ⟨_, by rw [skipBlanks?, h, Option.map_some], rfl, ?_⟩
  apply remainder?_advance
  rw [List.takeWhile_append_dropWhile]
  exact h

theorem next?_of_blank (h : lexer.remainder? = some text) (hblank : Text.Blank text) :
    lexer.next? = some (eof, lexer.advance (Text.byteSize text)) := by
  obtain ⟨behind, hskip, hbehind, hrest⟩ := skipBlanks?_eq h
  rw [List.dropWhile_eq_nil_iff.mpr hblank] at hrest
  rw [List.takeWhile_eq_self_iff.mpr hblank] at hbehind
  rw [next?, hskip, Option.bind_some, scan?, hrest, Option.map_some, hbehind]

theorem next?_of_read? {token : Token} (h : lexer.remainder? = some text)
    (hread : read? text = some (token, rest)) :
    lexer.next? = some (token, lexer.advance
      (Text.byteSize (text.takeWhile Text.isBlank ++ token.literal.toList))) := by
  obtain ⟨behind, hskip, hbehind, hrest⟩ := skipBlanks?_eq h
  rw [next?, hskip, Option.bind_some, scan?, hrest, Option.map_some]
  rw [read?] at hread
  cases hdrop : text.dropWhile Text.isBlank with
  | nil =>
      rw [hdrop] at hread
      cases hread
  | cons c cs =>
      rw [hdrop] at hread
      have hscan : (scan c cs).1 = token := congrArg Prod.fst (Option.some.inj hread)
      dsimp only
      rw [front_eq, hscan, hbehind, Text.byteSize_append, Text.byteSize_toList, advance, advance,
        advance, Nat.add_assoc]

/-- The lexer and the cursor are at one place of a source. -/
structure Shows (lexer : Lexer) (cursor : Cursor) : Prop where
  remainder_eq : lexer.remainder? = some cursor.rest
  pos_eq : lexer.pos = cursor.pos

theorem shows_ofSource (source : String) : (ofSource source).Shows (.ofSource source) where
  remainder_eq := by
    apply remainder?_eq_some_iff.mpr
    exact ⟨"", by simp [ofSource, Cursor.ofSource], rfl⟩
  pos_eq := rfl

/-- **One call gives the token of the cursor** and keeps the two at one place. -/
theorem Shows.next? (h : lexer.Shows cursor) :
    ∃ next, lexer.next? = some (cursor.next.1, next) ∧ next.source = lexer.source ∧
      next.Shows cursor.next.2 := by
  unfold Cursor.next
  cases hread : read? cursor.rest with
  | none =>
      have hblank : Text.Blank cursor.rest := read?_eq_none_iff.mp hread
      refine ⟨_, next?_of_blank h.remainder_eq hblank, rfl,
        remainder?_advance_all h.remainder_eq, ?_⟩
      exact congrArg (· + _) h.pos_eq
  | some found =>
      obtain ⟨token, rest⟩ := found
      have hrest := h.remainder_eq
      rw [eq_of_read? hread] at hrest
      refine ⟨_, next?_of_read? h.remainder_eq hread, rfl, remainder?_advance hrest, ?_⟩
      rw [advance, h.pos_eq, Text.byteSize_append, ← Nat.add_assoc]
      rfl

/-! ### Any number of calls -/

/-- **All calls give answers**, which keep the lexer and the cursor at one place. -/
theorem Shows.after? (h : lexer.Shows cursor) (n : Nat) :
    ∃ later, lexer.after? n = some later ∧ later.source = lexer.source ∧
      later.Shows (cursor.skip n) := by
  induction n generalizing lexer cursor with
  | zero => exact ⟨lexer, rfl, rfl, h⟩
  | succ n ih =>
      obtain ⟨next, hnext, hsource, hshows⟩ := h.next?
      obtain ⟨later, hlater, hsource', hshows'⟩ := ih hshows
      refine ⟨later, ?_, hsource'.trans hsource, hshows'⟩
      rw [Lexer.after?, hnext]
      exact hlater

theorem next?_of_remainder?_eq_nil (h : lexer.remainder? = some []) :
    lexer.next? = some (eof, lexer) :=
  next?_of_blank h nofun

theorem after?_of_remainder?_eq_nil (h : lexer.remainder? = some []) (n : Nat) :
    lexer.after? n = some lexer := by
  induction n with
  | zero => rfl
  | succ n ih =>
      rw [Lexer.after?, next?_of_remainder?_eq_nil h]
      exact ih

/-! ### What a call does -/

def blanks (text : List Char) : String :=
  String.ofList (text.takeWhile Text.isBlank)

/-- What a call does where a text remains: it gives the token at the end exactly if the text is
blank, and then moves the offset to the end of the source for good; otherwise it passes the bytes of
the blanks and those of a literal that is not empty. -/
structure Call (lexer : Lexer) (text : List Char) (token : Token) (next : Lexer) : Prop where
  next?_eq : lexer.next? = some (token, next)
  source_eq : next.source = lexer.source
  eof_iff : token.kind = .eof ↔ Text.Blank text
  of_eof : token.kind = .eof → token = eof ∧ next.pos = lexer.source.utf8ByteSize ∧
    next.next? = some (eof, next) ∧ ∀ n, next.after? n = some next
  of_ne_eof : token.kind ≠ .eof → token.literal ≠ "" ∧
    next.pos = lexer.pos + ((blanks text).utf8ByteSize + token.literal.utf8ByteSize) ∧
    lexer.source.toByteArray.extract lexer.pos next.pos =
      (blanks text ++ token.literal).toByteArray

theorem call_of_blank (h : lexer.remainder? = some text) (hblank : Text.Blank text) :
    lexer.Call text eof (lexer.advance (Text.byteSize text)) where
  next?_eq := next?_of_blank h hblank
  source_eq := rfl
  eof_iff := ⟨fun _ => hblank, fun _ => rfl⟩
  of_eof := by
    intro _
    have hnil := remainder?_advance_all h
    exact ⟨rfl, pos_add_byteSize h, next?_of_remainder?_eq_nil hnil,
      after?_of_remainder?_eq_nil hnil⟩
  of_ne_eof := by
    intro hkind
    exact absurd rfl hkind

theorem call_of_read? {token : Token} (h : lexer.remainder? = some text)
    (hread : read? text = some (token, rest)) :
    lexer.Call text token (lexer.advance
      (Text.byteSize (text.takeWhile Text.isBlank ++ token.literal.toList))) := by
  have hkind : token.kind ≠ .eof := (scanned_of_read? hread).kind_ne_eof
  have hnot : ¬ Text.Blank text := by
    intro hblank
    rw [read?_eq_none_iff.mpr hblank] at hread
    cases hread
  have hfront : lexer.remainder? =
      some (text.takeWhile Text.isBlank ++ token.literal.toList ++ rest) := by
    rw [← eq_of_read? hread]
    exact h
  constructor
  · exact next?_of_read? h hread
  · rfl
  · exact ⟨fun heof => absurd heof hkind, fun hblank => absurd hblank hnot⟩
  · intro heof
    exact absurd heof hkind
  · intro _
    refine ⟨literal_ne_empty_of_read? hread, ?_, ?_⟩
    · rw [advance, Text.byteSize_append, Text.byteSize_toList, byteSize_eq, blanks]
    · rw [advance, extract_advance hfront, String.ofList_append, String.ofList_toList, blanks]

theorem Shows.call (h : lexer.Shows cursor) :
    ∃ next, lexer.Call cursor.rest cursor.next.1 next := by
  unfold Cursor.next
  cases hread : read? cursor.rest with
  | none => exact ⟨_, call_of_blank h.remainder_eq (read?_eq_none_iff.mp hread)⟩
  | some found => exact ⟨_, call_of_read? h.remainder_eq hread⟩

/-- **The offset is always between two characters and every call moves it on.**  After any number
of calls on any source, what lies in front of the offset is a front of the source, so that the rest
can be cut off, and the next call gives an answer: the token at the end if only blanks remain, and
from then on always, or else a token with a literal that is passed together with the blanks. -/
theorem call_after_ofSource (source : String) (n : Nat) :
    ∃ (lexer : Lexer) (cursor : Cursor) (passed : String),
      (ofSource source).after? n = some lexer ∧ (Cursor.ofSource source).skip n = cursor ∧
      lexer.source = source ∧ source = passed ++ String.ofList cursor.rest ∧
      lexer.pos = passed.utf8ByteSize ∧ lexer.pos ≤ source.utf8ByteSize ∧
      lexer.remainder? = some cursor.rest ∧ lexer.pos = cursor.pos ∧
      ∃ next, lexer.Call cursor.rest cursor.next.1 next := by
  obtain ⟨lexer, hlexer, (hkept : lexer.source = source), hshows⟩ :=
    (shows_ofSource source).after? n
  obtain ⟨passed, hsource, hpos⟩ := remainder?_eq_some_iff.mp hshows.remainder_eq
  rw [hkept] at hsource
  have hle : lexer.pos ≤ source.utf8ByteSize := by
    rw [hsource, String.utf8ByteSize_append, ← hpos]
    omega
  exact ⟨lexer, _, passed, hlexer, rfl, hkept, hsource, hpos, hle, hshows.remainder_eq,
    hshows.pos_eq, hshows.call⟩

example : ((ofSource "é ==ß!").after? 3).map pos = some 7 := by decide +kernel

end Lexer

end Monkey
