import Monkey.Token

/-!
# Reading tokens off a text

Blanks are passed over; then the longest lexeme at the front of the text is one token.  A word is
a run of letters and underscores, a number a run of digits, `==` and `!=` are taken whole, and a
character that starts nothing else is a token of kind `illegal` by itself.

`literal_scan` says that a token's literal and the text left after it make up the text it was
read from, and `length_read?` that every token uses up some text, on which `lex` recurs.
-/

namespace Monkey

/-- The kind of a single character that is a token by itself. -/
def Kind.ofChar? : Char → Option Kind
  | '=' => some .assign
  | '!' => some .bang
  | '+' => some .plus
  | '-' => some .minus
  | '*' => some .asterisk
  | '/' => some .slash
  | '<' => some .lt
  | '>' => some .gt
  | ',' => some .comma
  | ';' => some .semicolon
  | '(' => some .lparen
  | ')' => some .rparen
  | '\x7b' => some .lbrace
  | '\x7d' => some .rbrace
  | _ => none

/-- The kind of a pair of characters that is one token. -/
def Kind.ofPair? : Char → Char → Option Kind
  | '=', '=' => some .eq
  | '!', '=' => some .notEq
  | _, _ => none

namespace Token

/-- The token of a run of characters of one class, and the text after the run. -/
def scanRun (p : Char → Bool) (kind : String → Kind) (c : Char) (cs : List Char) :
    Token × List Char :=
  let run := String.ofList (c :: cs.takeWhile p)
  (⟨kind run, run⟩, cs.dropWhile p)

/-- The token of one character alone. -/
def scanChar (c : Char) (cs : List Char) : Token × List Char :=
  (⟨(Kind.ofChar? c).getD .illegal, String.singleton c⟩, cs)

/-- The token of one or two characters of punctuation, or of one that starts no token. -/
def scanMark (c : Char) (cs : List Char) : Token × List Char :=
  match cs with
  | [] => scanChar c []
  | d :: rest =>
      match Kind.ofPair? c d with
      | some kind => (⟨kind, String.ofList [c, d]⟩, rest)
      | none => scanChar c (d :: rest)

/-- The token that starts with the character `c`, and the text after it. -/
def scan (c : Char) (cs : List Char) : Token × List Char :=
  if Text.isLetter c then scanRun Text.isLetter Kind.ofWord c cs
  else if c.isDigit then scanRun Char.isDigit (fun _ => .int) c cs
  else scanMark c cs

theorem literal_scanMark (c : Char) (cs : List Char) :
    (scanMark c cs).1.literal.toList ++ (scanMark c cs).2 = c :: cs := by
  unfold scanMark
  split
  · simp [scanChar]
  · split <;> simp [scanChar]

theorem literal_scan (c : Char) (cs : List Char) :
    (scan c cs).1.literal.toList ++ (scan c cs).2 = c :: cs := by
  unfold scan
  split
  · simp [scanRun, List.takeWhile_append_dropWhile]
  · split
    · simp [scanRun, List.takeWhile_append_dropWhile]
    · exact literal_scanMark c cs

theorem length_scan (c : Char) (cs : List Char) : (scan c cs).2.length ≤ cs.length := by
  unfold scan
  split
  · exact (List.dropWhile_suffix _).length_le
  · split
    · exact (List.dropWhile_suffix _).length_le
    · unfold scanMark
      split
      · simp [scanChar]
      · split <;> simp [scanChar]

/-- The first token of a text and the text after it, or nothing if only blanks are left. -/
def read? (text : List Char) : Option (Token × List Char) :=
  match text.dropWhile Text.isBlank with
  | [] => none
  | c :: cs => some (scan c cs)

theorem length_read? {text rest : List Char} {token : Token} (h : read? text = some (token, rest)) :
    rest.length < text.length := by
  unfold read? at h
  split at h
  · cases h
  · next c cs heq =>
    have hrest : rest.length ≤ cs.length := by
      have := length_scan c cs
      rw [Option.some.inj h] at this
      exact this
    have hdrop := (List.dropWhile_suffix (l := text) Text.isBlank).length_le
    rw [heq, List.length_cons] at hdrop
    omega

/-- The tokens of a text, without the one that marks its end. -/
def lex (text : List Char) : List Token :=
  match h : read? text with
  | none => []
  | some (token, rest) =>
      have := length_read? h
      token :: lex rest
termination_by text.length

/-- The tokens of a source text, the one at its end included. -/
def tokenize (source : String) : List Token :=
  lex source.toList ++ [eof]

end Token

end Monkey
