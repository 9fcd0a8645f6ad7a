import Monkey.Token.Scan

/-!
# Cursors and windows over a source text

A cursor holds the text still to be read and how many bytes of UTF-8 have been passed.  Each call
of `next` passes the blanks in front of a token and the token; at the end of the text every
further call answers with the token `eof`.  `tokens_next` ties the calls to the list of tokens
that the remaining text holds.

A parser that pulls its tokens from a cursor holds the current token and the one after it.  Moving
on drops the current token and takes one more from the cursor.  A window is the two tokens together
with the cursor they are pulled from.
-/

namespace Monkey

/-- A place in a source text: what is still to be read, and the bytes passed so far. -/
structure Cursor where
  rest : List Char
  pos : Nat
  deriving DecidableEq, Repr

namespace Cursor

def ofSource (source : String) : Cursor :=
  ⟨source.toList, 0⟩

def atEnd (cursor : Cursor) : Cursor :=
  ⟨[], cursor.pos + Text.byteSize cursor.rest⟩

/-- The bytes of the blanks in front of the next token. -/
def gap (cursor : Cursor) : Nat :=
  Text.byteSize (cursor.rest.takeWhile Text.isBlank)

def next (cursor : Cursor) : Token × Cursor :=
  match Token.read? cursor.rest with
  | none => (Token.eof, cursor.atEnd)
  | some (token, rest) =>
      (token, ⟨rest, cursor.pos + cursor.gap + Text.byteSize token.literal.toList⟩)

/-- The tokens still to be read, without the one that marks the end. -/
def tokens (cursor : Cursor) : List Token :=
  Token.lex cursor.rest

/-- All that is left, up to and including the token at the end, and the cursor there. -/
def drain (cursor : Cursor) : List Token × Cursor :=
  (cursor.tokens ++ [Token.eof], cursor.atEnd)

/-- The cursor after a number of tokens have been taken. -/
def skip (cursor : Cursor) : Nat → Cursor
  | 0 => cursor
  | n + 1 => cursor.next.2.skip n

theorem tokens_eq_nil_iff (cursor : Cursor) :
    cursor.tokens = [] ↔ Token.read? cursor.rest = none := by
  unfold tokens
  rw [Token.lex]
  split <;> simp_all

theorem tokens_next (cursor : Cursor) :
    cursor.tokens = if Token.read? cursor.rest = none then []
      else cursor.next.1 :: cursor.next.2.tokens := by
  unfold tokens next
  rw [Token.lex]
  split <;> simp_all

end Cursor

/-! ### Windows -/

/-- The current token, the token after it, and the cursor for all that follow. -/
structure Window where
  current : Token
  peek : Token
  cursor : Cursor
  deriving DecidableEq, Repr

namespace Window

def advance (w : Window) : Window :=
  ⟨w.peek, w.cursor.next.1, w.cursor.next.2⟩

def ofCursor (cursor : Cursor) : Window :=
  (⟨.eof, .eof, cursor⟩ : Window).advance.advance

/-- The window after moving on by a number of tokens. -/
def skip (w : Window) : Nat → Window
  | 0 => w
  | n + 1 => w.advance.skip n

/-- Passes the semicolon that ends a statement which could not be read, unless it is the current
token already. -/
def resume (w : Window) : Window :=
  if w.current.kind ≠ .semicolon ∧ w.peek.kind = .semicolon then w.advance else w

/-- The tokens from the current one on, without those that mark the end. -/
def unread (w : Window) : List Token :=
  (w.current :: w.peek :: w.cursor.tokens).filter (·.kind ≠ .eof)

end Window

end Monkey
