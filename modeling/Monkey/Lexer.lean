import Monkey.Token.Scan

/-!
# A lexer by byte offsets

A lexer keeps the whole source text and an offset into it, counted in bytes of UTF-8.  Whenever it
looks at the text it cuts off what lies in front of the offset, and there is no answer if the
offset is not between two characters.  Blanks are matched and passed over first; then the patterns
are tried one after another at the front of what remains, and the first that matches gives the
token and the number of bytes to pass.  A character at which no pattern matches is a token of kind
`illegal`, passed by its own size.

`Cursor` keeps the text behind the offset instead of the source.
-/

namespace Monkey

namespace Lexer

/-- What is looked for at the front of a text, and the kind of the token that is made of it. -/
structure Pattern where
  /-- The part of the text that matches. -/
  matched? : List Char → Option String
  /-- The kind of a token with that literal. -/
  kindOf : String → Kind

namespace Pattern

def run (p : Char → Bool) (kindOf : String → Kind) : Pattern where
  matched? text :=
    match text.takeWhile p with
    | [] => none
    | c :: cs => some (String.ofList (c :: cs))
  kindOf := kindOf

def fixed (literal : String) (kind : Kind) : Pattern where
  matched? text := if literal.toList.isPrefixOf text then some literal else none
  kindOf := fun _ => kind

/-- The literals that are matched as they stand, in the order in which they are tried: a pair of
characters comes before the first of them alone. -/
def marks : List (String × Kind) :=
  [("==", .eq), ("!=", .notEq), ("=", .assign), ("!", .bang), ("+", .plus), ("-", .minus),
   ("*", .asterisk), ("/", .slash), ("<", .lt), (">", .gt), (",", .comma), (";", .semicolon),
   ("(", .lparen), (")", .rparen), ("\x7b", .lbrace), ("\x7d", .rbrace)]

/-- All patterns in the order in which they are tried. -/
def all : List Pattern :=
  run Text.isLetter Kind.ofWord :: run Char.isDigit (fun _ => .int) ::
    marks.map fun mark => fixed mark.1 mark.2

/-- The token of the pattern at the front of the text, and the bytes that it takes up. -/
def token? (pattern : Pattern) (text : List Char) : Option (Token × Nat) :=
  (pattern.matched? text).map fun matched =>
    (⟨pattern.kindOf matched, matched⟩, matched.utf8ByteSize)

end Pattern

/-- The token at the front of a text that starts with the character `c`, and its bytes. -/
def front (c : Char) (cs : List Char) : Token × Nat :=
  (Pattern.all.findSome? (·.token? (c :: cs))).getD (⟨.illegal, String.singleton c⟩, c.utf8Size)

end Lexer

/-- A source text and an offset into it, in bytes. -/
structure Lexer where
  source : String
  pos : Nat
  deriving DecidableEq, Repr

namespace Lexer

def ofSource (source : String) : Lexer :=
  ⟨source, 0⟩

def advance (lexer : Lexer) (bytes : Nat) : Lexer :=
  { lexer with pos := lexer.pos + bytes }

/-- What remains of the source behind the offset, or nothing if the offset is past the end or
within a character. -/
def remainder? (lexer : Lexer) : Option (List Char) :=
  if h : (⟨lexer.pos⟩ : String.Pos.Raw).IsValid lexer.source then
    some (lexer.source.sliceFrom (lexer.source.pos ⟨lexer.pos⟩ h)).copy.toList
  else none

/-- The lexer behind the blanks. -/
def skipBlanks? (lexer : Lexer) : Option Lexer :=
  lexer.remainder?.map fun text => lexer.advance (Text.byteSize (text.takeWhile Text.isBlank))

/-- The token right behind the offset, and the lexer behind it. -/
def scan? (lexer : Lexer) : Option (Token × Lexer) :=
  lexer.remainder?.map fun text =>
    match text with
    | [] => (Token.eof, lexer)
    | c :: cs => ((front c cs).1, lexer.advance (front c cs).2)

/-- The next token and the lexer behind it. -/
def next? (lexer : Lexer) : Option (Token × Lexer) :=
  lexer.skipBlanks?.bind scan?

/-- The lexer after a number of tokens have been taken. -/
def after? (lexer : Lexer) : Nat → Option Lexer
  | 0 => some lexer
  | n + 1 => lexer.next?.bind fun (_, next) => next.after? n

end Lexer

end Monkey
