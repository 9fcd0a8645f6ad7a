import Monkey.Unicode

/-!
# Characters and texts

The classes of characters that decide where tokens begin and end, all of them within ASCII; the room
that characters take in UTF-8; decimal numerals; and quoting.

Zeros in front of a numeral are digits like any other, so one of any length may be within the limit
that 64 bits set.  `intValue?` compares the number that all digits stand for with the limit;
`accumulate?` reads digit by digit into a number of 64 bits, and checks each step for an overflow.

In quotes every character is either shown as it is or written as an escape.  Each character is
judged alone, so quoting is a map over the characters.
-/

namespace Monkey.Text

/-! ### Classes and sizes -/

/-- The four characters that may stand between tokens. -/
def isBlank (c : Char) : Bool :=
  c == ' ' || c == '\t' || c == '\n' || c == '\r'

/-- The characters of words: the letters and the underscore. -/
def isLetter (c : Char) : Bool :=
  c.isAlpha || c == '_'

theorem isBlank_iff {c : Char} :
    isBlank c = true ↔ c = ' ' ∨ c = '\t' ∨ c = '\n' ∨ c = '\r' := by
  simp [isBlank, or_assoc]

theorem isLetter_eq_false_of_isDigit {c : Char} (h : c.isDigit = true) : isLetter c = false := by
  have hdigit : (decide (c.val ≥ '0'.val) && decide (c.val ≤ '9'.val)) = true := h
  rw [Bool.eq_false_iff]
  intro hletter
  have hranges : ((decide (c.val ≥ 'A'.val ∧ c.val ≤ 'Z'.val) ||
      (decide (c.val ≥ 'a'.val) && decide (c.val ≤ 'z'.val))) || c == '_') = true := hletter
  simp only [Bool.or_eq_true, Bool.and_eq_true, decide_eq_true_eq, beq_iff_eq,
    UInt32.le_iff_toNat_le, ge_iff_le] at hdigit hranges
  obtain (hupper | hlower) | rfl := hranges
  · exact absurd (Nat.le_trans hupper.1 hdigit.2) (by decide)
  · exact absurd (Nat.le_trans hlower.1 hdigit.2) (by decide)
  · exact absurd hdigit.2 (by decide)

/-- The number of bytes that UTF-8 needs for the characters. -/
def byteSize : List Char → Nat
  | [] => 0
  | c :: cs => c.utf8Size + byteSize cs

theorem byteSize_append (cs ds : List Char) : byteSize (cs ++ ds) = byteSize cs + byteSize ds := by
  induction cs with
  | nil => simp [byteSize]
  | cons c cs ih => rw [List.cons_append, byteSize, byteSize, ih, Nat.add_assoc]

theorem byteSize_toList (s : String) : byteSize s.toList = s.utf8ByteSize := by
  suffices h : ∀ cs, (String.ofList cs).utf8ByteSize = byteSize cs by
    rw [← h, String.ofList_toList]
  intro cs
  induction cs with
  | nil => rfl
  | cons c cs ih =>
    rw [byteSize, ← ih, String.ofList_cons, String.utf8ByteSize_append,
      String.utf8ByteSize_singleton]

/-! ### Decimal numerals -/

/-- The largest integer that 64 bits hold in two's complement, one less than 2 to the 63rd. -/
def maxInt : Nat := 9223372036854775807

/-- The number that a text stands for, if it is made of decimal digits. -/
def natValue? (text : String) : Option Nat :=
  if text.toList ≠ [] ∧ text.toList.all Char.isDigit = true then
    some (Nat.ofDigitChars 10 text.toList 0)
  else none

/-- The number that a text of decimal digits stands for, if it is within the limit. -/
def intValue? (text : String) : Option Nat :=
  (natValue? text).filter (· ≤ maxInt)

theorem intValue?_eq_some_iff {text : String} {n : Nat} :
    intValue? text = some n ↔ natValue? text = some n ∧ n ≤ maxInt := by
  rw [intValue?, Option.filter_eq_some_iff, decide_eq_true_eq]

/-- The product of two numbers of 64 bits, unless it overflows. -/
def checkedMul? (a b : Int64) : Option Int64 :=
  if BitVec.smulOverflow a.toBitVec b.toBitVec then none else some (a * b)

/-- The sum of two numbers of 64 bits, unless it overflows. -/
def checkedAdd? (a b : Int64) : Option Int64 :=
  if BitVec.saddOverflow a.toBitVec b.toBitVec then none else some (a + b)

def digitValue (c : Char) : Nat :=
  c.toNat - '0'.toNat

/-- The number with one more digit behind it. -/
def pushDigit? (n : Int64) (c : Char) : Option Int64 := do
  let scaled ← checkedMul? n 10
  if c.isDigit then checkedAdd? scaled (Int64.ofNat (digitValue c)) else none

/-- The number that a text of decimal digits stands for, read digit by digit. -/
def accumulate? (text : String) : Option Int64 :=
  match text.toList with
  | [] => none
  | c :: cs => (c :: cs).foldlM pushDigit? 0

/-! ### Quoting -/

/-- Whether a character is one of the two halfwidth sound marks, which extend the character before
them but are letters with a place and a shape of their own. -/
def isSoundMark (c : Char) : Bool :=
  c.toNat == 0xff9e || c.toNat == 0xff9f

/-- Whether a character is a mark that is drawn onto the character before it. -/
def isMark (c : Char) : Bool :=
  Unicode.inRanges Unicode.graphemeExtend c.toNat && !isSoundMark c

/-- Whether a character would not show by itself: it is drawn onto its neighbour, it leaves no ink,
or it is a space other than U+0020. -/
def isHidden (c : Char) : Bool :=
  isMark c || Unicode.inRanges Unicode.nonGraphic c.toNat ||
    Unicode.inRanges Unicode.defaultIgnorable c.toNat ||
    (c != ' ' && Unicode.inRanges Unicode.spaceSeparator c.toNat)

/-- A character by its code point in lower-case hexadecimal, as in `\u{301}`. -/
def codeEscape (c : Char) : List Char :=
  ['\\', 'u', '\x7b'] ++ Nat.toDigits 16 c.toNat ++ ['\x7d']

/-- A character as it stands between the quotes. -/
def escape (c : Char) : List Char :=
  match c with
  | '\x00' => ['\\', '0']
  | '\t' => ['\\', 't']
  | '\r' => ['\\', 'r']
  | '\n' => ['\\', 'n']
  | '"' => ['\\', '"']
  | '\\' => ['\\', '\\']
  | c => if isHidden c then codeEscape c else [c]

/-- The text between double quotes, with its characters escaped where they have to be. -/
def quote (text : String) : String :=
  String.ofList ('"' :: text.toList.flatMap escape ++ ['"'])

end Monkey.Text
