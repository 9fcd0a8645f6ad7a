import Mathlib.Data.Nat.Digits.Defs
import Monkey.Proofs.Nodes
import Monkey.Proofs.Extent

/-!
# Integers are read exactly

The value of an integer is the decimal value of its digits (`Text.decimal`), zeros in front
included, and an integer is rejected exactly if 64 bits do not hold this value
(`parse_integer_exact`).

The number is read digit by digit, and each step is checked for an overflow.  As long as the number
so far is within the limit a step overflows exactly if the new number is past it
(`Text.pushDigit?_ofNat`), and no digit that comes later takes a number back below the limit
(`Text.le_ofDigitChars`).  So no overflow is reported without need and none is missed
(`Text.accumulate?_eq`).
-/

namespace Monkey

namespace Text

/-- The number that decimal digits stand for, by the places at which they stand. -/
def decimal (text : String) : Nat :=
  Nat.ofDigits 10 (text.toList.reverse.map digitValue)

/-- The number of 64 bits with the value, if they hold it. -/
def ofNat? (n : Nat) : Option Int64 :=
  if n ≤ maxInt then some (Int64.ofNat n) else none

variable {m n : Nat} {c : Char} {cs : List Char} {text : String}

/-! ### Checked arithmetic -/

theorem toInt_ofNat (hn : n ≤ maxInt) : (Int64.ofNat n).toInt = n := by
  apply Int64.toInt_ofNat_of_lt
  unfold maxInt at hn
  omega

theorem checkedMul?_ofNat (hm : m ≤ maxInt) (hn : n ≤ maxInt) :
    checkedMul? (Int64.ofNat m) (Int64.ofNat n) = ofNat? (m * n) := by
  have hoverflow : BitVec.smulOverflow (Int64.ofNat m).toBitVec (Int64.ofNat n).toBitVec = true ↔
      ¬ m * n ≤ maxInt := by
    simp only [BitVec.smulOverflow, Int64.toInt_toBitVec, toInt_ofNat hm, toInt_ofNat hn,
      Bool.or_eq_true, decide_eq_true_eq, ← Int.natCast_mul, maxInt]
    omega
  unfold checkedMul? ofNat?
  by_cases hle : m * n ≤ maxInt
  · rw [if_neg fun h => hoverflow.mp h hle, if_pos hle, Int64.ofNat_mul]
  · rw [if_pos (hoverflow.mpr hle), if_neg hle]

theorem checkedAdd?_ofNat (hm : m ≤ maxInt) (hn : n ≤ maxInt) :
    checkedAdd? (Int64.ofNat m) (Int64.ofNat n) = ofNat? (m + n) := by
  have hoverflow : BitVec.saddOverflow (Int64.ofNat m).toBitVec (Int64.ofNat n).toBitVec = true ↔
      ¬ m + n ≤ maxInt := by
    simp only [BitVec.saddOverflow, Int64.toInt_toBitVec, toInt_ofNat hm, toInt_ofNat hn,
      Bool.or_eq_true, decide_eq_true_eq, maxInt]
    omega
  unfold checkedAdd? ofNat?
  by_cases hle : m + n ≤ maxInt
  · rw [if_neg fun h => hoverflow.mp h hle, if_pos hle, Int64.ofNat_add]
  · rw [if_pos (hoverflow.mpr hle), if_neg hle]

/-! ### Digit by digit -/

theorem digitValue_le (hc : c.isDigit = true) : digitValue c ≤ 9 := by
  have hlast : c.toNat ≤ 57 := (Char.isDigit_iff_toNat.mp hc).2
  show c.toNat - 48 ≤ 9
  omega

/-- **A step overflows exactly if the new number is past the limit.** -/
theorem pushDigit?_ofNat (hn : n ≤ maxInt) (hc : c.isDigit = true) :
    pushDigit? (Int64.ofNat n) c = ofNat? (10 * n + digitValue c) := by
  have hten : checkedMul? (Int64.ofNat n) 10 = ofNat? (n * 10) :=
    checkedMul?_ofNat hn (by decide)
  have hdigit : digitValue c ≤ maxInt := (digitValue_le hc).trans (by decide)
  simp only [pushDigit?, hten, hc, if_true, Nat.mul_comm 10 n]
  by_cases hle : n * 10 ≤ maxInt
  · rw [ofNat?, if_pos hle]
    exact checkedAdd?_ofNat hle hdigit
  · have hpast : ¬ n * 10 + digitValue c ≤ maxInt := by omega
    rw [ofNat?, ofNat?, if_neg hle, if_neg hpast]
    rfl

theorem le_ofDigitChars (cs : List Char) (n : Nat) : n ≤ Nat.ofDigitChars 10 cs n := by
  rw [Nat.ofDigitChars_eq_ofDigitChars_zero]
  have hpos : 0 < 10 ^ cs.length := Nat.pow_pos (by decide)
  exact (Nat.le_mul_of_pos_left n hpos).trans (Nat.le_add_right _ _)

/-- **The digits behind a number are read exactly or rejected.** -/
theorem foldlM_pushDigit? (hcs : ∀ c ∈ cs, c.isDigit = true) (hn : n ≤ maxInt) :
    cs.foldlM pushDigit? (Int64.ofNat n) = ofNat? (Nat.ofDigitChars 10 cs n) := by
  induction cs generalizing n with
  | nil => exact (if_pos hn).symm
  | cons c cs ih =>
      obtain ⟨hc, hcs⟩ := List.forall_mem_cons.mp hcs
      rw [List.foldlM_cons, pushDigit?_ofNat hn hc, Nat.ofDigitChars_cons]
      show (ofNat? (10 * n + digitValue c)).bind _ =
        ofNat? (Nat.ofDigitChars 10 cs (10 * n + digitValue c))
      by_cases hle : 10 * n + digitValue c ≤ maxInt
      · rw [ofNat?, if_pos hle]
        exact ih hcs hle
      · have hmore := le_ofDigitChars cs (10 * n + digitValue c)
        rw [ofNat?, ofNat?, if_neg hle, if_neg fun h => hle (hmore.trans h)]
        rfl

/-! ### Places -/

theorem ofDigitChars_eq (cs : List Char) :
    Nat.ofDigitChars 10 cs 0 = Nat.ofDigits 10 (cs.reverse.map digitValue) := by
  induction cs with
  | nil => rfl
  | cons c cs ih =>
      rw [Nat.ofDigitChars_cons, Nat.ofDigitChars_eq_ofDigitChars_zero, ih, List.reverse_cons,
        List.map_append, Nat.ofDigits_append, List.length_map, List.length_reverse]
      simp [digitValue, Nat.add_comm]

theorem natValue?_eq_some_iff :
    natValue? text = some n ↔
      text.toList ≠ [] ∧ (∀ c ∈ text.toList, c.isDigit = true) ∧ decimal text = n := by
  unfold natValue? decimal
  rw [ofDigitChars_eq, ← List.all_eq_true]
  split
  · next h => simp [h.1, h.2]
  · next h =>
    refine iff_of_false nofun ?_
    rintro ⟨hne, hdigits, -⟩
    exact h ⟨hne, hdigits⟩

/-- A text with a value has it within the limit exactly if its decimal value is. -/
theorem intValue?_eq (h : natValue? text = some n) :
    intValue? text = if decimal text ≤ maxInt then some (decimal text) else none := by
  obtain ⟨-, -, rfl⟩ := natValue?_eq_some_iff.mp h
  rw [intValue?, h, Option.filter_some]
  simp

/-- **A numeral is accumulated exactly or rejected**, however long it is. -/
theorem accumulate?_eq (h : natValue? text = some n) :
    accumulate? text = ofNat? (decimal text) := by
  obtain ⟨hne, hdigits, -⟩ := natValue?_eq_some_iff.mp h
  have hzero : text.toList.foldlM pushDigit? (Int64.ofNat 0) =
      ofNat? (Nat.ofDigitChars 10 text.toList 0) := foldlM_pushDigit? hdigits (Nat.zero_le _)
  obtain ⟨c, cs, htext⟩ := List.exists_cons_of_ne_nil hne
  rw [decimal, ← ofDigitChars_eq, ← hzero]
  unfold accumulate?
  rw [htext]
  rfl

theorem toInt_ofNat? (n : Nat) :
    (ofNat? n).map Int64.toInt = if n ≤ maxInt then some (n : Int) else none := by
  unfold ofNat?
  split
  · next hn => rw [Option.map_some, toInt_ofNat hn]
  · rfl

end Text

/-! ### Nodes -/

namespace Expr

variable {e part : Expr}

theorem WellFormed.of_mem_preorder (h : e.WellFormed) (hpart : part ∈ e.preorder) :
    part.WellFormed := by
  induction e with
  | ident | int =>
      rw [List.mem_singleton.mp hpart]
      exact h
  | unary operator operand ih =>
      obtain rfl | hpart := List.mem_cons.mp hpart
      · exact h
      · exact ih h.2 hpart
  | binary left operator right ihleft ihright =>
      obtain rfl | hpart := List.mem_cons.mp hpart
      · exact h
      · obtain hpart | hpart := List.mem_append.mp hpart
        · exact ihleft h.2.1 hpart
        · exact ihright h.2.2 hpart

/-- An integer of a tree has the decimal value of its digits, which is within the limit. -/
theorem WellFormed.value_eq {token : Token} {value : Int} (h : (int token value).WellFormed) :
    value = Text.decimal token.literal ∧ Text.decimal token.literal ≤ Text.maxInt := by
  obtain ⟨n, hn, rfl⟩ := Option.map_eq_some_iff.mp h.2
  obtain ⟨hvalue, hle⟩ := Text.intValue?_eq_some_iff.mp hn
  obtain ⟨-, -, rfl⟩ := Text.natValue?_eq_some_iff.mp hvalue
  exact ⟨rfl, hle⟩

end Expr

/-! ### Tokens -/

theorem Token.exists_natValue?_of_mem_tokenize {source : String} {token : Token}
    (h : token ∈ Token.tokenize source) (hkind : token.kind = .int) :
    ∃ n, Text.natValue? token.literal = some n := by
  obtain h | h := List.mem_append.mp h
  · exact (Token.lexable_of_mem_lex h).exists_natValue? hkind
  · rw [List.mem_singleton.mp h] at hkind
    cases hkind

theorem Pull.startAt_primary_of_int {w : Window} (hkind : w.current.kind = .int) :
    Pull.primary.startAt w =
      match Text.intValue? w.current.literal with
      | some n => some (.ok (.int w.current n), w)
      | none => some (.error ⟨.badInteger w.current.literal, w.current.literal⟩, w) := by
  rw [primary, Moves.primary, startAt_current_bind, Token.primary]
  simp only [hkind]
  cases Text.intValue? w.current.literal with
  | none => rfl
  | some n => rfl

open Text

/-- **Integers are read exactly or rejected, at every length.**  An integer in a program has the
decimal value of its digits, which 64 bits hold.  An integer that is the current token of a parser
is read with this value exactly if 64 bits hold it; otherwise it is told to be a bad integer, with
all of its digits.  The window stays where it is in both cases.  The digits are accumulated one by one,
with a check for an overflow at each step, and the result is the same. -/
theorem parse_integer_exact (source : String) :
    (∀ s ∈ (parse source).1.statements, ∀ token value,
      Expr.int token value ∈ s.value.preorder →
        0 ≤ value ∧ value ≤ 2 ^ 63 - 1 ∧ value = decimal token.literal) ∧
    ∀ w : Window, w.current ∈ Token.tokenize source → w.current.kind = .int →
      (Pull.primary.startAt w = some (.ok (.int w.current (decimal w.current.literal)), w) ↔
        decimal w.current.literal ≤ 2 ^ 63 - 1) ∧
      (2 ^ 63 - 1 < decimal w.current.literal →
        Pull.primary.startAt w =
          some (.error ⟨.badInteger w.current.literal, w.current.literal⟩, w)) ∧
      (accumulate? w.current.literal).map Int64.toInt =
        if decimal w.current.literal ≤ 2 ^ 63 - 1 then some (decimal w.current.literal : Int)
        else none := by
  constructor
  · intro s hs token value hnode
    have hvalue := (genuine_of_mem_parse hs).value.wellFormed.of_mem_preorder hnode
    obtain ⟨rfl, hle⟩ := hvalue.value_eq
    refine ⟨Int.natCast_nonneg _, ?_, rfl⟩
    unfold maxInt at hle
    omega
  · intro w hcurrent hkind
    obtain ⟨n, hn⟩ := Token.exists_natValue?_of_mem_tokenize hcurrent hkind
    have hlimit : (2 ^ 63 - 1 : Nat) = maxInt := rfl
    rw [Pull.startAt_primary_of_int hkind, intValue?_eq hn, accumulate?_eq hn, toInt_ofNat?, hlimit]
    refine ⟨?_, fun hlt => ?_, rfl⟩
    · by_cases hle : decimal w.current.literal ≤ maxInt
      · rw [if_pos hle]
        exact iff_of_true rfl hle
      · rw [if_neg hle]
        exact iff_of_false nofun hle
    · rw [if_neg (Nat.not_le.mpr hlt)]

/-- The largest integer behind zeros, and the first one that is too large, again behind zeros. -/
theorem parse_integer_exact_limits :
    let source := "-0009223372036854775807; x * 0009223372036854775808"
    let largest : Token := ⟨.int, "0009223372036854775807"⟩
    let next : Token := ⟨.int, "0009223372036854775808"⟩
    let w : Window := ⟨next, .eof, ⟨[], 51⟩⟩
    (∃ s ∈ (parse source).1.statements, Expr.int largest 9223372036854775807 ∈ s.value.preorder ∧
      9223372036854775807 = (decimal largest.literal : Int)) ∧
    next ∈ Token.tokenize source ∧ 2 ^ 63 - 1 < decimal next.literal ∧
    Pull.primary.startAt w = some (.error ⟨.badInteger next.literal, next.literal⟩, w) ∧
    accumulate? next.literal = none := by
  intro source largest next w
  obtain ⟨hnodes, htokens⟩ := parse_integer_exact source
  let s : Stmt :=
    .exprStmt ⟨.minus, "-"⟩ (.unary ⟨.minus, "-"⟩ (.int largest 9223372036854775807))
  have hs : s ∈ (parse source).1.statements := by decide +kernel
  have hnode : Expr.int largest 9223372036854775807 ∈ s.value.preorder := by decide
  have hnext : next ∈ Token.tokenize source := by decide +kernel
  have hlarge : 2 ^ 63 - 1 < decimal next.literal := by decide +kernel
  obtain ⟨-, hfails, haccumulate⟩ := htokens w hnext rfl
  refine ⟨⟨s, hs, hnode, (hnodes s hs _ _ hnode).2.2⟩, hnext, hlarge, hfails hlarge, ?_⟩
  rw [if_neg (Nat.not_le.mpr hlarge)] at haccumulate
  exact Option.map_eq_none_iff.mp haccumulate

end Monkey
