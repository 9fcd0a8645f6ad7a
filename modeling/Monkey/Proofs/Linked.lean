import Mathlib.Data.List.TakeWhile
import Monkey.Console.Linked

/-!
# The linked libraries keep the laws

The reader of arguments accepts flags (`Console.Options.readsFlags`), which is shown argument by
argument.  That `--parse` is set at most once is carried along as a number: how often it is still to
come, and one more if it has been set (`Options.count_parse_cons`).

The line editor reads line by line, if it is given an edit that does not break down
(`Console.readsLines_lineReader`).  Up to a line at which it does break down, it reads as with such
an edit (`readLine_settled`).
-/

namespace Monkey.Console

namespace Options

variable {options options' : Options} {argument : String} {arguments flags stop : List String}

/-! ### One argument -/

theorem readLetters_replicate (options : Options) (n : Nat) :
    options.readLetters (List.replicate n 'v') =
      .ok { options with verbosity := options.verbosity + n } := by
  induction n generalizing options with
  | zero => rfl
  | succ n ih =>
      rw [List.replicate_succ, readLetters, ih, moreDetail]
      simp only [Except.ok.injEq, mk.injEq, true_and]
      omega

theorem ne_of_letters {name : String} {n : Nat}
    (h : argument.toList = '-' :: List.replicate (n + 1) 'v') (hname : name.toList[1]? = some '-') :
    argument ≠ name := by
  rintro rfl
  rw [h] at hname
  cases hname

theorem exists_readArgument (hflag : IsFlag argument)
    (hparse : argument = "--parse" → options.parse = false) :
    ∃ options', options.readArgument argument = .ok options' ∧
      options'.parse = (options.parse || decide (argument = "--parse")) := by
  obtain rfl | rfl | ⟨n, hletters⟩ := hflag
  · refine ⟨{ options with parse := true }, ?_, by simp⟩
    simp [readArgument, hparse rfl]
  · exact ⟨options.moreDetail, by simp [readArgument], by simp [moreDetail]⟩
  · have hne {name : String} : name.toList[1]? = some '-' → argument ≠ name :=
      ne_of_letters hletters
    unfold readArgument
    rw [if_neg (hne rfl), if_neg (hne rfl), if_neg (hne rfl), hletters]
    exact ⟨_, readLetters_replicate options (n + 1), by simp [hne]⟩

theorem not_isFlag_dashes : ¬ IsFlag "--" := by
  rintro (h | h | ⟨n, h⟩)
  · exact absurd h (by decide)
  · exact absurd h (by decide)
  · exact absurd (List.cons.inj (List.cons.inj h).2).1 (by decide)

/-! ### All arguments -/

theorem readArguments_cons (hne : argument ≠ "--")
    (h : options.readArgument argument = .ok options') :
    options.readArguments (argument :: arguments) = options'.readArguments arguments := by
  rw [readArguments.eq_def]
  split
  · next heq => cases heq
  · next heq => exact absurd (List.cons.inj heq).1 hne
  · next heq =>
    obtain ⟨rfl, rfl⟩ := List.cons.inj heq
    rw [h]
    rfl

/-- What `--parse` has set and what is still to set it, before a flag and behind it. -/
theorem count_parse_cons {flag : String} (hunset : flag = "--parse" → options.parse = false)
    (hset : options'.parse = (options.parse || decide (flag = "--parse"))) :
    (flag :: flags).count "--parse" + options.parse.toNat =
      flags.count "--parse" + options'.parse.toNat := by
  by_cases hparse : flag = "--parse"
  · simp [hset, hparse, hunset hparse]
  · simp [hset, hparse, List.count_cons_of_ne hparse]

theorem exists_readArguments (hflags : ∀ flag ∈ flags, IsFlag flag)
    (hstop : stop = [] ∨ stop = ["--"])
    (hcount : flags.count "--parse" + options.parse.toNat ≤ 1) :
    ∃ options', options.readArguments (flags ++ stop) = .ok options' ∧
      options'.parse = (options.parse || decide ("--parse" ∈ flags)) := by
  induction flags generalizing options with
  | nil =>
      refine ⟨options, ?_, by simp⟩
      obtain rfl | rfl := hstop <;> rfl
  | cons flag flags ih =>
      obtain ⟨hflag, hflags⟩ := List.forall_mem_cons.mp hflags
      have hunset : flag = "--parse" → options.parse = false := by
        rintro rfl
        rw [List.count_cons_self] at hcount
        exact Bool.toNat_eq_zero.mp (by omega)
      obtain ⟨next, hread, hset⟩ := exists_readArgument hflag hunset
      rw [count_parse_cons hunset hset] at hcount
      obtain ⟨last, hlast, hall⟩ := ih hflags hcount
      have hne : flag ≠ "--" := fun heq => not_isFlag_dashes (heq ▸ hflag)
      rw [List.cons_append, readArguments_cons hne hread]
      refine ⟨last, hlast, ?_⟩
      rw [hall, hset]
      simp [Bool.or_assoc, eq_comm]

/-- **Flags are accepted**, with `--parse` at most once among them and perhaps `--` behind them. -/
theorem readsFlags : ReadsFlags (readArguments ⟨false, 0⟩) := by
  rintro _ ⟨flags, stop, rfl, hstop, hflags, hcount⟩
  obtain ⟨options, hread, hparse⟩ : ∃ options', readArguments ⟨false, 0⟩ (flags ++ stop) =
      .ok options' ∧ options'.parse = (false || decide ("--parse" ∈ flags)) :=
    exists_readArguments hflags hstop hcount
  have hmem : "--parse" ∈ flags ++ stop ↔ "--parse" ∈ flags := by
    obtain rfl | rfl := hstop <;> simp
  exact ⟨options, hread, by simp [hparse, hmem]⟩

end Options

/-! ### Lines -/

/-- The edit, which leaves a line as it is where it would break down. -/
def settled (edit? : String → Option String) (text : String) : String :=
  (edit? text).getD text

/-- The linked libraries, with a line editor that never breaks down. -/
def steady : Libraries :=
  { linked with editor := some (lineReader fun text => some (settled applyBackspaces? text)) }

section Lines

variable {edit? : String → Option String} {bytes rest input : List UInt8}

theorem ne_feed (hbytes : 10 ∉ bytes) : ∀ b ∈ bytes, decide (b ≠ 10) = true :=
  fun _ hb => decide_eq_true fun heq => hbytes (heq ▸ hb)

theorem readLine_last (hne : bytes ≠ []) (hbytes : 10 ∉ bytes) :
    readLine edit? bytes = (readText edit? bytes, []) := by
  rw [readLine, if_neg hne, List.takeWhile_eq_self_iff.mpr (ne_feed hbytes),
    List.dropWhile_eq_nil_iff.mpr (ne_feed hbytes)]

theorem readLine_append (hbytes : 10 ∉ bytes) (rest : List UInt8) :
    readLine edit? (bytes ++ 10 :: rest) = (readText edit? (dropReturn bytes), rest) := by
  have htake : (bytes ++ 10 :: rest).takeWhile (· ≠ 10) = bytes := by
    rw [List.takeWhile_append_of_pos (ne_feed hbytes)]
    simp
  have hdrop : (bytes ++ 10 :: rest).dropWhile (· ≠ 10) = 10 :: rest := by
    rw [List.dropWhile_append_of_pos (ne_feed hbytes)]
    rfl
  rw [readLine, if_neg (List.append_ne_nil_of_right_ne_nil _ (List.cons_ne_nil _ _)), htake, hdrop]

theorem read_lineReader (history : List String) (input : List UInt8) :
    (lineReader edit?).read history input = readLine edit? input := rfl

/-- **The line editor reads line by line**, with an edit that does not break down. -/
theorem readsLines_lineReader (edit : String → String) :
    (lineReader fun text => some (edit text)).ReadsLines edit where
  closed _ := rfl
  line _ rest hbytes htext := by
    rw [read_lineReader, readLine_append hbytes, readText, htext]
  last _ hne hbytes htext := by
    rw [read_lineReader, readLine_last hne hbytes, readText, htext]
  failed _ rest hbytes htext := by
    rw [read_lineReader, readLine_append hbytes, readText, htext]
  failedLast {bytes} _ hbytes htext := by
    have hne : bytes ≠ [] := by
      rintro rfl
      cases htext
    rw [read_lineReader, readLine_last hne hbytes, readText, htext]

theorem readText_settled (h : readText edit? bytes ≠ .aborted 101) :
    readText (fun text => some (settled edit? text)) bytes = readText edit? bytes := by
  unfold readText at h ⊢
  cases hdecode : decode? bytes with
  | none => rfl
  | some text =>
      rw [hdecode] at h
      cases hedit : edit? text with
      | none => simp [hedit] at h
      | some line => simp [settled, hedit]

theorem readLine_settled (h : (readLine edit? input).1 ≠ .aborted 101) :
    readLine (fun text => some (settled edit? text)) input = readLine edit? input := by
  unfold readLine at h ⊢
  split
  · rfl
  · next hne =>
    rw [if_neg hne] at h
    dsimp only at h ⊢
    split at h
    · rw [readText_settled h]
    · rw [readText_settled h]

end Lines

end Monkey.Console
