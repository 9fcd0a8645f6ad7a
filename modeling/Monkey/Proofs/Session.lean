import Mathlib.Data.List.Forall2
import Monkey.Console
import Monkey.Proofs.Linked

/-!
# Lines are answered one by one

Nothing is carried from a line to the next.  The line editor is told what has been read before, but
if it reads line by line, this makes no difference (`Console.answers_history`).  So a run on an
input that ends with a line feed goes on behind it as if it had only begun there, as long as the
lines of the input are texts; from the first line that is none nothing more is answered
(`Console.run_append_lines`).

This holds for all libraries that read the flags of the program and read line by line.  Those that
the program is linked with do so as long as the line editor does not break down
(`Console.run_eq_of_exit_ne`).
-/

namespace Monkey.Console

variable {bytes fed rest : List UInt8}

/-! ### Lines -/

/-- The lines of bytes that end with a line feed, each without a carriage return at its end. -/
def lines (bytes : List UInt8) : List (List UInt8) :=
  (bytes.splitOn 10).dropLast.map dropReturn

theorem lines_nil : lines [] = [] := rfl

theorem lines_append (hbytes : 10 ∉ bytes) (rest : List UInt8) :
    lines (bytes ++ 10 :: rest) = dropReturn bytes :: lines rest := by
  rw [lines, List.splitOn_append_cons_self_of_not_mem hbytes,
    List.dropLast_cons_of_ne_nil (List.splitOn_ne_nil 10 rest), List.map_cons, lines]

/-- Bytes that are made of whole lines. -/
inductive WholeLines : List UInt8 → Prop
  | nil : WholeLines []
  | append {bytes rest : List UInt8} :
      10 ∉ bytes → WholeLines rest → WholeLines (bytes ++ 10 :: rest)

/-- Bytes that end with a line feed are made of whole lines. -/
theorem wholeLines_of_getLast? (h : fed = [] ∨ fed.getLast? = some 10) : WholeLines fed := by
  induction hlength : fed.length using Nat.strong_induction_on generalizing fed with
  | _ n ih =>
      subst hlength
      obtain rfl | hlast := h
      · exact .nil
      · obtain ⟨bytes, rest, rfl, hbytes⟩ :=
          List.eq_append_cons_of_mem (List.mem_of_getLast? hlast)
        have hrest : rest = [] ∨ rest.getLast? = some 10 := by
          cases rest with
          | nil => exact .inl rfl
          | cons b rest =>
              rw [List.getLast?_append, List.getLast?_cons_cons] at hlast
              exact .inr (by simpa [List.getLast?_cons] using hlast)
        have hshorter : rest.length < (bytes ++ 10 :: rest).length := by
          rw [List.length_append, List.length_cons]
          omega
        exact .append hbytes (ih rest.length hshorter hrest rfl)

/-- The bytes are the UTF-8 encoding of a text. -/
def IsText (bytes : List UInt8) : Prop :=
  (decode? bytes).isSome

instance (bytes : List UInt8) : Decidable (IsText bytes) :=
  inferInstanceAs (Decidable (_ = true))

/-- The texts that lines are the encodings of. -/
def ReadAs : List (List UInt8) → List String → Prop :=
  List.Forall₂ fun bytes text => decode? bytes = some text

/-! ### Answers -/

section Answers

variable {reader : LineReader} {edit : String → String} {mode : Mode} {history : List String}
  {input : List UInt8} {text : String}

theorem answers_eq (reader : LineReader) (mode : Mode) (history : List String)
    (input : List UInt8) :
    answers reader mode history input =
      match reader.read history input with
      | (.line text, rest) =>
          ⟨evalLine text mode ++ (answers reader mode (text :: history) rest).output,
            (answers reader mode (text :: history) rest).exit⟩
      | (.closed, _) => ⟨"", 0⟩
      | (.failed, _) => ⟨"", 1⟩
      | (.aborted exit, _) => ⟨"", exit⟩ := by
  rw [answers]
  split <;> next heq => simp only [heq]

theorem answers_of_line (h : reader.read history input = (.line text, rest)) :
    answers reader mode history input =
      ⟨evalLine text mode ++ (answers reader mode (text :: history) rest).output,
        (answers reader mode (text :: history) rest).exit⟩ := by
  rw [answers_eq, h]

theorem answers_of_closed (h : reader.read history input = (.closed, rest)) :
    answers reader mode history input = ⟨"", 0⟩ := by
  rw [answers_eq, h]

theorem answers_of_failed (h : (reader.read history input).1 = .failed) :
    answers reader mode history input = ⟨"", 1⟩ := by
  have hread : reader.read history input = (.failed, (reader.read history input).2) :=
    Prod.ext h rfl
  rw [answers_eq, hread]

theorem answers_of_aborted {exit : Nat} (h : reader.read history input = (.aborted exit, rest)) :
    answers reader mode history input = ⟨"", exit⟩ := by
  rw [answers_eq, h]

/-- **What has been read before makes no difference**, if the reader reads line by line. -/
theorem answers_history (h : reader.ReadsLines edit) (history history' : List String)
    (input : List UInt8) :
    answers reader mode history input = answers reader mode history' input := by
  induction hlength : input.length using Nat.strong_induction_on
    generalizing history history' input with
  | _ n ih =>
      subst hlength
      by_cases hfeed : 10 ∈ input
      · obtain ⟨bytes, rest, rfl, hbytes⟩ := List.eq_append_cons_of_mem hfeed
        have hshorter : rest.length < (bytes ++ 10 :: rest).length := by
          rw [List.length_append, List.length_cons]
          omega
        cases htext : decode? (dropReturn bytes) with
        | none =>
            rw [answers_of_failed (h.failed history rest hbytes htext),
              answers_of_failed (h.failed history' rest hbytes htext)]
        | some text =>
            rw [answers_of_line (h.line history rest hbytes htext),
              answers_of_line (h.line history' rest hbytes htext),
              ih rest.length hshorter _ (edit text :: history') rest rfl]
      · by_cases hnil : input = []
        · subst hnil
          rw [answers_of_closed (h.closed history), answers_of_closed (h.closed history')]
        · cases htext : decode? input with
          | none =>
              rw [answers_of_failed (h.failedLast history hfeed htext),
                answers_of_failed (h.failedLast history' hfeed htext)]
          | some text =>
              rw [answers_of_line (h.last history hnil hfeed htext),
                answers_of_line (h.last history' hnil hfeed htext),
                answers_of_closed (h.closed _), answers_of_closed (h.closed _)]

/-- A line that is a text is answered, and the lines behind it are answered as at the start. -/
theorem answers_append (h : reader.ReadsLines edit) (hbytes : 10 ∉ bytes)
    (htext : decode? (dropReturn bytes) = some text) (rest : List UInt8) :
    answers reader mode [] (bytes ++ 10 :: rest) =
      ⟨evalLine (edit text) mode ++ (answers reader mode [] rest).output,
        (answers reader mode [] rest).exit⟩ := by
  rw [answers_of_line (h.line [] rest hbytes htext), answers_history h _ [] rest]

/-- **Lines that are texts are answered in front of all that follows**, each by itself. -/
theorem answers_of_isText (h : reader.ReadsLines edit) (mode : Mode) (hfed : WholeLines fed)
    (htexts : ∀ bytes ∈ lines fed, IsText bytes) :
    ∃ texts, ReadAs (lines fed) texts ∧ ∀ rest, answers reader mode [] (fed ++ rest) =
      ⟨String.join (texts.map fun text => evalLine (edit text) mode) ++
          (answers reader mode [] rest).output,
        (answers reader mode [] rest).exit⟩ := by
  induction hfed with
  | nil => exact ⟨[], .nil, fun rest => by simp⟩
  | @append bytes fed hbytes _ ih =>
      rw [lines_append hbytes, List.forall_mem_cons] at htexts
      obtain ⟨text, htext⟩ := Option.isSome_iff_exists.mp htexts.1
      obtain ⟨texts, hread, hanswers⟩ := ih htexts.2
      refine ⟨text :: texts, ?_, fun rest => ?_⟩
      · rw [lines_append hbytes]
        exact .cons htext hread
      · rw [List.append_assoc, List.cons_append, answers_append h hbytes htext, hanswers]
        simp [String.append_assoc]

/-- **At the first line that is no text the answers end**, whatever follows. -/
theorem answers_of_not_isText (h : reader.ReadsLines edit) (mode : Mode) (hfed : WholeLines fed)
    (hbad : ∃ bytes ∈ lines fed, ¬ IsText bytes) :
    ∃ before bytes after texts, lines fed = before ++ bytes :: after ∧ ReadAs before texts ∧
      ¬ IsText bytes ∧ ∀ rest, answers reader mode [] (fed ++ rest) =
        ⟨String.join (texts.map fun text => evalLine (edit text) mode), 1⟩ := by
  induction hfed with
  | nil => simp [lines_nil] at hbad
  | @append bytes fed hbytes _ ih =>
      simp only [lines_append hbytes, List.append_assoc, List.cons_append] at hbad ⊢
      cases htext : decode? (dropReturn bytes) with
      | none =>
          have hnone : ¬ IsText (dropReturn bytes) := by simp [IsText, htext]
          refine ⟨[], dropReturn bytes, lines fed, [], rfl, .nil, hnone, fun rest => ?_⟩
          exact answers_of_failed (h.failed [] (fed ++ rest) hbytes htext)
      | some text =>
          have hbad : ∃ bytes ∈ lines fed, ¬ IsText bytes := by
            obtain ⟨bad, hmem, hbad⟩ := hbad
            obtain rfl | hmem := List.mem_cons.mp hmem
            · exact absurd (Option.isSome_of_eq_some htext) hbad
            · exact ⟨bad, hmem, hbad⟩
          obtain ⟨before, first, after, texts, heq, hread, hfirst, hanswers⟩ := ih hbad
          refine ⟨dropReturn bytes :: before, first, after, text :: texts, ?_, .cons htext hread,
            hfirst, fun rest => ?_⟩
          · rw [heq, List.cons_append]
          · rw [answers_append h hbytes htext, hanswers]
            simp

end Answers

/-! ### Runs -/

/-- How lines are answered for some arguments. -/
def modeOf (arguments : List String) : Mode :=
  if "--parse" ∈ arguments then .parse else .tokens

section Runs

variable {libraries : Libraries} {reader : LineReader} {edit : String → String}
  {arguments : List String}

theorem run_of_startsLoop (hflags : ReadsFlags libraries.readArguments)
    (heditor : libraries.editor = some reader) (hstart : StartsLoop arguments)
    (user username : Option String) (input : List UInt8) :
    libraries.run arguments user username input =
      ⟨banner (userName user username) ++ "\n" ++
          (answers reader (modeOf arguments) [] input).output,
        (answers reader (modeOf arguments) [] input).exit⟩ := by
  obtain ⟨options, hread, hparse⟩ := hflags arguments hstart
  have hmode : options.mode = modeOf arguments := by simp [Options.mode, modeOf, hparse]
  simp only [Libraries.run, hread, heditor, hmode]

/-- **Each line is answered by itself**, with all libraries that read the flags of the program and
read line by line.  Let the program be started to read lines.  If all lines of an input that ends
with a line feed are texts, what comes behind it is answered as it is without it, and decides how
the program ends.  Otherwise what comes behind makes no difference: the program has answered the
lines in front of the first one that is no text, and fails there. -/
theorem run_append_lines (hflags : ReadsFlags libraries.readArguments)
    (heditor : libraries.editor = some reader) (hlines : reader.ReadsLines edit)
    (hstart : StartsLoop arguments) (hfed : fed = [] ∨ fed.getLast? = some 10)
    (user username : Option String) (rest : List UInt8) :
    ((∀ bytes ∈ lines fed, IsText bytes) →
      ∃ answer,
        (libraries.run arguments user username rest).output =
            banner (userName user username) ++ "\n" ++ answer ∧
          libraries.run arguments user username (fed ++ rest) =
            ⟨(libraries.run arguments user username fed).output ++ answer,
              (libraries.run arguments user username rest).exit⟩) ∧
    ((∃ bytes ∈ lines fed, ¬ IsText bytes) →
      libraries.run arguments user username (fed ++ rest) =
          libraries.run arguments user username fed ∧
        ∃ before bytes after texts,
          lines fed = before ++ bytes :: after ∧ ReadAs before texts ∧ ¬ IsText bytes ∧
            libraries.run arguments user username fed =
              ⟨banner (userName user username) ++ "\n" ++
                  String.join (texts.map fun text => evalLine (edit text) (modeOf arguments)),
                1⟩) := by
  have hwhole := wholeLines_of_getLast? hfed
  simp only [run_of_startsLoop hflags heditor hstart]
  constructor
  · intro htexts
    obtain ⟨texts, -, hanswers⟩ := answers_of_isText hlines (modeOf arguments) hwhole htexts
    have halone := hanswers []
    rw [List.append_nil, answers_of_closed (hlines.closed [])] at halone
    refine ⟨_, rfl, ?_⟩
    rw [hanswers rest, halone]
    simp [String.append_assoc]
  · intro hbad
    obtain ⟨before, bytes, after, texts, heq, hread, hbytes, hanswers⟩ :=
      answers_of_not_isText hlines (modeOf arguments) hwhole hbad
    have halone := hanswers []
    rw [List.append_nil] at halone
    rw [hanswers rest, halone]
    exact ⟨rfl, before, bytes, after, texts, heq, hread, hbytes, rfl⟩

/-- A line with a backspace, and one that is answered in front of bytes that are no text. -/
theorem run_append_lines_parse :
    let run := steady.run ["--parse", "-vv", "--"] none (some "ada")
    (∃ answer,
      (run [50]).output = banner (userName none (some "ada")) ++ "\n" ++ answer ∧
        run ([43, 8, 45, 49, 13, 10] ++ [50]) =
          ⟨(run [43, 8, 45, 49, 13, 10]).output ++ answer, (run [50]).exit⟩) ∧
    run ([49, 10, 255, 10] ++ [50]) = run [49, 10, 255, 10] := by
  intro run
  have hflags : ReadsFlags steady.readArguments := Options.readsFlags
  have hlines := readsLines_lineReader (settled applyBackspaces?)
  have hstart : StartsLoop ["--parse", "-vv", "--"] := by
    refine ⟨["--parse", "-vv"], ["--"], rfl, .inr rfl, ?_, by decide⟩
    intro flag hflag
    obtain rfl | rfl : flag = "--parse" ∨ flag = "-vv" := by simpa using hflag
    · exact .inl rfl
    · exact .inr (.inr ⟨1, by decide⟩)
  have htexts : ∀ bytes ∈ lines [43, 8, 45, 49, 13, 10], IsText bytes := by decide +kernel
  have hbad : ∃ bytes ∈ lines [49, 10, 255, 10], ¬ IsText bytes := by decide +kernel
  exact ⟨(run_append_lines hflags rfl hlines hstart (.inr rfl) none (some "ada") [50]).1 htexts,
    ((run_append_lines hflags rfl hlines hstart (.inr rfl) none (some "ada") [50]).2 hbad).1⟩

end Runs

/-! ### The program as it is linked -/

section Linked

variable {edit? : String → Option String} {mode : Mode} {history : List String}
  {input : List UInt8}

/-- **Unless it breaks down, a line editor answers as one that never does.** -/
theorem answers_settled (h : (answers (lineReader edit?) mode history input).exit ≠ 101) :
    answers (lineReader edit?) mode history input =
      answers (lineReader fun text => some (settled edit? text)) mode history input := by
  induction hlength : input.length using Nat.strong_induction_on generalizing history input with
  | _ n ih =>
      subst hlength
      obtain ⟨⟨reading, rest⟩, hread⟩ : ∃ next, (lineReader edit?).read history input = next :=
        ⟨_, rfl⟩
      have hgoesOn : reading ≠ .aborted 101 := by
        rintro rfl
        rw [answers_of_aborted hread] at h
        exact h rfl
      have hsame : (lineReader fun text => some (settled edit? text)).read history input =
          (reading, rest) := by
        rw [read_lineReader] at hread ⊢
        rw [readLine_settled (by rwa [hread]), hread]
      cases reading with
      | line text =>
          have hshorter := (lineReader edit?).length_lt hread
          rw [answers_of_line hread] at h ⊢
          rw [answers_of_line hsame, ih rest.length hshorter h rfl]
      | closed => rw [answers_of_closed hread, answers_of_closed hsame]
      | failed =>
          rw [answers_of_failed (congrArg Prod.fst hread),
            answers_of_failed (congrArg Prod.fst hsame)]
      | aborted exit => rw [answers_of_aborted hread, answers_of_aborted hsame]

/-- **The program as it is linked** runs, unless it breaks down, as with libraries that read the
flags and read line by line. -/
theorem run_eq_of_exit_ne {arguments : List String} {user username : Option String}
    (h : (run arguments user username input).exit ≠ 101) :
    run arguments user username input = steady.run arguments user username input := by
  unfold run Libraries.run at h ⊢
  dsimp only [linked, steady] at h ⊢
  cases hread : Options.readArguments ⟨false, 0⟩ arguments with
  | error run => rfl
  | ok options =>
      rw [hread] at h
      dsimp only at h ⊢
      rw [answers_settled h]

end Linked

end Monkey.Console
