import Monkey.Console.Cluster
import Monkey.Console.Libraries
import Monkey.Text

/-!
# The libraries that the program is linked with

A reader of arguments and a line editor for input that is not a terminal, with which the program
runs.  What is proved about the program holds for all libraries with the laws of
`Monkey.Console.Libraries`.

The line editor counts the bytes of each cluster of a line in a counter of eight bits, and a
backspace takes back as many bytes as the last counter shows.  A cluster of fewer than 256 bytes is
thereby taken back whole; of a larger one the bytes that the counter lost stay in the line, and
where they do not end with a character the line editor breaks down.
-/

namespace Monkey.Console

/-! ### Arguments -/

def helpText : String :=
  "Interactive front end for the Monkey language\n" ++
  "\n" ++
  "Usage: monkey [OPTIONS]\n" ++
  "\n" ++
  "Options:\n" ++
  "      --parse       Parse each line and print its canonical form instead of its tokens\n" ++
  "  -v, --verbose...  Increase log verbosity (-v debug, -vv trace)\n" ++
  "  -h, --help        Print help\n"

namespace Options

/-- The run that a call for help ends at once. -/
def help : Except Run Options :=
  .error ⟨helpText, 0⟩

/-- The run that a wrong argument ends at once. -/
def misuse : Except Run Options :=
  .error ⟨"", 2⟩

def moreDetail (options : Options) : Options :=
  { options with verbosity := options.verbosity + 1 }

/-- A cluster of one-letter flags. -/
def readLetters (options : Options) : List Char → Except Run Options
  | [] => .ok options
  | 'v' :: letters => options.moreDetail.readLetters letters
  | 'h' :: _ => help
  | _ :: _ => misuse

/-- One argument.  A flag takes no value, `--parse` stands at most once, and nothing but flags is
accepted. -/
def readArgument (options : Options) (argument : String) : Except Run Options :=
  if argument = "--parse" then
    if options.parse then misuse else .ok { options with parse := true }
  else if argument = "--verbose" then .ok options.moreDetail
  else if argument = "--help" then help
  else
    match argument.toList with
    | '-' :: letter :: letters => options.readLetters (letter :: letters)
    | _ => misuse

/-- All arguments after some have set the options.  Nothing may follow `--`. -/
def readArguments (options : Options) : List String → Except Run Options
  | [] => .ok options
  | "--" :: arguments => if arguments.isEmpty then .ok options else misuse
  | argument :: arguments => do (← options.readArgument argument).readArguments arguments

end Options

/-! ### Lines with backspaces -/

/-- The characters without the first ones that take up the given number of bytes, if a character
ends there. -/
def dropBytes? : Nat → List Char → Option (List Char)
  | 0, cs => some cs
  | _ + 1, [] => none
  | n + 1, c :: cs => if c.utf8Size ≤ n + 1 then dropBytes? (n + 1 - c.utf8Size) cs else none

/-- A line in the making: its characters, the last first, and the counters of its clusters, the
last first. -/
structure Draft where
  kept : List Char
  counters : List Nat

namespace Draft

def add (draft : Draft) (cluster : List Char) : Draft :=
  ⟨cluster.reverse ++ draft.kept, Text.byteSize cluster % 256 :: draft.counters⟩

/-- The line with its last cluster taken back, and as it was if there is none. -/
def erase? (draft : Draft) : Option Draft :=
  match draft.counters with
  | [] => some draft
  | n :: counters => (dropBytes? n draft.kept).map (⟨·, counters⟩)

/-- The line after some more clusters, of which a backspace alone is one. -/
def type? (draft : Draft) : List (List Char) → Option Draft
  | [] => some draft
  | cluster :: clusters =>
      if cluster = ['\x08'] then draft.erase?.bind (type? · clusters)
      else (draft.add cluster).type? clusters

end Draft

/-- A line with its backspaces carried out, if it can be finished. -/
def applyBackspaces? (line : String) : Option String :=
  ((Draft.mk [] []).type? (clusters line.toList)).map fun draft => String.ofList draft.kept.reverse

/-! ### The line editor -/

variable (edit? : String → Option String)

/-- The line that some bytes stand for, as it is edited. -/
def readText (bytes : List UInt8) : Reading :=
  match decode? bytes with
  | none => .failed
  | some text =>
      match edit? text with
      | none => .aborted 101
      | some line => .line line

/-- The first line of an input and what follows it.  What comes behind the last line feed is a line
only if it is not empty. -/
def readLine (input : List UInt8) : Reading × List UInt8 :=
  if input = [] then (.closed, [])
  else
    let bytes := input.takeWhile (· ≠ 10)
    match input.dropWhile (· ≠ 10) with
    | [] => (readText edit? bytes, [])
    | _ :: rest => (readText edit? (dropReturn bytes), rest)

theorem length_lt_of_readLine {input rest : List UInt8} {text : String}
    (h : readLine edit? input = (.line text, rest)) : rest.length < input.length := by
  unfold readLine at h
  split at h
  · cases h
  · next hne =>
    dsimp only at h
    split at h
    · obtain rfl : [] = rest := (Prod.mk.inj h).2
      exact List.length_pos_iff.mpr hne
    · next heq =>
      have hsuffix := (List.dropWhile_suffix (l := input) (· ≠ 10)).length_le
      rw [heq, (Prod.mk.inj h).2] at hsuffix
      exact hsuffix

/-- A line editor that keeps nothing from one line to the next. -/
def lineReader : LineReader where
  read _ := readLine edit?
  length_lt := length_lt_of_readLine edit?

/-- The libraries that the program is linked with. -/
def linked : Libraries where
  readArguments := Options.readArguments ⟨false, 0⟩
  editor := some (lineReader applyBackspaces?)

end Monkey.Console
