import Monkey.Console.Linked
import Monkey.Grammar.Program

/-!
# The read loop

The program greets its user, then answers line by line until the input ends or a line cannot be
read.  Reading a line is told all lines that have been read before; the answer to a line depends on
that line alone.
-/

namespace Monkey.Console

/-- What a line is answered with. -/
inductive Mode where
  /-- Its tokens, one on a line. -/
  | tokens
  /-- Its statements in canonical form, or what is wrong with it. -/
  | parse
  deriving DecidableEq, Repr

def Options.mode (options : Options) : Mode :=
  if options.parse then .parse else .tokens

/-- The answer to a line, with a line feed at its end. -/
def evalLine (line : String) : Mode → String
  | .tokens => String.join ((Token.lex line.toList).map fun token => token.display ++ "\n")
  | .parse =>
      match parse line with
      | (program, []) => program.text ++ "\n"
      | (_, diagnostics) => String.join (diagnostics.map fun d => d.display ++ "\n")

/-- The greeting. -/
def banner (name : String) : String :=
  "Hello, " ++ name ++ "! This is the Monkey programming language."

/-- The name to greet: the first of the two that is set and not empty. -/
def userName (user username : Option String) : String :=
  (([user, username].filterMap id).find? (· ≠ "")).getD "stranger"

/-! ### Runs -/

/-- The answers to the lines of an input, up to the first that cannot be read. -/
def answers (reader : LineReader) (mode : Mode) (history : List String) (input : List UInt8) :
    Run :=
  match h : reader.read history input with
  | (.line text, rest) =>
      have := reader.length_lt h
      let run := answers reader mode (text :: history) rest
      ⟨evalLine text mode ++ run.output, run.exit⟩
  | (.closed, _) => ⟨"", 0⟩
  | (.failed, _) => ⟨"", 1⟩
  | (.aborted exit, _) => ⟨"", exit⟩
termination_by input.length

/-- A run of the program on its arguments, the two variables that may name its user, and the bytes
on its standard input. -/
def Libraries.run (libraries : Libraries) (arguments : List String)
    (user username : Option String) (input : List UInt8) : Run :=
  match libraries.readArguments arguments with
  | .error run => run
  | .ok options =>
      let greeting := banner (userName user username) ++ "\n"
      match libraries.editor with
      | none => ⟨greeting, 1⟩
      | some reader =>
          let run := answers reader options.mode [] input
          ⟨greeting ++ run.output, run.exit⟩

/-- A run of the program as it is linked. -/
def run (arguments : List String) (user username : Option String) (input : List UInt8) : Run :=
  linked.run arguments user username input

end Monkey.Console
