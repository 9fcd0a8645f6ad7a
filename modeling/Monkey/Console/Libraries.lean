/-!
# What the program leaves to libraries

How the arguments are read, and how a line is read from standard input, is left to libraries: both
are parameters of the program (`Libraries`).  What the program relies on is stated as a law of
each.

* `ReadsFlags`: arguments that are flags, with `--parse` at most once among them and perhaps `--`
  behind them, are read as the options that they stand for.
* `LineReader.ReadsLines`: on an input that is not a terminal a line reaches up to its line feed,
  and one carriage return in front of the line feed is dropped.  A line is edited by itself: what
  the backspaces in it do depends on nothing but the line.  A line that is not valid UTF-8 is an
  error.
-/

namespace Monkey.Console

/-- What a run of the program has printed, and the code it exits with. -/
structure Run where
  output : String
  exit : Nat
  deriving DecidableEq, Repr

/-- What the arguments set. -/
structure Options where
  /-- Lines are parsed and written back, instead of taken apart into tokens. -/
  parse : Bool
  /-- How often more detail was asked for. -/
  verbosity : Nat
  deriving DecidableEq, Repr

/-- What reading a line comes to. -/
inductive Reading where
  | line (text : String)
  /-- The input has ended. -/
  | closed
  /-- The line cannot be read. -/
  | failed
  /-- The line editor breaks down and takes the program with it. -/
  | aborted (exit : Nat)
  deriving DecidableEq, Repr

/-- A line editor: given the lines that have been read, the last one first, it reads one more from
the input, and leaves the rest of the input. -/
structure LineReader where
  read : List String → List UInt8 → Reading × List UInt8
  /-- A line uses up some of the input. -/
  length_lt {history : List String} {input rest : List UInt8} {text : String} :
    read history input = (.line text, rest) → rest.length < input.length

/-- The libraries of the program. -/
structure Libraries where
  /-- The options that the arguments set, or the run that they end at once. -/
  readArguments : List String → Except Run Options
  /-- The line editor, unless it cannot be started. -/
  editor : Option LineReader

/-! ### Arguments -/

/-- The arguments that set an option: the two flags by their names, and any number of one-letter
flags at once. -/
def IsFlag (argument : String) : Prop :=
  argument = "--parse" ∨ argument = "--verbose" ∨
    ∃ n, argument.toList = '-' :: List.replicate (n + 1) 'v'

/-- The arguments with which the program reads lines: flags, `--parse` at most once among them, and
perhaps `--` behind them. -/
def StartsLoop (arguments : List String) : Prop :=
  ∃ flags stop, arguments = flags ++ stop ∧ (stop = [] ∨ stop = ["--"]) ∧
    (∀ flag ∈ flags, IsFlag flag) ∧ flags.count "--parse" ≤ 1

/-- Flags are accepted, and `--parse` is set if it is among them. -/
def ReadsFlags (readArguments : List String → Except Run Options) : Prop :=
  ∀ arguments, StartsLoop arguments →
    ∃ options, readArguments arguments = .ok options ∧
      options.parse = decide ("--parse" ∈ arguments)

/-! ### Lines -/

/-- A line that ended with a line feed, without a carriage return at its end. -/
def dropReturn (line : List UInt8) : List UInt8 :=
  if line.getLast? = some 13 then line.dropLast else line

/-- The text that is encoded by the bytes, if they are valid UTF-8. -/
def decode? (bytes : List UInt8) : Option String :=
  String.fromUTF8? ⟨bytes.toArray⟩

/-- Lines are split at line feeds, each is edited by itself, and none is read that is not a text.
What has been read before makes no difference. -/
structure LineReader.ReadsLines (reader : LineReader) (edit : String → String) : Prop where
  closed (history : List String) : reader.read history [] = (.closed, [])
  line {bytes : List UInt8} {text : String} (history : List String) (rest : List UInt8) :
    10 ∉ bytes → decode? (dropReturn bytes) = some text →
      reader.read history (bytes ++ 10 :: rest) = (.line (edit text), rest)
  last {bytes : List UInt8} {text : String} (history : List String) :
    bytes ≠ [] → 10 ∉ bytes → decode? bytes = some text →
      reader.read history bytes = (.line (edit text), [])
  failed {bytes : List UInt8} (history : List String) (rest : List UInt8) :
    10 ∉ bytes → decode? (dropReturn bytes) = none →
      (reader.read history (bytes ++ 10 :: rest)).1 = .failed
  failedLast {bytes : List UInt8} (history : List String) :
    10 ∉ bytes → decode? bytes = none → (reader.read history bytes).1 = .failed

end Monkey.Console
