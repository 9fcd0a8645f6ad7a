import Monkey.Console

/-!
# The program

Reads the command line, the environment and standard input, and prints what `Console` answers.  The
line editor that the program is linked with keeps nothing from one line to the next, so that each
line is answered as soon as it is there.
-/

open Monkey.Console

/-- The bytes of the input up to its next line feed, or up to its end. -/
partial def takeLine (input : IO.FS.Stream) (begun : ByteArray) : IO ByteArray := do
  let bytes ← input.read 1
  if bytes.isEmpty then return begun
  else if bytes.toList = [10] then return begun ++ bytes
  else takeLine input (begun ++ bytes)

/-- Answers line by line, and ends with the code of the first line that cannot be answered. -/
partial def readLoop (reader : LineReader) (mode : Mode) (input output : IO.FS.Stream) :
    IO UInt32 := do
  let bytes ← takeLine input .empty
  if bytes.isEmpty then return 0
  let run := answers reader mode [] bytes.toList
  output.putStr run.output
  output.flush
  if run.exit = 0 then readLoop reader mode input output else return run.exit.toUInt32

def main (arguments : List String) : IO UInt32 := do
  let output ← IO.getStdout
  let start := run arguments (← IO.getEnv "USER") (← IO.getEnv "USERNAME") []
  output.putStr start.output
  output.flush
  match linked.readArguments arguments, linked.editor with
  | .ok options, some reader => readLoop reader options.mode (← IO.getStdin) output
  | _, _ =>
      unless start.exit = 0 do
        IO.eprintln "error: unexpected argument, try --help"
      return start.exit.toUInt32
