import ShiftReduce.CommandLine.Session

/-!
# The program

Reads the arguments, the grammar file and the standard input, and prints what the
request comes to.
-/

namespace ShiftReduce

open CommandLine

/-- The bytes of a file, or why they cannot be had. -/
def readGrammarFile (path : String) : IO (Except FileFault ByteArray) := do
  try
    return .ok (← IO.FS.readBinFile path)
  catch
    | .noFileOrDirectory .. => return .error .missing
    | .inappropriateType _ code _ =>
        return .error (if code = 20 then .notDirectory else .directory)
    | fault => return .error (.system (toString fault))

/-- All bytes that are left of a stream. -/
partial def readRest (stream : IO.FS.Stream) (read : ByteArray) : IO ByteArray := do
  let next ← stream.read 65536
  if next.isEmpty then return read else readRest stream (read ++ next)

/-- Carry out a request and print what comes of it. -/
def carryOut (request : Request) : IO UInt32 := do
  let file ← readGrammarFile (request.settings.grammar.getD "")
  let input ← if request.readsInput then readRest (← IO.getStdin) .empty else pure .empty
  let outcome := request.run file input
  IO.print outcome.output
  IO.eprint outcome.errors
  return outcome.exitCode.toUInt32

end ShiftReduce

open ShiftReduce CommandLine in
def main (arguments : List String) : IO UInt32 := do
  match Request.ofArguments arguments with
  | .ok request => carryOut request
  | .error .help => return 0
  | .error .version => IO.print versionText; return 0
  | .error (.refused fault) =>
      IO.eprintln (fault.message?.getD "error: invalid arguments")
      return 2
