import QueryHighlight.CommandLine.Run

/-!
The command line program. Everything is decided by `CommandLine.run`; here texts are read and
written.
-/

namespace QueryHighlight.CommandLine

/-- Everything that is left in a stream. -/
partial def drainStream (stream : IO.FS.Stream) (content : ByteArray) : IO ByteArray := do
  let piece ← stream.read 65536
  if piece.isEmpty then return content
  drainStream stream (content ++ piece)

def readBytes : Source → IO ByteArray
  | .standardInput => do drainStream (← IO.getStdin) .empty
  | .file path => IO.FS.readBinFile path

/-- The reading failure that an error of the operating system stands for. -/
def failureOf : IO.Error → ReadFailure
  | .noFileOrDirectory .. => .notFound
  | .permissionDenied _ code details | .inappropriateType _ code details
  | .invalidArgument _ code details | .resourceExhausted _ code details
  | .alreadyExists _ code details | .noSuchThing _ code details => .system details code.toNat
  | .interrupted _ code details | .otherError code details | .resourceBusy code details
  | .resourceVanished code details | .hardwareFault code details
  | .unsupportedOperation code details => .system details code.toNat
  | other => .system (toString other) 0

def readSource (source : Source) : IO (Except ReadFailure String) := do
  try
    let content ← readBytes source
    match String.fromUTF8? content with
    | some text => return .ok text
    | none => return .error .invalidText
  catch failure => return .error (failureOf failure)

/-- The text of a source among those that have been read. -/
def lookUp (contents : List (Source × Except ReadFailure String)) : Reader := fun source =>
  (contents.lookup source).getD (.error .notFound)

def writeAll (stream : IO.FS.Stream) (text : String) : IO Unit := do
  stream.putStr text
  stream.flush

end QueryHighlight.CommandLine

open QueryHighlight.CommandLine in
def main (arguments : List String) : IO UInt32 := do
  let contents ← (sources arguments).mapM fun source => return (source, ← readSource source)
  let stdout ← IO.getStdout
  let outcome := run (lookUp contents) (← stdout.isTty) arguments
  let stderr ← IO.getStderr
  writeAll stderr outcome.stderr
  try
    writeAll stdout outcome.stdout
    return outcome.code.toUInt32
  catch failure =>
    writeAll stderr (Outcome.failure (.unwritable (toString failure))).stderr
    return 1
