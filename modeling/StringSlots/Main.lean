import StringSlots.Demo.Run

/-!
# The demo program

Runs the demo on the file that the first argument names, or on the built-in document.
-/

namespace StringSlots

/-- The words for a failure. -/
def failureText : DemoFailure → String
  | .malformedDocument => "the file is not a demo document"
  | .beyondInt32 => "out of range integral type conversion attempted"
  | .slots error => error.message

/-- Writes a transcript to both streams and answers the exit code. -/
def writeTranscript (transcript : Transcript) : IO UInt32 := do
  IO.print transcript.out
  IO.eprint transcript.err
  if let some failure := transcript.failure then
    IO.eprintln ("Error: " ++ failureText failure)
  return transcript.code.toUInt32

end StringSlots

open StringSlots in
/-- The exit code of the program; a file that cannot be read ends it as a failure does. -/
def main (arguments : List String) : IO UInt32 := do
  match arguments with
  | [] => writeTranscript DemoDocument.sample.run
  | path :: _ =>
      match ← (IO.FS.readBinFile path).toBaseIO with
      | .ok bytes => writeTranscript (DemoDocument.runBytes bytes.toList)
      | .error error =>
          IO.eprintln ("Error: " ++ error.toString)
          return 1
