import Descent.Json.Command

/-!
The command line program: it reads a JSON document from a file or from the standard input and prints
its value.
-/

set_option autoImplicit false
set_option relaxedAutoImplicit false

namespace Descent

/-- The characters of a text, with the replacement character for a surrogate. -/
def Text.toStringLossy (t : Text) : String :=
  String.ofList (t.map fun c => if c.isSurrogate then '\uFFFD' else c.toChar)

/-- Reads all bytes of a stream, chunk by chunk. -/
partial def readAll (stream : IO.FS.Stream) (found : ByteArray) : IO ByteArray := do
  let chunk ← stream.read 65536
  if chunk.isEmpty then return found else readAll stream (found ++ chunk)

/-- The bytes of a file, or why there are none. -/
def readSource (path : Text) : IO (Except Json.SourceFault (List UInt8)) := do
  try
    return .ok (← IO.FS.readBinFile path.toStringLossy).toList
  catch e =>
    match e with
    | .inappropriateType .. => return .error (.isDirectory path)
    | _ => return .error (.noFile path)

end Descent

open Descent

/-- Runs the command on its arguments and gives the exit status. -/
def main (arguments : List String) : IO UInt32 := do
  let words := arguments.map Text.ofString
  let bytes ←
    match Json.Reception.ofArguments words with
    | .go ⟨some path, _⟩ => readSource path
    | .go ⟨none, _⟩ => (fun b => .ok b.toList) <$> readAll (← IO.getStdin) ByteArray.empty
    | _ => pure (.ok [])
  let report := Json.runCommand words fun _ => bytes
  (← IO.getStdout).putStr report.out.toStringLossy
  (← IO.getStderr).putStr report.err.toStringLossy
  match report.ending with
  | .status code | .leave code => return code.toUInt32
  | .noSource f =>
    (← IO.getStderr).putStrLn ((f.message?.getD []).toStringLossy)
    return 1
  | .fault f =>
    (← IO.getStderr).putStrLn ((f.message?.getD []).toStringLossy)
    return 1
