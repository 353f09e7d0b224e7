import Descent.Json.Arguments
import Descent.Json.Reader
import Descent.Text.Utf8
import Descent.Value.Layout

/-!
The command that reads a JSON document and prints its value.
-/

set_option autoImplicit false
set_option relaxedAutoImplicit false

namespace Descent.Json

/-- Why the command gets no text. -/
inductive SourceFault where
  | noFile (path : Text)
  | isDirectory (path : Text)
  | undecodable

/-- What is said of a text that the command does not get. -/
def SourceFault.message? : SourceFault → Option Text
  | .noFile path => some (Text.ofString "[Errno 2] No such file or directory: " ++ path.quoted)
  | .isDirectory path => some (Text.ofString "[Errno 21] Is a directory: " ++ path.quoted)
  | .undecodable => none

/-- How the command ends. -/
inductive Ending where
  /-- It has done its work, with a status. -/
  | status (code : Nat)
  /-- The arguments made it stop, with a code. -/
  | leave (code : Nat)
  | noSource (f : SourceFault)
  | fault (f : Fault)

/-- What the command has done. -/
structure Report where
  ending : Ending
  out : Text
  err : Text

/-- The line that shows how the command is used. -/
def usageLine : Text :=
  Text.ofString "usage: python -m parcomb.json [-h] [--debug] [source_path]\n"

/-- The help of the command. -/
def helpText : Text :=
  usageLine ++ Text.ofString
    "\nParse a JSON document and print the resulting Python value.\n\npositional arguments:\n  source_path  path to input file (default: standard input)\n\noptions:\n  -h, --help   show this help message and exit\n  --debug      trace the parse on standard error\n"

/-- The files of the directory in which the command runs. -/
abbrev Directory := List (Text × List UInt8)

/-- The parts of a path that name something: not those that are empty or stay where they are. -/
def pathParts (path : Text) : List Text :=
  (path.splitOn (Code.ofChar '/')).filter fun part => !part.isEmpty && part != Text.ofString "."

/-- The bytes of a file of a directory. -/
def Directory.read (d : Directory) (path : Text) : Except SourceFault (List UInt8) :=
  if path.isEmpty then .error (.noFile path)
  else
    match pathParts path with
    | [] => .error (.isDirectory path)
    | [name] =>
      if name == Text.ofString ".." then .error (.isDirectory path)
      else
        match d.lookup name with
        | some bytes => .ok bytes
        | none => .error (.noFile path)
    | _ => .error (.noFile path)

/-- The text of bytes: UTF-8, with one spelling for all line ends. -/
def textOfBytes (bytes : List UInt8) : Except SourceFault Text :=
  match Text.ofUtf8? bytes with
  | some t => .ok t.unifyLineEnds
  | none => .error .undecodable

/-- Reads a text, with at most the given number of values inside each other, and reports its value,
or what is wrong with it. -/
def reportTextWithin (limit : Nat) (t : Text) (traced : Bool) : Report :=
  let r := readWithin limit t traced
  match r.ending with
  | .ok v => ⟨.status 0, v.pretty ++ [Code.ofChar '\n'], r.trace.text⟩
  | .error (.malformed position why) =>
    ⟨.status 1, [], r.trace.text ++ malformedMessage position why ++ [Code.ofChar '\n']⟩
  | .error (.fault f) => ⟨.fault f, [], r.trace.text⟩

/-- Does what the arguments ask for, with at most the given number of values inside each other;
`bytesOf` gives the bytes of a path, or of the standard input. -/
def runCommandWithin (limit : Nat) (arguments : List Text)
    (bytesOf : Option Text → Except SourceFault (List UInt8)) : Report :=
  match Reception.ofArguments arguments with
  | .help => ⟨.leave 0, helpText, []⟩
  | .refuse e =>
    ⟨.leave 2, [],
      usageLine ++ Text.ofString "python -m parcomb.json: error: " ++ e.message
        ++ [Code.ofChar '\n']⟩
  | .go a =>
    match (bytesOf a.source).bind textOfBytes with
    | .error f => ⟨.noSource f, [], []⟩
    | .ok t => reportTextWithin limit t a.traced

/-- Does what the arguments ask for. -/
def runCommand (arguments : List Text)
    (bytesOf : Option Text → Except SourceFault (List UInt8)) : Report :=
  runCommandWithin entryLimit arguments bytesOf

/-- Runs the command in a directory. -/
def runIn (directory : Directory) (stdin : List UInt8) (arguments : List Text) : Report :=
  runCommand arguments fun
    | none => .ok stdin
    | some path => directory.read path

end Descent.Json
