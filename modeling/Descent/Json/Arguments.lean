import Descent.Text.Digit
import Descent.Text.Quoted

/-!
The arguments of the command: at most one path, and options that may be shortened as long as only
one option can be meant.
-/

set_option autoImplicit false
set_option relaxedAutoImplicit false

namespace Descent.Json

/-- What the command is asked to do. -/
structure Arguments where
  source : Option Text := none
  traced : Bool := false

/-- The options. -/
inductive Flag where
  | help
  | debug
  deriving DecidableEq

namespace Flag

/-- An option in messages. -/
def name : Flag → Text
  | .help => Text.ofString "-h/--help"
  | .debug => Text.ofString "--debug"

/-- The long spellings. -/
def long : List (Text × Flag) :=
  [(Text.ofString "--help", .help), (Text.ofString "--debug", .debug)]

end Flag

/-- What one argument is: a path, an option with perhaps a value attached to it, or an unknown
option. -/
inductive Word where
  | path (t : Text)
  | long (f : Flag) (attached : Option Text)
  /-- The short spelling of the help option, with what is attached to it. -/
  | short (attached : Text)
  | unknown (t : Text)

/-- Why arguments are refused. -/
inductive ArgumentError where
  | ambiguous (t : Text) (options : List Text)
  | attached (f : Flag) (value : Text)
  | unrecognized (words : List Text)

/-- What an error of the arguments says. -/
def ArgumentError.message : ArgumentError → Text
  | .ambiguous t options =>
    Text.ofString "ambiguous option: " ++ t ++ Text.ofString " could match "
      ++ Text.join (Text.ofString ", ") options
  | .attached f value =>
    Text.ofString "argument " ++ f.name ++ Text.ofString ": ignored explicit argument "
      ++ value.quoted
  | .unrecognized words =>
    Text.ofString "unrecognized arguments: " ++ Text.join (Text.ofString " ") words

/-- How reading arguments ends. -/
inductive Reception where
  | go (a : Arguments)
  | help
  | refuse (e : ArgumentError)

/-- What stands before and behind the first equals sign. -/
def splitAtEquals (t : Text) : Text × Option Text :=
  match t.dropWhile (· != Code.ofChar '=') with
  | [] => (t, none)
  | _ :: value => (t.takeWhile (· != Code.ofChar '='), some value)

/-- Digits with at most one point among them, none of them missing behind the point. -/
def isUnsignedNumber (t : Text) : Bool :=
  match t.dropWhile Code.isDecimal with
  | [] => !t.isEmpty
  | c :: rest =>
    let closed := if rest.getLast? == some (Code.ofChar '\n') then rest.dropLast else rest
    if c == Code.ofChar '.' then !closed.isEmpty && closed.all Code.isDecimal
    else c == Code.ofChar '\n' && rest.isEmpty && t.head? != some c

/-- The long options that a spelling can stand for. -/
def longMatches (spelling : Text) : List (Text × Flag) :=
  Flag.long.filter fun (long, _) => long.startsWith spelling

/-- An argument with a minus sign in front that is no option is a path if it is a number or has a
space in it. -/
def unlisted (t : Text) : Word :=
  if isUnsignedNumber (t.drop 1) || t.contains (Code.ofChar ' ') then .path t else .unknown t

/-- What an argument is. -/
def Word.ofText (t : Text) : Except ArgumentError Word :=
  match t with
  | a :: b :: rest =>
    if a != Code.ofChar '-' then .ok (.path t)
    else if b == Code.ofChar '-' then
      let (spelling, attached) := splitAtEquals t
      match Flag.long.lookup spelling, longMatches spelling with
      | some f, _ => .ok (.long f attached)
      | none, [(_, f)] => .ok (.long f attached)
      | none, [] => .ok (unlisted t)
      | none, several => .error (.ambiguous t (several.map Prod.fst))
    else if b == Code.ofChar 'h' then .ok (.short rest)
    else .ok (unlisted t)
  | _ => .ok (.path t)

/-- What is attached to the short spelling of the help option is no value; it may be more short
options. -/
def shortHelp : Text → Reception
  | [] => .help
  | c :: rest =>
    if c == Code.ofChar '=' then .refuse (.attached .help rest)
    else if c == Code.ofChar '-' then .refuse (.attached .help (c :: rest))
    else if c == Code.ofChar 'h' then shortHelp rest
    else .help

/-- What has been read of the arguments: the path if its turn has come, and what is left over, the
latest first. -/
structure Progress where
  path : Option (Option Text) := none
  traced : Bool := false
  extra : List Text := []

/-- Takes a path; only the first one counts. -/
def Progress.takePath (p : Progress) (t : Text) : Progress :=
  match p.path with
  | none => { p with path := some (some t) }
  | some _ => { p with extra := t :: p.extra }

/-- The end of the arguments. -/
def Progress.finish (p : Progress) : Reception :=
  if p.extra.isEmpty then .go ⟨p.path.join, p.traced⟩
  else .refuse (.unrecognized p.extra.reverse)

/-- What follows the two minus signs that end the options.  They are left over themselves if the
path has been taken and does not stand right before them. -/
def Progress.takeRest (p : Progress) (afterPath : Bool) (rest : List Text) : Progress :=
  let p :=
    match p.path, rest with
    | none, [] => { p with path := some none }
    | none, _ => p
    | some _, _ => if afterPath then p else { p with extra := Text.ofString "--" :: p.extra }
  rest.foldl Progress.takePath p

/-- Takes the arguments in order, unless one of them ends the reading.  The flag says that the one
before was the path. -/
def Progress.take (p : Progress) (afterPath : Bool) :
    List Word → Except Reception (Progress × Bool)
  | [] => .ok (p, afterPath)
  | .path t :: words => (p.takePath t).take p.path.isNone words
  | .unknown t :: words => Progress.take { p with extra := t :: p.extra } false words
  | .long .debug none :: words => Progress.take { p with traced := true } false words
  | .long .help none :: _ => .error .help
  | .long f (some value) :: _ => .error (.refuse (.attached f value))
  | .short attached :: _ => .error (shortHelp attached)

/-- Reads the arguments of the command. -/
def Reception.ofArguments (arguments : List Text) : Reception :=
  let stop := Text.ofString "--"
  match (arguments.takeWhile (· != stop)).mapM Word.ofText with
  | .error e => .refuse e
  | .ok words =>
    match Progress.take {} false words with
    | .error r => r
    | .ok (p, afterPath) =>
      match arguments.dropWhile (· != stop) with
      | [] => p.finish
      | _ :: rest => (p.takeRest afterPath rest).finish

end Descent.Json
