import Descent.Pattern
import Descent.Text.Digit

/-!
The marks that a written pattern consists of: code points, classes, anchors, brackets, bars and
repetition counts.
-/

set_option autoImplicit false
set_option relaxedAutoImplicit false

namespace Descent.Pattern

/-- How a written pattern is to be taken. -/
structure Options where
  /-- A letter of ASCII stands for both of its cases. -/
  ignoreCase : Bool := false
  /-- The anchors for start and end hold at every line. -/
  multiLine : Bool := false
  /-- The point matches a line feed too. -/
  dotAll : Bool := false
  /-- White space and comments do not count. -/
  verbose : Bool := false
  /-- The classes of digits, words and spaces are those of ASCII. -/
  ascii : Bool := false

/-- One mark of a written pattern. -/
inductive Mark where
  | one (holds : Code → Bool)
  | anchor (a : Anchor)
  | back (number : Nat) (fold : Code → Code)
  | backNamed (name : Text) (fold : Code → Code)
  | openGroup (name : Option Text)
  | openPlain
  | openAhead (positive : Bool)
  | openBehind (positive : Bool)
  | bar
  | close
  | times (least : Nat) (most : Option Nat) (greedy : Bool)

namespace Options

/-- The other case of a letter of ASCII. -/
def otherCase (c : Code) : Code :=
  if 0x41 ≤ c.val ∧ c.val ≤ 0x5A then Code.ofNat (c.val + 0x20)
  else if 0x61 ≤ c.val ∧ c.val ≤ 0x7A then Code.ofNat (c.val - 0x20)
  else c

/-- A class, with both cases of its letters if case is ignored. -/
def widen (o : Options) (holds : Code → Bool) : Code → Bool :=
  if o.ignoreCase then fun c => holds c || holds (otherCase c) else holds

/-- How a code point is compared with what a group has matched. -/
def fold (o : Options) : Code → Code :=
  if o.ignoreCase then Code.asciiLower else id

/-- The digits. -/
def digit (o : Options) : Code → Bool :=
  if o.ascii then Code.isAsciiDigit else Code.isDecimal

/-- The word characters. -/
def word (o : Options) : Code → Bool :=
  if o.ascii then fun c => c.isAsciiLetter || c.isAsciiDigit || c == Code.ofChar '_' else Code.isWord

/-- White space. -/
def space (o : Options) : Code → Bool :=
  if o.ascii then Code.isAsciiSpace else Code.isSpace

/-- The class that a letter after a backslash names. -/
def namedClass? (o : Options) : Char → Option (Code → Bool)
  | 'd' => some o.digit
  | 'D' => some (!o.digit ·)
  | 'w' => some o.word
  | 'W' => some (!o.word ·)
  | 's' => some o.space
  | 'S' => some (!o.space ·)
  | _ => none

/-- The option of a letter switched on. -/
def set? (o : Options) : Char → Option Options
  | 'i' => some { o with ignoreCase := true }
  | 'm' => some { o with multiLine := true }
  | 's' => some { o with dotAll := true }
  | 'x' => some { o with verbose := true }
  | 'a' => some { o with ascii := true }
  | _ => none

/-- The options of several letters switched on. -/
def setAll? (o : Options) (letters : Text) : Option Options :=
  letters.foldlM (fun o c => o.set? c.toChar) o

end Options

/-- The value of digits in a base. -/
def valueIn (base : Nat) (digits : List Nat) : Nat :=
  digits.foldl (fun n d => base * n + d) 0

/-- A code point given by exactly this many hexadecimal digits. -/
def hexCode? (width : Nat) (t : Text) : Option (Code × Text) :=
  match (t.take width).mapM Code.hexValue? with
  | none => none
  | some digits =>
    let n := valueIn 16 digits
    if h : digits.length = width ∧ n < 0x110000 then some (⟨n, h.2⟩, t.drop width) else none

/-- The value of an octal digit. -/
def octalValue? (c : Code) : Option Nat :=
  if 0x30 ≤ c.val ∧ c.val ≤ 0x37 then some (c.val - 0x30) else none

/-- The octal digits at the start of a text, at most this many, and the rest. -/
def octalDigits : Nat → Text → List Nat × Text
  | 0, t => ([], t)
  | _ + 1, [] => ([], [])
  | n + 1, c :: rest =>
    match octalValue? c with
    | none => ([], c :: rest)
    | some d =>
      let (ds, t) := octalDigits n rest
      (d :: ds, t)

/-- A control character that a letter after a backslash names. -/
def namedControl? : Char → Option Code
  | 'a' => some (Code.ofChar '\x07')
  | 'f' => some (Code.ofChar '\x0c')
  | 'n' => some (Code.ofChar '\n')
  | 'r' => some (Code.ofChar '\r')
  | 't' => some (Code.ofChar '\t')
  | 'v' => some (Code.ofChar '\x0b')
  | _ => none

/-- The code point that follows a backslash by its number or its name, where no group is meant. -/
def escapedCode? (c : Code) (rest : Text) : Option (Code × Text) :=
  match c.toChar with
  | 'x' => hexCode? 2 rest
  | 'u' => hexCode? 4 rest
  | 'U' => hexCode? 8 rest
  | ch =>
    match namedControl? ch with
    | some control => some (control, rest)
    | none => if c.isAsciiLetter || c.isAsciiDigit then none else some (c, rest)

/-- What follows a backslash that starts with a digit other than zero: three octal digits are a code
point, and one or two decimal digits a group. -/
def digitEscape? (o : Options) (t : Text) : Option (Mark × Text) :=
  match octalDigits 3 t with
  | ([a, b, c], rest) =>
    let n := valueIn 8 [a, b, c]
    if n ≤ 0o377 then some (.one (o.widen (· == Code.ofNat n)), rest) else none
  | _ =>
    let digits := (t.take 2).takeWhile Code.isAsciiDigit
    some (.back (valueIn 10 (digits.map (·.val - 0x30))) o.fold, t.drop digits.length)

/-- The mark that follows a backslash. -/
def escape? (o : Options) : Text → Option (Mark × Text)
  | [] => none
  | c :: rest =>
    match c.toChar with
    | 'A' => some (.anchor .textStart, rest)
    | 'Z' => some (.anchor .textEnd, rest)
    | 'b' => some (.anchor (.wordEdge o.word), rest)
    | 'B' => some (.anchor (.notWordEdge o.word), rest)
    | '0' =>
      let (digits, after) := octalDigits 2 rest
      some (.one (o.widen (· == Code.ofNat (valueIn 8 digits))), after)
    | ch =>
      match o.namedClass? ch with
      | some holds => some (.one holds, rest)
      | none =>
        if c.isAsciiDigit then digitEscape? o (c :: rest)
        else (escapedCode? c rest).map fun (code, after) => (.one (o.widen (· == code)), after)

/-- A member of a class in square brackets. -/
inductive Member where
  | code (c : Code)
  | named (holds : Code → Bool)

/-- Reads a member of a class in square brackets. -/
def member? (o : Options) : Text → Option (Member × Text)
  | [] => none
  | c :: rest =>
    if c == Code.ofChar '\\' then
      match rest with
      | [] => none
      | e :: after =>
        match o.namedClass? e.toChar with
        | some holds => some (.named holds, after)
        | none =>
          if e == Code.ofChar 'b' then some (.code (Code.ofChar '\x08'), after)
          else
            match octalDigits 3 (e :: after) with
            | ([], _) => (escapedCode? e after).map fun (code, t) => (.code code, t)
            | (digits, t) =>
              let n := valueIn 8 digits
              if n ≤ 0o377 then some (.code (Code.ofNat n), t) else none
    else some (.code c, rest)

/-- The code points of a member. -/
def Member.holds (o : Options) : Member → Code → Bool
  | .code c => o.widen (· == c)
  | .named p => p

/-- Reads the members of a class up to the closing bracket; a bracket that comes first is a member.
The count bounds the members. -/
def members? (o : Options) : Nat → Bool → (Code → Bool) → Text → Option ((Code → Bool) × Text)
  | 0, _, _, _ => none
  | n + 1, first, found, t =>
    match t with
    | [] => none
    | c :: rest =>
      if c == Code.ofChar ']' && !first then some (found, rest)
      else
        match member? o t with
        | none => none
        | some (low, after) =>
          match after with
          | [] => none
          | d :: afterDash =>
            if d == Code.ofChar '-' then
              match afterDash with
              | [] => none
              | e :: afterEnd =>
                if e == Code.ofChar ']' then
                  some (fun x => found x || low.holds o x || x == Code.ofChar '-', afterEnd)
                else
                  match low, member? o afterDash with
                  | .code a, some (.code b, after) =>
                    if a ≤ b then
                      let within := o.widen fun x => decide (a ≤ x ∧ x ≤ b)
                      members? o n false (fun x => found x || within x) after
                    else none
                  | _, _ => none
            else members? o n false (fun x => found x || low.holds o x) after

/-- Reads a class after its opening bracket. -/
def class? (o : Options) (t : Text) : Option (Mark × Text) :=
  match t with
  | [] => none
  | c :: rest =>
    if c == Code.ofChar '^' then
      (members? o t.length true (fun _ => false) rest).map fun (p, after) => (.one (!p ·), after)
    else
      (members? o (t.length + 1) true (fun _ => false) t).map fun (p, after) => (.one p, after)

/-- A mark of a repetition and what follows it, where a question mark makes the repetition lazy. -/
def counted (least : Nat) (most : Option Nat) (t : Text) : Mark × Text :=
  match t with
  | [] => (.times least most true, [])
  | c :: rest =>
    if c == Code.ofChar '?' then (.times least most false, rest) else (.times least most true, t)

/-- The number that digits of ASCII denote, if there are any. -/
def number? (digits : Text) : Option Nat :=
  if digits.isEmpty then none else some (valueIn 10 (digits.map (·.val - 0x30)))

/-- Reads the bounds of a repetition after the opening brace; braces that hold no bounds are plain
code points, which is the inner `none`.  A greatest number below the least is refused. -/
def bounds? (t : Text) : Option (Option (Mark × Text)) :=
  let low := t.takeWhile Code.isAsciiDigit
  let afterLow := t.dropWhile Code.isAsciiDigit
  let comma := afterLow.head? == some (Code.ofChar ',')
  let afterComma := if comma then afterLow.drop 1 else afterLow
  let high := if comma then afterComma.takeWhile Code.isAsciiDigit else low
  let rest := if comma then afterComma.dropWhile Code.isAsciiDigit else afterLow
  match rest with
  | [] => some none
  | c :: after =>
    if c == Code.ofChar '}' && (comma || !low.isEmpty) then
      let least := (number? low).getD 0
      let most := number? high
      if most.any (· < least) then none else some (some (counted least most after))
    else some none

/-- The name of a group: a letter or a low line, then letters, digits and low lines. -/
def isName (t : Text) : Bool :=
  match t with
  | [] => false
  | c :: _ => t.all Code.isWord && !c.isDecimal

/-- A name and what follows the mark that closes it. -/
def name? (closing : Char) (t : Text) : Option (Text × Text) :=
  let name := t.takeWhile (· != Code.ofChar closing)
  match t.dropWhile (· != Code.ofChar closing) with
  | [] => none
  | _ :: rest => if isName name then some (name, rest) else none

/-- Reads what follows an opening bracket. -/
def opening? (o : Options) (t : Text) : Option (Mark × Text) :=
  match t with
  | q :: kind :: rest =>
    if q == Code.ofChar '?' then
      match kind.toChar with
      | ':' => some (.openPlain, rest)
      | '=' => some (.openAhead true, rest)
      | '!' => some (.openAhead false, rest)
      | '<' =>
        match rest with
        | [] => none
        | c :: after =>
          if c == Code.ofChar '=' then some (.openBehind true, after)
          else if c == Code.ofChar '!' then some (.openBehind false, after)
          else none
      | 'P' =>
        match rest with
        | [] => none
        | c :: after =>
          if c == Code.ofChar '<' then
            (name? '>' after).map fun (name, t) => (.openGroup (some name), t)
          else if c == Code.ofChar '=' then
            (name? ')' after).map fun (name, t) => (.backNamed name o.fold, t)
          else none
      | _ => none
    else some (.openGroup none, t)
  | [c] => if c == Code.ofChar '?' then none else some (.openGroup none, t)
  | [] => some (.openGroup none, t)

/-- The letters of options in brackets at the start of what follows an opening bracket. -/
def optionLetters? (t : Text) : Option (Text × Text) :=
  match t with
  | [] => none
  | q :: rest =>
    let letters := rest.takeWhile Code.isAsciiLetter
    match rest.dropWhile Code.isAsciiLetter with
    | [] => none
    | c :: after =>
      if q == Code.ofChar '?' && c == Code.ofChar ')' && !letters.isEmpty then some (letters, after)
      else none

/-- The marks of a written pattern.  Options in brackets count only at its start.  The count bounds
the steps. -/
def marksWithin (o : Options) (atStart : Bool) : Nat → Text → Option (List Mark)
  | _, [] => some []
  | 0, _ :: _ => none
  | n + 1, c :: rest =>
    let one (holds : Code → Bool) : Option (List Mark) :=
      (marksWithin o false n rest).map (.one holds :: ·)
    let mark (m : Mark) : Option (List Mark) := (marksWithin o false n rest).map (m :: ·)
    let goOn (step : Mark × Text) : Option (List Mark) :=
      (marksWithin o false n step.2).map (step.1 :: ·)
    if o.verbose && c.isAsciiSpace then marksWithin o atStart n rest
    else if o.verbose && c == Code.ofChar '#' then
      marksWithin o atStart n (rest.dropWhile (· != Code.ofChar '\n'))
    else
      match c.toChar with
      | '\\' => (escape? o rest).bind goOn
      | '[' => (class? o rest).bind goOn
      | '.' => one (if o.dotAll then fun _ => true else (· != Code.ofChar '\n'))
      | '^' => mark (.anchor (if o.multiLine then .lineStart else .textStart))
      | '$' => mark (.anchor (if o.multiLine then .lineEnd else .lastLineEnd))
      | '|' => mark .bar
      | ')' => mark .close
      | '*' => goOn (counted 0 none rest)
      | '+' => goOn (counted 1 none rest)
      | '?' => goOn (counted 0 (some 1) rest)
      | '{' =>
        match bounds? rest with
        | none => none
        | some none => one (o.widen (· == c))
        | some (some step) => goOn step
      | '(' =>
        match if atStart then optionLetters? rest else none with
        | some (letters, after) =>
          match o.setAll? letters with
          | none => none
          | some o => marksWithin o true n after
        | none => (opening? o rest).bind goOn
      | _ => one (o.widen (· == c))

/-- The marks of a written pattern. -/
def marks? (o : Options) (t : Text) : Option (List Mark) :=
  marksWithin o true t.length t

end Descent.Pattern
