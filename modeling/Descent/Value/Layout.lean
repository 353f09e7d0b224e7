import Descent.Text.Lines
import Descent.Value.Printer

/-!
Values on lines of eighty columns.  What fits stays on its line; a list or a dictionary that does
not has its items on lines of their own, and a long text is cut at white space into quoted pieces.
-/

set_option autoImplicit false
set_option relaxedAutoImplicit false

namespace Descent.Value

/-- The number of columns of a line. -/
def lineWidth : Nat := 80

/-- The text by which an entry of a dictionary is sorted. -/
def sortText : Value → Text
  | .str t => t
  | v => v.shown

mutual

/-- The value with the entries of all dictionaries in the order of their keys. -/
def sorted : Value → Value
  | .list items => .list (sortedAll items)
  | .tuple items => .tuple (sortedAll items)
  | .dict entries =>
    .dict ((sortedEntries entries).mergeSort fun a b => Text.le (sortText a.1) (sortText b.1))
  | v => v

/-- The values, each sorted. -/
def sortedAll : List Value → List Value
  | [] => []
  | v :: rest => sorted v :: sortedAll rest

/-- The entries, each with its value sorted. -/
def sortedEntries : List (Value × Value) → List (Value × Value)
  | [] => []
  | (k, v) :: rest => (sorted k, sorted v) :: sortedEntries rest

end

/-- A line feed and spaces. -/
def newLine (indent : Nat) : Text :=
  Code.ofChar '\n' :: List.replicate indent (Code.ofChar ' ')

/-- The words of a text, each with the white space behind it; `word` holds, last first, what has been
read of the present one and `inSpace` says whether its white space has begun. -/
def wordsFrom (word : List Code) (inSpace : Bool) : Text → List Text
  | [] => if word.isEmpty then [] else [word.reverse]
  | c :: rest =>
    if c.isSpace then wordsFrom (c :: word) true rest
    else if inSpace then word.reverse :: wordsFrom [c] false rest
    else wordsFrom (c :: word) false rest

/-- The words of a text, each with the white space behind it. -/
def words (t : Text) : List Text :=
  wordsFrom [] false t

/-- Packs words into quoted pieces that fit a width; the last word has less room. -/
def packWords (room lastRoom : Nat) (current : Text) : List Text → List Text
  | [] => if current.isEmpty then [] else [current.quoted]
  | word :: rest =>
    let candidate := current ++ word
    let width := if rest.isEmpty then lastRoom else room
    if width < candidate.quoted.length then
      if current.isEmpty then packWords room lastRoom word rest
      else current.quoted :: packWords room lastRoom word rest
    else packWords room lastRoom candidate rest

/-- The quoted pieces of the lines of a text: a line that fits is one piece. -/
def pieces (room lastRoom : Nat) : List Text → List Text
  | [] => []
  | line :: rest =>
    let width := if rest.isEmpty then lastRoom else room
    (if line.quoted.length ≤ width then [line.quoted] else packWords room width [] (words line))
      ++ pieces room lastRoom rest

/-- A text that does not fit: its pieces below each other, in round brackets if asked for. -/
def brokenText (indent allowance : Nat) (inBrackets : Bool) (t : Text) : Text :=
  let indent := if inBrackets then indent + 1 else indent
  let allowance := if inBrackets then allowance + 1 else allowance
  let room := lineWidth - indent
  match pieces room (room - allowance) t.lines with
  | [] => t.quoted
  | [_] => t.quoted
  | parts =>
    let body := Text.join (newLine indent) parts
    if inBrackets then Text.ofString "(" ++ body ++ Text.ofString ")" else body

/-- The value fits between the columns on its left and those needed on its right. -/
def fits (indent allowance : Nat) (v : Value) : Bool :=
  v.shown.length + indent + allowance ≤ lineWidth

mutual

/-- The text of a value that starts at a column and has some columns of the line behind it. -/
def laidOut (indent allowance : Nat) : Value → Text
  | .str t =>
    if fits indent allowance (.str t) then t.quoted else brokenText indent allowance false t
  | .list items =>
    if fits indent allowance (.list items) then (Value.list items).shown
    else
      Text.ofString "[" ++ Text.join (Code.ofChar ',' :: newLine (indent + 1))
        (laidOutItems (indent + 1) (allowance + 1) items) ++ Text.ofString "]"
  | .dict entries =>
    if fits indent allowance (.dict entries) then (Value.dict entries).shown
    else
      Text.ofString "\x7b" ++ Text.join (Code.ofChar ',' :: newLine (indent + 1))
        (laidOutEntries (indent + 1) (allowance + 1) entries) ++ Text.ofString "\x7d"
  | v => v.shown

/-- The items of a list; the last one is followed by the closing brackets. -/
def laidOutItems (indent allowance : Nat) : List Value → List Text
  | [] => []
  | v :: rest =>
    laidOut indent (if rest.isEmpty then allowance else 1) v :: laidOutItems indent allowance rest

/-- The entries of a dictionary; the last one is followed by the closing brackets. -/
def laidOutEntries (indent allowance : Nat) : List (Value × Value) → List Text
  | [] => []
  | (k, v) :: rest =>
    let key := k.shown
    (key ++ Text.ofString ": "
        ++ laidOut (indent + key.length + 2) (if rest.isEmpty then allowance else 1) v)
      :: laidOutEntries indent allowance rest

end

/-- The text of a value on lines; a long text that is the whole value stands in round brackets. -/
def pretty (v : Value) : Text :=
  match v with
  | .str t => if fits 0 0 v then t.quoted else brokenText 0 0 true t
  | _ => laidOut 0 0 v.sorted

end Descent.Value
