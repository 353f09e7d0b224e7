import Descent.Number.Shortest
import Descent.Text.Quoted
import Descent.Value

/-!
The text of a value, as failures and traces show it.
-/

set_option autoImplicit false
set_option relaxedAutoImplicit false

namespace Descent.Value

/-- Texts with a comma and a space between them. -/
def commaSeparated (parts : List Text) : Text :=
  Text.join (Text.ofString ", ") parts

/-- Items between round brackets; a comma follows an item that stands alone. -/
def inRoundBrackets (parts : List Text) : Text :=
  match parts with
  | [one] => Text.ofString "(" ++ one ++ Text.ofString ",)"
  | _ => Text.ofString "(" ++ commaSeparated parts ++ Text.ofString ")"

mutual

/-- The text of a value; a text in it is quoted. -/
def shown : Value → Text
  | .null => Text.ofString "None"
  | .bool true => Text.ofString "True"
  | .bool false => Text.ofString "False"
  | .int i => Text.ofInt i
  | .float x => Shortest.text x
  | .str t => t.quoted
  | .list items => Text.ofString "[" ++ commaSeparated (shownAll items) ++ Text.ofString "]"
  | .tuple items => inRoundBrackets (shownAll items)
  | .dict entries =>
    Text.ofString "\x7b" ++ commaSeparated (shownEntries entries) ++ Text.ofString "\x7d"
  | .bytes data => Text.quotedBytes data
  | .absent => Text.ofString "ABSENT"

/-- The texts of several values. -/
def shownAll : List Value → List Text
  | [] => []
  | v :: rest => shown v :: shownAll rest

/-- The texts of the entries of a dictionary. -/
def shownEntries : List (Value × Value) → List Text
  | [] => []
  | (k, v) :: rest => (shown k ++ Text.ofString ": " ++ shown v) :: shownEntries rest

end

/-- The text of a value that stands inside a sentence: a text is not quoted. -/
def plain : Value → Text
  | .str t => t
  | v => shown v

end Descent.Value
