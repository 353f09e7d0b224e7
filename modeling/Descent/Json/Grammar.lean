import Descent.Json.Literal
import Descent.Store

/-!
A grammar of JSON.  A value enters a cell that holds the grammar of values, since arrays and objects
have values in them.
-/

set_option autoImplicit false
set_option relaxedAutoImplicit false

namespace Descent.Json

open Grammar

/-- The grammar of a fixed text. -/
def word (s : String) : Grammar :=
  lit (.text (Text.ofString s))

/-- The grammar of a fixed text with white space around it. -/
def spacedWord (s : String) : Grammar :=
  spacedLit (.text (Text.ofString s))

/-- The word for nothing. -/
def null : Grammar :=
  replace (word "null") .null

/-- The words for the truth values. -/
def bool : Grammar :=
  either (replace (word "true") (.bool true)) (replace (word "false") (.bool false))

/-- Numbers. -/
def number : Grammar :=
  transform
    (cause
      (pattern (Text.ofString "-?(?:0|[1-9]\\d*)(?:\\.\\d+)?(?:[eE][+-]?\\d+)?") numberPattern)
      (Text.ofString "number"))
    (Value.onText · toNumber)

/-- Strings. -/
def string : Grammar :=
  transform
    (cause
      (pattern
        (Text.ofString "\"(?:[^\"\\\\\\x00-\\x1f]|\\\\[\"\\\\/bfnrt]|\\\\u[0-9a-fA-F]\x7b4\x7d)*\"")
        stringPattern)
      (Text.ofString "string"))
    (Value.onText · fun t => (unescape t).map .str)

/-- Arrays of what a cell holds. -/
def array (cell : CellId) : Grammar :=
  between (spacedWord "[") (sepBy0 (enter cell) (spacedWord ",")) (spacedWord "]")

/-- A name, a colon and a value. -/
def member (cell : CellId) : Grammar :=
  seq (left (right spaces string) (spacedWord ":")) (enter cell)

/-- Objects with values of what a cell holds. -/
def object (cell : CellId) : Grammar :=
  transform
    (between (spacedWord "\x7b") (sepBy0 (member cell) (spacedWord ",")) (spacedWord "\x7d"))
    Value.toDict

/-- What a cell of values holds: a value of any kind with white space around it. -/
def valueRule (cell : CellId) : Grammar :=
  between spaces
    (choiceOf (labelled (object cell) (Text.ofString "object"))
      (labelled (array cell) (Text.ofString "array"))
      [labelled string (Text.ofString "string"), labelled number (Text.ofString "number"),
        labelled bool (Text.ofString "bool"), labelled null (Text.ofString "null")])
    spaces

/-- A new cell of values, and the grammar that enters it. -/
def value (s : Store) : Grammar × Store :=
  let (cell, s) := s.allocate (some (valueRule s.size))
  (enter cell, s)

/-- A value and the end of the input, with a new cell of values. -/
def document (s : Store) : Grammar × Store :=
  let (g, s) := value s
  (left g eof, s)

end Descent.Json
