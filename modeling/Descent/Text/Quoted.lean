import Descent.Text.Printable

/-!
Quoted texts.  A quoted text stands between apostrophes, or between quotation marks if it holds an
apostrophe and no quotation mark; what cannot be shown is written with a backslash.
-/

set_option autoImplicit false
set_option relaxedAutoImplicit false

namespace Descent.Text

/-- The mark that a text is quoted with. -/
def quoteMark (t : Text) : Code :=
  if t.contains (Code.ofChar '\'') && !t.contains (Code.ofChar '"') then Code.ofChar '"'
  else Code.ofChar '\''

/-- One code point between the given marks. -/
def quoteCode (mark c : Code) : Text :=
  if c == mark || c == Code.ofChar '\\' then [Code.ofChar '\\', c]
  else if c == Code.ofChar '\n' then ofString "\\n"
  else if c == Code.ofChar '\r' then ofString "\\r"
  else if c == Code.ofChar '\t' then ofString "\\t"
  else if c.isPrintable then [c]
  else if c.val < 0x100 then ofString "\\x" ++ hex 2 c.val
  else if c.val < 0x10000 then ofString "\\u" ++ hex 4 c.val
  else ofString "\\U" ++ hex 8 c.val

/-- The text between marks, with escapes for what cannot be shown. -/
def quoted (t : Text) : Text :=
  let mark := quoteMark t
  mark :: (t.flatMap (quoteCode mark) ++ [mark])

/-- One byte between the given marks; bytes outside printable ASCII are escaped. -/
def quoteByte (mark : Code) (b : UInt8) : Text :=
  let c := Code.ofNat b.toNat
  if c == mark || c == Code.ofChar '\\' then [Code.ofChar '\\', c]
  else if c == Code.ofChar '\n' then ofString "\\n"
  else if c == Code.ofChar '\r' then ofString "\\r"
  else if c == Code.ofChar '\t' then ofString "\\t"
  else if 0x20 ≤ c.val ∧ c.val < 0x7F then [c]
  else ofString "\\x" ++ hex 2 c.val

/-- A byte string: the letter b and the quoted bytes. -/
def quotedBytes (bytes : List UInt8) : Text :=
  let mark := quoteMark (bytes.map fun b => Code.ofNat b.toNat)
  Code.ofChar 'b' :: mark :: (bytes.flatMap (quoteByte mark) ++ [mark])

end Descent.Text
