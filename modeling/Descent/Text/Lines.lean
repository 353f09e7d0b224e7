import Descent.Text.Space

/-!
Lines of a text: one spelling for all line ends, and the lines with their ends kept.
-/

set_option autoImplicit false
set_option relaxedAutoImplicit false

namespace Descent.Text

/-- Writes every line end as a line feed: a carriage return, alone or before a line feed, is one. -/
def unifyLineEnds : Text → Text
  | [] => []
  | [c] => if c == Code.ofChar '\r' then [Code.ofChar '\n'] else [c]
  | c :: d :: rest =>
    if c == Code.ofChar '\r' then
      if d == Code.ofChar '\n' then Code.ofChar '\n' :: unifyLineEnds rest
      else Code.ofChar '\n' :: unifyLineEnds (d :: rest)
    else c :: unifyLineEnds (d :: rest)

/-- The lines of a text, each with the line end that closes it; `line` holds, last first, what has
been read of the present one. -/
def linesFrom (line : List Code) : Text → List Text
  | [] => if line.isEmpty then [] else [line.reverse]
  | [c] => [(c :: line).reverse]
  | c :: d :: rest =>
    if c == Code.ofChar '\r' && d == Code.ofChar '\n' then
      (d :: c :: line).reverse :: linesFrom [] rest
    else if c.isLineEnd then (c :: line).reverse :: linesFrom [] (d :: rest)
    else linesFrom (c :: line) (d :: rest)

/-- The lines of a text with their line ends. -/
def lines (t : Text) : List Text :=
  linesFrom [] t

end Descent.Text
