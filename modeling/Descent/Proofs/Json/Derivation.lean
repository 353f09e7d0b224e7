import Descent.Proofs.Json.NumberValue
import Descent.Proofs.Json.StringLiteral
import Descent.Proofs.Text.Surrogates
import Descent.Proofs.Value.Dictionary

/-!
Which texts are JSON documents and what they denote, by derivations in a context free grammar.
White space and digits are those of any script, as the patterns have them.
-/

set_option autoImplicit false
set_option relaxedAutoImplicit false

namespace Descent.Json

/-- White space or nothing. -/
def IsSpaces (t : Text) : Prop :=
  ∀ c ∈ t, c.isSpace = true

/-- A mark with white space around it. -/
def IsMark (mark : Char) (t : Text) : Prop :=
  ∃ a b, IsSpaces a ∧ IsSpaces b ∧ t = a ++ Code.ofChar mark :: b

/-- A string with white space in front and a colon behind it, and the name that it denotes. -/
def IsKey (t name : Text) : Prop :=
  ∃ a body decoded m, IsSpaces a ∧ StringBody body decoded ∧ IsMark ':' m ∧
    t = a ++ (quote :: (body ++ [quote]) ++ m) ∧ name = decoded.joinPairs

/-- What derivations are about: a value with white space around it and one without, the values of
an array, a member of an object and all its members. -/
inductive Symbol where
  | value
  | bare
  | items
  | member
  | members

/-- What a text that is derived from a symbol denotes. -/
abbrev Symbol.Meaning : Symbol → Type
  | value => Value
  | bare => Value
  | items => List Value
  | member => Text × Value
  | members => List (Text × Value)

/-- The digits of an integer are not too many to be read. -/
def FitsLimit (whole : Text) : Prop :=
  whole.length ≤ Numeral.digitLimit

/-- A text is derived from a symbol and denotes something.  The digits of integers have to fit. -/
inductive Derives (fits : Text → Prop) : (s : Symbol) → Text → s.Meaning → Prop where
  | value {a t b : Text} {v : Value} :
    IsSpaces a → Derives fits .bare t v → IsSpaces b → Derives fits .value (a ++ (t ++ b)) v
  | null : Derives fits .bare (Text.ofString "null") .null
  | true : Derives fits .bare (Text.ofString "true") (.bool true)
  | false : Derives fits .bare (Text.ofString "false") (.bool false)
  | integer {minus whole : Text} :
    IsMinus minus → IsWhole whole → fits whole →
    Derives fits .bare (minus ++ whole) (.int (integerValue minus whole))
  | float {minus whole fraction exponent : Text} {x : Float} :
    IsMinus minus → IsWhole whole → IsFraction fraction → IsExponent exponent →
    fraction ≠ [] ∨ exponent ≠ [] →
    Numeral.readFloat? (minus ++ (whole ++ (fraction ++ exponent))) = some x →
    Derives fits .bare (minus ++ (whole ++ (fraction ++ exponent))) (.float x)
  | string {body decoded : Text} :
    StringBody body decoded →
    Derives fits .bare (quote :: (body ++ [quote])) (.str decoded.joinPairs)
  | emptyArray {o c : Text} :
    IsMark '[' o → IsMark ']' c → Derives fits .bare (o ++ c) (.list [])
  | array {o t c : Text} {vs : List Value} :
    IsMark '[' o → Derives fits .items t vs → IsMark ']' c →
    Derives fits .bare (o ++ (t ++ c)) (.list vs)
  | emptyObject {o c : Text} :
    IsMark '\x7b' o → IsMark '\x7d' c → Derives fits .bare (o ++ c) (.dict [])
  | object {o t c : Text} {ms : List (Text × Value)} :
    IsMark '\x7b' o → Derives fits .members t ms → IsMark '\x7d' c →
    Derives fits .bare (o ++ (t ++ c)) (.dict ((Value.dictionary ms).map Value.textEntry))
  | item {t : Text} {v : Value} :
    Derives fits .value t v → Derives fits .items t [v]
  | items {t m u : Text} {v : Value} {vs : List Value} :
    Derives fits .value t v → IsMark ',' m → Derives fits .items u vs →
    Derives fits .items (t ++ (m ++ u)) (v :: vs)
  | member {a body decoded m t : Text} {v : Value} :
    IsSpaces a → StringBody body decoded → IsMark ':' m → Derives fits .value t v →
    Derives fits .member (a ++ (quote :: (body ++ [quote]) ++ (m ++ t))) (decoded.joinPairs, v)
  | lastMember {t : Text} {e : Text × Value} :
    Derives fits .member t e → Derives fits .members t [e]
  | members {t m u : Text} {e : Text × Value} {es : List (Text × Value)} :
    Derives fits .member t e → IsMark ',' m → Derives fits .members u es →
    Derives fits .members (t ++ (m ++ u)) (e :: es)

/-- What is derived is derived with weaker conditions on the digits. -/
theorem Derives.mono {fits fits' : Text → Prop} {s : Symbol} {t : Text} {m : s.Meaning}
    (h : Derives fits s t m) (hfits : ∀ w, fits w → fits' w) : Derives fits' s t m := by
  induction h with
  | value ha _ hb ih => exact .value ha ih hb
  | null => exact .null
  | true => exact .true
  | false => exact .false
  | integer hminus hwhole hw => exact .integer hminus hwhole (hfits _ hw)
  | float hminus hwhole hfraction hexponent hsome hx =>
    exact .float hminus hwhole hfraction hexponent hsome hx
  | string hbody => exact .string hbody
  | emptyArray ho hc => exact .emptyArray ho hc
  | array ho _ hc ih => exact .array ho ih hc
  | emptyObject ho hc => exact .emptyObject ho hc
  | object ho _ hc ih => exact .object ho ih hc
  | item _ ih => exact .item ih
  | items _ hm _ iht ihu => exact .items iht hm ihu
  | member ha hbody hm _ ih => exact .member ha hbody hm ih
  | lastMember _ ih => exact .lastMember ih
  | members _ hm _ iht ihu => exact .members iht hm ihu

/-- A document: a value and nothing else. -/
def IsDocument (fits : Text → Prop) (t : Text) (v : Value) : Prop :=
  Derives fits .value t v

end Descent.Json
