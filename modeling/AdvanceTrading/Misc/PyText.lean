import Mathlib.Algebra.Order.Floor.Ring
import Mathlib.Data.List.Basic
import Mathlib.Data.Rat.Floor

/-!
# Python numbers

Amounts are rationals: the modelled comparisons are on amounts of money and
counts, and no result here depends on how a float rounds.
-/

namespace AdvanceTrading

namespace Py

/-- The nearest integer, a tie to the even one. -/
def roundHalfEven (x : ℚ) : ℤ :=
  if x - ⌊x⌋ < 1 / 2 then ⌊x⌋
  else if 1 / 2 < x - ⌊x⌋ then ⌊x⌋ + 1
  else if ⌊x⌋ % 2 = 0 then ⌊x⌋ else ⌊x⌋ + 1

/-- `round(x, places)`. -/
def roundTo (places : Nat) (x : ℚ) : ℚ := roundHalfEven (x * 10 ^ places) / 10 ^ places

/-- `round(x, 2)`. -/
def round2 (x : ℚ) : ℚ := roundTo 2 x

/-- `value or 0.0` on an optional number. -/
def orZero (value : Option ℚ) : ℚ := value.getD 0

end Py

end AdvanceTrading

/-!
# Python text operations

The string methods the modelled code applies to identifiers, order tags and
sides. All of these texts are ASCII by construction, so `upper` and `strip`
are the ASCII parts of `str.upper` and `str.strip`; a character outside ASCII
is left as it is.
-/

namespace AdvanceTrading

namespace Py

/-- `str.upper` on ASCII text. -/
def upper (text : String) : String := String.ofList (text.toList.map Char.toUpper)

/-- `str.lower` on ASCII text. -/
def lower (text : String) : String := String.ofList (text.toList.map Char.toLower)

/-- The ASCII characters `str.strip` removes. -/
def isSpace (c : Char) : Bool :=
  c == ' ' || (9 ≤ c.toNat && c.toNat ≤ 13) || (28 ≤ c.toNat && c.toNat ≤ 31)

/-- `str.strip` on ASCII text. -/
def strip (text : String) : String :=
  String.ofList ((text.toList.dropWhile isSpace).reverse.dropWhile isSpace).reverse

/-- `pattern` matches the start of `text`, where `_` matches any one character
(SQL `LIKE pattern%`). -/
def likeStart : List Char → List Char → Bool
  | [], _ => true
  | _ :: _, [] => false
  | p :: ps, c :: cs => (p == '_' || p == c) && likeStart ps cs

/-- SQL `LIKE %pattern%`, which is what SQLAlchemy's `contains` sends. -/
def likeContains (pattern : List Char) : List Char → Bool
  | [] => likeStart pattern []
  | c :: cs => likeStart pattern (c :: cs) || likeContains pattern cs

end Py

end AdvanceTrading
