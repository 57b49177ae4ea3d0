import AdvanceTrading.Misc.Binary64

/-!
# Numerals

Digits, numerals with a fraction and an exponent, what `float` reads of one, and
the numeral `repr` writes of a double. A digit is any Unicode decimal digit, as
`\d` and `float` read them; what is written is ASCII.
-/

namespace AdvanceTrading

namespace Py

/-! ## Characters -/

/-- The code points of the decimal digits zero (Unicode 15.1); each starts a run of ten. -/
def decimalZeros : List Nat :=
  [0x30, 0x660, 0x6f0, 0x7c0, 0x966, 0x9e6, 0xa66, 0xae6, 0xb66, 0xbe6, 0xc66, 0xce6, 0xd66, 0xde6,
    0xe50, 0xed0, 0xf20, 0x1040, 0x1090, 0x17e0, 0x1810, 0x1946, 0x19d0, 0x1a80, 0x1a90, 0x1b50,
    0x1bb0, 0x1c40, 0x1c50, 0xa620, 0xa8d0, 0xa900, 0xa9d0, 0xa9f0, 0xaa50, 0xabf0, 0xff10, 0x104a0,
    0x10d30, 0x11066, 0x110f0, 0x11136, 0x111d0, 0x112f0, 0x11450, 0x114d0, 0x11650, 0x116c0,
    0x11730, 0x118e0, 0x11950, 0x11c50, 0x11d50, 0x11da0, 0x11f50, 0x16a60, 0x16ac0, 0x16b50,
    0x1d7ce, 0x1d7d8, 0x1d7e2, 0x1d7ec, 0x1d7f6, 0x1e140, 0x1e2f0, 0x1e4f0, 0x1e950, 0x1fbf0]

/-- The value of a decimal digit. -/
def digitValue (c : Char) : Option Nat :=
  decimalZeros.findSome? fun base =>
    if base ≤ c.toNat ∧ c.toNat < base + 10 then some (c.toNat - base) else none

/-- `\d`. -/
def isDecimal (c : Char) : Bool := (digitValue c).isSome

/-- `\s`. -/
def isBlank (c : Char) : Bool :=
  let n := c.toNat
  (9 ≤ n && n ≤ 13) || (0x1c ≤ n && n ≤ 0x20) || n == 0x85 || n == 0xa0 || n == 0x1680 ||
    (0x2000 ≤ n && n ≤ 0x200a) || n == 0x2028 || n == 0x2029 || n == 0x202f || n == 0x205f || n == 0x3000

/-- Below 128 the decimal digits are the ASCII ones. -/
theorem digitValue_ascii {c : Char} (ascii : c.toNat < 128) :
    digitValue c = if 48 ≤ c.toNat ∧ c.toNat < 58 then some (c.toNat - 48) else none := by
  have later : ∀ base ∈ decimalZeros.tail, 128 ≤ base := by decide
  have none_later : decimalZeros.tail.findSome? (fun base =>
      if base ≤ c.toNat ∧ c.toNat < base + 10 then some (c.toNat - base) else none) = none := by
    rw [List.findSome?_eq_none_iff]
    intro base member
    have := later base member
    exact if_neg (by omega)
  unfold digitValue
  rw [show decimalZeros = 48 :: decimalZeros.tail from rfl, List.findSome?_cons, none_later]
  split
  · rename_i value found
    exact found.symm
  · rename_i missed
    exact missed.symm

theorem toNat_of_isDigit {c : Char} (digit : c.isDigit = true) : 48 ≤ c.toNat ∧ c.toNat < 58 := by
  simp only [Char.isDigit, Bool.and_eq_true, decide_eq_true_eq] at digit
  obtain ⟨low, high⟩ := digit
  have least : 48 ≤ c.toNat := UInt32.le_iff_toNat_le.mp low
  have most : c.toNat ≤ 57 := UInt32.le_iff_toNat_le.mp high
  omega

theorem digitValue_of_isDigit {c : Char} (digit : c.isDigit = true) :
    digitValue c = some (c.toNat - 48) := by
  have range := toNat_of_isDigit digit
  rw [digitValue_ascii (by omega), if_pos range]

theorem isDecimal_of_isDigit {c : Char} (digit : c.isDigit = true) : isDecimal c = true := by
  rw [isDecimal, digitValue_of_isDigit digit]
  rfl

/-! ## Whole numbers -/

/-- What `int` reads of decimal digits. -/
def natOf (text : List Char) : Nat :=
  text.foldl (fun n c => n * 10 + (digitValue c).getD 0) 0

/-- ASCII digits only. -/
def Digits (text : List Char) : Prop := ∀ c ∈ text, c.isDigit = true

theorem Digits.append {a b : List Char} (first : Digits a) (second : Digits b) : Digits (a ++ b) := by
  intro c member
  rcases List.mem_append.mp member with left | right
  · exact first c left
  · exact second c right

theorem digits_zeros (n : Nat) : Digits (List.replicate n '0') := by
  intro c member
  rw [List.eq_of_mem_replicate member]
  rfl

theorem digits_toDigits (n : Nat) : Digits (Nat.toDigits 10 n) := by
  intro c member
  exact Nat.isDigit_of_mem_toDigits (by decide) (by decide) member

theorem foldl_digits {text : List Char} (digits : Digits text) (start : Nat) :
    text.foldl (fun n c => n * 10 + (digitValue c).getD 0) start = Nat.ofDigitChars 10 text start := by
  induction text generalizing start with
  | nil => rfl
  | cons c rest ih =>
    have digit := digits c List.mem_cons_self
    rw [List.foldl_cons, Nat.ofDigitChars_cons, digitValue_of_isDigit digit,
      ih (fun d member => digits d (List.mem_cons_of_mem _ member))]
    congr 1
    rw [Nat.mul_comm]
    rfl

theorem natOf_eq {text : List Char} (digits : Digits text) :
    natOf text = Nat.ofDigitChars 10 text 0 := foldl_digits digits 0

@[simp] theorem natOf_toDigits (n : Nat) : natOf (Nat.toDigits 10 n) = n := by
  rw [natOf_eq (digits_toDigits n)]
  exact Nat.ofDigitChars_ten_toDigits

theorem natOf_append {a b : List Char} (first : Digits a) (second : Digits b) :
    natOf (a ++ b) = natOf a * 10 ^ b.length + natOf b := by
  rw [natOf_eq (first.append second), natOf_eq first, natOf_eq second, Nat.ofDigitChars_append,
    Nat.ofDigitChars_eq_ofDigitChars_zero, Nat.mul_comm]

@[simp] theorem natOf_zeros (n : Nat) : natOf (List.replicate n '0') = 0 := by
  rw [natOf_eq (digits_zeros n), Nat.ofDigitChars_replicate_zero, Nat.mul_zero]

/-! ## Numerals -/

/-- The parts of `\d+(\.\d+)?([eE][+-]?\d+)?`; an exponent has its sign and its digits. -/
structure Numeral where
  whole : List Char
  frac : List Char := []
  exp : Option (Bool × List Char) := none
  deriving DecidableEq, Repr

/-- The exponent of a numeral. -/
def Numeral.exponent (numeral : Numeral) : ℤ :=
  match numeral.exp with
  | none => 0
  | some (negative, digits) => if negative then -natOf digits else natOf digits

/-- The number a numeral stands for. -/
def Numeral.value (numeral : Numeral) : ℚ :=
  natOf (numeral.whole ++ numeral.frac) * 10 ^ (numeral.exponent - numeral.frac.length)

/-- `float` of a numeral. -/
def Numeral.read (numeral : Numeral) : Double := ofRat numeral.value

/-- A numeral as `repr` writes it. -/
def Numeral.text (numeral : Numeral) : List Char :=
  numeral.whole ++ (if numeral.frac = [] then [] else '.' :: numeral.frac) ++
    numeral.exp.elim [] fun (negative, digits) => 'e' :: (if negative then '-' else '+') :: digits

/-- An exponent has two digits at least. -/
def twoDigits (n : Nat) : List Char :=
  if n < 10 then '0' :: Nat.toDigits 10 n else Nat.toDigits 10 n

/-- The numeral of `digits` at `exponent`: with an exponent below 1e-4 and from 1e16 on, and with a
fraction otherwise. -/
def decimalNumeral (digits : Nat) (exponent : ℤ) : Numeral :=
  let text := Nat.toDigits 10 digits
  let point : ℤ := text.length + exponent
  if point ≤ -4 ∨ 16 < point then
    { whole := text.take 1, frac := text.drop 1,
      exp := some (decide (point - 1 < 0), twoDigits (point - 1).natAbs) }
  else if point ≤ 0 then { whole := ['0'], frac := List.replicate (-point).toNat '0' ++ text }
  else if text.length ≤ point then
    { whole := text ++ List.replicate (point - text.length).toNat '0', frac := ['0'] }
  else { whole := text.take point.toNat, frac := text.drop point.toNat }

/-- The numeral `repr` writes of a positive double. -/
def reprNumeral (x : Finite) (positive : 0 < x.value) : Numeral :=
  decimalNumeral (shortest x positive).1 (shortest x positive).2

end Py

end AdvanceTrading
