import AdvanceTrading.Misc.Numerals

/-!
# Whole numbers and instants as Python writes them

`str` of an optional whole number and `datetime.isoformat` of an instant in
UTC, as lists of characters. Both tell their arguments apart, and neither
writes the bar a join of texts can be split at.
-/

namespace AdvanceTrading.Py

/-- `str` of a whole number. -/
def strInt : ℤ → List Char
  | .ofNat n => Nat.toDigits 10 n
  | .negSucc n => '-' :: Nat.toDigits 10 (n + 1)

/-- `str` of a whole number or `None`. -/
def strOption : Option ℤ → List Char
  | none => ['N', 'o', 'n', 'e']
  | some n => strInt n

/-- A whole number to a least width, with zeros in front. -/
def padded (width n : ℕ) : List Char :=
  List.replicate (width - (Nat.toDigits 10 n).length) '0' ++ Nat.toDigits 10 n

/-! Digits of a `datetime` are numerals. -/

instance neZeroYear : NeZero 10000 := ⟨by decide⟩
instance neZeroMonth : NeZero 13 := ⟨by decide⟩
instance neZeroDay : NeZero 32 := ⟨by decide⟩
instance neZeroHour : NeZero 24 := ⟨by decide⟩
instance neZeroMinute : NeZero 60 := ⟨by decide⟩
instance neZeroMicrosecond : NeZero 1000000 := ⟨by decide⟩

/-- A `datetime`, in UTC. -/
structure DateTime where
  year : Fin 10000
  month : Fin 13
  day : Fin 32
  hour : Fin 24
  minute : Fin 60
  second : Fin 60
  microsecond : Fin 1000000
  deriving DecidableEq

/-- The fraction `isoformat` writes, if there is one. -/
def fraction (microsecond : Fin 1000000) : List Char :=
  if microsecond = 0 then [] else '.' :: padded 6 microsecond

/-- `isoformat` of a `datetime` without a time zone. -/
def isoformat (t : DateTime) : List Char :=
  padded 4 t.year ++ '-' :: padded 2 t.month ++ '-' :: padded 2 t.day ++
    'T' :: padded 2 t.hour ++ ':' :: padded 2 t.minute ++ ':' :: padded 2 t.second ++ fraction t.microsecond

example : isoformat ⟨2026, 11, 3, 9, 15, 0, 0⟩ = "2026-11-03T09:15:00".toList := by decide

example : isoformat ⟨2026, 11, 3, 9, 15, 0, 1500⟩ = "2026-11-03T09:15:00.001500".toList := by decide

/-! ## Numbers to a width -/

theorem digits_padded (width n : ℕ) : Digits (padded width n) :=
  (digits_zeros _).append (digits_toDigits n)

@[simp] theorem natOf_padded (width n : ℕ) : natOf (padded width n) = n := by
  rw [padded, natOf_append (digits_zeros _) (digits_toDigits n), natOf_zeros, natOf_toDigits]
  omega

theorem padded_inj {width n m : ℕ} (same : padded width n = padded width m) : n = m := by
  rw [← natOf_padded width n, same, natOf_padded]

theorem length_padded {width n : ℕ} (positive : 0 < width) (below : n < 10 ^ width) :
    (padded width n).length = width := by
  have fits : (Nat.toDigits 10 n).length ≤ width := (Nat.length_toDigits_le_iff (by decide) positive).mpr below
  rw [padded, List.length_append, List.length_replicate]
  omega

theorem ne_of_isDigit {c d : Char} (digit : c.isDigit = true) (other : d.isDigit = false) : c ≠ d := by
  rintro rfl
  rw [digit] at other
  cases other

theorem notMem_of_digits {text : List Char} {c : Char} (digits : Digits text) (other : c.isDigit = false) : c ∉ text :=
  fun mem => ne_of_isDigit (digits c mem) other rfl

/-! ## What is written -/

theorem strInt_inj {n m : ℤ} (same : strInt n = strInt m) : n = m := by
  -- A minus sign is no digit, so the signs agree.
  have sign (k l : ℕ) : Nat.toDigits 10 k ≠ '-' :: Nat.toDigits 10 l := by
    intro written
    have digit := digits_toDigits k '-' (written ▸ List.mem_cons_self)
    cases digit
  cases n with
  | ofNat n =>
    cases m with
    | ofNat m =>
      have values : natOf (Nat.toDigits 10 n) = natOf (Nat.toDigits 10 m) := congrArg natOf same
      rw [natOf_toDigits, natOf_toDigits] at values
      rw [values]
    | negSucc m => exact absurd same (sign n (m + 1))
  | negSucc n =>
    cases m with
    | ofNat m => exact absurd same.symm (sign m (n + 1))
    | negSucc m =>
      have values : natOf (Nat.toDigits 10 (n + 1)) = natOf (Nat.toDigits 10 (m + 1)) :=
        congrArg natOf (List.cons.inj same).2
      rw [natOf_toDigits, natOf_toDigits] at values
      rw [Nat.succ.inj values]

theorem mem_strInt {n : ℤ} {c : Char} (mem : c ∈ strInt n) : c = '-' ∨ c.isDigit = true := by
  cases n with
  | ofNat n => exact Or.inr (digits_toDigits n c mem)
  | negSucc n =>
    rcases List.mem_cons.mp mem with sign | digit
    · exact Or.inl sign
    · exact Or.inr (digits_toDigits _ c digit)

theorem strOption_inj {n m : Option ℤ} (same : strOption n = strOption m) : n = m := by
  have number (k : ℤ) : strOption none ≠ strInt k := by
    intro written
    have first : 'N' ∈ strInt k := by
      rw [← written]
      exact List.mem_cons_self
    rcases mem_strInt first with sign | digit
    · cases sign
    · cases digit
  cases n with
  | none =>
    cases m with
    | none => rfl
    | some m => exact absurd same (number m)
  | some n =>
    cases m with
    | none => exact absurd same.symm (number n)
    | some m => exact congrArg some (strInt_inj same)

theorem bar_notMem_strOption (n : Option ℤ) : '|' ∉ strOption n := by
  cases n with
  | none => decide
  | some n =>
    intro mem
    rcases mem_strInt mem with sign | digit
    · cases sign
    · cases digit

theorem fraction_inj {a b : Fin 1000000} (same : fraction a = fraction b) : a = b := by
  unfold fraction at same
  split_ifs at same with first second
  · rw [first, second]
  · exact Fin.ext (padded_inj (List.cons.inj same).2)

theorem bar_notMem_isoformat (t : DateTime) : '|' ∉ isoformat t := by
  have part (width n : ℕ) : '|' ∉ padded width n := notMem_of_digits (digits_padded width n) rfl
  have last : '|' ∉ fraction t.microsecond := by
    unfold fraction
    split_ifs
    · simp
    · simp [part]
  simp [isoformat, part, last]

theorem isoformat_inj {s t : DateTime} (same : isoformat s = isoformat t) : s = t := by
  -- Each part has one width, so equal texts are equal part by part.
  have part {width : ℕ} (positive : 0 < width) {n m : ℕ} {rest rest' : List Char} (below : n < 10 ^ width)
      (below' : m < 10 ^ width) (parts : padded width n ++ rest = padded width m ++ rest') : n = m ∧ rest = rest' := by
    obtain ⟨first, others⟩ :=
      List.append_inj parts ((length_padded positive below).trans (length_padded positive below').symm)
    exact ⟨padded_inj first, others⟩
  simp only [isoformat, List.append_assoc, List.cons_append] at same
  obtain ⟨year, same⟩ := part (by decide) (by omega) (by omega) same
  obtain ⟨month, same⟩ := part (by decide) (by omega) (by omega) (List.cons.inj same).2
  obtain ⟨day, same⟩ := part (by decide) (by omega) (by omega) (List.cons.inj same).2
  obtain ⟨hour, same⟩ := part (by decide) (by omega) (by omega) (List.cons.inj same).2
  obtain ⟨minute, same⟩ := part (by decide) (by omega) (by omega) (List.cons.inj same).2
  obtain ⟨second, same⟩ := part (by decide) (by omega) (by omega) (List.cons.inj same).2
  have microsecond := fraction_inj same
  cases s
  cases t
  simp only [DateTime.mk.injEq, Fin.ext_iff] at *
  exact ⟨year, month, day, hour, minute, second, microsecond⟩

/-! ## Joined texts -/

/-- A join can be split at its first separator, -/
theorem split_first {α : Type*} {sep : α} {a b rest rest' : List α} (bare : sep ∉ a)
    (bare' : sep ∉ b) (same : a ++ sep :: rest = b ++ sep :: rest') : a = b ∧ rest = rest' := by
  induction a generalizing b with
  | nil =>
    cases b with
    | nil => exact ⟨rfl, (List.cons.inj same).2⟩
    | cons c b => exact absurd (List.mem_cons.mpr (Or.inl (List.cons.inj same).1)) bare'
  | cons c a ih =>
    cases b with
    | nil => exact absurd (List.mem_cons.mpr (Or.inl (List.cons.inj same).1.symm)) bare
    | cons d b =>
      obtain ⟨rfl, later⟩ := List.cons.inj same
      obtain ⟨rfl, rests⟩ := ih (fun mem => bare (List.mem_cons_of_mem _ mem))
        (fun mem => bare' (List.mem_cons_of_mem _ mem)) later
      exact ⟨rfl, rests⟩

/-- and at its last one. -/
theorem split_last {α : Type*} {sep : α} {a b rest rest' : List α} (bare : sep ∉ rest)
    (bare' : sep ∉ rest') (same : a ++ sep :: rest = b ++ sep :: rest') : a = b ∧ rest = rest' := by
  have reversed : rest.reverse ++ sep :: a.reverse = rest'.reverse ++ sep :: b.reverse := by
    simpa using congrArg List.reverse same
  obtain ⟨rests, firsts⟩ := split_first (by simpa using bare) (by simpa using bare') reversed
  exact ⟨List.reverse_inj.mp firsts, List.reverse_inj.mp rests⟩

end AdvanceTrading.Py

/-!
# Numbers in the general format

`f"{x:g}"`: six significant digits, trailing zeros dropped, with an exponent where
the number is too small or too large for them.
-/

namespace AdvanceTrading.Py

/-- The six significant digits of a number above zero and the exponent of the first of them. -/
def significant (x : ℚ) : ℕ × ℤ :=
  let e := Int.log 10 x
  let digits := (roundHalfEven (x / 10 ^ (e - 5))).toNat
  if digits = 10 ^ 6 then (10 ^ 5, e + 1) else (digits, e)

/-- Digits without the zeros at their end. -/
def stripZeros (digits : List Char) : List Char := (digits.reverse.dropWhile (· = '0')).reverse

/-- A whole part with the fraction that is left of it. -/
def pointed (whole fraction : List Char) : List Char :=
  let kept := stripZeros fraction
  if kept.isEmpty then whole else whole ++ '.' :: kept

/-- `f"{x:g}"` of a number above zero. -/
def showPositive (x : ℚ) : List Char :=
  let (digits, e) := significant x
  let text := padded 6 digits
  if e < -4 ∨ 6 ≤ e then
    pointed (text.take 1) (text.drop 1) ++ 'e' :: (if e < 0 then '-' else '+') :: padded 2 e.natAbs
  else if e < 0 then pointed ['0'] (List.replicate (-e - 1).toNat '0' ++ text)
  else pointed (text.take (e.toNat + 1)) (text.drop (e.toNat + 1))

/-- `f"{x:g}"`. -/
def showGeneral (x : ℚ) : List Char :=
  if x = 0 then ['0'] else if x < 0 then '-' :: showPositive (-x) else showPositive x

end AdvanceTrading.Py
