import Mathlib.Data.Int.ConditionallyCompleteOrder
import Mathlib.Order.Monotone.Basic
import Mathlib.Tactic.IntervalCases
import Mathlib.Tactic.Ring

/-!
# Calendar months

Days and months of the Gregorian calendar. Days are counted from 1 January 1970;
a month is twelve times its year plus its place in the year, counted from zero.
-/

namespace AdvanceTrading

namespace Months

def IsLeap (year : Int) : Prop := year % 4 = 0 ∧ (year % 100 ≠ 0 ∨ year % 400 = 0)

instance (year : Int) : Decidable (IsLeap year) := inferInstanceAs (Decidable (_ ∧ _))

/-- The day 1 January of a year falls on. -/
def yearStart (year : Int) : Int :=
  365 * year + (year - 1) / 4 - (year - 1) / 100 + (year - 1) / 400 - 719527

/-- The days of a common year before one of its months. -/
def daysBefore : Nat → Int
  | 0 => 0
  | 1 => 31
  | 2 => 59
  | 3 => 90
  | 4 => 120
  | 5 => 151
  | 6 => 181
  | 7 => 212
  | 8 => 243
  | 9 => 273
  | 10 => 304
  | _ => 334

/-- The first day of a month. -/
def monthStart (month : Int) : Int :=
  yearStart (month / 12) + daysBefore (month % 12).toNat
    + if 2 ≤ month % 12 ∧ IsLeap (month / 12) then 1 else 0

/-- The month holding a day: the average month's guess, put right by at most one. -/
def monthOf (day : Int) : Int :=
  let guess := (day + 719528) * 4800 / 146097
  if day < monthStart guess then guess - 1
  else if monthStart (guess + 1) ≤ day then guess + 1
  else guess

/-- One calendar month on: the same day of the next month, or its last day. -/
def nextMonth (day : Int) : Int :=
  let month := monthOf day
  monthStart (month + 1)
    + min (day - monthStart month) (monthStart (month + 2) - monthStart (month + 1) - 1)

variable (month : Int)

/-- The parts of a month and of the one after it. -/
theorem month_cases : ∃ year : Int, ∃ place : Nat, place < 12 ∧ month = 12 * year + place := by
  refine ⟨month / 12, (month % 12).toNat, ?_, ?_⟩ <;> omega

theorem monthStart_eq (year : Int) {place : Nat} (inYear : place < 12) :
    monthStart (12 * year + place)
      = yearStart year + daysBefore place + if 2 ≤ place ∧ IsLeap year then 1 else 0 := by
  have isYear : (12 * year + place) / 12 = year := by omega
  have isPlace : (12 * year + place) % 12 = (place : Int) := by omega
  unfold monthStart
  rw [isYear, isPlace]
  simp

/-- A month is 28 to 31 days long. -/
theorem monthStart_succ :
    monthStart month + 28 ≤ monthStart (month + 1)
      ∧ monthStart (month + 1) ≤ monthStart month + 31 := by
  obtain ⟨year, place, inYear, rfl⟩ := month_cases month
  rw [monthStart_eq year inYear]
  by_cases last : place = 11
  · subst last
    have next : 12 * year + ((11 : Nat) : Int) + 1 = 12 * (year + 1) + ((0 : Nat) : Int) := by
      push_cast
      ring
    rw [next, monthStart_eq (year + 1) (by decide)]
    simp only [daysBefore]
    unfold yearStart IsLeap
    omega
  · have next : 12 * year + (place : Int) + 1 = 12 * year + ((place + 1 : Nat) : Int) := by
      push_cast
      ring
    rw [next, monthStart_eq year (by omega)]
    have small : place < 11 := by omega
    unfold IsLeap
    interval_cases place <;> simp only [daysBefore] <;> omega

theorem monthStart_strictMono : StrictMono monthStart :=
  strictMono_int_of_lt_succ fun month => by
    have length := (monthStart_succ month).1
    omega

/-- The first days of months keep near the average. -/
theorem monthStart_bounds :
    146097 * month - 24000 ≤ 4800 * (monthStart month + 719528)
      ∧ 4800 * (monthStart month + 719528) ≤ 146097 * month + 24000 := by
  obtain ⟨year, place, inYear, rfl⟩ := month_cases month
  rw [monthStart_eq year inYear]
  unfold yearStart
  interval_cases place <;> simp only [daysBefore] <;> split <;> omega

/-- A day is in its month. -/
theorem monthOf_spec (day : Int) :
    monthStart (monthOf day) ≤ day ∧ day < monthStart (monthOf day + 1) := by
  unfold monthOf
  generalize isGuess : (day + 719528) * 4800 / 146097 = guess
  obtain ⟨before, -⟩ := monthStart_bounds (guess + 2)
  obtain ⟨-, after⟩ := monthStart_bounds (guess - 1)
  simp only
  split
  · rename_i early
    rw [show guess - 1 + 1 = guess by omega]
    exact ⟨by omega, early⟩
  · rename_i notEarly
    split
    · rename_i late
      rw [show guess + 1 + 1 = guess + 2 by omega]
      exact ⟨late, by omega⟩
    · rename_i notLate
      exact ⟨not_lt.mp notEarly, not_le.mp notLate⟩

theorem monthOf_mono {d e : Int} (le : d ≤ e) : monthOf d ≤ monthOf e := by
  have start := (monthOf_spec d).1
  have stop := (monthOf_spec e).2
  have lt : monthStart (monthOf d) < monthStart (monthOf e + 1) := by omega
  exact Int.lt_add_one_iff.mp (monthStart_strictMono.lt_iff_lt.mp lt)

@[simp] theorem monthOf_monthStart : monthOf (monthStart month) = month := by
  obtain ⟨start, stop⟩ := monthOf_spec (monthStart month)
  have low := monthStart_strictMono.le_iff_le.mp start
  have high := monthStart_strictMono.lt_iff_lt.mp stop
  omega

/-- One month on from a first day is the next first day. -/
@[simp] theorem nextMonth_monthStart : nextMonth (monthStart month) = monthStart (month + 1) := by
  have length := (monthStart_succ (month + 1)).1
  rw [show month + 1 + 1 = month + 2 by omega] at length
  unfold nextMonth
  simp only [monthOf_monthStart]
  omega

theorem lt_nextMonth (day : Int) : day < nextMonth day := by
  obtain ⟨start, stop⟩ := monthOf_spec day
  have length := (monthStart_succ (monthOf day + 1)).1
  rw [show monthOf day + 1 + 1 = monthOf day + 2 by omega] at length
  unfold nextMonth
  simp only
  omega

end Months

end AdvanceTrading
