import AdvanceTrading.Misc.Columns
import AdvanceTrading.PriceAction.CausalSwings

/-!
# Real breaks of a level

Model of `app/price_action/breaks.py:31-136`: the median range, time
acceptance, the first real break of a level and the first wick beyond it.
`none` is NaN in a median range. A search is given the number of bars it may
read: `end` is the last of them, and `while t <= end` is `t < m`.

The failed-retest hook is a parameter, as it is in the source.
-/

namespace AdvanceTrading.Breaks

open PriceAction Columns Earliest

/-- "below" or "above". -/
inductive Side where
  | below
  | above
  deriving DecidableEq, Repr

/-- `count_inv_basis`. -/
inductive InvBasis where
  | realBreak
  | wick
  deriving DecidableEq, Repr

/-- The settings that the breaks read. -/
structure Settings where
  medianRangeN : Nat := 20
  strengthMin : ℚ := 6 / 5
  breakBufferMr : ℚ := 1 / 4
  breakDisplacementConfirm : Bool := true
  breakCloseLoc : ℚ := 3 / 10
  breakNoReclaimBars : Nat := 1
  breakAcceptCloses : Nat := 0
  countInvBasis : InvBasis := .realBreak
  deriving DecidableEq, Repr

/-- `RetestFn`: the break candidate, the level, the side and `end` to the bar of a failed retest. -/
abbrev RetestFn := Nat → ℚ → Side → Nat → Option Nat

/-- `median_range`. -/
def medianRange (f : Frame) (n : Nat) : Nat → Option ℚ := priorMedian (fun i => high f i - low f i) n

/-- `_beyond`. -/
def beyond (close level buf : ℚ) : Side → Bool
  | .below => close < level - buf
  | .above => level + buf < close

/-- `_back_inside`. -/
def backInside (close level : ℚ) : Side → Bool
  | .below => level ≤ close
  | .above => close ≤ level

section Search

variable (f : Frame) (s : Settings) (level : ℚ) (side : Side)

/-- `time_accepted`: the `n` closes up to bar `t` are beyond the level, none before `start`. -/
def timeAccepted (n start t : Nat) : Bool :=
  decide (0 < n ∧ start + n ≤ t + 1) && (List.range' (t + 1 - n) n).all fun i => !backInside (close f i) level side

/-- A close beyond the level by the buffer; a bar without a median range is none. -/
def candidate (t : Nat) : Bool :=
  (medianRange f s.medianRangeN t).any fun m => beyond (close f t) level (s.breakBufferMr * m) side

/-- How far into its range a bar closes, from the end of the break. -/
def closeLoc (t : Nat) : ℚ :=
  match side with
  | .below => (close f t - low f t) / (high f t - low f t)
  | .above => (high f t - close f t) / (high f t - low f t)

/-- A strong bar that closes beyond the level by the buffer, at the end of the break. -/
def displaced (t : Nat) : Bool :=
  s.breakDisplacementConfirm && candidate f s level side t &&
    (medianRange f s.medianRangeN t).any fun m =>
      s.strengthMin * m ≤ high f t - low f t ∧ 0 < high f t - low f t ∧ closeLoc f side t ≤ s.breakCloseLoc

/-- How the bars after a candidate leave it. -/
inductive Verdict where
  | undecided
  | confirmed (bar : Nat)
  | reclaimed (bar : Nat)
  | held
  deriving DecidableEq, Repr

/-- The loop over the `left` bars after bar `j`, of the first `m` bars of the frame. -/
def followUp (start m : Nat) : Nat → Nat → Verdict
  | 0, _ => .held
  | left + 1, j =>
      if m ≤ j + 1 then .undecided
      else if timeAccepted f level side s.breakAcceptCloses start (j + 1) then .confirmed (j + 1)
      else if backInside (close f (j + 1)) level side then .reclaimed (j + 1)
      else if displaced f s level side (j + 1) then .confirmed (j + 1)
      else followUp start m left (j + 1)

/-- The loop of `first_real_break` over the first `m` bars, from bar `t` with the best failed retest so far.
Every turn goes on to a later bar. -/
def scan (retest : Option RetestFn) (start m : Nat) : Nat → Nat → Option Nat → Option Nat
  | 0, _, best => best
  | fuel + 1, t, best =>
      if m ≤ t then best
      else if best.any fun r => r < t then best
      else if timeAccepted f level side s.breakAcceptCloses start t then earlier (some t) best
      else if !candidate f s level side t then scan retest start m fuel (t + 1) best
      else if displaced f s level side t ∨ s.breakNoReclaimBars = 0 then earlier (some t) best
      else
        match followUp f s level side start m s.breakNoReclaimBars t with
        | .undecided => best
        | .confirmed j => earlier (some j) best
        | .held => earlier (some (t + s.breakNoReclaimBars)) best
        | .reclaimed j =>
            scan retest start m fuel (j + 1) (earlier (retest.bind fun fn => fn t level side (m - 1)) best)

/-- How many bars may be read up to bar `end`. -/
def upTo (end_ : Int) : Nat := min (end_ + 1).toNat f.length

/-- `first_real_break`. -/
def firstRealBreak (retest : Option RetestFn) (start : Int) (end_ : Int) : Option Nat :=
  scan f s level side retest start.toNat (upTo f end_) (upTo f end_) start.toNat none

/-- `first_wick_break`. -/
def firstWickBreak (start : Int) (end_ : Int) : Option Nat :=
  (List.range' start.toNat (upTo f end_ - start.toNat)).find? fun t =>
    match side with
    | .below => low f t < level
    | .above => level < high f t

end Search

end AdvanceTrading.Breaks
