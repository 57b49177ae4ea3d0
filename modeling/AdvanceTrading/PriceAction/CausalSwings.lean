import AdvanceTrading.Misc.Scans
import Mathlib.Algebra.Order.Ring.Rat
import Mathlib.Data.List.Sort

/-!
# Causal swings

Model of `app/price_action/causal_swings.py:105-242`: the thresholds, the two
pivot cores, the pivots of a degree and what was known at a time. Prices are
rationals, instants microseconds. A frame is the list of its closed bars, so a
shorter frame has no bar to look ahead at.

`[i]` of a column is read where the source's loops keep `i` inside the frame;
a degree without a parameter and a fractal radius of zero are the errors the
source raises there.
-/

namespace AdvanceTrading.PriceAction

open Scan

/-- "H" or "L". -/
inductive SwingKind where
  | high
  | low
  deriving DecidableEq, Repr

/-- A closed bar of a frame. -/
structure SwingBar where
  timestamp : Int
  barEnd : Int
  open_ : ℚ
  high : ℚ
  low : ℚ
  close : ℚ
  deriving DecidableEq, Repr

/-- A frame: its closed bars, oldest first. -/
abbrev Frame := List SwingBar

/-- Column `high`. -/
def high (f : Frame) (i : Nat) : ℚ := (f[i]?.map SwingBar.high).getD 0

/-- Column `low`. -/
def low (f : Frame) (i : Nat) : ℚ := (f[i]?.map SwingBar.low).getD 0

/-- Column `close`. -/
def close (f : Frame) (i : Nat) : ℚ := (f[i]?.map SwingBar.close).getD 0

/-- `Pivot` (`causal_swings.py:30-40`). -/
structure Pivot where
  degree : Nat
  kind : SwingKind
  price : ℚ
  barIdx : Nat
  ts : Option Int
  confirmedIdx : Option Nat
  confirmedAt : Option Int
  status : String
  tf : String
  deriving DecidableEq, Repr

/-- `RawPivot`. -/
structure RawPivot where
  kind : SwingKind
  pivotBar : Nat
  confirmBar : Nat
  price : ℚ
  deriving DecidableEq, Repr

/-! ## Thresholds -/

/-- The true range of a bar; the first bar has no previous close. -/
def trueRange (f : Frame) (i : Nat) : ℚ :=
  match i with
  | 0 => high f 0 - low f 0
  | i + 1 => max (high f (i + 1) - low f (i + 1))
      (max |high f (i + 1) - close f i| |low f (i + 1) - close f i|)

/-- `atr` at bar `i` (`causal_swings.py:108-113`); `none` is its NaN. -/
def atr (f : Frame) (n i : Nat) : Option ℚ :=
  if i + 1 < n then none
  else some (((List.range n).map fun k => trueRange f (i - k)).sum / n)

/-- `swing_mode`. -/
inductive SwingMode where
  | atr
  | pct
  | fractal
  deriving DecidableEq, Repr

/-- The settings `degree_pivots` reads; `validate` keeps `atr_len` in 1 to 500. -/
structure SwingSettings where
  swingMode : SwingMode
  swingAtrMult : List ℚ
  swingPct : List ℚ
  swingFractalR : List Nat
  atrLen : Nat
  atrLen_pos : 0 < atrLen
  deriving DecidableEq, Repr

/-- A move back as far as the threshold; a bar without one confirms nothing (`t = np.inf`). -/
def movedBack (move : ℚ) : Option ℚ → Bool
  | none => false
  | some t => t ≤ move

/-! ## ZigZag -/

/-- `trend`: 0, 1 and -1. -/
inductive Trend where
  | undecided
  | rising
  | falling
  deriving DecidableEq, Repr

/-- What the loop of `zigzag_pivots` carries from bar to bar. -/
structure ZigzagState where
  trend : Trend := .undecided
  hi : Nat := 0
  lo : Nat := 0
  out : List RawPivot := []
  deriving DecidableEq, Repr

/-- The bar of the highest high of `a, …, b - 1`, the first of equals. -/
def highestBar (f : Frame) (a b : Nat) : Nat := argmax (high f) a b

/-- The bar of the lowest low of `a, …, b - 1`, the first of equals. -/
def lowestBar (f : Frame) (a b : Nat) : Nat := argmax (fun j => -low f j) a b

/-- One bar of the loop (`causal_swings.py:129-142`). -/
def zigzagStep (f : Frame) (thr : Nat → Option ℚ) (s : ZigzagState) (i : Nat) : ZigzagState :=
  let hi := if s.trend ≠ .falling ∧ high f s.hi ≤ high f i then i else s.hi
  let lo := if s.trend ≠ .rising ∧ low f i ≤ low f s.lo then i else s.lo
  if s.trend ≠ .falling ∧ hi < i ∧ movedBack (high f hi - low f i) (thr i) then
    { trend := .falling
      hi := hi
      lo := lowestBar f (hi + 1) (i + 1)
      out := s.out ++ [⟨.high, hi, i, high f hi⟩] }
  else if s.trend ≠ .rising ∧ lo < i ∧ movedBack (high f i - low f lo) (thr i) then
    { trend := .rising
      hi := highestBar f (lo + 1) (i + 1)
      lo := lo
      out := s.out ++ [⟨.low, lo, i, low f lo⟩] }
  else
    { s with hi := hi, lo := lo }

/-- The loop over bars `1, …, k`. -/
def zigzagLoop (f : Frame) (thr : Nat → Option ℚ) : Nat → ZigzagState
  | 0 => {}
  | k + 1 => zigzagStep f thr (zigzagLoop f thr k) (k + 1)

/-- `zigzag_pivots` (`causal_swings.py:120-143`). -/
def zigzagPivots (f : Frame) (thr : Nat → Option ℚ) : List RawPivot :=
  if f.length < 2 then [] else (zigzagLoop f thr (f.length - 1)).out

/-! ## Fractals -/

/-- Above the `r` highs before, and not below the `r` highs after. -/
def IsFractalHigh (f : Frame) (r j : Nat) : Prop :=
  (∀ k < r, high f (j - r + k) < high f j) ∧ ∀ k < r, high f (j + 1 + k) ≤ high f j

/-- Below the `r` lows before, and not above the `r` lows after. -/
def IsFractalLow (f : Frame) (r j : Nat) : Prop :=
  (∀ k < r, low f j < low f (j - r + k)) ∧ ∀ k < r, low f j ≤ low f (j + 1 + k)

instance (f : Frame) (r j : Nat) : Decidable (IsFractalHigh f r j) :=
  inferInstanceAs (Decidable (_ ∧ _))

instance (f : Frame) (r j : Nat) : Decidable (IsFractalLow f r j) :=
  inferInstanceAs (Decidable (_ ∧ _))

/-- The pivots bar `j` is, known at `j + r`. -/
def fractalAt (f : Frame) (r j : Nat) : List RawPivot :=
  (if IsFractalHigh f r j then [⟨.high, j, j + r, high f j⟩] else []) ++
    (if IsFractalLow f r j then [⟨.low, j, j + r, low f j⟩] else [])

/-- The sort key `(confirm_bar, pivot_bar)`. -/
def NotAfter (p q : RawPivot) : Prop :=
  p.confirmBar < q.confirmBar ∨ (p.confirmBar = q.confirmBar ∧ p.pivotBar ≤ q.pivotBar)

instance : DecidableRel NotAfter := fun _ _ => inferInstanceAs (Decidable (_ ∨ _))

/-- `fractal_pivots` (`causal_swings.py:146-155`). -/
def fractalPivots (f : Frame) (r : Nat) : List RawPivot :=
  ((List.range' r (f.length - 2 * r)).flatMap (fractalAt f r)).insertionSort NotAfter

/-- `p.price > px0 if p.kind == "H" else p.price < px0`. -/
def beyond (p : RawPivot) (price : ℚ) : Bool :=
  match p.kind with
  | .high => price < p.price
  | .low => p.price < price

/-- The opposite extreme of the bars between two pivots, known when the later one is. -/
def between (f : Frame) (last p : RawPivot) : RawPivot :=
  match p.kind with
  | .high =>
    let j := lowestBar f (last.pivotBar + 1) p.pivotBar
    ⟨.low, j, p.confirmBar, low f j⟩
  | .low =>
    let j := highestBar f (last.pivotBar + 1) p.pivotBar
    ⟨.high, j, p.confirmBar, high f j⟩

/-- One fractal pivot of `_alternating_fractals` (`causal_swings.py:164-181`). -/
def alternatingStep (f : Frame) (out : List RawPivot) (p : RawPivot) : List RawPivot :=
  match out.getLast? with
  | none => out ++ [p]
  | some last =>
    if p.kind ≠ last.kind then
      if last.pivotBar < p.pivotBar ∧ beyond p last.price then out ++ [p] else out
    else if ¬ beyond p last.price ∨ p.pivotBar ≤ last.pivotBar + 1 then out
    else out ++ [between f last p, p]

/-- `_alternating_fractals`. -/
def alternatingFractals (f : Frame) (r : Nat) : List RawPivot :=
  (fractalPivots f r).foldl (alternatingStep f) []

/-! ## Pivots of a degree -/

/-- What `degree_pivots` raises. -/
inductive SwingError where
  | indexError
  | emptyWindow
  deriving DecidableEq, Repr

/-- The threshold at bar `i` (`causal_swings.py:116-119`). -/
def threshold (f : Frame) (s : SwingSettings) (degree : Nat) : Except SwingError (Nat → Option ℚ) :=
  match s.swingMode with
  | .pct =>
    match s.swingPct[degree]? with
    | none => .error .indexError
    | some pct => .ok fun i => some (close f i * pct / 100)
  | _ =>
    match s.swingAtrMult[degree]? with
    | none => .error .indexError
    | some mult => .ok fun i => (atr f s.atrLen i).map fun range => mult * range

/-- The pivots as the mode finds them, before they are named. -/
def rawPivots (f : Frame) (s : SwingSettings) (degree : Nat) : Except SwingError (List RawPivot) :=
  match s.swingMode with
  | .fractal =>
    match s.swingFractalR[degree]? with
    | none => .error .indexError
    | some 0 => .error .emptyWindow
    | some r => .ok (alternatingFractals f r)
  | _ => (threshold f s degree).map (zigzagPivots f)

/-- A confirmed pivot of a frame. -/
def RawPivot.named (f : Frame) (degree : Nat) (tf : String) (p : RawPivot) : Pivot where
  degree := degree
  kind := p.kind
  price := p.price
  barIdx := p.pivotBar
  ts := f[p.pivotBar]?.map SwingBar.timestamp
  confirmedIdx := some p.confirmBar
  confirmedAt := f[p.confirmBar]?.map SwingBar.barEnd
  status := "confirmed"
  tf := tf

/-- `degree_pivots` (`causal_swings.py:188-197`). -/
def degreePivots (f : Frame) (degree : Nat) (s : SwingSettings) (tf : String) :
    Except SwingError (List Pivot) :=
  if f.length < 3 then .ok []
  else (rawPivots f s degree).map fun raw => raw.map (RawPivot.named f degree tf)

/-- `known_at` (`causal_swings.py:239-242`). -/
def knownAt (pivots : List Pivot) (t : Int) : List Pivot :=
  pivots.filter fun p => p.confirmedAt.any fun at_ => at_ ≤ t

end AdvanceTrading.PriceAction
