import AdvanceTrading.PriceAction.CausalSwings

/-!
# Bars of the breakout screens

Model of the swings and the Dow trend of `app/screener/breakouts/screens.py`:
`Swing` and `zigzag_swings` (80-115), `Bars.swing_threshold` (189-199),
`Bars.pivots` (272-290) and `Bars.dow` (292-319). The thresholds are those of
`causal_swings`, which the source copies; a bar without one has infinity there.
-/

namespace AdvanceTrading.Breakouts

open PriceAction

/-- A confirmed swing as the screens read it. -/
structure Swing where
  kind : SwingKind
  price : ℚ
  barIdx : Nat
  confirmedIdx : Nat
  deriving DecidableEq, Repr

/-- The swing a pivot of the ZigZag is. -/
def Swing.ofPivot (p : RawPivot) : Swing where
  kind := p.kind
  price := p.price
  barIdx := p.pivotBar
  confirmedIdx := p.confirmBar

/-- `zigzag_swings`: `causal_swings.zigzag_pivots` line for line. -/
def zigzagSwings (f : Frame) (thr : Nat → Option ℚ) : List Swing := (zigzagPivots f thr).map Swing.ofPivot

/-- `Bars.swing_threshold`: `causal_swings.threshold` on the bars' arrays. -/
def swingThreshold (f : Frame) (degree : Nat) (s : SwingSettings) : Except SwingError (Nat → Option ℚ) :=
  threshold f s degree

/-- What `Bars.pivots` and `Bars.dow` raise. -/
inductive BarsError where
  | noSuchDegree (degree last : Nat)
  | swing (error : SwingError)
  | indexError
  deriving DecidableEq, Repr

/-- The swings of the mode, once the degree is one of the settings' and the frame is long enough. -/
def modeSwings (f : Frame) (degree : Nat) (s : SwingSettings) : Except SwingError (List Swing) :=
  if s.swingMode ≠ .fractal then
    (swingThreshold f degree s).map (zigzagSwings f)
  else
    (rawPivots f s degree).map fun raw => raw.map Swing.ofPivot

/-- `Bars.pivots` with the settings `s`. -/
def pivots (f : Frame) (degree : Nat) (s : SwingSettings) : Except BarsError (List Swing) :=
  if ¬ degree < s.swingAtrMult.length then .error (.noSuchDegree degree (s.swingAtrMult.length - 1))
  else if f.length < 3 then .ok []
  else (modeSwings f degree s).mapError .swing

/-! ## The Dow trend -/

/-- What a swing is against the one of its kind before it. -/
inductive SwingLabel where
  | hh
  | lh
  | hl
  | ll
  deriving DecidableEq, Repr

/-- "UP", "DOWN" and "RANGE". -/
inductive DowTrend where
  | up
  | down
  | range
  deriving DecidableEq, Repr

/-- `DOW_MIN_BARS`. -/
def DOW_MIN_BARS : List Nat := [40, 250, 600, 1200]

/-- What the loop of `Bars.dow` carries: `last`, `label` and `cur`. -/
structure DowState where
  lastHigh : Option ℚ := none
  lastLow : Option ℚ := none
  labelHigh : Option SwingLabel := none
  labelLow : Option SwingLabel := none
  cur : Option DowTrend := none
  deriving DecidableEq, Repr

/-- The label of a swing after one at `prev`; an equal swing does not extend the structure. -/
def labelled (kind : SwingKind) (prev price : ℚ) : SwingLabel :=
  match kind with
  | .high => if prev < price then .hh else .lh
  | .low => if price < prev then .ll else .hl

/-- The trend two labels read. -/
def trendOf (high low : SwingLabel) : DowTrend :=
  if high = .hh ∧ low = .hl then .up
  else if high = .lh ∧ low = .ll then .down
  else .range

/-- `cur` once both kinds are labelled. -/
def DowState.read (s : DowState) : DowState :=
  match s.labelHigh, s.labelLow with
  | some high, some low => { s with cur := some (trendOf high low) }
  | _, _ => s

/-- One swing confirmed by the bar (`screens.py:306-313`). -/
def DowState.swing (s : DowState) (pv : Swing) : DowState :=
  match pv.kind with
  | .high => ({ s with
      labelHigh := (s.lastHigh.map fun prev => labelled .high prev pv.price).or s.labelHigh
      lastHigh := some pv.price } : DowState).read
  | .low => ({ s with
      labelLow := (s.lastLow.map fun prev => labelled .low prev pv.price).or s.labelLow
      lastLow := some pv.price } : DowState).read

/-- `while k < len(piv) and int(piv[k].confirmed_idx) <= t`: the state after the swings known at `t`, and
the swings left. -/
def DowState.known (s : DowState) (t : Nat) : List Swing → DowState × List Swing
  | [] => (s, [])
  | pv :: rest => if pv.confirmedIdx ≤ t then (s.swing pv).known t rest else (s, pv :: rest)

/-- The trend on the bars `t, …`, as many as `bars`. -/
def dowFrom (s : DowState) (piv : List Swing) (t : Nat) : Nat → List (Option DowTrend)
  | 0 => []
  | bars + 1 =>
    let next := s.known t piv
    next.1.cur :: dowFrom next.1 next.2 (t + 1) bars

/-- The bars of the frame whose trend is not read. -/
def dowWarm (dowMinBars degree : Nat) : Except BarsError Nat :=
  if degree = 0 then .ok dowMinBars
  else match DOW_MIN_BARS[degree]? with
    | none => .error .indexError
    | some bars => .ok bars

/-- `Bars.dow`: `dowMinBars` is the parameter `dow_min_bars`. -/
def dow (f : Frame) (dowMinBars degree : Nat) (s : SwingSettings) : Except BarsError (List (Option DowTrend)) := do
  let piv ← pivots f degree s
  let out := dowFrom {} piv 0 f.length
  let warm ← dowWarm dowMinBars degree
  return (List.replicate (min f.length warm) none) ++ out.drop (min f.length warm)

end AdvanceTrading.Breakouts
