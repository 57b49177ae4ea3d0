import AdvanceTrading.Misc.Recent
import Mathlib.Algebra.Order.Ring.Rat

/-!
# The open interest signal

Model of the hysteresis of `app/option_chain/oi_regime.py:193-272` and of the stable
signal of `evaluate_snapshot` (lines 743-767) over a day's snapshots, each appended to
the history with its own signal. Totals are rationals. The banner's message, classes
and levels, which no signal reads, are left out.
-/

namespace AdvanceTrading.OIRegime

open Recent

/-- `Direction`. -/
inductive Direction where
  | bullish
  | bearish
  | neutral
  | mixed
  | sideways
  deriving DecidableEq, Repr

inductive Strength where
  | strong
  | weakening
  deriving DecidableEq, Repr

/-- `OISignal`. -/
structure OISignal where
  direction : Direction
  strength : Option Strength := none
  deriving DecidableEq, Repr

/-- What `OIRegimeSettings` accepts, of the fields the signal reads. -/
structure OIRegimeSettings where
  historyWindow : ℕ := 5
  lookbackForStrength : ℕ := 3
  confirmCount : ℕ := 3
  rotationMinChangePct : ℚ := 2
  structuralFlipMinRisePct : Option ℚ := some 2
  historyWindow_range : 1 ≤ historyWindow ∧ historyWindow ≤ 50 := by decide
  lookback_pos : 1 ≤ lookbackForStrength := by decide
  confirmCount_pos : 1 ≤ confirmCount := by decide
  rotation_nonneg : 0 ≤ rotationMinChangePct := by decide
  structural_nonneg : ∀ pct ∈ structuralFlipMinRisePct, 0 ≤ pct := by decide

/-- The totals of `ChainTotals` that the signal reads. -/
structure ChainTotals where
  totalPutOi : ℚ
  totalCallOi : ℚ
  deriving DecidableEq, Repr

def ChainTotals.diff (totals : ChainTotals) : ℚ := totals.totalPutOi - totals.totalCallOi

structure SnapshotPoint where
  diff : ℚ
  totalPutOi : ℚ
  totalCallOi : ℚ
  signal : OISignal
  deriving DecidableEq, Repr

def neutralSignal : OISignal := ⟨.neutral, none⟩

/-! ## Rotation -/

/-- A change in per cent. -/
def changePct (then_ now : ℚ) : ℚ := (now - then_) / then_ * 100

/-- `is_genuine_rotation`. -/
def isGenuineRotation (callNow callPrev putNow putPrev minChangePct : ℚ) : Option Direction :=
  if callPrev = 0 ∨ putPrev = 0 then none
  else
    let callChange := changePct callPrev callNow
    let putChange := changePct putPrev putNow
    if |callChange| < minChangePct ∨ |putChange| < minChangePct then none
    else if 0 < callChange ∧ putChange < 0 then some .bearish
    else if callChange < 0 ∧ 0 < putChange then some .bullish
    else none

/-- `rotation_confirmed_for_2_snapshots`, on calls and puts. -/
def rotationConfirmedFor2Snapshots (history : List (ℚ × ℚ)) (minChangePct : ℚ) : Option Direction :=
  match history.reverse with
  | z :: y :: x :: _ =>
      let first := isGenuineRotation y.1 x.1 y.2 x.2 minChangePct
      let second := isGenuineRotation z.1 y.1 z.2 y.2 minChangePct
      if first = second then first else none
  | _ => none

/-! ## Hysteresis -/

/-- The diff is on a direction's side; on no side's for a direction other than bullish and bearish is it positive. -/
def hasSign (direction : Direction) (diff : ℚ) : Bool :=
  if direction = .bullish then 0 < diff else diff < 0

/-- The diff has moved towards a direction's side. -/
def towards (direction : Direction) (a b : ℚ) : Bool :=
  if direction = .bullish then a < b else b < a

/-- The open interest of a direction's side. -/
def sideOi (direction : Direction) (put call : ℚ) : ℚ := if direction = .bullish then put else call

/-- The snapshot that strength is measured from. -/
def baseline (lookback : ℕ) (recent : List SnapshotPoint) : Option SnapshotPoint :=
  if lookback ≤ recent.length then recent[recent.length - lookback]? else recent.head?

def strengthOf (growing : Bool) : Strength := if growing then .strong else .weakening

/-- The reading of a diff by itself. -/
def rawSignal (lookback : ℕ) (diff putOi callOi : ℚ) (recent : List SnapshotPoint) : OISignal :=
  if 0 < diff then
    ⟨.bullish, some (strengthOf ((baseline lookback recent).any fun p => p.totalPutOi < putOi))⟩
  else if diff < 0 then
    ⟨.bearish, some (strengthOf ((baseline lookback recent).any fun p => p.totalCallOi < callOi))⟩
  else neutralSignal

/-- `prev_direction`. -/
def prevDirection (previous : OISignal) : Direction :=
  if previous.direction = .bullish ∨ previous.direction = .bearish then previous.direction else .neutral

/-- What is shown while a new reading is not confirmed. -/
def heldSignal (previous : OISignal) : OISignal :=
  if prevDirection previous ≠ .neutral then ⟨prevDirection previous, some .weakening⟩ else previous

/-- Consecutive diffs all moved towards a direction's side. -/
def allTowards (direction : Direction) : List ℚ → Bool
  | a :: b :: rest => towards direction a b && allTowards direction (b :: rest)
  | _ => true

/-- The rule of `structural_flip_min_rise_pct`. -/
def structuralFlip (confirmCount : ℕ) (structuralPct : Option ℚ) (direction : Direction)
    (diff putOi callOi : ℚ) (recent : List SnapshotPoint) : Bool :=
  match structuralPct, recent[recent.length - confirmCount]? with
  | some pct, some start =>
      if direction ≠ .neutral ∧ confirmCount ≤ recent.length then
        let sideThen := sideOi direction start.totalPutOi start.totalCallOi
        let sideNow := sideOi direction putOi callOi
        allTowards direction ((lastN confirmCount recent).map SnapshotPoint.diff ++ [diff]) &&
          decide (sideThen ≠ 0 ∧ pct ≤ changePct sideThen sideNow)
      else false
  | _, _ => false

/-- `compute_oi_signal_with_hysteresis`. -/
def computeOiSignalWithHysteresis (diff putOi callOi : ℚ) (recent : List SnapshotPoint)
    (lookbackForStrength confirmCount : ℕ) (rotationMinChangePct : ℚ) (structuralPct : Option ℚ) : OISignal :=
  let raw := rawSignal lookbackForStrength diff putOi callOi recent
  match recent.getLast? with
  | none => raw
  | some last =>
      let previous := last.signal
      if raw.direction = prevDirection previous then raw
      else if recent.length < confirmCount - 1 then heldSignal previous
      else
        let diffs := (lastN (confirmCount - 1) recent).map SnapshotPoint.diff ++ [diff]
        let rotation := rotationConfirmedFor2Snapshots
          ((lastN 2 recent).map (fun p => (p.totalCallOi, p.totalPutOi)) ++ [(callOi, putOi)]) rotationMinChangePct
        if diffs.all (hasSign raw.direction) ∧ rotation = some raw.direction then raw
        else if structuralFlip confirmCount structuralPct raw.direction diff putOi callOi recent then raw
        else heldSignal previous

/-- The stable signal of `evaluate_snapshot`. -/
def evaluateSnapshot (s : OIRegimeSettings) (current : ChainTotals) (history : List SnapshotPoint) : OISignal :=
  computeOiSignalWithHysteresis current.diff current.totalPutOi current.totalCallOi (lastN s.historyWindow history)
    s.lookbackForStrength s.confirmCount s.rotationMinChangePct s.structuralFlipMinRisePct

/-! ## A day's snapshots -/

/-- A snapshot as later ones read it (`snapshots.py:367`). -/
def point (s : OIRegimeSettings) (history : List SnapshotPoint) (totals : ChainTotals) : SnapshotPoint :=
  ⟨totals.diff, totals.totalPutOi, totals.totalCallOi, evaluateSnapshot s totals history⟩

/-- The history of a day's snapshots, each with its own signal. -/
def replay (s : OIRegimeSettings) (day : List ChainTotals) : List SnapshotPoint :=
  day.foldl (fun history totals => history ++ [point s history totals]) []

end AdvanceTrading.OIRegime
