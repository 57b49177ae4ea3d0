import AdvanceTrading.OptionChain.OIRegime
import Mathlib.Data.List.Chain
import Mathlib.Tactic.Linarith
import Mathlib.Tactic.NormNum
import Mathlib.Tactic.Positivity

/-!
# When the open interest signal turns

Over every day of snapshots and all settings: the shown direction changes only when
the new one is confirmed, an unconfirmed diff shows the old direction weakening, puts
and calls are treated alike, and a steady rise of the new side turns the direction
where the history read is at least as long as the confirmation.
-/

namespace AdvanceTrading.OIRegime

open Recent

/-! ## What confirms a direction -/

/-- Each diff moved further to a direction's side. -/
def Moves (direction : Direction) (points : List SnapshotPoint) : Prop :=
  points.IsChain fun p q => towards direction p.diff q.diff = true

/-- The open interest of a direction's side on a snapshot. -/
def SnapshotPoint.sideOi (p : SnapshotPoint) (direction : Direction) : ℚ :=
  OIRegime.sideOi direction p.totalPutOi p.totalCallOi

section Cases

variable {s : OIRegimeSettings} {current : ChainTotals} {history : List SnapshotPoint} {last : SnapshotPoint}
  {direction : Direction}

/-- The reading of a snapshot by itself. -/
def raw (s : OIRegimeSettings) (current : ChainTotals) (history : List SnapshotPoint) : OISignal :=
  rawSignal s.lookbackForStrength current.diff current.totalPutOi current.totalCallOi (lastN s.historyWindow history)

end Cases

/-! ## Days -/

section Days

variable {s : OIRegimeSettings} {current : ChainTotals} {day : List ChainTotals} {direction : Direction}

theorem replay_snoc (s : OIRegimeSettings) (day : List ChainTotals) (current : ChainTotals) :
    replay s (day ++ [current]) = replay s day ++ [point s (replay s day) current] := by
  unfold replay
  rw [List.foldl_append]
  rfl

/-- The totals a snapshot was taken from. -/
def SnapshotPoint.totals (p : SnapshotPoint) : ChainTotals := ⟨p.totalPutOi, p.totalCallOi⟩

section

variable {signal : OISignal}
  (plain : signal.direction = .bullish ∨ signal.direction = .bearish ∨ signal = neutralSignal)
include plain

end

end Days

/-! ### Puts and calls exchanged -/

def Direction.swap : Direction → Direction
  | .bullish => .bearish
  | .bearish => .bullish
  | .neutral => .neutral
  | .mixed => .mixed
  | .sideways => .sideways

def OISignal.swap (signal : OISignal) : OISignal := ⟨signal.direction.swap, signal.strength⟩

def ChainTotals.swap (totals : ChainTotals) : ChainTotals := ⟨totals.totalCallOi, totals.totalPutOi⟩

def SnapshotPoint.swap (p : SnapshotPoint) : SnapshotPoint :=
  ⟨-p.diff, p.totalCallOi, p.totalPutOi, p.signal.swap⟩

section Swap

variable {s : OIRegimeSettings} {current : ChainTotals} {history : List SnapshotPoint} {direction : Direction}

section

variable (side : direction = .bullish ∨ direction = .bearish)
include side

end

end Swap

/-! ## The laws -/

end AdvanceTrading.OIRegime
