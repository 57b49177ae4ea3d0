import AdvanceTrading.Misc.Dict
import Mathlib.Algebra.Order.Ring.Rat
import Mathlib.Data.List.MinMax

/-!
# The structure tracker

Model of `app/price_action/structure_tracker.py`: swings and their labels, the
trend states with their breaks, and sweeps, bar by bar. Prices are rationals. The
directions +1 and -1 of the source are `Direction`, its 0 is `none`; the states
come by direction and phase. A bar's six lists are one list of bars. What the
source asserts, and a minimum or maximum of nothing, is a `Fault`. The history of
reference ranges and the snapshot, which no step reads, are left out.
-/

namespace AdvanceTrading.StructureTracker

/-! ## Data -/

inductive Direction where
  | up
  | down
  deriving DecidableEq, Repr

/-- The columns of `_STATE_OF`. -/
inductive Phase where
  | base
  | pullback
  | weak
  deriving DecidableEq, Repr

inductive State where
  | init
  | range
  | trend (s : Direction) (phase : Phase)
  deriving DecidableEq, Repr

inductive Kind where
  | high
  | low
  deriving DecidableEq, Repr

inductive Label where
  | blank
  | hh | lh | eqh
  | hl | ll | eql
  deriving DecidableEq, Repr

/-- The wick a spike has. -/
inductive Spike where
  | up
  | down
  deriving DecidableEq, Repr

/-- `StructureConfig`; counts are natural numbers. -/
structure Config where
  refRangeBars : Nat := 20
  refRangeMinBars : Nat := 10
  pivotN : Dict String Nat := [("5m", 2), ("15m", 3), ("1h", 3), ("4h", 3), ("1d", 3)]
  swingK : Dict String ℚ := [("5m", 3 / 2), ("15m", 3 / 2), ("1h", 3 / 2), ("4h", 2), ("1d", 2)]
  eqTol : ℚ := 1 / 10
  pullbackK : ℚ := 1
  lhTol : ℚ := 1 / 10
  weakToRangeSwings : Int := 4
  rangeExitK : ℚ := 1 / 10
  initSwings : Nat := 4
  spikeWickK : ℚ := 5 / 2
  spikeBodyMax : ℚ := 3 / 10
  spikeReturnBars : Nat := 2
  spikeBodyEdge : Bool := true

structure Bar where
  barEnd : Int
  open_ : ℚ
  high : ℚ
  low : ℚ
  close : ℚ
  full : Bool := true
  deriving DecidableEq

structure Swing where
  kind : Kind
  idx : Nat
  time : Int
  price : ℚ
  confirmedIdx : Nat
  confirmedTime : Int
  label : Label := .blank
  spike : Bool := false
  deriving DecidableEq

/-- How a pivot was taken. -/
inductive Status where
  | added
  | replaced
  deriving DecidableEq, Repr

inductive EventType where
  | swing
  | sweep
  | choch
  | bos
  | pullbackEnd
  | pullbackStart
  | recovery
  | rangeStart
  | reversalConfirmed
  | initTrend
  | initRange
  | rangeExitUp
  | rangeExitDown
  deriving DecidableEq, Repr

/-- What else a change of state says. -/
inductive Change where
  | plain
  | protectedBroken (price : ℚ)
  | brokeSwing (idx : Option Nat)
  | recoveredAbove (price : ℚ)
  | rangeOf (high low : ℚ)
  | reversal (triggerBar : Int) (triggerIdx : Nat) (lhPrice : ℚ)
  deriving DecidableEq

/-- The details of an event. -/
inductive Details where
  | swing (kind : Kind) (label : Label) (swingIdx : Nat) (swingTime : Int) (status : Status)
      (spike : Bool)
  | sweep (side : Kind) (swingIdx : Nat)
  | change (fromState toState : State) (more : Change)
  deriving DecidableEq

structure Event where
  tf : String
  barIdx : Nat
  time : Int
  type : EventType
  price : ℚ
  state : State
  details : Details
  deriving DecidableEq

/-- An entry of `changes`. -/
structure StateChange where
  tf : String
  time : Int
  barIdx : Nat
  fromState : State
  state : State
  event : EventType
  price : ℚ
  protected_ : Option ℚ
  triggerBar : Int
  deriving DecidableEq

/-- What the tracker would raise. -/
inductive Fault where
  /-- An `assert` fails. -/
  | assertion
  /-- `_STATE_OF[0]`. -/
  | noDirection
  /-- `min` or `max` of an empty sequence. -/
  | emptySequence
  deriving DecidableEq, Repr

/-- `StructureTracker`; the swing of `lastSh` is `none` where the source keeps index -1. -/
structure Tracker where
  tf : String
  bars : List Bar := []
  effLo : List ℚ := []
  effHi : List ℚ := []
  ranges : List ℚ := []
  rr : Option ℚ := none
  swings : List Swing := []
  swept : List (Nat × Kind) := []
  state : State := .init
  s : Option Direction := none
  prot : Option ℚ := none
  ext : Option ℚ := none
  lastSh : Option (ℚ × Option Nat) := none
  lastShBroken : Bool := false
  rangeHi : Option ℚ := none
  rangeLo : Option ℚ := none
  weakExt : Option ℚ := none
  chochIdx : Option Nat := none
  lh : Option Swing := none
  weakMinSettled : Option ℚ := none
  weakSwingCount : Nat := 0
  events : List Event := []
  changes : List StateChange := []
  deriving DecidableEq

/-! ## Sequences -/

/-- `xs[a:b]`. -/
def slice {α : Type} (a b : Nat) (xs : List α) : List α := (xs.take b).drop a

/-- `xs[-n:]`. -/
def lastN {α : Type} (n : Nat) (xs : List α) : List α :=
  if n = 0 then xs else xs.drop (xs.length - n)

/-- `max`. -/
def maxOf (xs : List ℚ) : Except Fault ℚ := xs.max?.elim (.error .emptySequence) .ok

/-- `min`. -/
def minOf (xs : List ℚ) : Except Fault ℚ := xs.min?.elim (.error .emptySequence) .ok

/-- `np.median`, NaN of nothing. -/
def median (xs : List ℚ) : Option ℚ :=
  let sorted := xs.insertionSort (· ≤ ·)
  if xs.length % 2 = 1 then sorted[xs.length / 2]?
  else
    match sorted[xs.length / 2 - 1]?, sorted[xs.length / 2]? with
    | some a, some b => some ((a + b) / 2)
    | _, _ => none

/-- `ref_range_from_ranges`; NaN is `none`. -/
def refRangeFromRanges (ranges : List ℚ) (n minBars : Nat) : Option ℚ :=
  let arr := lastN (4 * n) ranges
  if arr.length < minBars then none else median (lastN n arr)

/-! ## Signed prices -/

namespace Direction

/-- A price times +1 or -1. -/
def signed (s : Direction) (price : ℚ) : ℚ :=
  match s with
  | up => price
  | down => -price

/-- The swings that are highs in this direction. -/
def highKind : Direction → Kind
  | up => .high
  | down => .low

def lowKind : Direction → Kind
  | up => .low
  | down => .high

def opposite : Direction → Direction
  | up => down
  | down => up

end Direction

namespace Tracker

variable (cfg : Config) (m : Tracker)

/-- `R`. -/
def radius : Nat := (cfg.pivotN.get m.tf).getD 3

/-- `k`. -/
def swingFactor : ℚ := (cfg.swingK.get m.tf).getD (3 / 2)

def open_ (i : Nat) : ℚ := (m.bars[i]?.map Bar.open_).getD 0

def high (i : Nat) : ℚ := (m.bars[i]?.map Bar.high).getD 0

def low (i : Nat) : ℚ := (m.bars[i]?.map Bar.low).getD 0

def close (i : Nat) : ℚ := (m.bars[i]?.map Bar.close).getD 0

def barEnd (i : Nat) : Int := (m.bars[i]?.map Bar.barEnd).getD 0

/-- The high of `_signed_bar`. -/
def signedHigh (s : Direction) (i : Nat) : ℚ :=
  match s with
  | .up => m.high i
  | .down => -m.low i

/-- The close of `_signed_bar`. -/
def signedClose (s : Direction) (i : Nat) : ℚ := s.signed (m.close i)

/-- The reference range, 0 for NaN: nothing is decided on either. -/
def refRange : ℚ := m.rr.getD 0

/-- `_tol`. -/
def tol (mult : ℚ) : ℚ := mult * m.refRange

/-! ## Events -/

/-- `_emit`. -/
def emit (t : Nat) (type : EventType) (price : ℚ) (details : Details) : Tracker :=
  { m with events := m.events ++ [⟨m.tf, t, m.barEnd t, type, price, m.state, details⟩] }

/-- `protected_level`. -/
def protectedLevel : Option ℚ :=
  match m.prot, m.s, m.state with
  | some prot, some s, .trend s' _ => if s' = s then some (s.signed prot) else none
  | _, _, _ => none

/-- The bar a change of state was triggered on. -/
def triggerBar (t : Nat) : Change → Int
  | .reversal bar _ _ => bar
  | _ => m.barEnd t

/-- `_set_state`. -/
def setState (t : Nat) (state : State) (type : EventType) (price : ℚ) (more : Change) : Tracker :=
  let old := m.state
  let m := { m with state := state }
  let m := m.emit t type price (.change old state more)
  if old = state then m
  else
    { m with changes := m.changes ++ [⟨m.tf, m.barEnd t, t, old, state, type, price, m.protectedLevel,
        m.triggerBar t more⟩] }

/-! ## Spikes -/

/-- `_spike_kind`. -/
def spikeKind (k upto : Nat) : Option Spike :=
  let bodyHi := max (m.open_ k) (m.close k)
  let bodyLo := min (m.open_ k) (m.close k)
  let window := List.range' (k + 1) (min (k + cfg.spikeReturnBars) upto - k)
  if m.refRange ≤ 0 then none
  else if m.high k - m.low k ≤ 0 then none
  else if cfg.spikeBodyMax * (m.high k - m.low k) < bodyHi - bodyLo then none
  else if m.low k ≤ bodyLo - cfg.spikeWickK * m.refRange ∧ m.high k - bodyHi ≤ bodyLo - m.low k ∧
      window.any fun j => bodyLo ≤ m.close j then some .down
  else if bodyHi + cfg.spikeWickK * m.refRange ≤ m.high k ∧ bodyLo - m.low k < m.high k - bodyHi ∧
      window.any fun j => m.close j ≤ bodyHi then some .up
  else none

/-- `_settle_spikes`. -/
def settleSpikes (t : Nat) : Tracker :=
  if t < cfg.spikeReturnBars ∨ cfg.spikeBodyEdge = false then m
  else
    let k := t - cfg.spikeReturnBars
    match m.spikeKind cfg k t with
    | some .down => { m with effLo := m.effLo.set k (min (m.open_ k) (m.close k)) }
    | some .up => { m with effHi := m.effHi.set k (max (m.open_ k) (m.close k)) }
    | none => m

/-! ## Swings -/

/-- `_is_pivot`. -/
def isPivot (p : Nat) (kind : Kind) : Except Fault Bool :=
  let r := m.radius cfg
  if p < r then .ok false
  else
    match kind with
    | .high => do
        let highs := m.bars.map Bar.high
        let top ← maxOf (slice (p - r) p highs)
        if top ≤ m.high p then
          let next ← maxOf (slice (p + 1) (p + r + 1) highs)
          return next < m.high p
        else return false
    | .low => do
        let lows := m.bars.map Bar.low
        let bottom ← minOf (slice (p - r) p lows)
        if m.low p ≤ bottom then
          let next ← minOf (slice (p + 1) (p + r + 1) lows)
          return m.low p < next
        else return false

/-- `_pivot_price`. -/
def pivotPrice (p : Nat) (kind : Kind) (t : Nat) : ℚ × Bool :=
  let spike := if cfg.spikeBodyEdge then m.spikeKind cfg p t else none
  match kind, spike with
  | .high, some .up => (max (m.open_ p) (m.close p), true)
  | .low, some .down => (min (m.open_ p) (m.close p), true)
  | .high, _ => (m.high p, false)
  | .low, _ => (m.low p, false)

/-- The last swing of a kind. -/
def lastOf (kind : Kind) (swings : List Swing) : Option Swing :=
  swings.reverse.find? fun sw => sw.kind = kind

/-- `_label`. -/
def label (kind : Kind) (price : ℚ) (swings : List Swing) : Label :=
  match lastOf kind swings with
  | none => .blank
  | some prev =>
      if |price - prev.price| ≤ m.tol cfg.eqTol then
        match kind with
        | .high => .eqh
        | .low => .eql
      else
        match kind with
        | .high => if prev.price < price then .hh else .lh
        | .low => if prev.price < price then .hl else .ll

/-- Of two swings of one kind the more extreme is kept. -/
def better (kind : Kind) (price last : ℚ) : Bool :=
  match kind with
  | .high => last < price
  | .low => price < last

/-- `_add_pivot`: no swing where the pivot is ignored. -/
def addPivot (p : Nat) (kind : Kind) (t : Nat) : Tracker × Option (Status × Swing) :=
  let (price, spike) := m.pivotPrice cfg p kind t
  let swing (swings : List Swing) : Swing :=
    ⟨kind, p, m.barEnd p, price, t, m.barEnd t, m.label cfg kind price swings, spike⟩
  match m.swings.getLast? with
  | none => ({ m with swings := m.swings ++ [swing m.swings] }, some (.added, swing m.swings))
  | some last =>
      if last.kind = kind then
        if better kind price last.price then
          let before := m.swings.dropLast
          ({ m with swings := before ++ [swing before] }, some (.replaced, swing before))
        else (m, none)
      else if |price - last.price| < m.swingFactor cfg * m.refRange then (m, none)
      else ({ m with swings := m.swings ++ [swing m.swings] }, some (.added, swing m.swings))

/-- A pivot of one kind, if bar `t - R` is one, with the event of its swing. -/
def takePivot (t : Nat) (kind : Kind) (taken : Tracker × List (Status × Swing)) :
    Except Fault (Tracker × List (Status × Swing)) := do
  let (m, new) := taken
  if t < 2 * m.radius cfg then return (m, new)
  let p := t - m.radius cfg
  if ← m.isPivot cfg p kind then
    match m.addPivot cfg p kind t with
    | (m, some (status, sw)) =>
        return (m.emit t .swing sw.price (.swing sw.kind sw.label p sw.time status sw.spike),
          new ++ [(status, sw)])
    | (m, none) => return (m, new)
  else return (m, new)

/-! ## Weak trends -/

/-- `_weak_lows`. -/
def weakLows (s : Direction) : List ℚ :=
  match s with
  | .up => m.effLo
  | .down => m.effHi.map fun x => -x

/-- `_weak_bookkeeping`. -/
def weakBookkeeping (t : Nat) (s : Direction) : Except Fault Tracker :=
  match m.chochIdx with
  | none => .error .assertion
  | some choch =>
      if choch + cfg.spikeReturnBars ≤ t then
        let v := ((m.weakLows s)[t - cfg.spikeReturnBars]?).getD 0
        .ok { m with weakMinSettled := some (m.weakMinSettled.elim v fun settled => min settled v) }
      else .ok m

/-- `_min_low_before`. -/
def minLowBefore (t : Nat) (s : Direction) (upto : Nat) : Except Fault (Option ℚ) :=
  match m.chochIdx with
  | none => .error .assertion
  | some start =>
      let settled := if start + cfg.spikeReturnBars ≤ t then m.weakMinSettled.toList else []
      let pendingFrom := max start (t + 1 - cfg.spikeReturnBars)
      let pending := if pendingFrom ≤ upto then slice pendingFrom (upto + 1) (m.weakLows s) else []
      .ok (settled ++ pending).min?

/-- `_catch_up_down`, from bar to bar. -/
def catchUpDown (m : Tracker) (s : Direction) (choch : Nat) : List Nat → Except Fault (Option Nat)
  | [] => .ok none
  | k :: rest =>
      if choch < k then do
        let floor ← minOf (slice choch k (m.weakLows s))
        if m.signedClose s k < floor then return some k else m.catchUpDown s choch rest
      else m.catchUpDown s choch rest

/-- The fields of the opposite trend, once `s` has broken `floor` on bar `trigger`. -/
def turned (t : Nat) (s : Direction) (trigger : Nat) (floor : ℚ) (lh : Swing) : Tracker :=
  let ns := s.opposite
  let last : Option Swing := lastOf s.lowKind m.swings
  { m with
    s := some ns
    prot := some (ns.signed lh.price)
    ext := some (((List.range' trigger (t + 1 - trigger)).map (m.signedHigh ns)).foldl max (-floor))
    lastSh := last.map fun sw : Swing => (ns.signed sw.price, some sw.idx)
    lastShBroken := last.elim true fun sw : Swing => ns.signed sw.price < m.signedClose ns t
    lh := none
    weakExt := none
    chochIdx := none }

/-- `_to_opposite`. -/
def toOpposite (t : Nat) (s : Direction) (trigger : Nat) : Except Fault Tracker :=
  match m.chochIdx, m.lh with
  | some choch, some lh => do
      let floor ← minOf (slice choch (max trigger (choch + 1)) (m.weakLows s))
      return (m.turned t s trigger floor lh).setState t (.trend s.opposite .base) .reversalConfirmed
        (s.signed floor) (.reversal (m.barEnd trigger) trigger lh.price)
  | _, _ => .error .assertion

/-- The loop of `_step_weak` over the bar's new swings: whether the trend has turned. -/
def weakSwings (t : Nat) (s : Direction) (weakExt : ℚ) (choch : Nat) :
    Tracker → List (Status × Swing) → Except Fault (Tracker × Bool)
  | m, [] => .ok (m, false)
  | m, (_, sw) :: rest =>
      if sw.idx ≤ choch then weakSwings t s weakExt choch m rest
      else
        let m := { m with weakSwingCount := m.weakSwingCount + 1 }
        if sw.kind = s.highKind ∧ s.signed sw.price < weakExt - m.tol cfg.lhTol then do
          let m := { m with lh := some sw }
          match ← m.catchUpDown s choch (List.range' (sw.idx + 1) (t - sw.idx)) with
          | some k => return (← m.toOpposite t s k, true)
          | none => weakSwings t s weakExt choch m rest
        else weakSwings t s weakExt choch m rest

/-- The close is below every low since the change of character. -/
def fallsBelow (t : Nat) (s : Direction) (choch : Nat) : Except Fault Bool :=
  if m.lh.isSome ∧ choch < t then
    (m.minLowBefore cfg t s (t - 1)).map fun floor => floor.any fun x => m.signedClose s t < x
  else .ok false

/-- The range of the last swings. -/
def recentRange : Except Fault (ℚ × ℚ) := do
  let recent := (lastN cfg.initSwings m.swings).map Swing.price
  return (← maxOf recent, ← minOf recent)

/-- The end of `_step_weak`: the trend turns, dissolves or stays weak. -/
def decideWeak (t : Nat) (s : Direction) (choch : Nat) : Except Fault Tracker := do
  if ← m.fallsBelow cfg t s choch then m.toOpposite t s t
  else if cfg.weakToRangeSwings ≤ m.weakSwingCount then
    let (hi, lo) ← m.recentRange cfg
    let m := { m with rangeHi := some hi, rangeLo := some lo }
    let m := m.setState t .range .rangeStart (m.close t) (.rangeOf hi lo)
    return { m with s := none, prot := none, ext := none }
  else return m

/-- The levels of a trend that has recovered. -/
def recovered (t : Nat) (s : Direction) (weakExt : ℚ) (floor : Option ℚ) : Tracker :=
  { m with
    ext := some (max weakExt (m.signedHigh s t))
    prot := floor.or m.prot
    lastSh := some (weakExt, none)
    lastShBroken := true }

/-- `_step_weak`. -/
def stepWeak (t : Nat) (s : Direction) (new : List (Status × Swing)) : Except Fault Tracker :=
  match m.weakExt, m.chochIdx with
  | some weakExt, some choch => do
      let m ← m.weakBookkeeping cfg t s
      if weakExt < m.signedClose s t then
        let floor ← m.minLowBefore cfg t s t
        return (m.recovered t s weakExt floor).setState t (.trend s .base) .recovery
          (s.signed (m.signedClose s t)) (.recoveredAbove (s.signed weakExt))
      else
        let (m, turned) ← weakSwings cfg t s weakExt choch m new
        if turned then return m else m.decideWeak cfg t s choch
  | _, _ => .error .assertion

/-! ## Trends -/

/-- The protected level and the last swing in the trend's direction. -/
structure Levels where
  prot : ℚ
  lastSh : Option (ℚ × Option Nat)
  lastShBroken : Bool

/-- A new swing in a trend. -/
def Levels.follow (s : Direction) (tol : ℚ) (levels : Levels) (entry : Status × Swing) : Levels :=
  let sw := entry.2
  let sp := s.signed sw.price
  if sw.kind = s.highKind then { levels with lastSh := some (sp, some sw.idx), lastShBroken := false }
  else if levels.prot - tol < sp then { levels with prot := sp }
  else levels

/-- The fields of a weak trend, at its change of character. -/
def weakened (t : Nat) (ext : ℚ) : Tracker :=
  { m with
    weakExt := some ext
    chochIdx := some t
    lh := none
    weakSwingCount := 0
    weakMinSettled := none }

/-- A close below the protected level. -/
def breakProtected (t : Nat) (s : Direction) (ext prot : ℚ) : Except Fault Tracker :=
  ((m.weakened t ext).setState t (.trend s .weak) .choch (s.signed prot)
    (.protectedBroken (s.signed prot))).weakBookkeeping cfg t s

/-- A close within a trend: a break of structure, or a pullback that ends or starts. -/
def withinTrend (t : Nat) (s : Direction) (prevExt ext : ℚ) : Tracker :=
  let c := m.signedClose s t
  match m.lastSh.filter fun sh => m.lastShBroken = false ∧ sh.1 < c with
  | some sh =>
      { m with lastShBroken := true }.setState t (.trend s .base) .bos (s.signed sh.1) (.brokeSwing sh.2)
  | none =>
      if m.state = .trend s .pullback ∧ prevExt < c then
        m.setState t (.trend s .base) .pullbackEnd (s.signed c) .plain
      else if m.state = .trend s .base ∧ c < ext - m.tol cfg.pullbackK then
        m.setState t (.trend s .pullback) .pullbackStart (s.signed c) .plain
      else m

/-- The extreme and the levels of a trend. -/
def withLevels (ext : ℚ) (levels : Levels) : Tracker :=
  { m with
    ext := some ext
    prot := some levels.prot
    lastSh := levels.lastSh
    lastShBroken := levels.lastShBroken }

/-- `_step` in a trend that is not weak. -/
def stepTrend (t : Nat) (s : Direction) (prevExt prot : ℚ) (new : List (Status × Swing)) :
    Except Fault Tracker :=
  let ext := max prevExt (m.signedHigh s t)
  let levels := new.foldl (Levels.follow s (m.tol cfg.eqTol)) ⟨prot, m.lastSh, m.lastShBroken⟩
  let m := m.withLevels ext levels
  if m.signedClose s t < levels.prot then m.breakProtected cfg t s ext levels.prot
  else .ok (m.withinTrend cfg t s prevExt ext)

/-! ## Before and between trends -/

/-- The last two of some swings, the last first. -/
def lastTwo (swings : List Swing) : Option (Swing × Swing) :=
  match swings.reverse with
  | last :: before :: _ => some (last, before)
  | _ => none

/-- The first trend: `prot` is its protected swing, `top` its last one in its own direction. -/
def firstTrend (t : Nat) (s : Direction) (prot top : Swing) : Except Fault Tracker := do
  let ext ← maxOf ((List.range' top.idx (t + 1 - top.idx)).map (m.signedHigh s))
  return { m with
    s := some s
    prot := some (s.signed prot.price)
    ext := some ext
    lastSh := some (s.signed top.price, some top.idx)
    lastShBroken := false }.setState t (.trend s .base) .initTrend (m.close t) .plain

/-- The first range. -/
def firstRange (t : Nat) : Except Fault Tracker := do
  let (hi, lo) ← m.recentRange cfg
  return { m with rangeHi := some hi, rangeLo := some lo }.setState t .range .initRange (m.close t)
    (.rangeOf hi lo)

/-- Both of two swings are above both before them, or below them. -/
def bothMove (tol : ℚ) (high highBefore low lowBefore : Swing) : Option Direction :=
  if highBefore.price + tol < high.price ∧ lowBefore.price + tol < low.price then some .up
  else if high.price < highBefore.price - tol ∧ low.price < lowBefore.price - tol then some .down
  else none

/-- `_try_init`. -/
def tryInit (t : Nat) : Except Fault Tracker :=
  if m.swings.length < cfg.initSwings then .ok m
  else
    let recent := lastN cfg.initSwings m.swings
    match lastTwo (recent.filter fun sw => sw.kind = .high),
        lastTwo (recent.filter fun sw => sw.kind = .low) with
    | some (high, highBefore), some (low, lowBefore) =>
        match bothMove (m.tol cfg.eqTol) high highBefore low lowBefore with
        | some .up => m.firstTrend t .up low high
        | some .down => m.firstTrend t .down high low
        | none => m.firstRange cfg t
    | _, _ => .ok m

/-- `_enter_trend`. -/
def enterTrend (t : Nat) (s : Direction) (protPrice : ℚ) (type : EventType) : Tracker :=
  { m with
    s := some s
    prot := some (s.signed protPrice)
    ext := some (m.signedHigh s t)
    lastSh := (lastOf s.highKind m.swings).map fun sw : Swing => (s.signed sw.price, some sw.idx)
    lastShBroken := true }.setState t (.trend s .base) type (m.close t) .plain

/-- The loop of `_step_range`: each new swing sets the range anew. -/
def widen : Tracker → List (Status × Swing) → Except Fault Tracker
  | m, [] => .ok m
  | m, _ :: rest => do
      let (hi, lo) ← m.recentRange cfg
      widen { m with rangeHi := some hi, rangeLo := some lo } rest

/-- `_step_range`. -/
def stepRange (t : Nat) (new : List (Status × Swing)) : Except Fault Tracker := do
  let m ← widen cfg m new
  match m.rangeHi, m.rangeLo with
  | some hi, some lo =>
      let tol := m.tol cfg.rangeExitK
      let climbs := (lastTwo (m.swings.filter fun sw => sw.kind = .low)).filter fun e =>
        hi + tol < m.close t ∧ e.2.price < e.1.price
      let falls := (lastTwo (m.swings.filter fun sw => sw.kind = .high)).filter fun e =>
        m.close t < lo - tol ∧ e.1.price < e.2.price
      match climbs, falls with
      | some e, _ => return m.enterTrend t .up e.1.price .rangeExitUp
      | none, some e => return m.enterTrend t .down e.1.price .rangeExitDown
      | none, none => return m
  | _, _ => .error .assertion

/-- `_step`. -/
def step (t : Nat) (new : List (Status × Swing)) : Except Fault Tracker :=
  match m.state with
  | .init => m.tryInit cfg t
  | .range => m.stepRange cfg t new
  | .trend _ _ =>
      match m.ext, m.prot, m.s with
      | some ext, some prot, some s =>
          if m.state = .trend s .base ∨ m.state = .trend s .pullback then
            m.stepTrend cfg t s ext prot new
          else m.stepWeak cfg t s new
      | some _, some _, none => .error .noDirection
      | _, _, _ => .error .assertion

/-! ## Sweeps -/

/-- The bar's wick goes beyond the swing, and its close comes back. -/
def sweeps (t : Nat) (sw : Swing) : Bool :=
  match sw.kind with
  | .high => sw.price < m.high t ∧ m.close t ≤ sw.price
  | .low => m.low t < sw.price ∧ sw.price ≤ m.close t

/-- A swing's turn in `_detect_sweeps`. -/
def sweep (t : Nat) (m : Tracker) (sw : Swing) : Tracker :=
  if (sw.idx, sw.kind) ∈ m.swept ∨ t ≤ sw.confirmedIdx then m
  else if m.sweeps t sw then
    { m with swept := m.swept ++ [(sw.idx, sw.kind)] }.emit t .sweep sw.price (.sweep sw.kind sw.idx)
  else m

/-- `_detect_sweeps`. -/
def detectSweeps (t : Nat) : Tracker :=
  if m.swings.length < 2 then m else (lastN 4 m.swings).foldl (sweep t) m

/-! ## Bars -/

/-- The lists and the reference range with one more bar. -/
def push (bar : Bar) : Tracker :=
  let ranges := if bar.full then m.ranges ++ [bar.high - bar.low] else m.ranges
  { m with
    bars := m.bars ++ [bar]
    effLo := m.effLo ++ [bar.low]
    effHi := m.effHi ++ [bar.high]
    ranges := ranges
    rr := refRangeFromRanges ranges cfg.refRangeBars cfg.refRangeMinBars }

/-- `on_bar`. -/
def onBar (bar : Bar) : Except Fault Tracker := do
  let t := m.bars.length
  let m := m.push cfg bar
  if m.refRange ≤ 0 then return m
  let m := m.settleSpikes cfg t
  let taken ← takePivot cfg t .high (m, [])
  let (m, new) ← takePivot cfg t .low taken
  let m ← m.step cfg t new
  return m.detectSweeps t

end Tracker

/-- `run`: a fresh tracker, one bar at a time. -/
def run (cfg : Config) (tf : String) (bars : List Bar) : Except Fault Tracker :=
  bars.foldlM (Tracker.onBar cfg) { tf := tf }

end AdvanceTrading.StructureTracker
