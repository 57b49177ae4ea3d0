import AdvanceTrading.PriceAction.StructureInvariant
import Mathlib.Algebra.Order.Group.MinMax
import Mathlib.Tactic.Linarith
import Mathlib.Tactic.Ring

/-!
# Mirrored bars

The tracker over mirrored bars (`-o, -l, -h, -c`): what it reads, its spikes and
its swings commute with the mirror, but for two orders. Of a bar that is both a
swing high and a swing low the high is taken first, and a bar with two equally
long wicks is read as a lower spike first.
-/

namespace AdvanceTrading.StructureTracker

/-! ## The mirror -/

def State.mirror : State → State
  | .init => .init
  | .range => .range
  | .trend s phase => .trend s.opposite phase

def Kind.mirror : Kind → Kind
  | .high => .low
  | .low => .high

def Label.mirror : Label → Label
  | .blank => .blank
  | .hh => .ll
  | .lh => .hl
  | .eqh => .eql
  | .hl => .lh
  | .ll => .hh
  | .eql => .eqh

def Spike.mirror : Spike → Spike
  | .up => .down
  | .down => .up

def EventType.mirror : EventType → EventType
  | .rangeExitUp => .rangeExitDown
  | .rangeExitDown => .rangeExitUp
  | type => type

def Change.mirror : Change → Change
  | .plain => .plain
  | .protectedBroken price => .protectedBroken (-price)
  | .brokeSwing idx => .brokeSwing idx
  | .recoveredAbove price => .recoveredAbove (-price)
  | .rangeOf high low => .rangeOf (-low) (-high)
  | .reversal bar idx lhPrice => .reversal bar idx (-lhPrice)

def Details.mirror : Details → Details
  | .swing kind label idx time status spike => .swing kind.mirror label.mirror idx time status spike
  | .sweep side idx => .sweep side.mirror idx
  | .change fromState toState more => .change fromState.mirror toState.mirror more.mirror

def Bar.mirror (bar : Bar) : Bar where
  barEnd := bar.barEnd
  open_ := -bar.open_
  high := -bar.low
  low := -bar.high
  close := -bar.close
  full := bar.full

def Swing.mirror (sw : Swing) : Swing :=
  { sw with kind := sw.kind.mirror, price := -sw.price, label := sw.label.mirror }

def Event.mirror (event : Event) : Event :=
  { event with
    type := event.type.mirror
    price := -event.price
    state := event.state.mirror
    details := event.details.mirror }

def StateChange.mirror (change : StateChange) : StateChange :=
  { change with
    fromState := change.fromState.mirror
    state := change.state.mirror
    event := change.event.mirror
    price := -change.price
    protected_ := change.protected_.map fun x => -x }

/-- The mirrored tracker; signed prices stay as they are. -/
def Tracker.mirror (m : Tracker) : Tracker where
  tf := m.tf
  bars := m.bars.map Bar.mirror
  effLo := m.effHi.map fun x => -x
  effHi := m.effLo.map fun x => -x
  ranges := m.ranges
  rr := m.rr
  swings := m.swings.map Swing.mirror
  swept := m.swept.map fun e => (e.1, e.2.mirror)
  state := m.state.mirror
  s := m.s.map Direction.opposite
  prot := m.prot
  ext := m.ext
  lastSh := m.lastSh
  lastShBroken := m.lastShBroken
  rangeHi := m.rangeLo.map fun x => -x
  rangeLo := m.rangeHi.map fun x => -x
  weakExt := m.weakExt
  chochIdx := m.chochIdx
  lh := m.lh.map Swing.mirror
  weakMinSettled := m.weakMinSettled
  weakSwingCount := m.weakSwingCount
  events := m.events.map Event.mirror
  changes := m.changes.map StateChange.mirror

/-- A new swing and how it was taken. -/
def mirrorNew (entry : Status × Swing) : Status × Swing := (entry.1, entry.2.mirror)

@[simp] theorem Direction.opposite_opposite (s : Direction) : s.opposite.opposite = s := by
  cases s <;> rfl

@[simp] theorem Direction.opposite_inj {s s' : Direction} : s.opposite = s'.opposite ↔ s = s' := by
  cases s <;> cases s' <;> decide

@[simp] theorem Kind.mirror_inj {kind kind' : Kind} : kind.mirror = kind'.mirror ↔ kind = kind' := by
  cases kind <;> cases kind' <;> decide

@[simp] theorem State.mirror_inj (state state' : State) :
    state.mirror = state'.mirror ↔ state = state' := by
  cases state <;> cases state' <;> simp [State.mirror]

@[simp] theorem Direction.highKind_opposite (s : Direction) : s.opposite.highKind = s.highKind.mirror := by
  cases s <;> rfl

@[simp] theorem Direction.lowKind_opposite (s : Direction) : s.opposite.lowKind = s.lowKind.mirror := by
  cases s <;> rfl

@[simp] theorem Direction.signed_opposite (s : Direction) (x : ℚ) : s.opposite.signed x = -s.signed x := by
  cases s <;> simp [Direction.opposite, Direction.signed]

@[simp] theorem Direction.signed_neg (s : Direction) (x : ℚ) : s.signed (-x) = -s.signed x := by
  cases s <;> rfl

/-! ## Sequences -/

section Sequences

variable {α β : Type} {xs : List ℚ} {a b n : Nat}

theorem slice_map (f : α → β) (ys : List α) : slice a b (ys.map f) = (slice a b ys).map f := by
  simp [slice, List.map_take, List.map_drop]

theorem lastN_map (f : α → β) (ys : List α) : lastN n (ys.map f) = (lastN n ys).map f := by
  unfold lastN
  split
  · rfl
  · rw [List.length_map, List.map_drop]

theorem max?_neg (xs : List ℚ) : (xs.map fun x => -x).max? = xs.min?.map fun x => -x := by
  cases isMin : xs.min? with
  | none =>
    rw [List.min?_eq_none_iff] at isMin
    simp [isMin]
  | some x =>
    obtain ⟨mem, bound⟩ := List.min?_eq_some_iff.mp isMin
    refine List.max?_eq_some_iff.mpr ⟨List.mem_map.mpr ⟨x, mem, rfl⟩, ?_⟩
    intro y isY
    obtain ⟨z, inXs, rfl⟩ := List.mem_map.mp isY
    exact neg_le_neg (bound z inXs)

theorem min?_neg (xs : List ℚ) : (xs.map fun x => -x).min? = xs.max?.map fun x => -x := by
  have back := max?_neg (xs.map fun x => -x)
  simp only [List.map_map, Function.comp_def, neg_neg, List.map_id'] at back
  rw [back, Option.map_map]
  simp

theorem maxOf_neg (xs : List ℚ) : maxOf (xs.map fun x => -x) = (minOf xs).map fun x => -x := by
  unfold maxOf minOf
  rw [max?_neg]
  cases xs.min? <;> rfl

theorem minOf_neg (xs : List ℚ) : minOf (xs.map fun x => -x) = (maxOf xs).map fun x => -x := by
  unfold maxOf minOf
  rw [min?_neg]
  cases xs.max? <;> rfl

end Sequences

/-- The tolerances of a configuration are not negative. -/
structure Config.Tolerant (cfg : Config) : Prop where
  eqTol : 0 ≤ cfg.eqTol
  rangeExitK : 0 ≤ cfg.rangeExitK

namespace Tracker

variable (cfg : Config) (m : Tracker)

/-! ## Reading -/

section Reading

variable (i t : Nat) (s : Direction)

@[simp] theorem radius_mirror : m.mirror.radius cfg = m.radius cfg := rfl

@[simp] theorem swingFactor_mirror : m.mirror.swingFactor cfg = m.swingFactor cfg := rfl

@[simp] theorem refRange_mirror : m.mirror.refRange = m.refRange := rfl

@[simp] theorem tol_mirror (mult : ℚ) : m.mirror.tol mult = m.tol mult := rfl

@[simp] theorem open_mirror : m.mirror.open_ i = -m.open_ i := by
  simp only [open_, mirror, List.getElem?_map, Option.map_map]
  cases m.bars[i]? <;> simp [Bar.mirror]

@[simp] theorem high_mirror : m.mirror.high i = -m.low i := by
  simp only [high, low, mirror, List.getElem?_map, Option.map_map]
  cases m.bars[i]? <;> simp [Bar.mirror]

@[simp] theorem low_mirror : m.mirror.low i = -m.high i := by
  simp only [high, low, mirror, List.getElem?_map, Option.map_map]
  cases m.bars[i]? <;> simp [Bar.mirror]

@[simp] theorem close_mirror : m.mirror.close i = -m.close i := by
  simp only [close, mirror, List.getElem?_map, Option.map_map]
  cases m.bars[i]? <;> simp [Bar.mirror]

@[simp] theorem barEnd_mirror : m.mirror.barEnd i = m.barEnd i := by
  simp only [barEnd, mirror, List.getElem?_map, Option.map_map]
  cases m.bars[i]? <;> simp [Bar.mirror]

@[simp] theorem signedHigh_mirror : m.mirror.signedHigh s.opposite i = m.signedHigh s i := by
  cases s <;> simp [signedHigh, Direction.opposite]

@[simp] theorem signedClose_mirror : m.mirror.signedClose s.opposite i = m.signedClose s i := by
  simp [signedClose]

@[simp] theorem weakLows_mirror : m.mirror.weakLows s.opposite = m.weakLows s := by
  cases s <;> simp [weakLows, Direction.opposite, mirror]

@[simp] theorem protectedLevel_mirror :
    m.mirror.protectedLevel = m.protectedLevel.map fun x => -x := by
  unfold protectedLevel
  cases isProt : m.prot <;> cases isS : m.s <;> cases isState : m.state <;>
    simp [mirror, isProt, isS, isState, State.mirror]

@[simp] theorem triggerBar_mirror (more : Change) : m.mirror.triggerBar t more.mirror = m.triggerBar t more := by
  cases more <;> simp [triggerBar, Change.mirror]

end Reading

/-! ## Events -/

theorem emit_mirror (t : Nat) (type : EventType) (price : ℚ) (details : Details) :
    m.mirror.emit t type.mirror (-price) details.mirror = (m.emit t type price details).mirror := by
  have time : m.mirror.barEnd t = m.barEnd t := barEnd_mirror m t
  unfold emit
  rw [time]
  simp [mirror, Event.mirror]

theorem setState_mirror (t : Nat) (state : State) (type : EventType) (price : ℚ) (more : Change) :
    m.mirror.setState t state.mirror type.mirror (-price) more.mirror
      = (m.setState t state type price more).mirror := by
  have emitted := emit_mirror { m with state := state } t type price (.change m.state state more)
  have protected_ := protectedLevel_mirror
    (({ m with state := state } : Tracker).emit t type price (.change m.state state more))
  have trigger := triggerBar_mirror
    (({ m with state := state } : Tracker).emit t type price (.change m.state state more)) t more
  have time := barEnd_mirror
    (({ m with state := state } : Tracker).emit t type price (.change m.state state more)) t
  unfold setState
  dsimp only
  rw [show ({ m.mirror with state := state.mirror } : Tracker)
    = ({ m with state := state } : Tracker).mirror from rfl]
  rw [show Details.change m.mirror.state state.mirror more.mirror
    = Details.mirror (.change m.state state more) from rfl, emitted, protected_, trigger, time]
  by_cases same : m.state = state
  · rw [if_pos same, if_pos (show m.mirror.state = state.mirror from congrArg State.mirror same)]
  · rw [if_neg same, if_neg (show ¬ m.mirror.state = state.mirror from
      fun equal => same ((State.mirror_inj _ _).mp equal))]
    simp [mirror, StateChange.mirror, emit]

/-! ## Spikes -/

/-- Bar `k` would be a spike by either wick, which are equally long, and a bar after it is there. -/
def Balanced (k upto : Nat) : Prop :=
  0 < m.refRange ∧ 0 < m.high k - m.low k ∧
    max (m.open_ k) (m.close k) - min (m.open_ k) (m.close k)
      ≤ cfg.spikeBodyMax * (m.high k - m.low k) ∧
    max (m.open_ k) (m.close k) + cfg.spikeWickK * m.refRange ≤ m.high k ∧
    m.high k - max (m.open_ k) (m.close k) = min (m.open_ k) (m.close k) - m.low k ∧
    k < min (k + cfg.spikeReturnBars) upto

instance (k upto : Nat) : Decidable (m.Balanced cfg k upto) := inferInstanceAs (Decidable (_ ∧ _))

theorem spikeKind_mirror (k upto : Nat) (uneven : ¬ m.Balanced cfg k upto) :
    m.mirror.spikeKind cfg k upto = (m.spikeKind cfg k upto).map Spike.mirror := by
  have bodyHi : max (-m.open_ k) (-m.close k) = -min (m.open_ k) (m.close k) := max_neg_neg _ _
  have bodyLo : min (-m.open_ k) (-m.close k) = -max (m.open_ k) (m.close k) := min_neg_neg _ _
  unfold Balanced at uneven
  unfold spikeKind
  simp only [open_mirror, high_mirror, low_mirror, close_mirror, refRange_mirror, bodyHi, bodyLo,
    neg_le_neg_iff]
  generalize max (m.open_ k) (m.close k) = hi at *
  generalize min (m.open_ k) (m.close k) = lo at *
  generalize isWindow : List.range' (k + 1) (min (k + cfg.spikeReturnBars) upto - k) = window at *
  have range : -m.low k - -m.high k = m.high k - m.low k := by ring
  have body : -lo - -hi = hi - lo := by ring
  rw [range, body]
  by_cases decided : m.refRange ≤ 0
  · simp [decided]
  by_cases flat : m.high k - m.low k ≤ 0
  · simp [decided, flat]
  by_cases wide : cfg.spikeBodyMax * (m.high k - m.low k) < hi - lo
  · simp [decided, flat, wide]
  simp only [if_neg decided, if_neg flat, if_neg wide]
  have lower : (-m.high k ≤ -hi - cfg.spikeWickK * m.refRange) ↔
      hi + cfg.spikeWickK * m.refRange ≤ m.high k := by constructor <;> intro le <;> linarith
  have upper : (-lo + cfg.spikeWickK * m.refRange ≤ -m.low k) ↔
      m.low k ≤ lo - cfg.spikeWickK * m.refRange := by constructor <;> intro le <;> linarith
  have less : (-m.low k - -lo ≤ -hi - -m.high k) ↔ lo - m.low k ≤ m.high k - hi := by
    constructor <;> intro le <;> linarith
  have more : (-hi - -m.high k < -m.low k - -lo) ↔ m.high k - hi < lo - m.low k := by
    constructor <;> intro lt <;> linarith
  simp only [lower, upper, less, more]
  rcases lt_trichotomy (lo - m.low k) (m.high k - hi) with shorter | equal | longer
  · simp only [shorter, shorter.le, not_le.mpr shorter, not_lt.mpr shorter.le, true_and,
      false_and, and_false, if_false]
    split <;> rfl
  · -- with equal wicks only the first test of each can hold, and neither does
    have empty : ¬ (hi + cfg.spikeWickK * m.refRange ≤ m.high k ∧ window ≠ []) := by
      rintro ⟨long, some_⟩
      refine uneven ⟨not_le.mp decided, not_le.mp flat, not_lt.mp wide, long, equal.symm, ?_⟩
      rw [← isWindow, ne_eq, List.range'_eq_nil_iff] at some_
      omega
    have long : (m.low k ≤ lo - cfg.spikeWickK * m.refRange) ↔
        hi + cfg.spikeWickK * m.refRange ≤ m.high k := by constructor <;> intro le <;> linarith
    simp only [long, equal, lt_self_iff_false, false_and, and_false, if_false, le_refl, true_and]
    by_cases isLong : hi + cfg.spikeWickK * m.refRange ≤ m.high k
    · have none_ : window = [] := by
        by_contra some_
        exact empty ⟨isLong, some_⟩
      simp [none_]
    · simp [isLong]
  · simp only [longer, longer.le, not_le.mpr longer, not_lt.mpr longer.le, true_and,
      false_and, and_false, if_false]
    split <;> rfl

theorem settleSpikes_mirror (t : Nat) (uneven : cfg.spikeBodyEdge = true → cfg.spikeReturnBars ≤ t →
    ¬ m.Balanced cfg (t - cfg.spikeReturnBars) t) :
    m.mirror.settleSpikes cfg t = (m.settleSpikes cfg t).mirror := by
  unfold settleSpikes
  split
  · rfl
  · rename_i settles
    rw [not_or, not_lt, Bool.not_eq_false] at settles
    dsimp only
    rw [spikeKind_mirror cfg m _ _ (uneven settles.2 settles.1)]
    cases m.spikeKind cfg (t - cfg.spikeReturnBars) t with
    | none => rfl
    | some spike =>
      cases spike with
      | up =>
        simp only [Option.map_some, Spike.mirror, open_mirror, close_mirror, min_neg_neg]
        simp [mirror, List.map_set]
      | down =>
        simp only [Option.map_some, Spike.mirror, open_mirror, close_mirror, max_neg_neg]
        simp [mirror, List.map_set]

/-! ## Swings -/

theorem isPivot_mirror (p : Nat) (kind : Kind) :
    m.mirror.isPivot cfg p kind.mirror = m.isPivot cfg p kind := by
  have highs : m.mirror.bars.map Bar.high = (m.bars.map Bar.low).map fun x => -x := by
    simp [mirror, Bar.mirror, Function.comp_def]
  have lows : m.mirror.bars.map Bar.low = (m.bars.map Bar.high).map fun x => -x := by
    simp [mirror, Bar.mirror, Function.comp_def]
  unfold isPivot
  dsimp only [radius_mirror]
  split
  · rfl
  · cases kind with
    | high =>
      simp only [Kind.mirror, lows, slice_map, minOf_neg, low_mirror]
      generalize maxOf ((slice (p - m.radius cfg) p m.bars).map Bar.high) = first
      generalize maxOf ((slice (p + 1) (p + m.radius cfg + 1) m.bars).map Bar.high) = second
      cases first with
      | error e => rfl
      | ok top =>
        simp only [Except.map, ok_bind, neg_le_neg_iff]
        split
        · cases second with
          | error e => rfl
          | ok next => simp only [ok_bind, neg_lt_neg_iff]
        · rfl
    | low =>
      simp only [Kind.mirror, highs, slice_map, maxOf_neg, high_mirror]
      generalize minOf ((slice (p - m.radius cfg) p m.bars).map Bar.low) = first
      generalize minOf ((slice (p + 1) (p + m.radius cfg + 1) m.bars).map Bar.low) = second
      cases first with
      | error e => rfl
      | ok bottom =>
        simp only [Except.map, ok_bind, neg_le_neg_iff]
        split
        · cases second with
          | error e => rfl
          | ok next => simp only [ok_bind, neg_lt_neg_iff]
        · rfl

theorem pivotPrice_mirror (p : Nat) (kind : Kind) (t : Nat)
    (uneven : cfg.spikeBodyEdge = true → ¬ m.Balanced cfg p t) :
    m.mirror.pivotPrice cfg p kind.mirror t
      = (-(m.pivotPrice cfg p kind t).1, (m.pivotPrice cfg p kind t).2) := by
  unfold pivotPrice
  cases edge : cfg.spikeBodyEdge with
  | false => cases kind <;> simp [Kind.mirror]
  | true =>
    simp only [if_true, spikeKind_mirror cfg m p t (uneven edge)]
    cases m.spikeKind cfg p t with
    | none => cases kind <;> simp [Kind.mirror]
    | some spike =>
      cases spike <;> cases kind <;> simp [Kind.mirror, Spike.mirror, max_neg_neg, min_neg_neg]

theorem lastOf_mirror (kind : Kind) (swings : List Swing) :
    lastOf kind.mirror (swings.map Swing.mirror) = (lastOf kind swings).map Swing.mirror := by
  unfold lastOf
  rw [← List.map_reverse, List.find?_map]
  congr 1
  congr 1
  funext sw
  simp [Swing.mirror]

theorem label_mirror (tolerant : cfg.Tolerant) (decided : 0 ≤ m.refRange) (kind : Kind) (price : ℚ)
    (swings : List Swing) :
    m.mirror.label cfg kind.mirror (-price) (swings.map Swing.mirror)
      = (m.label cfg kind price swings).mirror := by
  unfold label
  rw [lastOf_mirror]
  cases lastOf kind swings with
  | none => rfl
  | some prev =>
    have distance : |-price - -prev.price| = |price - prev.price| := by
      rw [← abs_neg]
      congr 1
      ring
    simp only [Option.map_some, Swing.mirror, tol_mirror, distance]
    by_cases near : |price - prev.price| ≤ m.tol cfg.eqTol
    · simp only [if_pos near]
      cases kind <;> rfl
    · simp only [if_neg near]
      have differ : price ≠ prev.price := by
        intro same
        apply near
        rw [same, sub_self, abs_zero]
        exact mul_nonneg tolerant.eqTol decided
      rcases lt_or_gt_of_ne differ with below | above
      · cases kind <;> simp [Kind.mirror, below, not_lt.mpr below.le, Label.mirror]
      · cases kind <;> simp [Kind.mirror, above, not_lt.mpr above.le, Label.mirror]

theorem better_mirror (kind : Kind) (price last : ℚ) :
    better kind.mirror (-price) (-last) = better kind price last := by
  cases kind <;> simp [better, Kind.mirror]

theorem getLast?_swings_mirror : m.mirror.swings.getLast? = m.swings.getLast?.map Swing.mirror := by
  simp [mirror]

theorem addPivot_mirror (tolerant : cfg.Tolerant) (decided : 0 ≤ m.refRange) (p : Nat) (kind : Kind)
    (t : Nat) (uneven : cfg.spikeBodyEdge = true → ¬ m.Balanced cfg p t) :
    m.mirror.addPivot cfg p kind.mirror t
      = ((m.addPivot cfg p kind t).1.mirror, (m.addPivot cfg p kind t).2.map mirrorNew) := by
  unfold addPivot
  rw [pivotPrice_mirror cfg m p kind t uneven]
  obtain ⟨price, spike⟩ := m.pivotPrice cfg p kind t
  dsimp only
  have swing (swings : List Swing) :
      (⟨kind.mirror, p, m.mirror.barEnd p, -price, t, m.mirror.barEnd t,
        m.mirror.label cfg kind.mirror (-price) (swings.map Swing.mirror), spike⟩ : Swing)
        = Swing.mirror ⟨kind, p, m.barEnd p, price, t, m.barEnd t, m.label cfg kind price swings,
            spike⟩ := by
    rw [label_mirror cfg m tolerant decided, barEnd_mirror, barEnd_mirror]
    rfl
  have known : m.mirror.swings = m.swings.map Swing.mirror := rfl
  rw [getLast?_swings_mirror]
  cases m.swings.getLast? with
  | none =>
    simp only [Option.map_none, known, swing]
    simp [mirror, mirrorNew]
  | some last =>
    have distance : |-price - last.mirror.price| = |price - last.price| := by
      rw [← abs_neg]
      congr 1
      simp only [Swing.mirror]
      ring
    have sameKind : last.mirror.kind = kind.mirror ↔ last.kind = kind := Kind.mirror_inj
    have isBetter : better kind.mirror (-price) last.mirror.price = better kind price last.price :=
      better_mirror kind price last.price
    simp only [Option.map_some, sameKind, isBetter, distance, swingFactor_mirror, refRange_mirror,
      known, swing, ← List.map_dropLast]
    split
    · split
      · simp [mirror, mirrorNew]
      · rfl
    · split
      · rfl
      · simp [mirror, mirrorNew]

/-- A tracker on its way through a bar, and the new swings. -/
def mirrorTaken (taken : Tracker × List (Status × Swing)) : Tracker × List (Status × Swing) :=
  (taken.1.mirror, taken.2.map mirrorNew)

theorem takePivot_mirror (tolerant : cfg.Tolerant) (decided : 0 ≤ m.refRange) (t : Nat) (kind : Kind)
    (new : List (Status × Swing))
    (uneven : cfg.spikeBodyEdge = true → 2 * m.radius cfg ≤ t →
      m.isPivot cfg (t - m.radius cfg) kind = .ok true → ¬ m.Balanced cfg (t - m.radius cfg) t) :
    takePivot cfg t kind.mirror (mirrorTaken (m, new)) = (takePivot cfg t kind (m, new)).map mirrorTaken := by
  unfold takePivot mirrorTaken
  dsimp only
  rw [radius_mirror]
  split
  · rfl
  rename_i deep
  rw [isPivot_mirror]
  cases judged : m.isPivot cfg (t - m.radius cfg) kind with
  | error e => rfl
  | ok b =>
    cases b with
    | false => rfl
    | true =>
      simp only [ok_bind, if_true]
      rw [addPivot_mirror cfg m tolerant decided _ kind t fun edge =>
        uneven edge (Nat.le_of_not_lt deep) judged]
      obtain ⟨m', taken⟩ := m.addPivot cfg (t - m.radius cfg) kind t
      cases taken with
      | none => rfl
      | some entry =>
        obtain ⟨status, sw⟩ := entry
        simp only [Option.map_some, mirrorNew]
        have emitted := emit_mirror m' t .swing sw.price
          (.swing sw.kind sw.label (t - m.radius cfg) sw.time status sw.spike)
        simp only [EventType.mirror, Details.mirror] at emitted
        simp only [Swing.mirror, emitted]
        simp [Except.map, pure, Except.pure, mirrorNew, Swing.mirror]

variable {new : List (Status × Swing)} {t : Nat}

theorem takePivot_swings {kind : Kind} {taken : Tracker × List (Status × Swing)}
    (isTaken : takePivot cfg t kind (m, new) = .ok taken) :
    ∃ swings events, taken.1 = { m with swings := swings, events := events } := by
  unfold takePivot at isTaken
  dsimp only at isTaken
  split at isTaken
  · cases isTaken
    exact ⟨_, _, rfl⟩
  cases judged : m.isPivot cfg (t - m.radius cfg) kind with
  | error e =>
    rw [judged] at isTaken
    cases isTaken
  | ok b =>
    cases b with
    | false =>
      rw [judged] at isTaken
      cases isTaken
      exact ⟨_, _, rfl⟩
    | true =>
      rw [judged] at isTaken
      rcases addPivot_cases cfg m (t - m.radius cfg) kind t with ignored | ⟨status, sw, before, added, -⟩
      · simp only [ok_bind, if_true, ignored] at isTaken
        cases isTaken
        exact ⟨_, _, rfl⟩
      · simp only [ok_bind, if_true, added] at isTaken
        cases isTaken
        exact ⟨_, _, rfl⟩

theorem takePivot_false {kind : Kind} (judged : m.isPivot cfg (t - m.radius cfg) kind = .ok false) :
    takePivot cfg t kind (m, new) = .ok (m, new) := by
  unfold takePivot
  dsimp only
  split
  · rfl
  · rw [judged]
    rfl

theorem takePivot_early {kind : Kind} (early : t < 2 * m.radius cfg) :
    takePivot cfg t kind (m, new) = .ok (m, new) := by
  unfold takePivot
  dsimp only
  rw [if_pos early]
  rfl

/-- A bar that is not both kinds of swing is taken alike in either order. -/
theorem takePivot_swap (new : List (Status × Swing)) (positive : 0 < m.radius cfg)
    (now : m.bars.length = t + 1)
    (single : 2 * m.radius cfg ≤ t → m.isPivot cfg (t - m.radius cfg) .high = .ok true →
      m.isPivot cfg (t - m.radius cfg) .low ≠ .ok true) :
    (takePivot cfg t .high (m, new) >>= takePivot cfg t .low)
      = (takePivot cfg t .low (m, new) >>= takePivot cfg t .high) := by
  -- once one kind is not a swing, its turn does nothing before or after the other's
  have passes (kind other : Kind) (no : m.isPivot cfg (t - m.radius cfg) kind = .ok false) :
      (takePivot cfg t kind (m, new) >>= takePivot cfg t other)
        = (takePivot cfg t other (m, new) >>= takePivot cfg t kind) := by
    rw [takePivot_false cfg m no]
    cases isTaken : takePivot cfg t other (m, new) with
    | error e => exact isTaken
    | ok taken =>
      obtain ⟨m', new'⟩ := taken
      obtain ⟨swings, events, rfl⟩ := takePivot_swings cfg m isTaken
      rw [ok_bind, ok_bind, isTaken]
      exact (takePivot_false cfg { m with swings := swings, events := events } no).symm
  by_cases early : t < 2 * m.radius cfg
  · simp only [takePivot_early cfg m early, ok_bind]
  obtain ⟨high, isHigh⟩ := isPivot_ok cfg (m := m) (p := t - m.radius cfg) .high positive (by omega)
  obtain ⟨low, isLow⟩ := isPivot_ok cfg (m := m) (p := t - m.radius cfg) .low positive (by omega)
  cases high with
  | false => exact passes .high .low isHigh
  | true =>
    cases low with
    | false => exact (passes .low .high isLow).symm
    | true => exact absurd isLow (single (Nat.le_of_not_lt early) isHigh)

end Tracker

end AdvanceTrading.StructureTracker
