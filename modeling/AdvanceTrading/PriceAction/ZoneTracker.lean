import AdvanceTrading.Misc.Dict
import AdvanceTrading.PriceAction.ZigzagPivots

/-!
# The zone tracker

Model of `app/price_action/zones/lifecycle.py` (with `swings.swing_indices`):
the states of a zone, the tracker that is stored with it, and `track_zone`,
which advances the tracker over the bars it has not seen. Stamps are instants;
`_iso` and `_align` go from an instant to its text and back.
-/

namespace AdvanceTrading.Zones

open PriceAction

/-- `ZoneState`. -/
inductive ZoneState where
  | fresh
  | tested
  | flipped
  | invalidated
  deriving DecidableEq, Repr

/-- `ZoneEvent`. -/
inductive ZoneEvent where
  | touch
  | gapThrough
  | flip
  | structuralBreak
  deriving DecidableEq, Repr

/-- `transition`, with the table `_TRANSITIONS`. -/
def transition : ZoneState → ZoneEvent → ZoneState
  | .invalidated, _ => .invalidated
  | _, .structuralBreak => .invalidated
  | .flipped, .flip => .tested
  | _, .flip => .flipped
  | .flipped, .touch | .flipped, .gapThrough => .flipped
  | _, .touch | _, .gapThrough => .tested

/-- `SUPPORT_SIDE` and `RESISTANCE_SIDE`. -/
inductive ZoneSide where
  | support
  | resistance
  deriving DecidableEq, Repr

/-- `_opposite`. -/
def ZoneSide.opposite : ZoneSide → ZoneSide
  | .support => .resistance
  | .resistance => .support

/-- The lifecycle fields of `ZoneSettings`. -/
structure ZoneSettings where
  flipConfirmCloses : Nat := 2
  flipBufferPct : ℚ := 1 / 10
  structureSwingOrder : Nat := 3
  structureLookbackBars : Nat := 100
  structureBufferPct : ℚ := 1 / 10
  maxEventsKept : Nat := 50
  deriving DecidableEq, Repr

/-- An emitted event (`ev`). -/
structure EventRow where
  event : ZoneEvent
  time : Int
  price : ℚ
  deriving DecidableEq, Repr

/-- A stretch that was never read. -/
structure Unseen where
  after : Int
  resumedAt : Int
  deriving DecidableEq, Repr

/-- `ZoneTracker`. -/
structure ZoneTracker where
  originSide : ZoneSide
  side : ZoneSide
  bandLow : ℚ
  bandHigh : ℚ
  state : ZoneState := .fresh
  touches : Nat := 0
  flips : Nat := 0
  beyond : Nat := 0
  inside : Bool := false
  structure_ : Option ℚ := none
  structureAt : Option Int := none
  structureChecked : Bool := false
  firstTouch : Option EventRow := none
  lastEvent : Option EventRow := none
  invalidatedAt : Option Int := none
  lastBarAt : Option Int := none
  unseen : List Unseen := []
  events : List EventRow := []
  deriving DecidableEq, Repr

/-- `new_tracker`. -/
def newTracker (zoneLow zoneHigh : ℚ) (side : ZoneSide) (tol : ℚ) (startAt : Option Int) : ZoneTracker where
  originSide := side
  side
  bandLow := zoneLow - tol
  bandHigh := zoneHigh + tol
  lastBarAt := startAt

/-! ## The stored form -/

/-- What a field of the stored tracker holds. -/
inductive Value where
  | side (s : ZoneSide)
  | state (s : ZoneState)
  | number (x : Option ℚ)
  | count (n : Nat)
  | flag (b : Bool)
  | stamp (t : Option Int)
  | event (e : Option EventRow)
  | stretches (us : List Unseen)
  | events (es : List EventRow)
  deriving DecidableEq, Repr

/-- `to_dict`. -/
def ZoneTracker.toDict (tr : ZoneTracker) : Dict String Value :=
  [("origin_side", .side tr.originSide), ("side", .side tr.side), ("band_low", .number (some tr.bandLow)),
    ("band_high", .number (some tr.bandHigh)), ("state", .state tr.state), ("touches", .count tr.touches),
    ("flips", .count tr.flips), ("beyond", .count tr.beyond), ("inside", .flag tr.inside),
    ("structure", .number tr.structure_), ("structure_at", .stamp tr.structureAt),
    ("structure_checked", .flag tr.structureChecked), ("first_touch", .event tr.firstTouch),
    ("last_event", .event tr.lastEvent), ("invalidated_at", .stamp tr.invalidatedAt),
    ("last_bar_at", .stamp tr.lastBarAt), ("unseen", .stretches tr.unseen), ("events", .events tr.events)]

/-- A field of the stored tracker, its default where the name is missing. -/
def field {α : Type} (data : Dict String Value) (name : String) (default : Option α)
    (read : Value → Option α) : Option α :=
  match Dict.get name data with
  | some value => read value
  | none => default

/-- `from_dict`; `none` is the error of a required field that is missing (or of a value of another kind). -/
def ZoneTracker.fromDict (data : Dict String Value) : Option ZoneTracker := do
  let side (name : String) := field data name none fun | .side s => some s | _ => none
  let price (name : String) := field data name none fun | .number (some x) => some x | _ => none
  let number (name : String) := field data name (some none) fun | .number x => some x | _ => none
  let count (name : String) := field data name (some 0) fun | .count n => some n | _ => none
  let flag (name : String) := field data name (some false) fun | .flag b => some b | _ => none
  let stamp (name : String) := field data name (some none) fun | .stamp t => some t | _ => none
  let event (name : String) := field data name (some none) fun | .event e => some e | _ => none
  return {
    originSide := ← side "origin_side"
    side := ← side "side"
    bandLow := ← price "band_low"
    bandHigh := ← price "band_high"
    state := ← field data "state" (some .fresh) fun | .state s => some s | _ => none
    touches := ← count "touches"
    flips := ← count "flips"
    beyond := ← count "beyond"
    inside := ← flag "inside"
    structure_ := ← number "structure"
    structureAt := ← stamp "structure_at"
    structureChecked := ← flag "structure_checked"
    firstTouch := ← event "first_touch"
    lastEvent := ← event "last_event"
    invalidatedAt := ← stamp "invalidated_at"
    lastBarAt := ← stamp "last_bar_at"
    unseen := ← field data "unseen" (some []) fun | .stretches us => some us | _ => none
    events := ← field data "events" (some []) fun | .events es => some es | _ => none }

theorem fromDict_toDict (tr : ZoneTracker) : ZoneTracker.fromDict tr.toDict = some tr := rfl

/-! ## Swings -/

/-- Column `open`. -/
def open_ (f : Frame) (i : Nat) : ℚ := (f[i]?.map SwingBar.open_).getD 0

/-- Column `timestamp`. -/
def stamp (f : Frame) (i : Nat) : Int := (f[i]?.map SwingBar.timestamp).getD 0

/-- Bar `i` is a swing of its kind (`swing_indices`): the extreme of the bars from `order` before it to `order` after
it. A support looks for swing lows, a resistance for swing highs. -/
def isSwing (f : Frame) (order : Nat) (side : ZoneSide) (i : Nat) : Bool :=
  decide (order ≤ i ∧ i + order < f.length) &&
    (List.range' (i - order) (2 * order + 1)).all fun j =>
      match side with
      | .support => low f i ≤ low f j
      | .resistance => high f j ≤ high f i

/-- A swing beyond the band on the side it acts on. -/
def beyondBand (f : Frame) (order : Nat) (lo hi : ℚ) (side : ZoneSide) (i : Nat) : Bool :=
  isSwing f order side i &&
    match side with
    | .support => low f i < lo
    | .resistance => hi < high f i

/-- `_structure`: the latest such swing that the first `known` bars confirm, at most `lookback` bars before the last of
them (`known_by = known - 1`). -/
def structureSwing (f : Frame) (s : ZoneSettings) (side : ZoneSide) (lo hi : ℚ) (known : Nat) : Option Nat :=
  ((List.range known).filter fun i =>
    known ≤ i + s.structureLookbackBars + 1 ∧ i + s.structureSwingOrder < known ∧
      beyondBand f s.structureSwingOrder lo hi side i).getLast?

/-! ## Bars -/

section Tracking

variable (f : Frame) (s : ZoneSettings)

/-- `set_structure`. -/
def setStructure (tr : ZoneTracker) : Option Nat → ZoneTracker
  | none => { tr with structure_ := none, structureAt := none }
  | some i =>
      { tr with
        structure_ := some (match tr.side with
          | .support => low f i
          | .resistance => high f i)
        structureAt := some (stamp f i) }

/-- The events that are kept. -/
def keep (kept : Nat) (events : List EventRow) : List EventRow :=
  if kept = 0 then [] else events.drop (events.length - kept)

/-- `emit`. -/
def emit (tr : ZoneTracker) (event : ZoneEvent) (k : Nat) : ZoneTracker :=
  let row : EventRow := ⟨event, stamp f k, close f k⟩
  let visit : Bool := event = .touch ∨ event = .gapThrough
  { tr with
    state := transition tr.state event
    lastEvent := some row
    touches := if visit then tr.touches + 1 else tr.touches
    firstTouch := if visit then tr.firstTouch.or (some row) else tr.firstTouch
    events := keep s.maxEventsKept (tr.events ++ [row]) }

/-- Adopts the swing that bar `k` confirms, while no structure is known. -/
def adopt (tr : ZoneTracker) (k : Nat) : ZoneTracker :=
  if tr.structure_ = none ∧ s.structureSwingOrder ≤ k ∧
      beyondBand f s.structureSwingOrder tr.bandLow tr.bandHigh tr.side (k - s.structureSwingOrder) then
    setStructure f tr (some (k - s.structureSwingOrder))
  else tr

/-- Bar `k` closes beyond the structure by the buffer. -/
def breaksStructure (tr : ZoneTracker) (k : Nat) : Bool :=
  tr.structure_.any fun ref =>
    match tr.side with
    | .support => close f k < ref * (1 - s.structureBufferPct / 100)
    | .resistance => ref * (1 + s.structureBufferPct / 100) < close f k

/-- From the close before to the open, price jumped across an edge of the band. -/
def jumps (tr : ZoneTracker) (k : Nat) : Bool :=
  let gLo := min (close f (k - 1)) (open_ f k)
  let gHi := max (close f (k - 1)) (open_ f k)
  0 < k ∧ ((gLo ≤ tr.bandLow ∧ tr.bandLow ≤ gHi) ∨ (gLo ≤ tr.bandHigh ∧ tr.bandHigh ≤ gHi))

/-- Bar `k` overlaps the band. -/
def overlaps (tr : ZoneTracker) (k : Nat) : Bool := tr.bandLow ≤ high f k ∧ low f k ≤ tr.bandHigh

/-- The visit of bar `k`: a touch or a gap through the band, from outside. -/
def arrive (tr : ZoneTracker) (k : Nat) : ZoneTracker :=
  if overlaps f tr k && !tr.inside then emit f s tr .touch k
  else if !overlaps f tr k && !tr.inside && jumps f tr k then emit f s tr .gapThrough k
  else tr

def visited (tr : ZoneTracker) (k : Nat) : ZoneTracker := { arrive f s tr k with inside := overlaps f tr k }

/-- Bar `k` closes beyond the far edge by the buffer. -/
def closesBeyond (tr : ZoneTracker) (k : Nat) : Bool :=
  match tr.side with
  | .support => close f k < tr.bandLow * (1 - s.flipBufferPct / 100)
  | .resistance => tr.bandHigh * (1 + s.flipBufferPct / 100) < close f k

/-- The count of closes in a row beyond the far edge. -/
def countBeyond (tr : ZoneTracker) (k : Nat) : ZoneTracker :=
  { tr with beyond := if closesBeyond f s tr k then tr.beyond + 1 else 0 }

/-- The zone acts on the other side. -/
def turned (tr : ZoneTracker) : ZoneTracker :=
  { tr with flips := tr.flips + 1, side := tr.side.opposite, beyond := 0 }

/-- The flip on bar `k`, with the structure known there. -/
def flipOver (tr : ZoneTracker) (k : Nat) : ZoneTracker :=
  let tr := turned (emit f s tr .flip k)
  setStructure f tr (structureSwing f s tr.side tr.bandLow tr.bandHigh (k + 1))

def counted (tr : ZoneTracker) (k : Nat) : ZoneTracker :=
  if s.flipConfirmCloses ≤ (countBeyond f s tr k).beyond then flipOver f s (countBeyond f s tr k) k
  else countBeyond f s tr k

/-- The loop over the bars: it returns at the bar that breaks the structure. -/
def trackBars (tr : ZoneTracker) : List Nat → ZoneTracker
  | [] => { tr with lastBarAt := some (stamp f (f.length - 1)) }
  | k :: ks =>
      let tr := adopt f s tr k
      if breaksStructure f s tr k then
        { emit f s tr .structuralBreak k with invalidatedAt := some (stamp f k), lastBarAt := some (stamp f k) }
      else trackBars (counted f s (visited f s tr k) k) ks

/-- The first bar after an instant (`np.searchsorted(..., side="right")`). -/
def firstAfter (after : Option Int) : Nat :=
  match after with
  | none => 0
  | some t => f.findIdx fun bar => t < bar.timestamp

/-- The last ten stretches. -/
def lastTen (us : List Unseen) : List Unseen := us.drop (us.length - 10)

/-- The frame starts after the last bar this tracker saw: the stretch is recorded. -/
def noteUnseen (tr : ZoneTracker) (first : Nat) : ZoneTracker :=
  match tr.lastBarAt with
  | some t =>
      if first = 0 ∧ t < stamp f 0 then { tr with unseen := lastTen (tr.unseen ++ [⟨t, stamp f 0⟩]) } else tr
  | none => tr

/-- The structure known on the bar that tracking starts after. -/
def checkStructure (tr : ZoneTracker) (first : Nat) : ZoneTracker :=
  if tr.structureChecked then tr
  else
    setStructure f { tr with structureChecked := true } (structureSwing f s tr.side tr.bandLow tr.bandHigh first)

/-- `track_zone`. -/
def trackZone (startAfter : Option Int) (tr : ZoneTracker) : ZoneTracker :=
  if tr.state = .invalidated then tr
  else
    let first := firstAfter f (tr.lastBarAt.or startAfter)
    if f.length ≤ first then tr
    else
      trackBars f s (checkStructure f s (noteUnseen f tr first) first) (List.range' first (f.length - first))

end Tracking

/-- Nightly runs: the stored tracker is read, advanced over the frame of the night and stored again. -/
def nightly (s : ZoneSettings) (startAfter : Option Int) : List Frame → ZoneTracker → Option ZoneTracker
  | [], tr => some tr
  | f :: fs, tr => (ZoneTracker.fromDict tr.toDict).bind fun tr => nightly s startAfter fs (trackZone f s startAfter tr)

end AdvanceTrading.Zones

/-!
# A tracker advanced night by night

A bar changes a tracker in a way that only that bar and those before it decide,
so a shorter frame makes the same steps. What is left is the seam: the next
night starts on the bar after the last one, keeps the structure that was looked
up before, and leaves a dead zone as it is.
-/

namespace AdvanceTrading.Zones

open PriceAction

/-! ## The steps on a shorter frame -/

variable {i : Nat} {event : ZoneEvent}

section Shorter

variable {f : Frame} {s : ZoneSettings} {tr : ZoneTracker} {m k : Nat}

theorem open_take (inside : i < m) : open_ (f.take m) i = open_ f i := by
  simp [open_, inside]

theorem stamp_take (inside : i < m) : stamp (f.take m) i = stamp f i := by
  simp [stamp, inside]

variable {side : ZoneSide}

/-- A swing that the first `m` bars confirm is one of the frame. -/
theorem isSwing_take {order : Nat} (short : m ≤ f.length) (confirmed : i + order < m) :
    isSwing (f.take m) order side i = isSwing f order side i := by
  have lengths : (f.take m).length = m := List.length_take_of_le short
  unfold isSwing
  rw [lengths]
  have window : (decide (order ≤ i ∧ i + order < m)) = decide (order ≤ i ∧ i + order < f.length) := by
    congr 1
    exact propext (and_congr_right fun _ => by omega)
  rw [window]
  by_cases left : order ≤ i
  · congr 1
    rw [Bool.eq_iff_iff, List.all_eq_true, List.all_eq_true]
    apply forall₂_congr
    intro j mem
    have inside := List.mem_range'_1.mp mem
    cases side with
    | support => rw [low_take (by omega), low_take (by omega)]
    | resistance => rw [high_take (by omega), high_take (by omega)]
  · simp [left]

theorem beyondBand_take {order : Nat} {lo hi : ℚ} (short : m ≤ f.length) (confirmed : i + order < m) :
    beyondBand (f.take m) order lo hi side i = beyondBand f order lo hi side i := by
  unfold beyondBand
  rw [isSwing_take short confirmed]
  cases side with
  | support => rw [low_take (by omega)]
  | resistance => rw [high_take (by omega)]

/-- The structure looked up among the first `m` bars. -/
theorem structureSwing_take {lo hi : ℚ} {known : Nat} (short : m ≤ f.length) (upto : known ≤ m) :
    structureSwing (f.take m) s side lo hi known = structureSwing f s side lo hi known := by
  unfold structureSwing
  congr 1
  apply List.filter_congr
  intro i mem
  congr 1
  refine propext (and_congr_right fun _ => and_congr_right fun confirmed => ?_)
  rw [beyondBand_take short (by omega)]

theorem mem_structureSwing {lo hi : ℚ} {known : Nat}
    (found : structureSwing f s side lo hi known = some i) : i < known := by
  have mem := List.mem_of_getLast? found
  exact List.mem_range.mp (List.mem_of_mem_filter mem)

theorem setStructure_take {found : Option Nat} (inside : ∀ i ∈ found, i < m) :
    setStructure (f.take m) tr found = setStructure f tr found := by
  cases found with
  | none => rfl
  | some i =>
    have inside := inside i rfl
    simp only [setStructure, high_take inside, low_take inside, stamp_take inside]

theorem emit_take (inside : k < m) : emit (f.take m) s tr event k = emit f s tr event k := by
  simp only [emit, stamp_take inside, close_take inside]

theorem adopt_take (short : m ≤ f.length) (inside : k < m) : adopt (f.take m) s tr k = adopt f s tr k := by
  unfold adopt
  by_cases early : s.structureSwingOrder ≤ k
  · rw [beyondBand_take short (by omega), setStructure_take]
    intro i found
    cases found
    omega
  · simp [early]

theorem breaksStructure_take (inside : k < m) : breaksStructure (f.take m) s tr k = breaksStructure f s tr k := by
  simp only [breaksStructure, close_take inside]

theorem visited_take (inside : k < m) : visited (f.take m) s tr k = visited f s tr k := by
  have jump : jumps (f.take m) tr k = jumps f tr k := by
    simp only [jumps, open_take inside, close_take (show k - 1 < m by omega)]
  have overlap : overlaps (f.take m) tr k = overlaps f tr k := by
    simp only [overlaps, high_take inside, low_take inside]
  unfold visited arrive
  rw [jump, overlap, emit_take inside, emit_take inside]

theorem flipOver_take (short : m ≤ f.length) (inside : k < m) : flipOver (f.take m) s tr k = flipOver f s tr k := by
  unfold flipOver
  dsimp only
  rw [emit_take inside, structureSwing_take short inside, setStructure_take]
  intro i found
  have := mem_structureSwing found
  omega

theorem counted_take (short : m ≤ f.length) (inside : k < m) : counted (f.take m) s tr k = counted f s tr k := by
  have beyond : closesBeyond (f.take m) s tr k = closesBeyond f s tr k := by
    simp only [closesBeyond, close_take inside]
  have count : countBeyond (f.take m) s tr k = countBeyond f s tr k := by
    unfold countBeyond
    rw [beyond]
  unfold counted
  rw [count, flipOver_take short inside]

end Shorter

/-! ## The loop in two parts -/

variable (at_ : Option Int)

section Parts

variable (f : Frame) (s : ZoneSettings)

/-- The bars of a loop: the tracker after them, or the one that a break of the structure leaves. -/
def advanced (tr : ZoneTracker) : List Nat → Except ZoneTracker ZoneTracker
  | [] => .ok tr
  | k :: ks =>
      let tr := adopt f s tr k
      if breaksStructure f s tr k then
        .error { emit f s tr .structuralBreak k with invalidatedAt := some (stamp f k), lastBarAt := some (stamp f k) }
      else advanced (counted f s (visited f s tr k) k) ks

variable {f s} {tr : ZoneTracker} {m k : Nat} {ks : List Nat}

theorem trackBars_cons : trackBars f s tr (k :: ks) =
    if breaksStructure f s (adopt f s tr k) k then
      { emit f s (adopt f s tr k) .structuralBreak k with
        invalidatedAt := some (stamp f k), lastBarAt := some (stamp f k) }
    else trackBars f s (counted f s (visited f s (adopt f s tr k) k) k) ks := rfl

theorem advanced_cons : advanced f s tr (k :: ks) =
    if breaksStructure f s (adopt f s tr k) k then
      .error { emit f s (adopt f s tr k) .structuralBreak k with
        invalidatedAt := some (stamp f k), lastBarAt := some (stamp f k) }
    else advanced f s (counted f s (visited f s (adopt f s tr k) k) k) ks := rfl

theorem trackBars_append (ks ks' : List Nat) : trackBars f s tr (ks ++ ks') =
    match advanced f s tr ks with
    | .ok tr => trackBars f s tr ks'
    | .error broken => broken := by
  induction ks generalizing tr with
  | nil => rfl
  | cons k ks ih =>
    rw [List.cons_append, trackBars_cons, advanced_cons]
    split
    · rfl
    · exact ih

theorem advanced_take (short : m ≤ f.length) (inside : ∀ k ∈ ks, k < m) :
    advanced (f.take m) s tr ks = advanced f s tr ks := by
  induction ks generalizing tr with
  | nil => rfl
  | cons k ks ih =>
    have here := inside k List.mem_cons_self
    rw [advanced_cons, advanced_cons, adopt_take short here, breaksStructure_take here, emit_take here,
      stamp_take here, visited_take here, counted_take short here,
      ih fun i mem => inside i (List.mem_cons_of_mem k mem)]

/-! ## What the steps leave alone -/

/-- A tracker with another last bar. -/
def seenTo (tr : ZoneTracker) (at_ : Option Int) : ZoneTracker := { tr with lastBarAt := at_ }

theorem setStructure_seenTo (found : Option Nat) :
    setStructure f (seenTo tr at_) found = seenTo (setStructure f tr found) at_ := by
  cases found <;> rfl

theorem emit_seenTo (event : ZoneEvent) :
    emit f s (seenTo tr at_) event k = seenTo (emit f s tr event k) at_ := rfl

theorem adopt_seenTo : adopt f s (seenTo tr at_) k = seenTo (adopt f s tr k) at_ := by
  unfold adopt
  rw [setStructure_seenTo]
  exact (apply_ite (fun tr => seenTo tr at_) _ _ _).symm

theorem arrive_seenTo : arrive f s (seenTo tr at_) k = seenTo (arrive f s tr k) at_ := by
  unfold arrive
  rw [emit_seenTo, emit_seenTo, apply_ite (fun tr => seenTo tr at_), apply_ite (fun tr => seenTo tr at_)]
  rfl

theorem visited_seenTo : visited f s (seenTo tr at_) k = seenTo (visited f s tr k) at_ := by
  unfold visited
  rw [arrive_seenTo]
  rfl

theorem flipOver_seenTo : flipOver f s (seenTo tr at_) k = seenTo (flipOver f s tr k) at_ := by
  have turn : turned (emit f s (seenTo tr at_) .flip k) = seenTo (turned (emit f s tr .flip k)) at_ := rfl
  unfold flipOver
  dsimp only
  rw [turn, setStructure_seenTo]
  rfl

theorem counted_seenTo : counted f s (seenTo tr at_) k = seenTo (counted f s tr k) at_ := by
  have count : countBeyond f s (seenTo tr at_) k = seenTo (countBeyond f s tr k) at_ := rfl
  unfold counted
  rw [count, flipOver_seenTo]
  exact (apply_ite (fun tr => seenTo tr at_) _ _ _).symm

/-- The loop does not read the last bar that was seen. -/
theorem trackBars_seenTo : trackBars f s (seenTo tr at_) ks = trackBars f s tr ks := by
  induction ks generalizing tr with
  | nil => rfl
  | cons k ks ih =>
    rw [trackBars_cons, trackBars_cons, adopt_seenTo, visited_seenTo, counted_seenTo, ih]
    rfl

@[simp] theorem setStructure_state (found : Option Nat) : (setStructure f tr found).state = tr.state := by
  cases found <;> rfl

@[simp] theorem setStructure_checked (found : Option Nat) :
    (setStructure f tr found).structureChecked = tr.structureChecked := by
  cases found <;> rfl

/-- Only a break of the structure invalidates. -/
theorem transition_live {state : ZoneState} (live : state ≠ .invalidated)
    (other : event ≠ .structuralBreak) : transition state event ≠ .invalidated := by
  cases state <;> cases event <;> simp_all [transition]

/-- A live zone with a structure that was looked up. -/
structure Open (tr : ZoneTracker) : Prop where
  live : tr.state ≠ .invalidated
  checked : tr.structureChecked = true

theorem Open.adopt (open_ : Open tr) : Open (adopt f s tr k) := by
  unfold Zones.adopt
  split
  · exact ⟨by simpa using open_.live, by simpa using open_.checked⟩
  · exact open_

theorem Open.visited (open_ : Open tr) : Open (visited f s tr k) := by
  have arrived : Open (arrive f s tr k) := by
    unfold arrive
    split
    · exact ⟨transition_live open_.live (by simp), open_.checked⟩
    split
    · exact ⟨transition_live open_.live (by simp), open_.checked⟩
    · exact open_
  exact ⟨arrived.live, arrived.checked⟩

theorem Open.counted (open_ : Open tr) : Open (counted f s tr k) := by
  unfold Zones.counted
  split
  · unfold flipOver
    refine ⟨?_, ?_⟩
    · rw [setStructure_state]
      exact transition_live open_.live (by simp)
    · rw [setStructure_checked]
      exact open_.checked
  · exact ⟨open_.live, open_.checked⟩

/-- The loop leaves an open tracker open. -/
theorem advanced_open {tr' : ZoneTracker} (open_ : Open tr) (went : advanced f s tr ks = .ok tr') : Open tr' := by
  induction ks generalizing tr with
  | nil =>
    cases went
    exact open_
  | cons k ks ih =>
    rw [advanced_cons] at went
    split at went
    · cases went
    · exact ih open_.adopt.visited.counted went

/-- A break of the structure leaves a dead tracker. -/
theorem advanced_broken {broken : ZoneTracker} (went : advanced f s tr ks = .error broken) :
    broken.state = .invalidated := by
  induction ks generalizing tr with
  | nil => cases went
  | cons k ks ih =>
    rw [advanced_cons] at went
    split at went
    · cases went
      show transition _ .structuralBreak = .invalidated
      cases (adopt f s tr k).state <;> rfl
    · exact ih went

end Parts

/-! ## The seam -/

section Seam

variable {f : Frame} {s : ZoneSettings} {startAfter : Option Int} {tr : ZoneTracker} {m : Nat}

theorem firstAfter_take (f : Frame) (m : Nat) (after : Option Int) :
    firstAfter (f.take m) after = min m (firstAfter f after) := by
  cases after with
  | none => simp [firstAfter]
  | some t => exact List.findIdx_take

/-- The bars after the stamp of bar `i` start with bar `i + 1`. -/
theorem firstAfter_stamp (increasing : f.Pairwise fun a b => a.timestamp < b.timestamp)
    (inside : i < f.length) : firstAfter f (some (stamp f i)) = i + 1 := by
  have order : ∀ j k (hj : j < f.length) (hk : k < f.length), j < k → f[j].timestamp < f[k].timestamp :=
    List.pairwise_iff_getElem.mp increasing
  have here : stamp f i = f[i].timestamp := by simp [stamp, inside]
  unfold firstAfter
  rw [here]
  rcases Nat.lt_or_ge (i + 1) f.length with more | last
  · rw [List.findIdx_eq more]
    refine ⟨decide_eq_true (order i (i + 1) inside more (Nat.lt_succ_self i)), ?_⟩
    intro j before
    rw [decide_eq_false_iff_not, not_lt]
    rcases Nat.lt_or_ge j i with earlier | same
    · exact (order j i (by omega) inside earlier).le
    · obtain rfl : j = i := by omega
      exact le_rfl
  · rw [show i + 1 = f.length by omega, List.findIdx_eq_length]
    intro bar mem
    obtain ⟨j, bound, rfl⟩ := List.getElem_of_mem mem
    rw [decide_eq_false_iff_not, not_lt]
    rcases Nat.lt_or_ge j i with earlier | same
    · exact (order j i bound inside earlier).le
    · obtain rfl : j = i := by omega
      exact le_rfl

theorem open_start {first : Nat} (live : tr.state ≠ .invalidated) :
    Open (checkStructure f s (noteUnseen f tr first) first) := by
  have noted : (noteUnseen f tr first).state = tr.state := by
    unfold noteUnseen
    split
    · split <;> rfl
    · rfl
  unfold checkStructure
  split
  · rename_i checked
    exact ⟨noted ▸ live, checked⟩
  · refine ⟨?_, setStructure_checked _⟩
    rw [setStructure_state]
    exact noted ▸ live

/-- What a shorter frame starts its loop with. -/
theorem start_take {first : Nat} (short : m ≤ f.length) (inside : first < m) :
    checkStructure (f.take m) s (noteUnseen (f.take m) tr first) first =
      checkStructure f s (noteUnseen f tr first) first := by
  have noted : noteUnseen (f.take m) tr first = noteUnseen f tr first := by
    unfold noteUnseen
    rw [stamp_take (show 0 < m by omega)]
  unfold checkStructure
  rw [noted, structureSwing_take short inside.le, setStructure_take]
  intro i found
  have := mem_structureSwing found
  omega

theorem trackZone_dead (dead : tr.state = .invalidated) : trackZone f s startAfter tr = tr := by
  unfold trackZone
  rw [if_pos dead]

theorem trackZone_idle (idle : f.length ≤ firstAfter f (tr.lastBarAt.or startAfter)) :
    trackZone f s startAfter tr = tr := by
  unfold trackZone
  split
  · rfl
  · rw [if_pos idle]

/-- A night with new bars from bar `first` on. -/
theorem trackZone_new {first : Nat} (live : tr.state ≠ .invalidated)
    (starts : firstAfter f (tr.lastBarAt.or startAfter) = first) (new : first < f.length) :
    trackZone f s startAfter tr =
      trackBars f s (checkStructure f s (noteUnseen f tr first) first) (List.range' first (f.length - first)) := by
  unfold trackZone
  rw [if_neg live, starts, if_neg (by omega)]

section

variable (increasing : f.Pairwise fun a b => a.timestamp < b.timestamp)
include increasing

/-- The next night goes on with an open tracker that has seen the first `m` bars. -/
theorem trackZone_resume (open_ : Open tr) (some_ : 0 < m) (short : m ≤ f.length) :
    trackZone f s startAfter (seenTo tr (some (stamp f (m - 1)))) =
      trackBars f s tr (List.range' m (f.length - m)) := by
  have starts : firstAfter f ((seenTo tr (some (stamp f (m - 1)))).lastBarAt.or startAfter) = m := by
    show firstAfter f (some (stamp f (m - 1))) = m
    rw [firstAfter_stamp increasing (by omega)]
    omega
  rcases Nat.lt_or_ge m f.length with more | all
  · have live : (seenTo tr (some (stamp f (m - 1)))).state ≠ .invalidated := open_.live
    rw [trackZone_new live starts more]
    have noted : noteUnseen f (seenTo tr (some (stamp f (m - 1)))) m = seenTo tr (some (stamp f (m - 1))) := by
      unfold noteUnseen seenTo
      simp only
      rw [if_neg (by omega)]
    have checked : checkStructure f s (seenTo tr (some (stamp f (m - 1)))) m = seenTo tr (some (stamp f (m - 1))) := by
      unfold checkStructure
      rw [if_pos (by exact open_.checked)]
    rw [noted, checked, trackBars_seenTo]
  · obtain rfl : m = f.length := by omega
    rw [trackZone_idle (by rw [starts]), Nat.sub_self]
    rfl

/-- A night on the first `m` bars, before the night on the frame. -/
theorem trackZone_short (short : m ≤ f.length) :
    trackZone f s startAfter (trackZone (f.take m) s startAfter tr) = trackZone f s startAfter tr := by
  have lengths : (f.take m).length = m := List.length_take_of_le short
  have starts := firstAfter_take f m (tr.lastBarAt.or startAfter)
  by_cases dead : tr.state = .invalidated
  · rw [trackZone_dead dead]
  rcases Nat.lt_or_ge (firstAfter f (tr.lastBarAt.or startAfter)) m with new | idle
  · generalize first_eq : firstAfter f (tr.lastBarAt.or startAfter) = first at starts new
    rw [trackZone_new dead (by rw [starts]; omega : firstAfter (f.take m) _ = first) (by omega),
      trackZone_new dead first_eq (by omega), start_take short new, lengths]
    have parts : List.range' first (f.length - first) =
        List.range' first (m - first) ++ List.range' m (f.length - m) := by
      rw [show f.length - first = (m - first) + (f.length - m) by omega, ← List.range'_append_1,
        show first + (m - first) = m by omega]
    have inside : ∀ k ∈ List.range' first (m - first), k < m := by
      intro k mem
      have := List.mem_range'_1.mp mem
      omega
    have night := @trackBars_append (f.take m) s (checkStructure f s (noteUnseen f tr first) first)
      (List.range' first (m - first)) []
    rw [List.append_nil, advanced_take short inside] at night
    rw [night, parts, trackBars_append]
    cases went : advanced f s (checkStructure f s (noteUnseen f tr first) first) (List.range' first (m - first)) with
    | error broken => exact trackZone_dead (advanced_broken went)
    | ok tr' =>
      have next := advanced_open (open_start dead) went
      have seen : trackBars (f.take m) s tr' [] = seenTo tr' (some (stamp f (m - 1))) := by
        show seenTo tr' (some (stamp (f.take m) ((f.take m).length - 1))) = _
        rw [lengths, stamp_take (by omega)]
      simp only
      rw [seen]
      exact trackZone_resume increasing next (by omega) short
  · rw [@trackZone_idle (f.take m) s startAfter tr (by rw [starts, lengths]; omega)]

theorem trackZone_take (m : Nat) :
    trackZone f s startAfter (trackZone (f.take m) s startAfter tr) = trackZone f s startAfter tr := by
  rcases Nat.le_total m f.length with short | long
  · exact trackZone_short increasing short
  · have whole : f.take m = f.take f.length := by
      rw [List.take_length, List.take_of_length_le long]
    rw [whole]
    exact trackZone_short increasing le_rfl

theorem nightly_whole (cuts : List Nat) :
    nightly s startAfter ((cuts.map fun m => f.take m) ++ [f]) tr = some (trackZone f s startAfter tr) := by
  induction cuts generalizing tr with
  | nil => rfl
  | cons m cuts ih =>
    rw [List.map_cons, List.cons_append]
    unfold nightly
    rw [fromDict_toDict, Option.bind_some, ih, trackZone_take increasing]

end

/-- A stored tracker advanced over growing parts of a frame, and at last over the frame, is the tracker that one pass
over the frame leaves. The parts may come in any order. -/
theorem nightly_eq_trackZone (f : Frame) (increasing : f.Pairwise fun a b => a.timestamp < b.timestamp)
    (s : ZoneSettings) (startAfter : Option Int) (zoneLow zoneHigh : ℚ) (side : ZoneSide) (tol : ℚ)
    (startAt : Option Int) (cuts : List Nat) :
    nightly s startAfter ((cuts.map fun m => f.take m) ++ [f]) (newTracker zoneLow zoneHigh side tol startAt) =
      some (trackZone f s startAfter (newTracker zoneLow zoneHigh side tol startAt)) :=
  nightly_whole increasing cuts

/-- A demand zone from 100 to 105: touched, closed through, and then its structure at 95 broken. -/
def zoneBars : Frame :=
  [⟨0, 1, 110, 111, 108, 109⟩, ⟨1, 2, 109, 109, 95, 108⟩, ⟨2, 3, 108, 112, 107, 111⟩, ⟨3, 4, 111, 111, 104, 106⟩,
    ⟨4, 5, 106, 106, 97, 98⟩, ⟨5, 6, 98, 99, 96, 97⟩, ⟨6, 7, 97, 98, 90, 92⟩]

theorem nightly_eq_trackZone_zoneBars :
    nightly { structureSwingOrder := 1 } none ([3, 5].map (fun m => zoneBars.take m) ++ [zoneBars])
        (newTracker 100 105 .support 0 (some 2)) =
      some (trackZone zoneBars { structureSwingOrder := 1 } none (newTracker 100 105 .support 0 (some 2))) :=
  nightly_eq_trackZone zoneBars (by decide) { structureSwingOrder := 1 } none 100 105 .support 0 (some 2) [3, 5]

end Seam

end AdvanceTrading.Zones
