import AdvanceTrading.Misc.Dict
import AdvanceTrading.Misc.Foremost
import AdvanceTrading.PriceAction.Trendlines
import AdvanceTrading.Screener.MirroredSwings

/-!
# Pre-computed trendlines

Model of `app/screener/breakouts/lines.py:42-273` and of `_Side` and `_empty`
(`screens.py:118-128`, `262-265`, `322-326`): every anchor pair of the whole
frame with its first close beyond the line, the line chosen as of a bar, and the
columns of B5. A break that is not within reach is `none` (the source's infinity).
The grid of pairs is computed in chunks of rows there; the rows do not depend on
each other.
-/

namespace AdvanceTrading.Breakouts

open PriceAction Columns Recent

/-- `_EPS`. -/
def EPS : ℚ := 1 / 10 ^ 9

/-- `Bars.side`: the bars in "up" orientation; for the down side every price is negated and high and low swap. -/
def sideBars (up : Bool) (f : Frame) : Frame := if up then f else mirror 0 f

/-- The `tl_` parameters. -/
structure LineParams where
  order : Nat
  minGap : Nat
  maxSlope : ℚ
  touchTol : ℚ
  minTouches : Nat
  maxBars : Nat
  deriving DecidableEq, Repr

/-- The defaults of `params.py:254-265`. -/
def LineParams.defaults : LineParams where
  order := 3
  minGap := 5
  maxSlope := 1 / 2
  touchTol := 1 / 4
  minTouches := 2
  maxBars := 120

/-- `swing_positions`: the windows over the whole column at once. -/
def swingPositions (side : LineSide) (x : Nat → ℚ) (n order : Nat) : List Nat :=
  let w := 2 * order + 1
  if n < w then []
  else ((List.range (n - 2 * order)).filter fun j =>
    some (x (j + order)) = side.extreme ((List.range w).map fun k => x (j + k))).map (· + order)

/-- `ref_ranges`: `rr[t]` of the bars before `t`. With every range finite the medians are those of the bars so far up to
20 of them, then of the windows of 20. -/
def refRanges (rng : List (Option ℚ)) (t : Nat) : Option ℚ :=
  if rng.all Option.isSome then
    let values := rng.filterMap id
    if t < 10 then none
    else if t < 20 then some (median (values.take t))
    else some (median ((values.drop (t - 20)).take 20))
  else
    let arr := ((rng.take t).drop (t - 4 * 20)).filterMap id
    if arr.length < 10 then none else some (median (lastN 20 arr))

/-- `Line`. -/
structure Line where
  a : Nat
  b : Nat
  m : ℚ
  c0 : ℚ
  broken : Option Nat
  edge : ℚ
  edgeBroken : Option Nat
  deriving DecidableEq, Repr

/-- `Line.at`. -/
def Line.at_ (l : Line) (x : ℚ) : ℚ := l.m * x + l.c0

/-- `Lines`: the swings of one kind and every anchor pair, in the order of the arrays. -/
structure Lines where
  kind : LineSide
  rr : Nat → Option ℚ
  p : LineParams
  y : Nat → ℚ
  idx : List Nat
  pairs : List Line

/-! ## Every anchor pair -/

/-- The anchor pairs the grid keeps: at least the gap apart, and within the age limit of each other. -/
def anchorPairs (p : LineParams) (idx : List Nat) : List (Nat × Nat) :=
  idx.flatMap fun a => (idx.filter fun b => a + p.minGap ≤ b ∧ b ≤ a + p.maxBars).map fun b => (a, b)

/-- The channel offset: the highest high above the line in `[a, b]`. -/
def channelEdge (s : Frame) (a b : Nat) (m c0 : ℚ) : ℚ :=
  (((List.range (b - a + 1)).filterMap fun j =>
    if a + j < s.length then some (high s (a + j) - (m * (a + j : Nat) + c0)) else none).max?).getD 0

/-- One row of the grid: the pair's first break within the age limit, and its channel's. -/
def lineRow (s : Frame) (p : LineParams) (kind : LineSide) (edges : Bool) (a b : Nat) (m c0 : ℚ) : Line :=
  let span := List.range (p.maxBars + 1)
  let line := fun j => m * (a + j : Nat) + c0
  let edge := if edges then channelEdge s a b m c0 else 0
  { a := a
    b := b
    m := m
    c0 := c0
    broken := (span.find? fun j => a + j < s.length ∧ kind.beyond (close s (a + j)) (line j)).map (a + ·)
    edge := edge
    edgeBroken :=
      if edges then
        (span.find? fun j => a + j < s.length ∧ line j + edge + EPS < close s (a + j) ∧ b - a < j).map (a + ·)
      else none }

/-- `Lines.__init__` over the side's bars. -/
def Lines.build (s : Frame) (p : LineParams) (kind : LineSide) (rr : Nat → Option ℚ) (edges : Bool) : Lines :=
  let y := kind.column s
  let idx := swingPositions kind y s.length p.order
  { kind := kind
    rr := rr
    p := p
    y := y
    idx := idx
    pairs := (anchorPairs p idx).filterMap fun ab =>
      let m := (y ab.2 - y ab.1) / ((max (ab.2 - ab.1) 1 : Nat) : ℚ)
      if 0 < m * kind.slopeSign then some (lineRow s p kind edges ab.1 ab.2 m (y ab.1 - m * ab.1)) else none }

/-! ## The line as of a bar -/

/-- `np.searchsorted(xs, v)` of an ascending array. -/
def searchLeft (xs : List Nat) (v : Int) : Nat := (xs.takeWhile fun x : Nat => (x : Int) < v).length

/-- `np.searchsorted(xs, v, side="right")`. -/
def searchRight (xs : List Nat) (v : Int) : Nat := (xs.takeWhile fun x : Nat => (x : Int) ≤ v).length

/-- The pairs that are lines as of bar `t` but for their touches (`lines.py:161`). -/
def Lines.asOf (L : Lines) (rr : ℚ) (t : Nat) (k : Line) : Bool :=
  (k.b : Int) ≤ (t : Int) - 1 - L.p.order ∧ (t : Int) - L.p.maxBars ≤ k.a ∧ |k.m| ≤ L.p.maxSlope * rr ∧
    k.broken.all fun x => t ≤ x

/-- `Lines.select`: `while len(cand)`, the newest second anchor's pairs and of them the oldest first anchor, then the
next newest. A round leaves fewer candidates. -/
def Lines.select (L : Lines) (t : Nat) : Option Line :=
  match L.rr t with
  | none => none
  | some rr =>
    if rr ≤ 0 ∨ L.pairs = [] then none
    else
      let last : Int := (t : Int) - 1 - L.p.order
      let cand := L.pairs.filter (L.asOf rr t)
      let known := (L.idx.take (searchRight L.idx last)).drop (searchLeft L.idx ((t : Int) - L.p.maxBars))
      let touches := fun k : Line =>
        (known.filter fun i => |L.y i - (k.m * i + k.c0)| ≤ L.p.touchTol * rr ∧ k.a ≤ i).length
      Choice.rounds Line.b Line.a (fun k => L.p.minTouches ≤ touches k) cand.length cand

/-! ## The bars a line breaks on -/

/-- `attr` of `candidates`. -/
inductive BreakOf where
  | line
  | edge
  deriving DecidableEq, Repr

/-- The first break of a pair. -/
def BreakOf.first : BreakOf → Line → Option Nat
  | .line, k => k.broken
  | .edge, k => k.edgeBroken

/-- What is added to the line. -/
def BreakOf.offset : BreakOf → Line → ℚ
  | .line, _ => 0
  | .edge, k => k.edge

/-- The bar a pair is first closed beyond on, when the close is beyond by the buffer too and the pair is itself a line
there (`lines.py:190-207`). -/
def Lines.hit (L : Lines) (attr : BreakOf) (close : Nat → ℚ) (buf : Nat → Option ℚ) (k : Line) : Option Nat :=
  match attr.first k with
  | none => none
  | some tt =>
    match buf tt, L.rr tt with
    | some gap, some rr =>
      let last : Int := (tt : Int) - 1 - L.p.order
      let near := L.idx.filter fun i => |L.y i - (k.m * i + k.c0)| ≤ L.p.touchTol * rr ∧ k.a ≤ i ∧ (i : Int) ≤ last
      if k.m * tt + k.c0 + attr.offset k + gap < close tt ∧ 0 < rr ∧ (k.b : Int) ≤ last ∧ |k.m| ≤ L.p.maxSlope * rr ∧
          L.p.minTouches ≤ near.length then some tt
      else none
    | _, _ => none

/-- `Lines.candidates`. -/
def Lines.candidates (L : Lines) (attr : BreakOf) (close : Nat → ℚ) (buf : Nat → Option ℚ) : List Nat :=
  sortBy id (L.pairs.filterMap (L.hit attr close buf)).dedup

/-! ## B5 -/

/-- `event`. -/
inductive LineEvent where
  | trendline
  | channel
  deriving DecidableEq, Repr

/-- One row of the columns `_fill` writes. -/
structure BreakRow where
  raw : Bool := false
  level : Option ℚ := none
  failLevel : Option ℚ := none
  baseLen : Option Nat := none
  baseHigh : Option ℚ := none
  baseLow : Option ℚ := none
  event : Option LineEvent := none
  measuredMove : Option ℚ := none
  deriving DecidableEq, Repr

/-- The row `_fill` writes. -/
def fillRow (level : ℚ) (length : Nat) (baseLow : ℚ) (event : LineEvent) (move : Option ℚ) : BreakRow where
  raw := true
  level := some level
  failLevel := some level
  baseLen := some length
  baseHigh := some level
  baseLow := some baseLow
  event := some event
  measuredMove := move

/-- `tl_mode`. -/
inductive LineMode where
  | line
  | channel
  deriving DecidableEq, Repr

/-- The lines a mode reads: a falling resistance, or a rising support with its channel. -/
def LineMode.lines (mode : LineMode) (s : Frame) (p : LineParams) (rr : Nat → Option ℚ) : Lines :=
  match mode with
  | .line => Lines.build s p .resistance rr false
  | .channel => Lines.build s p .support rr true

/-- What a mode's candidates break. -/
def LineMode.breakOf : LineMode → BreakOf
  | .line => .line
  | .channel => .edge

/-- What bar `t` writes, if anything (`lines.py:233-235` and `239-244`). -/
def LineMode.signalAt (mode : LineMode) (s : Frame) (L : Lines) (buf : Nat → Option ℚ) (t : Nat) : Option BreakRow :=
  match L.select t, buf t with
  | some chosen, some gap =>
    match mode with
    | .line =>
      if chosen.at_ t + gap < close s t then
        some (fillRow (chosen.at_ t) (t - chosen.a) (lowest (low s) chosen.a (t - 1 - chosen.a)) .trendline none)
      else none
    | .channel =>
      let top := chosen.at_ t + chosen.edge
      if (chosen.edgeBroken.any fun x => x < t) then none
      else if top + gap < close s t then
        some (fillRow top (t - chosen.a) (chosen.at_ t) .channel (some (top + chosen.edge)))
      else none
  | _, _ => none

/-- The columns after the bars `ts` were looked at, one after the other. -/
def fillBars (signalAt : Nat → Option BreakRow) (out : List BreakRow) (ts : List Nat) : List BreakRow :=
  ts.foldl (fun out t => (signalAt t).elim out fun row => out.set t row) out

/-- `_empty`: the columns B5 writes. -/
def emptyRows (n : Nat) : List BreakRow := List.replicate n {}

/-- `b5` for one side of a frame; `buf` is `min_break_atr` times the ATR of the bar before. -/
def b5 (f : Frame) (up : Bool) (p : LineParams) (mode : LineMode) (buf : Nat → Option ℚ) : List BreakRow :=
  let s := sideBars up f
  let L := mode.lines s p (refRanges (ranges f))
  fillBars (mode.signalAt s L buf) (emptyRows f.length) (L.candidates mode.breakOf (close s) buf)

/-- The columns when the line is chosen on every bar. -/
def b5EveryBar (f : Frame) (up : Bool) (p : LineParams) (mode : LineMode) (buf : Nat → Option ℚ) : List BreakRow :=
  let s := sideBars up f
  let L := mode.lines s p (refRanges (ranges f))
  fillBars (mode.signalAt s L buf) (emptyRows f.length) (List.range f.length)

/-! ## The channel line -/

/-- The swing highs on the far edge, from the first anchor to the last swing known before `t`. -/
def edgeTouches (s : Frame) (L : Lines) (highs : List Nat) (rr : ℚ) (t : Nat) (line : Line) : Nat :=
  (highs.filter fun i => (line.a ≤ i ∧ (i : Int) ≤ (t : Int) - 1 - L.p.order) ∧
    |high s i - (line.m * i + line.c0 + line.edge)| ≤ L.p.touchTol * rr).length

/-- What `channel_line` writes at bar `t`. -/
def channelAt (s : Frame) (L : Lines) (highs : List Nat) (wanted : Nat) (t : Nat) : Option ℚ :=
  match L.select t with
  | none => none
  | some line =>
    if (line.edgeBroken.any fun x => x < t) then none
    else if 0 < wanted ∧ edgeTouches s L highs ((L.rr t).getD 0) t line < wanted then none
    else some (line.at_ t)

/-- `channel_line` for one side: the loop starts once the first second anchor is known. -/
def channelLine (f : Frame) (up : Bool) (p : LineParams) (wanted : Nat) : List (Option ℚ) :=
  let s := sideBars up f
  let L := Lines.build s p .support (refRanges (ranges f)) true
  let highs := if 0 < wanted then swingPositions .resistance (high s) s.length p.order else []
  match (L.pairs.map Line.b).min? with
  | none => List.replicate f.length none
  | some first =>
    (List.range f.length).map fun t =>
      if first + p.order + 1 ≤ t then channelAt s L highs wanted t else none

end AdvanceTrading.Breakouts
