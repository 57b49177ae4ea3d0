import AdvanceTrading.Misc.PyFloat
import AdvanceTrading.PriceAction.RealBreaks

/-!
# A price reversal at a level

Model of `app/price_action/reversal.py:57-250` and `:292-504`: the composite
rejection candle with its rules, the best window of a bar, the 0-100 score mode,
the one API over both and the chart markers. Prices are rationals in exact
arithmetic; the composite mode divides numpy floats, where a range of zero leaves
an infinity or NaN (`Num`), the score mode Python floats, where it is the error
`none`.

`Settings` are what `pa_settings.settings` returns: the checks that the results
rest on are its fields.
-/

namespace AdvanceTrading.Reversal

open PriceAction Columns Py

/-! ## Data -/

/-- BULLISH or BEARISH (`_dirn`). -/
inductive Direction where
  | bullish
  | bearish
  deriving DecidableEq, Repr

/-- `dirn * x`. -/
def Direction.times : Direction → ℚ → ℚ
  | .bullish, x => x
  | .bearish, x => -x

/-- Why a window is refused. -/
inductive Reason where
  | noData
  | noTouch
  | inv
  | noReclaim
  | lastAgainst
  | path
  | weak
  | exhaustion
  | noBody
  | indecisive
  | lowScore
  deriving DecidableEq, Repr

/-- `_STAGE`. -/
def Reason.stage : Reason → Int
  | .noData => -1
  | .noTouch => 0
  | .inv => 1
  | .noReclaim => 2
  | .lastAgainst => 3
  | .path => 3
  | .weak => 4
  | .exhaustion => 4
  | .noBody => 4
  | .indecisive => 5
  | .lowScore => 6

/-- `_STAGE.get(reason, -1)`. -/
def stage (reason : Option Reason) : Int := (reason.map Reason.stage).getD (-1)

/-- `REASON_TEXT`. -/
def Reason.text : Reason → String
  | .noData => "not enough closed candles to measure the market's normal range"
  | .noTouch => "price did not reach the level"
  | .inv => "price went beyond the invalidation level"
  | .noReclaim => "price did not close back on the level's side"
  | .lastAgainst => "the last candle closed against the direction"
  | .path => "the last candle gave back more than half of the move"
  | .weak => "the candles were too small compared with the normal range (no real push)"
  | .exhaustion => "the candles were too large compared with the normal range (spike / exhaustion)"
  | .noBody => "no body in the direction and no deep reclaim"
  | .indecisive => "the close sits in the middle of the range (indecision) - a follow-through candle is needed"
  | .lowScore => "the rejection was not strong enough"

/-- `SCORE_REASON`. -/
def Reason.code : Reason → Option String
  | .noData => some "REJECTION_NO_DATA"
  | .noTouch => some "REJECTION_NO_TOUCH"
  | .noReclaim => some "REJECTION_NO_RECLAIM"
  | .lastAgainst => some "REJECTION_LAST_CANDLE_AGAINST"
  | .weak => some "REJECTION_WEAK_CANDLE"
  | .exhaustion => some "REJECTION_EXHAUSTION"
  | .indecisive => some "REJECTION_INDECISION"
  | .lowScore => some "REJECTION_SCORE"
  | _ => none

/-- The classic names of `_label` and `_score_label`, for logs and charts. -/
inductive Label where
  | hammer
  | shootingStar
  | marubozu
  | engulfing
  | piercing
  | darkCloud
  | star
  | failedBreakdown
  | failedBreakout
  | other
  deriving DecidableEq, Repr

/-- `reversal_mode`. -/
inductive Mode where
  | composite
  | score100
  deriving DecidableEq, Repr

/-- `strength_cap_mode`. -/
inductive CapMode where
  | fixed
  | logic
  deriving DecidableEq, Repr

/-- `reclaim_ref`. -/
inductive ReclaimRef where
  | touchedLevel
  | zoneHigh
  deriving DecidableEq, Repr

/-- `body_term_mode`. -/
inductive BodyMode where
  | bullBody
  | bodyOrReclaim
  deriving DecidableEq, Repr

/-- `followthrough_mode`. -/
inductive FollowMode where
  | legacy
  | addendum
  deriving DecidableEq, Repr

/-- `rejection_weights`. -/
structure RejectionWeights where
  wick : ℚ := 3 / 10
  closeLoc : ℚ := 3 / 10
  body : ℚ := 1 / 5
  time : ℚ := 1 / 5
  div : ℚ := 0
  deriving DecidableEq, Repr

/-- `score_weights`. -/
structure ScoreWeights where
  wick : ℚ := 30
  closeLoc : ℚ := 20
  bounce : ℚ := 20
  sweep : ℚ := 15
  deriving DecidableEq, Repr

/-- The settings that a reversal reads, as `pa_settings.settings` lets them through. -/
structure Settings where
  reversalMode : Mode := .composite
  medianRangeN : Nat := 20
  touchReclaimWindow : Nat := 3
  touchTolMr : ℚ := 0
  strengthMin : ℚ := 6 / 5
  strengthMax : ℚ := 5 / 2
  strengthCapMode : CapMode := .fixed
  strengthRiskGuardMult : ℚ := 0
  indecisionBand : ℚ × ℚ := (2 / 5, 3 / 5)
  rejectionWeights : RejectionWeights := {}
  rejectionMin : ℚ := 3 / 5
  reclaimRef : ReclaimRef := .touchedLevel
  pathChecks : Bool := false
  n3Penalty : ℚ := 0
  bodyTermMode : BodyMode := .bullBody
  minBodyFrac : ℚ := 1 / 10
  minBodyOrReclaim : Bool := false
  wReclaimDepth : ℚ := 0
  wOverlap : ℚ := 0
  followthroughMode : FollowMode := .legacy
  followthroughMaxBars : Nat := 1
  followthroughScoreGate : Bool := false
  followthroughScoreRelax : ℚ := 1 / 20
  scoreMin : ℚ := 60
  scoreTouchTolPct : ℚ := 1 / 10
  scoreWeights : ScoreWeights := {}
  scoreSpeed : List ℚ := [15, 10, 5]
  scoreBounceFullMr : ℚ := 2
  scoreMinMedianCandles : Nat := 10
  median_pos : 1 ≤ medianRangeN := by decide
  window_pos : 1 ≤ touchReclaimWindow := by decide
  candles_pos : 1 ≤ scoreMinMedianCandles := by decide
  three_speeds : scoreSpeed.length = 3 := by decide

/-! ## Composite mode -/

/-- `Bars`: the columns of a frame of `n` bars and its median ranges. -/
structure Bars where
  o : Nat → ℚ
  h : Nat → ℚ
  l : Nat → ℚ
  c : Nat → ℚ
  mr : Nat → Option ℚ
  n : Nat

/-- Column `open`. -/
def open_ (f : Frame) (i : Nat) : ℚ := (f[i]?.map SwingBar.open_).getD 0

/-- `Bars(frame, median_range(frame, n))`. -/
def barsOf (f : Frame) (medianRangeN : Nat) : Bars where
  o := open_ f
  h := high f
  l := low f
  c := close f
  mr := Breaks.medianRange f medianRangeN
  n := f.length

/-- First open, highest high, lowest low and last close, in real prices. -/
structure Composite where
  o : ℚ
  h : ℚ
  l : ℚ
  c : ℚ
  deriving DecidableEq, Repr

/-- A part of the composite score. -/
inductive Part where
  | wick
  | closeLoc
  | body
  | time
  | div
  | reclaimDepth
  | lowOverlap
  deriving DecidableEq, Repr

/-- What `evaluate_window` returns. -/
structure Result where
  ok : Bool := false
  reason : Option Reason := some .noData
  n : Nat
  score : Py.Num := .fin 0
  touched : Option ℚ := none
  comp : Option Composite := none
  closeLoc : Option ℚ := none
  rngRatio : Option ℚ := none
  parts : List (Part × Py.Num) := []
  label : Option Label := none
  followthrough : Bool := false
  deriving DecidableEq, Repr

/-- The keyword arguments of `evaluate_window`. `mrOverride` at a window start is None, NaN or a number. -/
structure Extras where
  inv : Option ℚ := none
  minStart : Nat := 0
  extremeIdx : Option Int := none
  barsLastSubleg : Option Int := none
  divOk : Option Bool := none
  reclaimRef : Option ReclaimRef := none
  mrOverride : Nat → Option (Option ℚ) := fun _ => none
  rmin : Option ℚ := none

/-- What a window reads of its bars, mirrored for a bearish read. -/
structure View where
  o : ℚ
  h : ℚ
  l : ℚ
  c : ℚ
  closes : List ℚ
  fo : ℚ
  fc : ℚ
  mo : ℚ
  mc : ℚ
  lastO : ℚ
  lastC : ℚ
  lastH : ℚ
  prevC : ℚ
  /-- The highest high and the lowest low of the three bars before. -/
  prior : Option (ℚ × ℚ)

/-- The composite of bars `a..j`. -/
def composite (b : Bars) (a j : Nat) : Composite where
  o := b.o a
  h := highest b.h a (j - a)
  l := lowest b.l a (j - a)
  c := b.c j

/-- `_window`, and the readings of single bars in `evaluate_window`. -/
def view (b : Bars) (a j n : Nat) : Direction → View
  | .bullish => {
      o := b.o a
      h := highest b.h a (j - a)
      l := lowest b.l a (j - a)
      c := b.c j
      closes := (List.range' a (j + 1 - a)).map b.c
      fo := b.o a
      fc := b.c a
      mo := if 2 ≤ n then b.o (a + 1) else b.o a
      mc := if 2 ≤ n then b.c (a + 1) else b.c a
      lastO := b.o j
      lastC := b.c j
      lastH := b.h j
      prevC := b.c (j - 1)
      prior := if 0 < a then some
        (highest b.h (a - 3) (a - 1 - (a - 3)), lowest b.l (a - 3) (a - 1 - (a - 3))) else none }
  | .bearish => {
      o := -b.o a
      h := -lowest b.l a (j - a)
      l := -highest b.h a (j - a)
      c := -b.c j
      closes := (List.range' a (j + 1 - a)).map fun i => -b.c i
      fo := -b.o a
      fc := -b.c a
      mo := if 2 ≤ n then -b.o (a + 1) else -b.o a
      mc := if 2 ≤ n then -b.c (a + 1) else -b.c a
      lastO := -b.o j
      lastC := -b.c j
      lastH := -b.l j
      prevC := -b.c (j - 1)
      prior :=
        if 0 < a then some (-lowest b.l (a - 3) (a - 1 - (a - 3)), -highest b.h (a - 3) (a - 1 - (a - 3))) else none }

/-- `_label`. -/
def label (n : Nat) (v : View) (d : Direction) : Label :=
  let rng := v.h - v.l
  if rng ≤ 0 then .other
  else
    let wick := (min v.o v.c - v.l) / rng
    let cl := (v.c - v.l) / rng
    let body := |v.c - v.o| / rng
    let lo1 := min v.fo v.fc
    let hi1 := max v.fo v.fc
    if n = 1 then
      if 1 / 2 ≤ wick ∧ 3 / 5 ≤ cl then (if d = .bullish then .hammer else .shootingStar)
      else if 3 / 5 ≤ body ∧ 4 / 5 ≤ cl then .marubozu
      else .other
    else if n = 2 then
      if v.fc < v.fo ∧ v.mo ≤ v.fc + 1 / 10 ^ 12 ∧ v.fo ≤ v.mc then .engulfing
      else if v.fc < v.fo ∧ lo1 < hi1 ∧ lo1 + 1 / 2 * (hi1 - lo1) ≤ v.c ∧ v.c ≤ hi1 then
        (if d = .bullish then .piercing else .darkCloud)
      else .other
    else if v.fc < v.fo ∧ |v.mc - v.mo| ≤ 3 / 10 * max (hi1 - lo1) (1 / 10 ^ 12) ∧ lo1 + 1 / 2 * (hi1 - lo1) ≤ v.c then
      .star
    else .other

/-- `np.clip(x, 0.0, 1.0)`. -/
def clip (x : ℚ) : ℚ := min (max x 0) 1

/-- `depth`: how far the close is back into the first candle's body, of a first candle against the direction. -/
def depth (v : View) (n : Nat) : ℚ :=
  let hi1 := max v.fo v.fc
  let lo1 := min v.fo v.fc
  if 2 ≤ n ∧ lo1 < hi1 ∧ v.fc < v.fo then clip ((v.c - lo1) / (hi1 - lo1)) else 0

/-- The rules between the reclaim and the strength, the failed one. -/
def lateReason (v : View) (ref closeLoc m : ℚ) (n : Nat) (s : Settings) : Option Reason :=
  let rng := v.h - v.l
  if v.c ≤ ref then some .noReclaim
  else if 2 ≤ n ∧ v.lastC ≤ v.lastO then some .lastAgainst
  else if 2 ≤ n ∧ s.pathChecks ∧ Py.Num.lt (.fin (1 / 2))
    (Py.Num.quotient (max v.lastH v.prevC - v.c) rng) then some .path
  else if rng < s.strengthMin * m then some .weak
  else if s.strengthMax * m < rng then
    if s.strengthCapMode = .fixed ∨ closeLoc < 3 / 5 then some .exhaustion
    else if 0 < s.strengthRiskGuardMult ∧ s.strengthRiskGuardMult * m < rng then some .exhaustion
    else none
  else none

/-- `body_v`. -/
def bodyValue (v : View) (n : Nat) (s : Settings) : Py.Num :=
  let bodyBull := Py.Num.scale (if v.o < v.c then 1 else 0) (Py.Num.quotient |v.c - v.o| (v.h - v.l))
  if s.bodyTermMode = .bodyOrReclaim ∧ 1 / 2 ≤ depth v n then Py.Num.max bodyBull (.fin (depth v n)) else bodyBull

/-- `comps`: the parts of the score with their weights. -/
def components (v : View) (touched m : ℚ) (n j : Nat) (s : Settings) (kw : Extras) : List (Part × ℚ × Py.Num) :=
  let rng := v.h - v.l
  let w := s.rejectionWeights
  [(.wick, w.wick, Py.Num.quotient (min v.o v.c - v.l) rng), (.closeLoc, w.closeLoc, Py.Num.quotient (v.c - v.l) rng),
    (.body, w.body, bodyValue v n s)] ++
  (match kw.extremeIdx, kw.barsLastSubleg with
    | some extreme, some bars => [(.time, w.time, .fin (if (j : Int) - extreme ≤ bars then 1 else 0))]
    | _, _ => []) ++
  (match kw.divOk with
    | some ok => [(.div, w.div, .fin (if ok then 1 else 0))]
    | none => []) ++
  (if 0 < s.wReclaimDepth then
    [(.reclaimDepth, s.wReclaimDepth, .fin (1 / 2 * (clip ((v.c - touched) / m) + clip ((touched - v.l) / m))))]
  else []) ++
  (match v.prior with
    | some (ph, pl) =>
        if 0 < s.wOverlap then
          let ov := Py.Num.quotient (max 0 (min v.h ph - max v.l pl)) rng
          [(.lowOverlap, s.wOverlap, Py.Num.add (.fin 1) (Py.Num.scale (-1) (Py.Num.min ov (.fin 1))))]
        else []
    | none => [])

/-- `score`: the weighted mean of the parts, less the penalty of a long window. -/
def scoreOf (comps : List (Part × ℚ × Py.Num)) (n : Nat) (s : Settings) : Py.Num :=
  let tw := (comps.map fun comp => comp.2.1).sum
  let score := if 0 < tw then
    Py.Num.per (Py.Num.sum (comps.map fun comp => Py.Num.scale comp.2.1 comp.2.2)) tw else .fin 0
  if 3 ≤ n ∧ 0 < s.n3Penalty then Py.Num.add score (.fin (-s.n3Penalty)) else score

/-- `rejection_min`, or its override. -/
def minimumScore (s : Settings) (kw : Extras) : ℚ := kw.rmin.getD s.rejectionMin

/-- The rules of a window from the touch on. `out` has what is known before; `lv` are the levels in mirrored
prices, lowest first, and `top` the last of them. -/
def rules (v : View) (lv : List ℚ) (top m tol : ℚ) (n j : Nat) (d : Direction) (s : Settings)
    (kw : Extras) (closeLoc : ℚ)
    (out : Result) : Result :=
  if top + tol < v.l then { out with reason := some .noTouch }
  else if kw.inv.any fun inv => v.l ≤ d.times inv || v.closes.any (· ≤ d.times inv) then
    { out with reason := some .inv }
  else
    -- The deepest level touched; the last one is.
    let touched := (lv.find? fun x => v.l ≤ x + tol).getD top
    let out := { out with touched := some (d.times touched) }
    let ref := if kw.reclaimRef.getD s.reclaimRef = .touchedLevel then touched else top
    match lateReason v ref closeLoc m n s with
    | some reason => { out with reason := some reason }
    | none =>
        if s.minBodyOrReclaim ∧ Py.Num.lt (Py.Num.quotient (v.c - v.o) (v.h - v.l))
          (.fin s.minBodyFrac) ∧ depth v n < 1 / 2 then
          { out with reason := some .noBody }
        else
          let comps := components v touched m n j s kw
          let score := scoreOf comps n s
          let out := { out with
            score := score
            parts := comps.map fun (comp : Part × ℚ × Py.Num) => (comp.1, Py.Num.roundTo 4 comp.2.2) }
          if s.indecisionBand.1 ≤ closeLoc ∧ closeLoc ≤ s.indecisionBand.2 then { out with reason := some .indecisive }
          else if Py.Num.lt score (.fin (minimumScore s kw)) then { out with reason := some .lowScore }
          else { out with ok := true, reason := none }

/-- The strength reference of a window that starts at bar `a`. -/
def strengthReference (b : Bars) (kw : Extras) (a : Nat) : Option ℚ := (kw.mrOverride a).getD (b.mr a)

/-- `evaluate_window`: the window of `n` bars that ends on bar `j`. -/
def evaluateWindow (b : Bars) (j n : Nat) (d : Direction) (levels : List ℚ) (tol : ℚ) (s : Settings) (kw : Extras) :
    Result :=
  let out : Result := { n := n }
  let a := j + 1 - n
  if j + 1 < n ∨ a < kw.minStart ∨ b.n ≤ j then out
  else
    let lv := (levels.map d.times).insertionSort (· ≤ ·)
    match lv.getLast?, strengthReference b kw a with
    | some top, some m =>
        if m ≤ 0 then out
        else
          let v := view b a j n d
          let rng := v.h - v.l
          let closeLoc := if 0 < rng then (v.c - v.l) / rng else 0
          rules v lv top m tol n j d s kw closeLoc
            { out with comp := some (composite b a j), closeLoc := some closeLoc, rngRatio := some (rng / m),
                       label := some (label n v d) }
    | _, _ => out

/-- The `>` of the key `(score, -n)`. -/
def betterKey (x y : Py.Num × Nat) : Bool := if Py.Num.eq x.1 y.1 then x.2 < y.2 else Py.Num.lt y.1 x.1

/-- The `>` of the key `(stage, score, -n)`. -/
def closerKey (x y : Int × Py.Num × Nat) : Bool := if x.1 = y.1 then betterKey x.2 y.2 else y.1 < x.1

/-- The best of the windows that pass; otherwise the closest of those that fail. -/
def bestOf (res : List Result) : Option Result :=
  if (res.filter Result.ok).isEmpty then maxBy closerKey (fun r => (stage r.reason, r.score, r.n)) res
  else maxBy betterKey (fun r => (r.score, r.n)) (res.filter Result.ok)

section Evaluate

variable (b : Bars) (j : Nat) (d : Direction) (levels : List ℚ) (tol : ℚ) (s : Settings) (kw : Extras)

/-- The windows of `1..nmax` bars that end on a bar. -/
def windows (j nmax : Nat) : List Result := (List.range' 1 nmax).map fun n => evaluateWindow b j n d levels tol s kw

/-- The windows of bar `j - k` that bar `j` carries through. -/
def carried (k nmax : Nat) : List Result :=
  (List.range' 1 nmax).filterMap fun n =>
    let prev := evaluateWindow b (j - k) n d levels tol s kw
    let mw := evaluateWindow b j (n + k) d levels tol s kw
    if prev.reason ≠ some .indecisive then none
    else if s.followthroughScoreGate ∧
        (mw.parts.isEmpty ∨ Py.Num.lt mw.score (.fin (minimumScore s kw - s.followthroughScoreRelax))) then none
    else some { prev with ok := true, reason := none, n := n + k, followthrough := true,
                          comp := some (composite b (j - k + 1 - n) j) }

/-- The loop of `_followthrough` from `k` on, with `left` turns to go. -/
def followthroughFrom (nmax : Nat) : Nat → Nat → List Result
  | 0, _ => []
  | left + 1, k =>
      if j < k then []
      else if kw.inv.any fun inv => (List.range' (j - k + 1) k).any fun x => d.times (b.c x) ≤ d.times inv then []
      else if d.times (b.c j - b.c (j - k)) ≤ 0 then followthroughFrom nmax left (k + 1)
      else if (List.range' (j - k + 1) (k - 1)).any fun x => (windows b d levels tol s kw x nmax).any Result.ok then []
      else carried b j d levels tol s kw k nmax ++ followthroughFrom nmax left (k + 1)

/-- `_followthrough`. -/
def followthrough (nmax : Nat) : List Result := followthroughFrom b j d levels tol s kw nmax s.followthroughMaxBars 1

/-- The candidates that `evaluate` adds to the windows of bar `j`. -/
def added : List Result :=
  let nmax := s.touchReclaimWindow
  if 1 ≤ j ∧ j < b.n then
    match s.followthroughMode with
    | .legacy =>
        if (evaluateWindow b (j - 1) nmax d levels tol s kw).reason = some .indecisive ∧
          0 < d.times (b.c j - b.o j) then
          [evaluateWindow b j (nmax + 1) d levels tol s kw]
        else []
    | .addendum => followthrough b j d levels tol s kw nmax
  else []

/-- `evaluate`. -/
def evaluate : Option Result :=
  bestOf (windows b d levels tol s kw j s.touchReclaimWindow ++ added b j d levels tol s kw)

end Evaluate

/-! ## Score mode -/

/-- A part of the 0-100 score. -/
inductive ScorePart where
  | wick
  | closeLoc
  | bounce
  | sweep
  | speed
  deriving DecidableEq, Repr

/-- `composite`: the merged candle and when it starts and ends. -/
structure TimedComposite where
  comp : Composite
  tsStart : Option Int
  tsEnd : Option Int
  deriving DecidableEq, Repr

/-- What `score_window` returns. -/
structure ScoreResult where
  ok : Bool := false
  reason : Option Reason := some .noData
  n : Nat
  score : ℚ := 0
  parts : List (ScorePart × ℚ) := []
  label : Option Label := none
  composite : Option TimedComposite := none
  medianRange : Option ℚ := none
  closeLoc : Option ℚ := none
  sweep : Bool := false
  deriving DecidableEq, Repr

/-- `_score_label`. -/
def scoreLabel (n : Nat) (sweep : Bool) (d : Direction) : Label :=
  if sweep then (if d = .bullish then .failedBreakdown else .failedBreakout)
  else if n = 1 then (if d = .bullish then .hammer else .shootingStar)
  else if n = 2 then .engulfing
  else .star

/-- The ranges of bars `a, …, a + k - 1`. -/
def ranges (f : Frame) (a k : Nat) : List ℚ := (List.range' a k).map fun i => high f i - low f i

/-- `med`: the median range of the candles before the window, 0 of too few. -/
def medianBefore (f : Frame) (n : Nat) (s : Settings) : ℚ :=
  let start := f.length - n - s.medianRangeN
  let hist := ranges f start (f.length - n - start)
  if s.scoreMinMedianCandles ≤ hist.length then median hist else 0

/-- `composite(window)` of bars `a..j`. -/
def timedComposite (f : Frame) (a j : Nat) : TimedComposite where
  comp := { o := open_ f a, h := highest (high f) a (j - a), l := lowest (low f) a (j - a), c := close f j }
  tsStart := f[a]?.map SwingBar.timestamp
  tsEnd := f[j]?.map SwingBar.timestamp

/-- `closes`: the closes of the window in mirrored prices. -/
def closesOf (f : Frame) (a j : Nat) (d : Direction) : List ℚ :=
  (List.range' a (j + 1 - a)).map fun i => d.times (close f i)

/-- `clamp`. -/
def clamp (x : ℚ) : ℚ := max 0 (min 1 x)

/-- `x / y` of Python floats. -/
def divide (x y : ℚ) : Option ℚ := if y = 0 then none else some (x / y)

/-- The score of a window that passed the rules before it. The errors are divisions by zero. -/
def scoreParts (o h l c lv med : ℚ) (closes : List ℚ) (n : Nat) (d : Direction) (s : Settings) (closeLoc : ℚ)
    (out : ScoreResult) : Option ScoreResult := do
  let rng := h - l
  -- A close beyond the level, and one after it back on the level's side.
  let sweep := decide (2 ≤ n) && (closes.dropWhile fun x => lv ≤ x).tail.any fun x => lv ≤ x
  let wick ← divide (min o c - l) rng
  let bounce ← divide ((c - l) / med) s.scoreBounceFullMr
  let parts := [(ScorePart.wick, roundTo 1 (s.scoreWeights.wick * clamp wick)),
    (.closeLoc, roundTo 1 (s.scoreWeights.closeLoc * clamp closeLoc)),
    (.bounce, roundTo 1 (s.scoreWeights.bounce * clamp bounce)),
    (.sweep, if sweep then s.scoreWeights.sweep else 0),
    (.speed, if n ≤ s.scoreSpeed.length then s.scoreSpeed.getD (n - 1) 0 else 0)]
  let score := roundTo 1 (parts.map Prod.snd).sum
  let out := { out with parts := parts, score := score, label := some (scoreLabel n sweep d), sweep := sweep }
  if s.indecisionBand.1 ≤ closeLoc ∧ closeLoc ≤ s.indecisionBand.2 then some { out with reason := some .indecisive }
  else if score < s.scoreMin then some { out with reason := some .lowScore }
  else some { out with ok := true, reason := none }

/-- `score_window`: the last `n` closed candles of a frame. -/
def scoreWindow (f : Frame) (n : Nat) (level : ℚ) (d : Direction) (s : Settings) : Option ScoreResult :=
  let out : ScoreResult := { n := n }
  if f.length < n + s.scoreMinMedianCandles then some out
  else
    let a := f.length - n
    let j := f.length - 1
    let med := medianBefore f n s
    let timed := timedComposite f a j
    let out := { out with composite := some timed, medianRange := if med = 0 then none else some (roundTo 6 med) }
    if med ≤ 0 then some out
    else
      let tol := |level| * s.scoreTouchTolPct / 100
      let o := d.times timed.comp.o
      let h := d.times (if d = .bullish then timed.comp.h else timed.comp.l)
      let l := d.times (if d = .bullish then timed.comp.l else timed.comp.h)
      let c := d.times timed.comp.c
      let lv := d.times level
      let rng := h - l
      let closeLoc := if 0 < rng then (c - l) / rng else 0
      let out := { out with closeLoc := some (roundTo 3 closeLoc) }
      if lv + tol < l then some { out with reason := some .noTouch }
      else if c < lv then some { out with reason := some .noReclaim }
      else if 2 ≤ n ∧ ¬ (if d = .bullish then open_ f j < close f j else close f j < open_ f j) then
        some { out with reason := some .lastAgainst }
      else if rng < s.strengthMin * med then some { out with reason := some .weak }
      else if s.strengthMax * med < rng then some { out with reason := some .exhaustion }
      else scoreParts o h l c lv med (closesOf f a j d) n d s closeLoc out

/-- The `>` of the key `(score, -n)` of the score mode. -/
def betterScore (x y : ℚ × Nat) : Bool := if x.1 = y.1 then x.2 < y.2 else y.1 < x.1

/-- The `>` of the key `(stage, score, -n)` of the score mode. -/
def closerScore (x y : Int × ℚ × Nat) : Bool := if x.1 = y.1 then betterScore x.2 y.2 else y.1 < x.1

/-- The follow-through candidate of the score mode. -/
def scoreAdded (f : Frame) (level : ℚ) (d : Direction) (s : Settings) : Option (List ScoreResult) :=
  let nmax := s.scoreSpeed.length
  let j := f.length - 1
  if nmax + 2 ≤ f.length then do
    let prev ← scoreWindow f.dropLast nmax level d s
    if prev.reason = some .indecisive ∧ (if d = .bullish then open_ f j < close f j else close f j < open_ f j) then
      let more ← scoreWindow f (nmax + 1) level d s
      some [more]
    else some []
  else some []

/-- The best scored window that passes; otherwise the closest of those that fail. -/
def bestScored (res : List ScoreResult) : Option ScoreResult :=
  if (res.filter ScoreResult.ok).isEmpty then maxBy closerScore (fun r => (stage r.reason, r.score, r.n)) res
  else maxBy betterScore (fun r => (r.score, r.n)) (res.filter ScoreResult.ok)

/-- `score_rejection`. -/
def scoreRejection (f : Frame) (level : ℚ) (d : Direction) (s : Settings) : Option ScoreResult := do
  let results ← (List.range' 1 s.scoreSpeed.length).mapM fun n => scoreWindow f n level d s
  let more ← scoreAdded f level d s
  bestScored (results ++ more)

/-! ## The one API -/

/-- `parts` of either mode. -/
inductive Parts where
  | composite (parts : List (Part × Py.Num))
  | score100 (parts : List (ScorePart × ℚ))
  deriving DecidableEq, Repr

/-- What `evaluate_reversal` returns; a key that a mode does not set has its empty value. -/
structure Reply where
  valid : Bool
  score : Py.Num
  scorePct : Py.Num
  parts : Parts
  reason : Option Reason
  reasonText : Option String
  reasonCode : Option String := none
  label : Option Label
  n : Nat
  touched : Option ℚ
  composite : Option Composite
  times : Option (Option Int × Option Int) := none
  closeLoc : Option ℚ
  sweep : Bool := false
  followthrough : Bool := false
  mode : Mode
  deriving DecidableEq, Repr

/-- The reply without candles or levels. -/
def noCandles (mode : Mode) : Reply where
  valid := false
  score := .fin 0
  scorePct := .fin 0
  parts := .composite []
  reason := some .noData
  reasonText := some Reason.noData.text
  label := none
  n := 0
  touched := none
  composite := none
  closeLoc := none
  mode := mode

/-- The near edge of a zone, which the score mode works on. -/
def nearEdge (levels : List ℚ) : Direction → ℚ
  | .bullish => (levels.max?).getD 0
  | .bearish => (levels.min?).getD 0

/-- The reply of the score mode. -/
def scoreReply (lvl : ℚ) (r : ScoreResult) : Reply where
  valid := r.ok
  score := .fin r.score
  scorePct := .fin r.score
  parts := .score100 r.parts
  reason := r.reason
  reasonText := r.reason.map Reason.text
  reasonCode := r.reason.bind Reason.code
  label := r.label
  n := r.n
  touched := if r.reason = some .noData ∨ r.reason = some .noTouch then none else some lvl
  composite := r.composite.map TimedComposite.comp
  times := r.composite.map fun timed => (timed.tsStart, timed.tsEnd)
  closeLoc := r.closeLoc
  sweep := r.sweep
  mode := .score100

/-- The reply of the composite mode. -/
def compositeReply (r : Result) : Reply where
  valid := r.ok
  score := Py.Num.roundTo 4 r.score
  scorePct := Py.Num.roundTo 1 (Py.Num.scale 100 (Py.Num.max r.score (.fin 0)))
  parts := .composite r.parts
  reason := r.reason
  reasonText := r.reason.map Reason.text
  label := r.label
  n := r.n
  touched := r.touched
  composite := r.comp
  closeLoc := r.closeLoc
  followthrough := r.followthrough
  mode := .composite

/-- `evaluate_reversal`: did price reverse at a level on the last candle of a frame? -/
def evaluateReversal (f : Frame) (levels : List ℚ) (d : Direction) (s : Settings) (kw : Extras) : Option Reply :=
  if f.isEmpty ∨ levels.isEmpty then some (noCandles s.reversalMode)
  else
    match s.reversalMode with
    | .score100 =>
        let lvl := nearEdge levels d
        (scoreRejection f lvl d s).map (scoreReply lvl)
    | .composite =>
        let b := barsOf f s.medianRangeN
        let j := b.n - 1
        let tol := s.touchTolMr * (b.mr j).getD 0
        (evaluate b j d levels tol s kw).map compositeReply

/-! ## Chart markers -/

/-- A marker of `scan_markers`. -/
structure Marker where
  index : Nat
  level : ℚ
  bullish : Bool
  scorePct : Py.Num
  n : Nat
  label : Option Label
  deriving DecidableEq, Repr

section Markers

variable (f : Frame) (levels : List ℚ) (s : Settings) (maxDistanceMr : ℚ)

/-- How many bars an evaluation of the scan is given. -/
def tailLength : Nat :=
  2 * (s.medianRangeN + s.touchReclaimWindow + s.followthroughMaxBars + s.scoreMinMedianCandles) + 10

/-- `df.iloc[max(0, i + 1 - window): i + 1]`. -/
def boundedTail (i : Nat) : Frame := (f.take (i + 1)).drop (i + 1 - tailLength s)

/-- The level that the loop over the levels keeps at bar `i`, with its evaluation on the bars given. -/
def bestLevel (bars : Frame) (closing m : ℚ) : Option (Option (ℚ × Reply)) :=
  levels.foldlM
    (fun best lv =>
      if maxDistanceMr * m < |closing - lv| then some best
      else do
        let r ← evaluateReversal bars [lv] (if lv ≤ closing then .bullish else .bearish) s {}
        if r.valid ∧ best.all fun kept => Py.Num.lt kept.2.scorePct r.scorePct then some (some (lv, r)) else some best)
    none

/-- One turn of the loop over the bars: `last_end` and the markers so far. -/
def markBar (bars : Nat → Frame) (state : Int × List Marker) (i : Nat) : Option (Int × List Marker) :=
  match Breaks.medianRange f s.medianRangeN i with
  | none => some state
  | some m =>
      if m ≤ 0 then some state
      else do
        let best ← bestLevel levels s maxDistanceMr (bars i) (close f i) m
        match best with
        | none => some state
        | some (lv, r) =>
            if state.1 < (i : Int) - r.n + 1 then
              some (i, state.2 ++ [{ index := i, level := lv, bullish := lv ≤ close f i,
                                     scorePct := r.scorePct, n := r.n, label := r.label }])
            else some state

/-- The markers of a frame, each bar evaluated on the bars that `bars` gives it. -/
def scanWith (bars : Nat → Frame) : Option (List Marker) :=
  if f.length < s.medianRangeN + 2 then some []
  else
    ((List.range' (s.medianRangeN + 1) (f.length - (s.medianRangeN + 1))).foldlM
      (markBar f levels s maxDistanceMr bars) (-1, [])).map Prod.snd

/-- `scan_markers`. -/
def scanMarkers : Option (List Marker) := scanWith f levels s maxDistanceMr (boundedTail f s)

end Markers

end AdvanceTrading.Reversal
