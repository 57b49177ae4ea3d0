import AdvanceTrading.PriceAction.CounterReading
import Mathlib.Data.Prod.Lex

/-!
# The causal wave counter

Model of `app/price_action/waves/counter.py`, with `leg_points`
(`app/price_action/daily_trend/legs.py:297-317`). The counter reads the inner
structure of a finished wave by `read_counter`, once each (`inner_family`), so
a count is a program that puts moves to the memo of its thread. Prices are
exact.
-/

namespace AdvanceTrading.Waves

open DailyTrend

/-- H or L. -/
inductive SwingKind where
  | high
  | low
  deriving DecidableEq, Repr

/-- `1 if p.kind == "H" else -1`. -/
def SwingKind.sign : SwingKind → ℚ
  | .high => 1
  | .low => -1

/-- `Swing`. -/
structure Swing where
  kind : SwingKind
  price : ℚ
  bar : Int
  confirmBar : Int
  deriving DecidableEq

/-- `TYPES`, in their order. -/
inductive WaveType where
  | impulse
  | diagonal
  | zigzag
  | flat
  | expandedFlat
  | triangle
  | double
  | unclear
  deriving DecidableEq, Repr

/-- `TYPES`. -/
def types : List WaveType :=
  [WaveType.impulse, WaveType.diagonal, WaveType.zigzag, WaveType.flat, WaveType.expandedFlat, WaveType.triangle,
    WaveType.double, WaveType.unclear]

/-- `MOTIVE_TYPES`. -/
def motiveTypes : List WaveType := [WaveType.impulse, WaveType.diagonal]

/-- `STATES`. -/
inductive WaveState where
  | imp1
  | imp2
  | imp3
  | imp4
  | imp5
  | corA
  | corB
  | corC
  | corD
  | corE
  | unclear
  deriving DecidableEq, Repr

/-- `IMPULSE_LABELS`. -/
def impulseLabels : List WaveState := [WaveState.imp1, WaveState.imp2, WaveState.imp3, WaveState.imp4, WaveState.imp5]

/-- `CORRECTION_LABELS`. -/
def correctionLabels : List WaveState :=
  [WaveState.corA, WaveState.corB, WaveState.corC, WaveState.corD, WaveState.corE]

/-- `CLARITY`. -/
inductive Clarity where
  | clear
  | altAgrees
  | altDisagrees
  | unclear
  deriving DecidableEq, Repr

/-- `MAX_WAVES`. -/
def maxWaves : Nat := 5

/-- `Reading`: one valid reading of the waves from one origin. -/
structure Reading where
  label : WaveState
  type : WaveType
  origin : Nat
  points : List ℚ
  bars : List Int
  direction : Int
  trend : Int
  clear : Bool
  altOnly : Bool
  deriving DecidableEq

/-- `WaveCount`. -/
structure WaveCount where
  bar : Int
  state : WaveState
  type : WaveType
  clarity : Clarity
  main : Option Reading
  alternate : Option Reading
  context : Int
  readings : List Reading
  deriving DecidableEq

/-! ## A leg's points -/

/-- What a leg has gathered: prices and bars, the last point first, with the kind of that point. -/
structure Gathered where
  price : ℚ
  kind : SwingKind
  bar : Int
  earlier : List (ℚ × Int)

/-- One inner pivot: a point of its own, or in place of a less extreme one of its kind. -/
def gather (g : Gathered) (p : Swing) : Gathered :=
  if p.kind ≠ g.kind then ⟨p.price, p.kind, p.bar, (g.price, g.bar) :: g.earlier⟩
  else if g.earlier ≠ [] ∧ 0 < (p.price - g.price) * p.kind.sign then
    { g with price := p.price, bar := p.bar }
  else g

/-- The kind of the point that a leg starts from. -/
def startKind (aPrice bPrice : ℚ) : SwingKind := if aPrice < bPrice then .low else .high

/-- The kind of the point that a leg ends with. -/
def endKind (aPrice bPrice : ℚ) : SwingKind := if aPrice < bPrice then .high else .low

/-- `leg_points(…, inner_seq=inner)`. -/
def legPoints (aBar : Int) (aPrice : ℚ) (bBar : Int) (bPrice : ℚ) (upto : Int) (inner : List Swing) : List (ℚ × Int) :=
  let inner := sortBy (·.bar) (inner.filter fun p => p.confirmBar ≤ upto ∧ aBar < p.bar ∧ p.bar < bBar)
  let g := inner.foldl gather ⟨aPrice, startKind aPrice bPrice, aBar, []⟩
  let points :=
    if g.earlier ≠ [] ∧ g.kind = endKind aPrice bPrice then g.earlier else (g.price, g.bar) :: g.earlier
  ((bPrice, bBar) :: points).reverse

/-! ## Readings -/

/-- The roles of a finished wave's inner structure. -/
inductive Role where
  | motive
  | corrective
  | any
  | complete
  deriving DecidableEq, Repr

/-- `_roles`. -/
def roles (kind : WaveType) (finished : Nat) : List Role :=
  match kind with
  | .impulse => (List.range finished).map fun i => if i % 2 = 0 then .motive else .corrective
  | .diagonal => (List.range finished).map fun i => if i % 2 = 0 then .any else .corrective
  | .zigzag => [Role.motive, Role.corrective].take finished
  | .double => [Role.complete, Role.corrective].take finished
  | _ => List.replicate finished .corrective

/-- `_fits`. -/
def fits (role : Role) (family : Family) : Bool :=
  if role = .complete then family ∈ completeForms
  else if family = .single then true
  else
    match role with
    | .motive => family ∈ motive
    | .corrective => family ∈ corrective
    | _ => true

/-- `_structure_types`. -/
def structureTypes (x : List ℚ) (s : Ratios) : List (WaveType × Bool) :=
  let n := x.length - 1
  (if n ≤ maxWaves then
    if impulse x false then [(.impulse, false)]
    else if maxWaves - 1 ≤ n ∧ (wedge x false .contracting || wedge x false .expanding) then [(.diagonal, false)]
    else []
  else []) ++
  if n = 1 then [(.unclear, false)]
  else if n ≤ 3 then
    (if zigzag x s then [(WaveType.zigzag, false)] else []) ++
    (if (flat x false s).1 then
      [(if (flat x false s).2.2 = some "expanded" then WaveType.expandedFlat else WaveType.flat, false)]
    else []) ++
    (if beyond (pt x 2) (pt x 0) (-directionOf x) then [] else [(WaveType.double, decide (n < 3))])
  else if n ≤ maxWaves then
    if (triangle x false .contracting 0).1 || (triangle x false .expanding 0).1 then [(.triangle, false)] else []
  else []

/-- The arguments of `readings` and `count`. -/
structure Args where
  swings : List Swing
  runningEnd : Swing
  inner : List Swing
  context : Int
  settings : Ratios

variable (a : Args)

/-- `pts`. -/
def Args.pts : List Swing := a.swings ++ [a.runningEnd]

/-- The inner points of the wave from one point to the next. -/
def wavePoints (i : Nat) : List ℚ :=
  match a.pts[i]?, a.pts[i + 1]? with
  | some p, some q => (legPoints p.bar p.price q.bar q.price a.runningEnd.confirmBar a.inner).map Prod.fst
  | _, _ => []

/-- A part of a count: it keeps `inner_family`, and puts moves to `read_counter`. -/
abbrev Counting := StateT (Dict Nat Family) (Ask Move DailyTrend.Reading)

/-- The family of a wave's inner points, which `read_counter` reads if there are any between the ends. -/
def askFamily (i : Nat) : Reader Family := do
  let prices := wavePoints a i
  if 2 < prices.length then
    let r ← Ask.query ⟨prices, a.settings⟩
    pure r.family
  else pure .single

/-- `family_of`: a family that is kept in `inner_family` is not asked for again. -/
def familyOf (i : Nat) : Counting Family := fun known =>
  match Dict.get i known with
  | some family => pure (family, known)
  | none => do
    let family ← askFamily a i
    pure (family, Dict.set i family known)

/-- A loop that gathers what its turns return. -/
def gatherAll {α β : Type} (f : α → Counting β) : List α → Counting (List β)
  | [] => pure []
  | x :: xs => do
    let y ← f x
    let ys ← gatherAll f xs
    pure (y :: ys)

/-- The wave ends from an origin on. -/
def ends (j : Nat) : List ℚ := (a.pts.drop j).map (·.price)

/-- A wave of no length. -/
def noLength (x : List ℚ) : Bool := (x.zip x.tail).any fun e => e.1 = e.2

/-- The reading of one type from an origin, if the inner structures fit their roles. -/
def readingOf (j : Nat) (kind : WaveType) (altOnly : Bool) (fams : List Family) : Option Reading :=
  let x := ends a j
  let n := x.length - 1
  if ((roles kind (n - 1)).zip fams).all fun rf => fits rf.1 rf.2 then
    let direction := directionOf x
    some {
      label := (if kind ∈ motiveTypes then impulseLabels else correctionLabels).getD (n - 1) .unclear
      type := kind
      origin := j
      points := x
      bars := (a.pts.drop j).map (·.bar)
      direction := direction
      trend := if kind ∈ motiveTypes then direction else -direction
      clear := fams.all fun f => f ≠ .single
      altOnly := altOnly }
  else none

/-- The readings from one origin. -/
def originReadings (j : Nat) : Counting (List Reading) := do
  let x := ends a j
  if noLength x then pure []
  else
    let found ← gatherAll (fun t : WaveType × Bool => do
      let fams ← gatherAll (familyOf a) ((List.range (x.length - 1 - 1)).map (j + ·))
      pure (readingOf a j t.1 t.2 fams)) (structureTypes x a.settings)
    pure found.reduceOption

/-- Whether a reading is against the larger direction. -/
def against (context : Int) (r : Reading) : Nat := if context = 0 ∨ r.trend = context then 0 else 1

/-- `rank`. -/
def rank (context : Int) (r : Reading) : Nat ×ₗ (Nat ×ₗ Nat) :=
  toLex (against context r, toLex (r.origin, types.idxOf r.type))

/-- The candidate origins: at most five waves back. -/
def origins : List Nat := List.range' (a.swings.length - maxWaves) (a.swings.length - (a.swings.length - maxWaves))

/-- `readings`. -/
def readings : Counting (List Reading) := do
  let out ← gatherAll (originReadings a) (origins a)
  pure (sortBy (rank a.context) out.flatten)

/-! ## The count -/

/-- `tier`. -/
def tier (context : Int) (r : Reading) : Nat × Nat := (against context r, r.origin)

/-- `_alternate`. -/
def alternateOf (main : Reading) (others : List Reading) : Option Reading :=
  let same := others.filter fun r => r.origin = main.origin
  same.find? (fun r => r.label ≠ main.label) <|>
    others.find? (fun r => r.label ≠ main.label ∧ 2 < r.points.length) <|>
    same.find? fun r => r.type ≠ main.type

/-- `clarity` of a main reading. -/
def clarityOf (main : Reading) (alternate : Option Reading) : Clarity :=
  if !main.clear then .unclear
  else
    match alternate with
    | none => .clear
    | some alternate => if alternate.trend = main.trend then .altAgrees else .altDisagrees

/-- `count` after the readings. -/
def countOf (ranked : List Reading) : WaveCount :=
  let undecided (alternate : Option Reading) : WaveCount := {
    bar := a.runningEnd.confirmBar, state := .unclear, type := .unclear, clarity := .unclear, main := none
    alternate := alternate, context := a.context, readings := ranked }
  match ranked.filter fun r => !r.altOnly with
  | [] => undecided ranked.head?
  | main :: rest =>
    if rest.any fun r => tier a.context r = tier a.context main ∧ r.trend ≠ main.trend then undecided (some main)
    else
      -- `r is not main`: main is the first reading that is not only an alternate
      let alternate := alternateOf main (ranked.eraseP fun r => !r.altOnly)
      { bar := a.runningEnd.confirmBar, state := main.label, type := main.type, clarity := clarityOf main alternate
        main := some main, alternate := alternate, context := a.context, readings := ranked }

/-- `count`, as a program. -/
def countBody : Ask Move DailyTrend.Reading WaveCount := do
  let r ← (readings a).run []
  pure (countOf a r.1)

/-- `count` after some calls of `read_counter`. -/
def count (calls : List Call) : WaveCount := (counterReader.perform (countBody a) (memoAfter calls)).1

end AdvanceTrading.Waves
