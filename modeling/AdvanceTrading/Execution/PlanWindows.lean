import AdvanceTrading.Misc.Machine
import AdvanceTrading.Misc.PyFormat
import AdvanceTrading.Trading.TriggerRules
import Mathlib.Data.Char
import Mathlib.Data.List.Lex

/-!
# A price plan's time window

Model of what fires a PRICE plan (`in_window`, `reached` and the pass of `run` over
one plan, `app/execution/trigger_plans.py:388-525`) with what his own taps change of
it (`pause`, `resume`, `cancel`, `edit`), and of the dry run's replays
(`app/execution/plan_dry_run.py:117-154`). What `fire` places is in
`Execution.TriggerPlans`; the method conditions, the broker's GTT and the notices are
left out.

A pass checks the window at its own time and then takes the first candle since the
plan was armed that closed beyond the level. So the window governs the candle that
fires exactly where no candle outside it closed beyond the level first
(`window_governs_iff`).
-/

namespace AdvanceTrading.PlanWindow

open TriggerRules (Side Bar Candle minuteUs istMinute nseOpenMinute candleStart openCandle
  candleLoop closedOf closedCandles
  closedBeyond closeTrigger)

/-! ## The bars that end a candle -/

section Bars

variable {P : Type}

/-- The end of the candle a bar belongs to. -/
def stopOf (timeframe : Int) (b : Bar P) : Int :=
  candleStart nseOpenMinute timeframe b.timestamp + timeframe * minuteUs

/-- The bar ends its candle as of `now`: it is over, so is its candle, and the next bar that is over is of another. -/
def Ends (timeframe now : Int) (b : Bar P) (after : List (Bar P)) : Prop :=
  b.timestamp + minuteUs ≤ now ∧ stopOf timeframe b ≤ now ∧ ∀ next ∈ after.head?, next.timestamp + minuteUs ≤ now →
    candleStart nseOpenMinute timeframe b.timestamp ≠ candleStart nseOpenMinute timeframe next.timestamp

instance (timeframe now : Int) (b : Bar P) (after : List (Bar P)) : Decidable (Ends timeframe now b after) :=
  inferInstanceAs (Decidable (_ ∧ _ ∧ ∀ next ∈ after.head?, _ → _))

/-- The bars that end a candle, in order. -/
def endings (timeframe now : Int) : List (Bar P) → List (Bar P)
  | [] => []
  | b :: after => if Ends timeframe now b after then b :: endings timeframe now after else endings timeframe now after

end Bars

/-! ## The plan -/

inductive Mode where
  | touch
  | close
  deriving DecidableEq

/-- `Condition`, of the kind PRICE; a window's times are texts. -/
structure Condition (P : Type) where
  level : P
  side : Side
  mode : Mode
  timeframeMinutes : Option Int := none
  windowStart : Option (List Char) := none
  windowEnd : Option (List Char) := none

/-- `strftime("%H:%M")` of an instant in IST. -/
def hhmm (t : Int) : List Char :=
  Py.padded 2 (istMinute t / 60).toNat ++ ':' :: Py.padded 2 (istMinute t % 60).toNat

/-- `in_window`: texts are compared as Python compares them. -/
def inWindow {P : Type} (c : Condition P) (t : Int) : Bool :=
  match c.windowStart, c.windowEnd with
  | some start, some stop => start.isEmpty || stop.isEmpty || (decide (start ≤ hhmm t) && decide (hhmm t < stop))
  | _, _ => true

inductive PlanStatus where
  | armed
  | paused
  | triggered
  | done
  | expired
  | cancelled
  deriving DecidableEq

/-- What the passes read and write of a plan's row. -/
structure PlanRow (P : Type) where
  condition : Condition P
  validUntil : Int
  armedAt : Int
  status : PlanStatus := .armed
  triggeredAt : Option Int := none
  triggerPrice : Option P := none
  lastPrice : Option P := none

/-- One-minute bars, ascending. -/
structure Bars (P : Type) where
  list : List (Bar P)
  ascending : list.Pairwise fun a b => a.timestamp < b.timestamp

/-- What a pass can read: a price and the bars, each `none` where there is no source or it raises. -/
structure Reading (P : Type) where
  price : Option P := none
  candles : Option (Bars P) := none

/-- A pass of the engine; `fired`: `fire` ended the plan. -/
structure Pass (P : Type) where
  now : Int
  reading : Reading P
  enabled : Bool := true
  fired : Bool := true

variable {timeframe now : Int} {read : Nat}

section Prices

variable {P : Type} [LinearOrder P]

/-- `touched`. -/
def touched (level : P) (side : Side) (low high : P) : Bool :=
  match side with
  | .above => level ≤ high
  | .below => low ≤ level

/-- The last reading is kept. -/
def PlanRow.readAt (row : PlanRow P) (price : Option P) : PlanRow P := { row with lastPrice := price.or row.lastPrice }

/-- `reached`: the answer and the row; an error is a timeframe below a minute. -/
def reached [Zero P] (row : PlanRow P) (reading : Reading P) (now : Int) : Except String (Option Bool × PlanRow P) :=
  let c := row.condition
  match c.mode with
  | .close =>
      match reading.candles, c.timeframeMinutes with
      | some bars, some timeframe =>
          if timeframe = 0 then .ok (none, row)
          else do
            let candle ← closeTrigger c.level c.side bars.list timeframe now (some row.armedAt)
            let closed ← closedCandles bars.list timeframe now
            let row := row.readAt (closed.getLast?.map Candle.close)
            match candle with
            | some candle => .ok (some true, { row with triggerPrice := some candle.close })
            | none => .ok (some false, row)
      | _, _ => .ok (none, row)
  | .touch =>
      match reading.price with
      | none => .ok (none, row)
      | some price =>
          if 0 < price then
            let row := row.readAt (some price)
            if touched c.level c.side price price then .ok (some true, { row with triggerPrice := some price })
            else .ok (some false, row)
          else .ok (none, row)

/-- The pass of `run` over one plan. -/
def PlanRow.pass [Zero P] (row : PlanRow P) (p : Pass P) : PlanRow P :=
  if p.enabled = false then row
  else if (row.status = .armed ∨ row.status = .paused) ∧ row.validUntil ≤ p.now then { row with status := .expired }
  else
    match row.status with
    | .triggered => if p.fired then { row with status := .done } else row
    | .armed =>
        if inWindow row.condition p.now then
          match reached row p.reading p.now with
          | .error _ => row
          | .ok (some true, read) =>
              { read with status := if p.fired then .done else .triggered, triggeredAt := some p.now }
          | .ok (_, read) => read
        else row
    | _ => row

/-- What happens to a plan: a pass, or one of his taps. -/
inductive Event (P : Type) where
  | pass (p : Pass P)
  | pause
  | resume (now : Int)
  | cancel
  | edit (now : Int) (condition : Condition P) (validUntil : Int)

/-- The passes over a plan and his taps; a tap that is refused is not taken. -/
def lifecycle [Zero P] : Machine (PlanRow P) (Event P) where
  step row
    | .pass p => some (row.pass p)
    | .pause => if row.status = .armed then some { row with status := .paused } else none
    | .resume now =>
        if now < row.validUntil ∧ row.status = .paused then some { row with status := .armed, armedAt := now } else none
    | .cancel =>
        if row.status = .armed ∨ row.status = .paused then some { row with status := .cancelled } else none
    | .edit now condition validUntil =>
        if (row.status = .armed ∨ row.status = .paused) ∧ now < validUntil then
          some { row with condition, validUntil, armedAt := now }
        else none

/-! ## The dry run -/

/-- `replay_touch`: the bar and the number of bars read, `read` of them before. -/
def replayTouch (c : Condition P) (armedAt now : Int) : Nat → List (Bar P) → Option (Bar P) × Nat
  | read, [] => (none, read)
  | read, b :: bars =>
      if now < b.timestamp + minuteUs then (none, read)
      else if b.timestamp + minuteUs ≤ armedAt then replayTouch c armedAt now read bars
      else if inWindow c b.timestamp = false then replayTouch c armedAt now (read + 1) bars
      else if touched c.level c.side b.low b.high then (some b, read + 1)
      else replayTouch c armedAt now (read + 1) bars

/-- The loop of `replay_close` over the ends of the candles, `read` of them before. -/
def replayEnds (c : Condition P) (bars : List (Bar P)) (timeframe armedAt : Int) :
    Nat → List Int → Except String (Option (Candle P) × Nat)
  | read, [] => .ok (none, read)
  | read, t :: ends =>
      if inWindow c t = false then replayEnds c bars timeframe armedAt (read + 1) ends
      else do
        match ← closeTrigger c.level c.side bars timeframe t (some armedAt) with
        | some candle => .ok (some candle, read + 1)
        | none => replayEnds c bars timeframe armedAt (read + 1) ends

/-- `replay_close`, of a condition on a candle close. -/
def replayClose (c : Condition P) (bars : List (Bar P)) (armedAt now : Int) : Except String
    (Option (Candle P) × Nat) := do
  let timeframe := c.timeframeMinutes.getD 0
  let closed ← closedCandles bars timeframe now
  replayEnds c bars timeframe armedAt 0 ((closed.map Candle.stop).filter (armedAt < ·))

variable {bars : List (Bar P)} {b : Bar P} {c : Condition P}

/-! ## What is to hold -/

/-- The pass asks for a candle of the plan: it is armed and waits for a close, in its window. -/
def PlanRow.Watches (row : PlanRow P) (p : Pass P) : Prop :=
  p.enabled = true ∧ row.status = .armed ∧ p.now < row.validUntil ∧ row.condition.mode = .close ∧
    inWindow row.condition p.now = true

instance (row : PlanRow P) (p : Pass P) : Decidable (row.Watches p) :=
  inferInstanceAs (Decidable (_ ∧ _ ∧ _ ∧ _ ∧ _))

/-- The candle that fires the plan at a pass, if one does. -/
def PlanRow.firing (row : PlanRow P) (p : Pass P) : Option (Candle P) :=
  if row.Watches p then
    match p.reading.candles, row.condition.timeframeMinutes with
    | some bars, some timeframe =>
        (closeTrigger row.condition.level row.condition.side bars.list timeframe p.now (some row.armedAt)).toOption.join
    | _, _ => none
  else none

/-- The window governs a step: a candle that fires the plan closed inside it, after the plan was armed. -/
def Governed (row : PlanRow P) : Event P → Prop
  | .pass p => ∀ candle, row.firing p = some candle → inWindow row.condition candle.stop = true ∧
      row.armedAt < candle.stop
  | _ => True

/-- The bar's candle counts: it closed after the plan was armed, at or beyond the level. -/
def PlanRow.counts (row : PlanRow P) (timeframe : Int) (b : Bar P) : Bool :=
  decide (row.armedAt < stopOf timeframe b) && closedBeyond row.condition.level row.condition.side b.close

/-- At a pass that asks for a candle, one that counts and closed outside the window comes after one that counts and
closed inside it. -/
def Clear (row : PlanRow P) : Event P → Prop
  | .pass p => row.Watches p → ∀ bars ∈ p.reading.candles, ∀ timeframe ∈ row.condition.timeframeMinutes, 1 ≤ timeframe →
      ∀ earlier b later, endings timeframe p.now bars.list = earlier ++ b :: later → row.counts timeframe b = true →
        inWindow row.condition (stopOf timeframe b) = false →
        ∃ b' ∈ earlier, row.counts timeframe b' = true ∧ inWindow row.condition (stopOf timeframe b') = true
  | _ => True

/-! ## The candles and the bars that end them -/

/-- The end and the close of a candle. -/
def mark (candle : Candle P) : Int × P := (candle.stop, candle.close)

/-- The end and the close of the candle a bar ends. -/
def markOf (timeframe : Int) (b : Bar P) : Int × P := (stopOf timeframe b, b.close)

omit [LinearOrder P] in
/-- No bar ends a candle while the first is not over. -/
theorem endings_forming (forming : now < b.timestamp + minuteUs)
    (ascending : (b :: bars).Pairwise fun x y => x.timestamp < y.timestamp) :
    endings timeframe now (b :: bars) = [] := by
  induction bars generalizing b with
  | nil =>
    unfold endings
    rw [if_neg fun ends => absurd ends.1 (by omega)]
    rfl
  | cons next bars ih =>
    obtain ⟨later, rest⟩ := List.pairwise_cons.mp ascending
    have after := later next List.mem_cons_self
    unfold endings
    rw [if_neg fun ends => absurd ends.1 (by omega)]
    exact ih (by omega) rest

omit [LinearOrder P] in
/-- A bar that is over ends its candle once that closed, where no bar of it is to come. -/
theorem ends_alone {timeframe now : Int} {b : Bar P} {after : List (Bar P)} (elapsed : b.timestamp + minuteUs ≤ now)
    (alone : ∀ next ∈ after.head?, next.timestamp + minuteUs ≤ now →
      candleStart nseOpenMinute timeframe b.timestamp ≠ candleStart nseOpenMinute timeframe next.timestamp) :
    Ends timeframe now b after ↔ stopOf timeframe b ≤ now :=
  ⟨fun ends => ends.2.1, fun closed => ⟨elapsed, closed, alone⟩⟩

/-- While a candle is built whose last bar is `b`, the candles that close are those the bars from `b` on end. -/
theorem candleLoop_marks {candle : Candle P}
    (start : candle.start = candleStart nseOpenMinute timeframe b.timestamp)
    (marked : mark candle = markOf timeframe b) (elapsed : b.timestamp + minuteUs ≤ now)
    (ascending : (b :: bars).Pairwise fun x y => x.timestamp < y.timestamp) :
    ((candleLoop nseOpenMinute timeframe now (some candle) bars).filter fun c => c.stop ≤ now).map mark =
      (endings timeframe now (b :: bars)).map (markOf timeframe) := by
  have stop : candle.stop = stopOf timeframe b := congrArg Prod.fst marked
  induction bars generalizing candle b with
  | nil =>
    have ends := @ends_alone P timeframe now b [] elapsed (by simp)
    by_cases closed : stopOf timeframe b ≤ now
    · simp [candleLoop, endings, stop, closed, ends.mpr closed, marked]
    · simp [candleLoop, endings, stop, closed, ends]
  | cons next bars ih =>
    obtain ⟨later, rest⟩ := List.pairwise_cons.mp ascending
    rw [TriggerRules.candleLoop_some_cons, endings]
    by_cases forming : now < next.timestamp + minuteUs
    · -- the loop stops: nothing more is over
      have ends := @ends_alone P timeframe now b (next :: bars) elapsed (by simp; omega)
      rw [if_pos forming, endings_forming forming rest]
      by_cases closed : stopOf timeframe b ≤ now
      · simp [stop, closed, ends.mpr closed, marked]
      · simp [stop, closed, ends]
    · have overNext : next.timestamp + minuteUs ≤ now := not_lt.mp forming
      rw [if_neg forming]
      by_cases same : candleStart nseOpenMinute timeframe b.timestamp =
        candleStart nseOpenMinute timeframe next.timestamp
      · -- the next bar is of the same candle
        have absorbed : mark (candle.absorb next) = markOf timeframe next := by
          show (candle.stop, next.close) = _
          rw [stop, markOf, stopOf, stopOf, same]
        rw [start, if_pos same, if_neg fun ends => ends.2.2 next rfl overNext same]
        exact ih (start.trans same) absorbed overNext rest (congrArg Prod.fst absorbed)
      · have ends := @ends_alone P timeframe now b (next :: bars) elapsed (by simpa using fun _ => same)
        have opened : mark (openCandle nseOpenMinute timeframe next) = markOf timeframe next := rfl
        have after := ih rfl opened overNext rest (congrArg Prod.fst opened)
        rw [start, if_neg same]
        by_cases closed : stopOf timeframe b ≤ now
        · rw [if_pos (ends.mpr closed), List.filter_cons_of_pos (by simpa [stop] using closed),
            List.map_cons, List.map_cons,
            marked, after]
        · rw [if_neg (mt ends.mp closed), List.filter_cons_of_neg (by simpa [stop] using closed), after]

/-- The candles that have closed are those the bars end. -/
theorem closedOf_marks (ascending : bars.Pairwise fun x y => x.timestamp < y.timestamp) :
    (closedOf nseOpenMinute timeframe now bars).map mark = (endings timeframe now bars).map (markOf timeframe) := by
  cases bars with
  | nil => rfl
  | cons b bars =>
    by_cases forming : now < b.timestamp + minuteUs
    · rw [endings_forming forming ascending]
      simp [closedOf, candleLoop, forming]
    · have opens : candleLoop nseOpenMinute timeframe now none (b :: bars) =
          candleLoop nseOpenMinute timeframe now (some (openCandle nseOpenMinute timeframe b)) bars := by
        rw [candleLoop, if_neg forming]
      rw [closedOf, opens]
      exact candleLoop_marks rfl rfl (not_lt.mp forming) ascending

/-- The candle that fires ends with the first bar that counts. -/
theorem closeTrigger_mark {row : PlanRow P} (positive : 1 ≤ timeframe)
    (ascending : bars.Pairwise fun x y => x.timestamp < y.timestamp) :
    ((closeTrigger row.condition.level row.condition.side bars timeframe now
      (some row.armedAt)).toOption.join).map mark =
      ((endings timeframe now bars).find? (row.counts timeframe)).map (markOf timeframe) := by
  -- whether a candle fires is read off its end and its close
  let fires : Int × P → Bool :=
    fun m => decide (row.armedAt < m.1) && closedBeyond row.condition.level row.condition.side m.2
  have unfolded : (closeTrigger row.condition.level row.condition.side bars timeframe now
      (some row.armedAt)).toOption.join =
      (closedOf nseOpenMinute timeframe now bars).find? (fires ∘ mark) := by
    rw [closeTrigger, TriggerRules.closedCandles_eq positive]
    rfl
  rw [unfolded, ← List.find?_map, closedOf_marks ascending, List.find?_map]
  rfl

/-! ## The first of a list -/

/-- What is found first is good exactly where what is sought and is not good comes after something sought that is. -/
theorem find?_good_iff {α : Type} {sought good : α → Bool} {l : List α} :
    (∀ a, l.find? sought = some a → good a = true) ↔
      ∀ earlier a later, l = earlier ++ a :: later → sought a = true → good a = false →
        ∃ b ∈ earlier, sought b = true ∧ good b = true := by
  constructor
  · intro first earlier a later split isSought bad
    cases before : earlier.find? sought with
    | some b =>
      have found : l.find? sought = some b := by rw [split, List.find?_append, before, Option.some_or]
      exact ⟨b, List.mem_of_find?_eq_some before, List.find?_some before, first b found⟩
    | none =>
      have found : l.find? sought = some a := by
        rw [split, List.find?_append, before, Option.none_or, List.find?_cons_of_pos isSought]
      exact absurd (first a found) (by simp [bad])
  · intro ordered a found
    obtain ⟨isSought, earlier, later, split, none_⟩ := List.find?_eq_some_iff_append.mp found
    by_contra bad
    obtain ⟨b, mem, alsoSought, -⟩ := ordered earlier a later split isSought (by simpa using bad)
    have := none_ b mem
    simp [alsoSought] at this

/-! ## A pass fires by its candle -/

variable {row : PlanRow P} {p : Pass P}

section

variable (watches : row.Watches p)
include watches

theorem firing_of_watches {bars : Bars P} (candles : p.reading.candles = some bars)
    (waits : row.condition.timeframeMinutes = some timeframe) :
    row.firing p =
      (closeTrigger row.condition.level row.condition.side bars.list timeframe p.now
        (some row.armedAt)).toOption.join := by
  rw [PlanRow.firing, if_pos watches, candles, waits]

/-- What `reached` answers a pass that asks for a candle. -/
theorem reached_of_watches [Zero P] :
    (∃ why, reached row p.reading p.now = .error why ∧ row.firing p = none) ∨
      ∃ answer read, reached row p.reading p.now = .ok (answer, read) ∧ read.status = row.status ∧
        (answer = some true ↔ (row.firing p).isSome = true) ∧
        ∀ candle, row.firing p = some candle → read.triggerPrice = some candle.close := by
  have mode := watches.2.2.2.1
  unfold reached
  dsimp only
  rw [mode]
  dsimp only
  cases candles : p.reading.candles with
  | none =>
    have nothing : row.firing p = none := by simp [PlanRow.firing, candles]
    exact Or.inr ⟨none, row, rfl, rfl, by simp [nothing], by simp [nothing]⟩
  | some bars =>
    cases waits : row.condition.timeframeMinutes with
    | none =>
      have nothing : row.firing p = none := by simp [PlanRow.firing, candles, waits]
      exact Or.inr ⟨none, row, rfl, rfl, by simp [nothing], by simp [nothing]⟩
    | some timeframe =>
      have fires := firing_of_watches watches candles waits
      dsimp only
      by_cases zero : timeframe = 0
      · have nothing : row.firing p = none := by
          rw [fires, closeTrigger, closedCandles, if_pos (by omega)]
          rfl
        rw [if_pos zero]
        exact Or.inr ⟨none, row, rfl, rfl, by simp [nothing], by simp [nothing]⟩
      · rw [if_neg zero]
        by_cases negative : timeframe < 1
        · refine Or.inl ⟨"timeframe_minutes must be at least 1", ?_, ?_⟩
          · simp [closeTrigger, closedCandles, negative, Except.map, bind, Except.bind]
          · rw [fires, closeTrigger, closedCandles, if_pos negative]
            rfl
        · have closes := TriggerRules.closedCandles_eq (not_lt.mp negative) bars.list p.now
          rw [closeTrigger, closes] at fires ⊢
          have found : row.firing p = (closedOf nseOpenMinute timeframe p.now bars.list).find? fun candle =>
            (some row.armedAt).all (· < candle.stop) &&
              closedBeyond row.condition.level row.condition.side candle.close := fires
          refine Or.inr ?_
          rw [found]
          dsimp only [Except.map, bind, Except.bind]
          cases (closedOf nseOpenMinute timeframe p.now bars.list).find? fun candle =>
            (some row.armedAt).all (· < candle.stop) &&
              closedBeyond row.condition.level row.condition.side candle.close with
          | none => exact ⟨some false, _, rfl, rfl, by simp, by simp⟩
          | some candle => exact ⟨some true, _, rfl, rfl, by simp, by simp⟩

/-- A pass that asks for a candle fires the plan exactly where one fires it, at that candle's close. -/
theorem pass_fires [Zero P] :
    ((row.pass p).status ≠ .armed ↔ (row.firing p).isSome = true) ∧
      ∀ candle, row.firing p = some candle →
        (row.pass p).triggerPrice = some candle.close ∧ (row.pass p).triggeredAt = some p.now := by
  obtain ⟨enabled, armed, valid, -, inside⟩ := id watches
  have passes : row.pass p = match reached row p.reading p.now with
      | .error _ => row
      | .ok (some true, read) =>
          { read with status := if p.fired then .done else .triggered, triggeredAt := some p.now }
      | .ok (_, read) => read := by
    unfold PlanRow.pass
    rw [if_neg (by simp [enabled]), if_neg fun expired => absurd expired.2 (not_le.mpr valid), armed]
    dsimp only
    rw [if_pos inside]
  rcases reached_of_watches watches with ⟨why, raised, nothing⟩ | ⟨answer, read, answered, status, hit, price⟩
  · rw [passes, raised, nothing]
    simp [armed]
  · rw [passes, answered]
    by_cases fires : answer = some true
    · subst fires
      refine ⟨iff_of_true ?_ (hit.mp rfl), fun candle isCandle => ⟨price candle isCandle, rfl⟩⟩
      dsimp only
      split_ifs <;> simp
    · have nothing : row.firing p = none := by simpa [fires] using hit
      have same : (match (Except.ok (answer, read) : Except String (Option Bool × PlanRow P)) with
          | .error _ => row
          | .ok (some true, read) =>
              { read with status := if p.fired then .done else .triggered, triggeredAt := some p.now }
          | .ok (_, read) => read) = read := by
        rcases answer with _ | _ | _
        · rfl
        · rfl
        · exact absurd rfl fires
      rw [same, nothing, status, armed]
      simp

/-! ## When the window governs -/

/-- What fires a pass that asks for a candle, by the first bar that counts. -/
theorem firing_mark {bars : Bars P} (candles : p.reading.candles = some bars)
    (waits : row.condition.timeframeMinutes = some timeframe) (positive : 1 ≤ timeframe) :
    (row.firing p).map mark = ((endings timeframe p.now bars.list).find? (row.counts timeframe)).map
      (markOf timeframe) := by
  rw [firing_of_watches watches candles waits]
  exact closeTrigger_mark positive bars.ascending

end

/-- A candle that fires a plan: the pass asked for one, and it is the candle the first bar that counts ends. -/
theorem firing_cases {candle : Candle P} (fires : row.firing p = some candle) :
    row.Watches p ∧ ∃ bars ∈ p.reading.candles, ∃ timeframe ∈ row.condition.timeframeMinutes, 1 ≤ timeframe ∧
      ∃ b, (endings timeframe p.now bars.list).find? (row.counts timeframe) = some b ∧
        markOf timeframe b = mark candle := by
  by_cases watches : row.Watches p
  · refine ⟨watches, ?_⟩
    cases candles : p.reading.candles with
    | none => simp [PlanRow.firing, candles] at fires
    | some bars =>
      cases waits : row.condition.timeframeMinutes with
      | none => simp [PlanRow.firing, candles, waits] at fires
      | some timeframe =>
        by_cases positive : 1 ≤ timeframe
        · have marks := firing_mark watches candles waits positive
          rw [fires, Option.map_some, eq_comm, Option.map_eq_some_iff] at marks
          exact ⟨bars, rfl, timeframe, rfl, positive, marks⟩
        · rw [firing_of_watches watches candles waits, closeTrigger, closedCandles,
            if_pos (not_le.mp positive)] at fires
          cases fires
  · simp [PlanRow.firing, watches] at fires

/-- The window governs a step exactly where it is clear. -/
theorem governed_iff_clear (row : PlanRow P) (event : Event P) : Governed row event ↔ Clear row event := by
  cases event with
  | pass p =>
    constructor
    · intro governed watches bars isBars timeframe isTimeframe positive
      apply find?_good_iff.mp
      intro b found
      have marks := firing_mark watches isBars isTimeframe positive
      rw [found, Option.map_some, Option.map_eq_some_iff] at marks
      obtain ⟨candle, fires, isMark⟩ := marks
      have stop : candle.stop = stopOf timeframe b := congrArg Prod.fst isMark
      rw [← stop]
      exact (governed candle fires).1
    · intro clear candle fires
      obtain ⟨watches, bars, isBars, timeframe, isTimeframe, positive, b, found, isMark⟩ := firing_cases fires
      have stop : stopOf timeframe b = candle.stop := congrArg Prod.fst isMark
      have counts := List.find?_some found
      simp only [PlanRow.counts, Bool.and_eq_true, decide_eq_true_eq] at counts
      rw [← stop]
      exact ⟨find?_good_iff.mpr (clear watches bars isBars timeframe isTimeframe positive) b found, counts.1⟩
  | pause => exact Iff.rfl
  | resume now => exact Iff.rfl
  | cancel => exact Iff.rfl
  | edit now condition validUntil => exact Iff.rfl

/-- In every run the window governs the passes exactly where each is clear. -/
theorem window_governs_iff [Zero P] (row : PlanRow P) (events : List (Event P)) :
    lifecycle.Meets Governed row events ↔ lifecycle.Meets Clear row events :=
  ⟨lifecycle.meets_imp fun row event => (governed_iff_clear row event).mp,
    lifecycle.meets_imp fun row event => (governed_iff_clear row event).mpr⟩

/-- What the dry run answers is what fires the plan at a pass right after a candle closed, in the window. -/
theorem replayEnds_live {armedAt : Int} {n : Nat} {ends : List Int} {candle : Candle P}
    (found : replayEnds c bars timeframe armedAt read ends = .ok (some candle, n)) :
    ∃ t ∈ ends, inWindow c t = true ∧ closeTrigger c.level c.side bars timeframe t (some armedAt) =
      .ok (some candle) := by
  induction ends generalizing read with
  | nil => cases found
  | cons t ends ih =>
    unfold replayEnds at found
    by_cases outside : inWindow c t = false
    · rw [if_pos outside] at found
      obtain ⟨t', mem, live⟩ := ih found
      exact ⟨t', List.mem_cons_of_mem _ mem, live⟩
    · rw [if_neg outside] at found
      cases fires : closeTrigger c.level c.side bars timeframe t (some armedAt) with
      | error why =>
        rw [fires] at found
        cases found
      | ok answer =>
        rw [fires] at found
        cases answer with
        | none =>
          obtain ⟨t', mem, live⟩ := ih found
          exact ⟨t', List.mem_cons_of_mem _ mem, live⟩
        | some first =>
          cases found
          exact ⟨t, List.mem_cons_self, by simpa using outside, fires⟩

/-- What the dry run of a condition fires, a pass of the engine right after some candle closed fires. -/
theorem replayClose_live {c : Condition P} (mode : c.mode = .close) {bars : Bars P}
    {armedAt now validUntil : Int} {n : Nat} (valid : now < validUntil) {candle : Candle P}
    (found : replayClose c bars.list armedAt now = .ok (some candle, n)) :
    ∃ t ≤ now, armedAt < t ∧
      ({ condition := c, validUntil, armedAt } : PlanRow P).firing { now := t, reading := { candles := some bars } } =
        some candle := by
  unfold replayClose at found
  dsimp only at found
  by_cases positive : 1 ≤ c.timeframeMinutes.getD 0
  · rw [TriggerRules.closedCandles_eq positive] at found
    obtain ⟨t, mem, inside, fires⟩ := replayEnds_live found
    obtain ⟨isEnd, after⟩ := List.mem_filter.mp mem
    obtain ⟨closed, closedMem, rfl⟩ := List.mem_map.mp isEnd
    have ended : closed.stop ≤ now := by simpa using (List.mem_filter.mp closedMem).2
    refine ⟨closed.stop, ended, by simpa using after, ?_⟩
    cases waits : c.timeframeMinutes with
    | none => simp [waits] at positive
    | some timeframe =>
      rw [waits] at fires
      have watches : ({ condition := c, validUntil, armedAt } : PlanRow P).Watches
          { now := closed.stop, reading := { candles := some bars } } :=
        ⟨rfl, rfl, ended.trans_lt valid, mode, inside⟩
      rw [firing_of_watches watches rfl waits]
      exact congrArg (fun answer => answer.toOption.join) fires
  · rw [closedCandles, if_pos (not_le.mp positive)] at found
    cases found

end Prices

/-! A plan of 09:30 to 10:00 on five-minute closes at or above 100, armed at 10:30: at 14:05 a candle closes at 101, the
next morning at 09:20 one closes at 99. -/

/-- A minute of a day in IST. -/
def ist (day minute : Int) : Int := (day * 1440 + minute) * minuteUs - TriggerRules.istOffset

/-- Its condition. -/
def morning (mode : Mode) : Condition Int :=
  { level := 100
    side := .above
    mode
    timeframeMinutes := some 5
    windowStart := some "09:30".toList
    windowEnd := some "10:00".toList }

def morningPlan : PlanRow Int := { condition := morning .close, validUntil := ist 5 0, armedAt := ist 0 630 }

/-- The last bar of each of the two candles. -/
def twoCloses : Bars Int where
  list := [⟨ist 0 844, 99, 101, 101⟩, ⟨ist 1 559, 98, 99, 99⟩]
  ascending := by decide +kernel

/-- The first pass of the next morning inside the window. -/
def nextMorning : Pass Int := { now := ist 1 571, reading := { candles := some twoCloses } }

/-- It fires the plan by the candle of the afternoon before, which a replayed touch ignores. -/
theorem afternoon_close_fires :
    inWindow (morning .close) nextMorning.now = true ∧
      morningPlan.firing nextMorning = some ⟨ist 0 840, ist 0 845, 101, 99, 101⟩ ∧
      inWindow (morning .close) (ist 0 845) = false ∧ (morningPlan.pass nextMorning).status = .done ∧
      (morningPlan.pass nextMorning).triggerPrice = some 101 ∧
      (replayTouch (morning .touch) (ist 0 630) nextMorning.now 0 twoCloses.list).1 = none := by
  decide +kernel

/-- A candle of the same morning that closes in the window. -/
def morningCloses : Bars Int where
  list := [⟨ist 1 571, 98, 99, 99⟩, ⟨ist 1 579, 99, 101, 101⟩]
  ascending := by decide +kernel

theorem replayClose_live_morning : ∃ t ≤ ist 1 600, ist 1 0 < t ∧
    ({ condition := morning .close, validUntil := ist 5 0, armedAt := ist 1 0 } : PlanRow Int).firing
      { now := t, reading := { candles := some morningCloses } } = some ⟨ist 1 575, ist 1 580, 101, 99, 101⟩ :=
  replayClose_live (n := 2) rfl (by decide) (by decide +kernel)

end AdvanceTrading.PlanWindow
