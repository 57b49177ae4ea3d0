import AdvanceTrading.MarketData.Calendar
import AdvanceTrading.Misc.Numerals
import AdvanceTrading.StrategyEngine.Declarative

/-!
# Operands on a higher timeframe

Model of `tf_minutes` and `Operand._higher_timeframe`
(`app/strategy_engine/declarative.py:36-49`, `:168-189`) with `resample_ohlc`
(`app/core/resampling.py:6-24`): the bars of a frame in buckets counted from 09:15
of its first day, and on each base bar the last bucket that had closed. Within a
session the buckets may as well be counted from 09:15 of each day and end with the
session at the latest (`lastClosed`); the two agree for the lengths that divide a
day.
-/

namespace AdvanceTrading.StrategyEngine

open TriggerRules (minuteUs dayUs istOffset istDay)

/-! ## Buckets of a frame -/

/-- `_SESSION_MINUTES`. -/
def sessionMinutes : Nat := 375

/-- `_IST_OPEN_UTC`. -/
def istOpenUtc : Int := (3 * 60 + 45) * minuteUs

/-- `_IST_CLOSE_UTC`. -/
def istCloseUtc : Int := 10 * 60 * minuteUs

/-- `tf_minutes` of a timeframe that is given. -/
def tfMinutes (tf : String) : Option Nat :=
  let text := Py.lower (Py.strip tf)
  if tf = "" then none
  else if text = "day" ∨ text = "1d" then some sessionMinutes
  else
    let digits := text.toList.takeWhile Py.isDecimal
    let unit := (text.toList.dropWhile Py.isDecimal).dropWhile Py.isBlank
    if digits ≠ [] ∧ (unit = ['m', 'i', 'n'] ∨ unit = ['m']) then some (Py.natOf digits) else none

/-- `normalize()`: the UTC day of an instant. -/
def normalize (t : Int) : Int := t / dayUs * dayUs

/-- The label of the bucket of `t`, in buckets of `minutes` counted from `origin`. -/
def bucketLabel (minutes : Nat) (origin t : Int) : Int :=
  origin + (t - origin) / (minutes * minuteUs) * (minutes * minuteUs)

/-- The bar of a bucket that is not empty; an empty one is dropped. -/
def ohlc (label : Int) (rows : List Bar) : Bar where
  start := label
  open_ := (rows.map Bar.open_).headD 0
  high := (rows.map Bar.high).max?.getD 0
  low := (rows.map Bar.low).min?.getD 0
  close := (rows.map Bar.close).getLastD 0
  volume := some (rows.filterMap Bar.volume).sum

/-- `resample_ohlc`. -/
def resampleOhlc (bars : List Bar) (minutes : Nat) (origin : Int) : List Bar :=
  (Dict.groupBy (fun b => bucketLabel minutes origin b.start) bars).map fun e => ohlc e.1 e.2

/-- `ends` of a bucket: it closes with the session where it would end after it, if buckets do not tile the session. -/
def bucketEnd (minutes : Nat) (label : Int) : Int :=
  let close := normalize label + istCloseUtc
  let end_ := label + minutes * minuteUs
  if minutes < sessionMinutes ∧ sessionMinutes % minutes ≠ 0 ∧ label < close ∧ close < end_ then close else end_

/-- `_higher_timeframe`; a frame without volumes raises in `resample_ohlc`. -/
def Operand.higherTimeframe (operand : Operand) (tf : String) (f : Frame) : Except String (List (Option ℚ)) :=
  match f.bars.head?, tfMinutes tf with
  | none, _ => .ok []
  | some _, none | some _, some 0 => .ok (f.bars.map fun _ => none)
  | some first, some htf =>
      if f.hasVolume then
        let frame := resampleOhlc f.bars htf (normalize first.start + istOpenUtc)
        let inner := operand.series { bars := frame, hasVolume := true }
        let byEnd := (frame.map fun b => bucketEnd htf b.start).zip inner
        .ok (f.bars.map fun b =>
          ((byEnd.filter fun e => e.1 ≤ b.start + baseMinutes f.bars).getLast?).bind Prod.snd)
      else .error "KeyError: 'volume'"

/-- The operands OPEN, HIGH, LOW and CLOSE, and what they read of a bar. -/
def Operand.column : Operand → Option (Bar → ℚ)
  | .open_ => some Bar.open_
  | .high => some Bar.high
  | .low => some Bar.low
  | .close => some Bar.close
  | _ => none

/-! ## Buckets of a session -/

/-- 09:15 IST on a day. -/
def sessionOpen (day : Int) : Int := MarketData.dayStart day + (9 * 60 + 15) * minuteUs

/-- 15:30 IST on a day. -/
def sessionClose (day : Int) : Int := MarketData.dayStart day + (15 * 60 + 30) * minuteUs

/-- The label of a bar's bucket, counted from 09:15 of its own session. -/
def ownBucket (minutes : Nat) (b : Bar) : Int := bucketLabel minutes (sessionOpen (session b)) b.start

/-- When it has closed: at its end or at 15:30. -/
def ownEnd (minutes : Nat) (b : Bar) : Int :=
  min (ownBucket minutes b + minutes * minuteUs) (sessionClose (session b))

/-- A column of the last bucket that had closed by `t`. -/
def lastClosed (column : Bar → ℚ) (minutes : Nat) (bars : List Bar) (t : Int) : Option ℚ :=
  (bars.filter fun b => ownEnd minutes b ≤ t).getLast?.map fun b =>
    column (ohlc (ownBucket minutes b) (groupOfRow (ownBucket minutes) b bars))

/-- The frame from a session on. -/
def Frame.fromSession (f : Frame) (day : Int) : Frame := { f with bars := f.bars.filter fun b => day ≤ session b }

/-- Bars of sessions, of one base timeframe: from any of its sessions on that has a later one, that is the timeframe
`_base_minutes` reads. -/
structure BaseFrame (base : Int) (f : Frame) : Prop where
  volumes : f.hasVolume = true
  ascending : f.bars.Pairwise fun b b' => b.start < b'.start
  inSession : ∀ b ∈ f.bars, sessionOpen (session b) ≤ b.start ∧ b.start < sessionClose (session b)
  timeframe : ∀ b ∈ f.bars, ∀ b' ∈ f.bars, session b < session b' → baseMinutes (f.fromSession (session b)).bars = base

/-- The operand gives the same on every bar of a session after both starts, which is the value of the last bucket of a
session that had closed by the end of the bar. -/
def SameFromAnyStart (tf : String) (minutes : Nat) : Prop :=
  ∀ (base : Int) (f : Frame), BaseFrame base f →
    ∀ (operand : Operand) (column : Bar → ℚ), operand.column = some column →
      ∀ first ∈ f.bars, ∀ first' ∈ f.bars, ∀ (b : Bar) (k k' : Nat),
        (f.fromSession (session first)).bars[k]? = some b → (f.fromSession (session first')).bars[k']? = some b →
          session first < session b → session first' < session b →
            ∃ values values', operand.higherTimeframe tf (f.fromSession (session first)) = .ok values ∧
              operand.higherTimeframe tf (f.fromSession (session first')) = .ok values' ∧
              values[k]? = values'[k']? ∧ values[k]? = some (lastClosed column minutes f.bars (b.start + base))

/-! ## What the code reads -/

variable {operand : Operand} {tf : String} {first : Bar} {t : Int}

section Read

variable {minutes : Nat} {origin : Int}

theorem bucketLabel_le (positive : 0 < minutes) (t : Int) : bucketLabel minutes origin t ≤ t := by
  have length : (0 : Int) < minutes * minuteUs := by
    unfold minuteUs
    omega
  have low := Int.ediv_mul_le (t - origin) length.ne'
  unfold bucketLabel
  omega

theorem bucketLabel_mono (positive : 0 < minutes) {u : Int} (le : t ≤ u) :
    bucketLabel minutes origin t ≤ bucketLabel minutes origin u := by
  have length : (0 : Int) < minutes * minuteUs := by
    unfold minuteUs
    omega
  have quotients := Int.ediv_le_ediv length (by omega : t - origin ≤ u - origin)
  have products := Int.mul_le_mul_of_nonneg_right quotients length.le
  unfold bucketLabel
  omega

/-- The last bucket with a property of its label is that of the last bar in such a bucket. -/
theorem getLast?_resample (positive : 0 < minutes) {bars : List Bar}
    (ascending : bars.Pairwise fun b b' => b.start < b'.start) (p : Int → Bool) :
    ((resampleOhlc bars minutes origin).filter fun b => p b.start).getLast?
      = (bars.filter fun b => p (bucketLabel minutes origin b.start)).getLast?.map fun b =>
          ohlc (bucketLabel minutes origin b.start)
            (groupOfRow (fun b => bucketLabel minutes origin b.start) b bars) := by
  have sorted : (bars.filter fun b => p (bucketLabel minutes origin b.start)).Pairwise fun b b' =>
      bucketLabel minutes origin b.start ≤ bucketLabel minutes origin b'.start :=
    (ascending.filter _).imp fun lt => bucketLabel_mono positive lt.le
  have filtered : ((resampleOhlc bars minutes origin).filter fun b => p b.start)
      = (Dict.groupBy (fun b => bucketLabel minutes origin b.start)
          (bars.filter fun b => p (bucketLabel minutes origin b.start))).map fun e => ohlc e.1 e.2 := by
    unfold resampleOhlc
    rw [List.filter_map, ← Dict.filter_groupBy_keys p]
    rfl
  rw [filtered, List.getLast?_map, getLast?_groupBy sorted, Option.map_map]
  cases isLast : (bars.filter fun b => p (bucketLabel minutes origin b.start)).getLast? with
  | none => rfl
  | some b =>
    have kept := List.mem_of_getLast? isLast
    simp only [List.mem_filter] at kept
    simp only [Option.map_some, Function.comp_apply, groupOfRow, List.filter_filter]
    congr 2
    apply List.filter_congr
    intro b' _
    by_cases same : bucketLabel minutes origin b'.start = bucketLabel minutes origin b.start
    · simp [same, kept.2]
    · simp [same]

theorem series_of_column {column : Bar → ℚ} (reads : operand.column = some column) (f : Frame) :
    operand.series f = f.bars.map fun b => some (column b) := by
  cases operand <;> simp only [Operand.column, Option.some.injEq, reduceCtorEq] at reads
  all_goals
    subst reads
    rfl

/-- An operand's value on a base bar, by the bars of the frame. -/
theorem higherTimeframe_eq {column : Bar → ℚ} (reads : operand.column = some column)
    (isTf : tfMinutes tf = some minutes) (positive : 0 < minutes) {f : Frame}
    (volumes : f.hasVolume = true) (ascending : f.bars.Pairwise fun b b' => b.start < b'.start)
    (isFirst : f.bars.head? = some first) :
    operand.higherTimeframe tf f = .ok (f.bars.map fun b =>
      let label := fun b : Bar => bucketLabel minutes (normalize first.start + istOpenUtc) b.start
      (f.bars.filter fun b' => bucketEnd minutes (label b') ≤ b.start + baseMinutes f.bars).getLast?.map fun b' =>
        column (ohlc (label b') (groupOfRow label b' f.bars))) := by
  obtain ⟨n, rfl⟩ : ∃ n, minutes = n + 1 := ⟨minutes - 1, by omega⟩
  simp only [Operand.higherTimeframe, isFirst, isTf, volumes, if_true]
  congr 1
  apply List.map_congr_left
  intro b _
  have last := @getLast?_resample _ (normalize first.start + istOpenUtc) positive _ ascending
    fun label => bucketEnd (n + 1) label ≤ b.start + baseMinutes f.bars
  rw [series_of_column reads, List.zip_map', List.filter_map, List.getLast?_map]
  simp only [Function.comp_def]
  rw [last]
  cases (f.bars.filter _).getLast? <;> rfl

end Read

/-! ## Lengths that divide a day -/

section Divides

variable {minutes : Nat}

theorem sessionOpen_eq (day : Int) : sessionOpen day = day * dayUs + istOpenUtc := by
  unfold sessionOpen MarketData.dayStart istOpenUtc istOffset minuteUs
  omega

theorem sessionClose_eq (day : Int) : sessionClose day = day * dayUs + istCloseUtc := by
  unfold sessionClose MarketData.dayStart istCloseUtc istOffset minuteUs
  omega

/-- Buckets counted from the same time of another day are the same ones. -/
theorem bucketLabel_day (divides : minutes ∣ 1440) (origin days t : Int) :
    bucketLabel minutes (origin + days * dayUs) t = bucketLabel minutes origin t := by
  obtain ⟨n, isDay⟩ := divides
  have positive : 0 < minutes := by
    rcases Nat.eq_zero_or_pos minutes with rfl | positive
    · omega
    · exact positive
  have length : (minutes * minuteUs : Int) ≠ 0 := by
    unfold minuteUs
    omega
  have day : dayUs = n * (minutes * minuteUs) := by
    have cast : (1440 : Int) = minutes * n := by exact_mod_cast isDay
    unfold dayUs
    rw [cast]
    ring
  have moved : t - (origin + days * dayUs) = t - origin + -(days * n) * (minutes * minuteUs) := by
    rw [day]
    ring
  unfold bucketLabel
  rw [moved, Int.add_mul_ediv_right _ _ length, day]
  ring

/-- Counted from 09:15 of any day, a bar's bucket is its own. -/
theorem bucketLabel_own (divides : minutes ∣ 1440) (t : Int) (b : Bar) :
    bucketLabel minutes (normalize t + istOpenUtc) b.start = ownBucket minutes b := by
  have sameTime : normalize t + istOpenUtc = sessionOpen (session b) + (t / dayUs - session b) * dayUs := by
    rw [sessionOpen_eq]
    unfold normalize
    ring
  rw [sameTime, bucketLabel_day divides]
  rfl

variable {b : Bar}

theorem sessionOpen_le_ownBucket (positive : 0 < minutes) (opened : sessionOpen (session b) ≤ b.start) :
    sessionOpen (session b) ≤ ownBucket minutes b := by
  have length : (0 : Int) < minutes * minuteUs := by
    unfold minuteUs
    omega
  have atLeast := Int.mul_nonneg
    (Int.ediv_nonneg (by omega : 0 ≤ b.start - sessionOpen (session b)) length.le) length.le
  unfold ownBucket bucketLabel
  omega

/-- Buckets that tile the session end by 15:30. -/
theorem ownBucket_tiles (tiles : minutes ∣ sessionMinutes) (positive : 0 < minutes)
    (before : b.start < sessionClose (session b)) :
    ownBucket minutes b + minutes * minuteUs ≤ sessionClose (session b) := by
  obtain ⟨n, isSession⟩ := tiles
  have length : (0 : Int) < minutes * minuteUs := by
    unfold minuteUs
    omega
  have session_ : sessionClose (session b) = sessionOpen (session b) + n * (minutes * minuteUs) := by
    have cast : (375 : Int) = minutes * n := by exact_mod_cast isSession
    rw [sessionClose_eq, sessionOpen_eq]
    calc session b * dayUs + istCloseUtc = session b * dayUs + istOpenUtc + 375 * minuteUs := by
          unfold istCloseUtc istOpenUtc
          ring
      _ = _ := by
          rw [cast]
          ring
  have count : (b.start - sessionOpen (session b)) / (minutes * minuteUs) < n :=
    Int.ediv_lt_of_lt_mul length (by omega)
  have products := Int.mul_le_mul_of_nonneg_right (Int.add_one_le_iff.mpr count) length.le
  rw [add_mul, one_mul] at products
  unfold ownBucket bucketLabel
  omega

/-- Below the length of a session, a bucket of the session ends when the code says. -/
theorem bucketEnd_own (positive : 0 < minutes) (short : minutes < sessionMinutes)
    (inSession : sessionOpen (session b) ≤ b.start ∧ b.start < sessionClose (session b)) :
    bucketEnd minutes (ownBucket minutes b) = ownEnd minutes b := by
  have opened := sessionOpen_le_ownBucket positive inSession.1
  have started : ownBucket minutes b ≤ b.start := bucketLabel_le positive _
  have sameDay : normalize (ownBucket minutes b) + istCloseUtc = sessionClose (session b) := by
    have before := inSession.2
    rw [sessionOpen_eq] at opened
    rw [sessionClose_eq] at before ⊢
    unfold normalize istOpenUtc istCloseUtc dayUs minuteUs at *
    omega
  unfold bucketEnd ownEnd
  rw [sameDay]
  dsimp only
  split
  case isTrue capped => omega
  case isFalse uncapped =>
    by_cases tiles : sessionMinutes % minutes = 0
    · have := ownBucket_tiles (Nat.dvd_of_mod_eq_zero tiles) positive inSession.2
      omega
    · have begun : ownBucket minutes b < sessionClose (session b) := started.trans_lt inSession.2
      rw [not_and, not_and, not_and] at uncapped
      have := uncapped short tiles begun
      omega

/-- A bar's bucket tells its session. -/
theorem session_of_ownBucket {b' : Bar} (positive : 0 < minutes)
    (inSession : sessionOpen (session b) ≤ b.start ∧ b.start < sessionClose (session b))
    (inSession' : sessionOpen (session b') ≤ b'.start ∧ b'.start < sessionClose (session b'))
    (same : ownBucket minutes b = ownBucket minutes b') : session b = session b' := by
  have opened := sessionOpen_le_ownBucket positive inSession.1
  have opened' := sessionOpen_le_ownBucket positive inSession'.1
  have started : ownBucket minutes b ≤ b.start := bucketLabel_le positive _
  have started' : ownBucket minutes b' ≤ b'.start := bucketLabel_le positive _
  have before := inSession.2
  have before' := inSession'.2
  rw [sessionOpen_eq] at opened opened'
  rw [sessionClose_eq] at before before'
  unfold istOpenUtc istCloseUtc dayUs minuteUs at *
  omega

end Divides

section Frames

variable {minutes : Nat} {base : Int} {f : Frame} {column : Bar → ℚ}

theorem baseMinutes_pos (bars : List Bar) : 0 < baseMinutes bars := by
  unfold baseMinutes
  split
  · decide
  · exact lt_of_lt_of_le (by decide) (le_max_left _ _)

theorem mem_fromSession {b : Bar} {day : Int} : b ∈ (f.fromSession day).bars ↔ b ∈ f.bars ∧ day ≤ session b := by
  simp [Frame.fromSession]

/-- With buckets of a length that divides a day and is shorter than a session, the code reads the last bucket of a
session that had closed. -/
theorem higherTimeframe_own (reads : operand.column = some column)
    (isTf : tfMinutes tf = some minutes) (positive : 0 < minutes) (divides : minutes ∣ 1440)
    (short : minutes < sessionMinutes) (volumes : f.hasVolume = true)
    (ascending : f.bars.Pairwise fun b b' => b.start < b'.start)
    (inSession : ∀ b ∈ f.bars, sessionOpen (session b) ≤ b.start ∧ b.start < sessionClose (session b)) :
    operand.higherTimeframe tf f
      = .ok (f.bars.map fun b => lastClosed column minutes f.bars (b.start + baseMinutes f.bars)) := by
  cases isFirst : f.bars.head? with
  | none =>
    rw [List.head?_eq_none_iff] at isFirst
    simp [Operand.higherTimeframe, isFirst]
  | some first =>
    rw [higherTimeframe_eq reads isTf positive volumes ascending isFirst]
    congr 1
    apply List.map_congr_left
    intro b _
    have ends : (f.bars.filter fun b' => bucketEnd minutes (ownBucket minutes b') ≤ b.start + baseMinutes f.bars)
        = f.bars.filter fun b' => ownEnd minutes b' ≤ b.start + baseMinutes f.bars := by
      apply List.filter_congr
      intro b' mem
      rw [bucketEnd_own positive short (inSession b' mem)]
    simp only [bucketLabel_own divides]
    rw [ends]
    rfl

/-- Bars from before the start do not count, once a session after it has closed. -/
theorem lastClosed_fromSession (positive : 0 < minutes) (isBase : BaseFrame base f)
    (mem : first ∈ f.bars) (closed : sessionClose (session first) ≤ t) :
    lastClosed column minutes (f.fromSession (session first)).bars t = lastClosed column minutes f.bars t := by
  have firstClosed : ownEnd minutes first ≤ t := (min_le_right _ _).trans closed
  have kept : first ∈ f.bars.filter fun b => ownEnd minutes b ≤ t :=
    List.mem_filter.mpr ⟨mem, by simpa using firstClosed⟩
  obtain ⟨b, isLast⟩ : ∃ b, (f.bars.filter fun b => ownEnd minutes b ≤ t).getLast? = some b :=
    ⟨_, List.getLast?_eq_some_getLast (List.ne_nil_of_mem kept)⟩
  obtain ⟨before, split⟩ := List.getLast?_eq_some_iff.mp isLast
  -- the last closed bar is not before the start
  have later : session first ≤ session b := by
    rw [split] at kept
    rcases List.mem_append.mp kept with isBefore | isIt
    · have ordered := isBase.ascending.filter fun b => ownEnd minutes b ≤ t
      rw [split] at ordered
      have lt := (List.pairwise_append.mp ordered).2.2 first isBefore b (List.mem_singleton_self b)
      unfold session istDay dayUs minuteUs
      omega
    · rw [List.mem_singleton.mp isIt]
  have inBars : b ∈ f.bars := (List.mem_filter.mp (List.mem_of_getLast? isLast)).1
  have isLast' : (((f.fromSession (session first)).bars).filter fun b => ownEnd minutes b ≤ t).getLast? = some b := by
    unfold Frame.fromSession
    rw [List.filter_comm, split, List.filter_append, List.filter_cons_of_pos (by simpa using later)]
    exact List.getLast?_concat
  have group : groupOfRow (ownBucket minutes) b (f.fromSession (session first)).bars
      = groupOfRow (ownBucket minutes) b f.bars := by
    unfold groupOfRow Frame.fromSession
    rw [List.filter_filter]
    apply List.filter_congr
    intro b' mem'
    by_cases same : ownBucket minutes b' = ownBucket minutes b
    · have sameSession := session_of_ownBucket positive (isBase.inSession b' mem') (isBase.inSession b inBars) same
      simp [same, sameSession, later]
    · simp [same]
  unfold lastClosed
  rw [isLast', isLast, Option.map_some, Option.map_some, group]

/-- What the code gives on a bar, from a start in an earlier session. -/
theorem value_from (positive : 0 < minutes) (divides : minutes ∣ 1440)
    (short : minutes < sessionMinutes) (isBase : BaseFrame base f)
    (reads : operand.column = some column) (isTf : tfMinutes tf = some minutes) {b : Bar}
    (mem : first ∈ f.bars) {k : Nat} (at_ : (f.fromSession (session first)).bars[k]? = some b)
    (later : session first < session b) :
    ∃ values, operand.higherTimeframe tf (f.fromSession (session first)) = .ok values ∧
      values[k]? = some (lastClosed column minutes f.bars (b.start + base)) := by
  have inBars := mem_fromSession.mp (List.mem_of_getElem? at_)
  have isTimeframe := isBase.timeframe first mem b inBars.1 later
  have opened := (isBase.inSession b inBars.1).1
  have closed : sessionClose (session first) ≤ b.start + base := by
    have some_ := baseMinutes_pos (f.fromSession (session first)).bars
    rw [isTimeframe] at some_
    rw [sessionOpen_eq] at opened
    rw [sessionClose_eq]
    unfold istOpenUtc istCloseUtc dayUs minuteUs at *
    omega
  refine ⟨_, higherTimeframe_own reads isTf positive divides short isBase.volumes (isBase.ascending.filter _) ?_, ?_⟩
  · intro b' mem'
    exact isBase.inSession b' (mem_fromSession.mp mem').1
  · rw [List.getElem?_map, at_, Option.map_some, isTimeframe, lastClosed_fromSession positive isBase mem closed]

end Frames

/-! ## Two bars, and one of a later session -/

section Three

/-- A bar at one price. -/
def flatBar (start : Int) (price : ℚ) : Bar where
  start := start
  open_ := price
  high := price
  low := price
  close := price
  volume := some 0

/-- The last bar, which ends `minute` minutes after 09:15 of a day. -/
def laterBar (day minute : Nat) : Bar := flatBar (day * dayUs + istOpenUtc + (minute - 1) * minuteUs) 2

/-- The first two minutes of day 0 at the price 1, and a later minute at the price 2. -/
def threeBars (day minute : Nat) : Frame where
  bars := [flatBar istOpenUtc 1, flatBar (istOpenUtc + minuteUs) 1, laterBar day minute]
  hasVolume := true

variable {day minute : Nat}

theorem session_first : session (flatBar istOpenUtc 1) = 0 := rfl

theorem session_second : session (flatBar (istOpenUtc + minuteUs) 1) = 0 := rfl

theorem session_later (opened : 1 ≤ minute) (open_ : minute ≤ sessionMinutes) :
    session (laterBar day minute) = day := by
  unfold session istDay laterBar flatBar sessionMinutes istOpenUtc istOffset dayUs minuteUs at *
  dsimp only
  omega

theorem fromSession_zero (opened : 1 ≤ minute) (open_ : minute ≤ sessionMinutes) :
    (threeBars day minute).fromSession 0 = threeBars day minute := by
  simp [threeBars, Frame.fromSession, session_first, session_second, session_later opened open_]

theorem baseMinutes_three (later : 1 ≤ day) (opened : 1 ≤ minute) :
    baseMinutes (threeBars day minute).bars = minuteUs := by
  have apart : (0 : Int) < minuteUs ∧ minuteUs ≤
      day * dayUs + istOpenUtc + (minute - 1) * minuteUs - (istOpenUtc + minuteUs) := by
    unfold istOpenUtc dayUs minuteUs
    omega
  simp only [threeBars, laterBar, flatBar, baseMinutes, spacings]
  rw [if_pos (by omega), if_pos (by omega)]
  simp only [List.min?_cons', List.foldl_cons, List.foldl_nil]
  omega

/-- They are bars of sessions, one minute each. -/
theorem baseFrame_three (later : 1 ≤ day) (opened : 1 ≤ minute) (open_ : minute ≤ sessionMinutes) :
    BaseFrame minuteUs (threeBars day minute) where
  volumes := rfl
  ascending := by
    simp only [threeBars, laterBar, flatBar, List.pairwise_cons, List.mem_cons, List.not_mem_nil, or_false]
    unfold istOpenUtc dayUs minuteUs
    refine ⟨?_, ?_, ?_, List.Pairwise.nil⟩
    · rintro b (rfl | rfl) <;> dsimp only <;> omega
    · rintro b rfl
      dsimp only
      omega
    · exact fun _ none => none.elim
  inSession := by
    intro b mem
    simp only [threeBars, List.mem_cons, List.not_mem_nil, or_false] at mem
    rcases mem with rfl | rfl | rfl
    · rw [session_first]
      decide
    · rw [session_second]
      decide
    · rw [session_later opened open_, sessionOpen_eq, sessionClose_eq]
      unfold laterBar flatBar sessionMinutes istOpenUtc istCloseUtc dayUs minuteUs at *
      dsimp only
      omega
  timeframe := by
    intro b mem b' mem' lt
    have isZero : session b = 0 := by
      simp only [threeBars, List.mem_cons, List.not_mem_nil, or_false] at mem mem'
      rcases mem with rfl | rfl | rfl
      · rfl
      · rfl
      · rw [session_later opened open_] at lt ⊢
        rcases mem' with rfl | rfl | rfl
        · rw [session_first] at lt
          omega
        · rw [session_second] at lt
          omega
        · rw [session_later opened open_] at lt
          omega
    rw [isZero, fromSession_zero opened open_, baseMinutes_three later opened]

variable {minutes : Nat}

theorem minute_bounds (positive : 0 < minutes) :
    1 ≤ min minutes sessionMinutes ∧ min minutes sessionMinutes ≤ sessionMinutes ∧
      min minutes sessionMinutes ≤ minutes :=
  ⟨le_min positive (by decide), min_le_right _ _, min_le_left _ _⟩

/-- The later bar is in the first bucket of its session. -/
theorem ownBucket_later (opened : 1 ≤ minute) (open_ : minute ≤ sessionMinutes)
    (within : minute ≤ minutes) : ownBucket minutes (laterBar day minute) = sessionOpen day := by
  have elapsed : (laterBar day minute).start - sessionOpen day = (minute - 1) * minuteUs := by
    rw [sessionOpen_eq]
    unfold laterBar flatBar
    ring
  have first : ((minute : Int) - 1) * minuteUs / (minutes * minuteUs) = 0 := by
    apply Int.ediv_eq_zero_of_lt
    · unfold minuteUs
      omega
    · unfold minuteUs
      omega
  unfold ownBucket bucketLabel
  rw [session_later opened open_, elapsed, first]
  omega

/-- By its own session, the later bar's bucket has closed with it. -/
theorem lastClosed_three (positive : 0 < minutes) (later : 1 ≤ day) :
    lastClosed Bar.close minutes (threeBars day (min minutes sessionMinutes)).bars
      ((laterBar day (min minutes sessionMinutes)).start + minuteUs) = some 2 := by
  obtain ⟨opened, open_, within⟩ := minute_bounds positive
  have reaches : minutes ≤ min minutes sessionMinutes ∨ sessionMinutes ≤ min minutes sessionMinutes := by omega
  generalize min minutes sessionMinutes = minute at *
  have isBase := baseFrame_three later opened open_
  have isBucket : ownBucket minutes (laterBar day minute) = sessionOpen day := ownBucket_later opened open_ within
  have isSession : session (laterBar day minute) = day := session_later opened open_
  have closed : ownEnd minutes (laterBar day minute) ≤ (laterBar day minute).start + minuteUs := by
    unfold ownEnd
    rw [isBucket, isSession, sessionOpen_eq, sessionClose_eq]
    unfold laterBar flatBar sessionMinutes istOpenUtc istCloseUtc minuteUs at *
    dsimp only
    omega
  have last : ((threeBars day minute).bars.filter fun b =>
      ownEnd minutes b ≤ (laterBar day minute).start + minuteUs).getLast? = some (laterBar day minute) := by
    have split : (threeBars day minute).bars
        = [flatBar istOpenUtc 1, flatBar (istOpenUtc + minuteUs) 1] ++ [laterBar day minute] := rfl
    have kept : [laterBar day minute].filter (fun b => ownEnd minutes b ≤ (laterBar day minute).start + minuteUs)
        = [laterBar day minute] := by simpa using closed
    rw [split, List.filter_append, kept]
    exact List.getLast?_concat
  have mem : laterBar day minute ∈ (threeBars day minute).bars := by simp [threeBars]
  have others : ∀ b ∈ (threeBars day minute).bars, session b = 0 →
      ownBucket minutes b ≠ ownBucket minutes (laterBar day minute) := by
    intro b inBars isZero same
    have := session_of_ownBucket positive (isBase.inSession b inBars) (isBase.inSession _ mem) same
    omega
  have group : groupOfRow (ownBucket minutes) (laterBar day minute) (threeBars day minute).bars =
      [laterBar day minute] := by
    have first := others (flatBar istOpenUtc 1) (by simp [threeBars]) session_first
    have second := others (flatBar (istOpenUtc + minuteUs) 1) (by simp [threeBars]) session_second
    simp [groupOfRow, threeBars, first, second]
  unfold lastClosed
  rw [last, Option.map_some, group]
  rfl

/-- In buckets counted from day 0 it has not, when none of them ends with it. -/
theorem bucketEnd_later (positive : 0 < minutes)
    (crosses : ¬ minutes ∣ 1440 * day + min minutes sessionMinutes) :
    (laterBar day (min minutes sessionMinutes)).start + minuteUs
      < bucketEnd minutes (bucketLabel minutes istOpenUtc (laterBar day (min minutes sessionMinutes)).start) := by
  obtain ⟨opened, open_, within⟩ := minute_bounds positive
  have shorter : minutes < sessionMinutes → min minutes sessionMinutes = minutes := fun lt => min_eq_left lt.le
  generalize min minutes sessionMinutes = minute at *
  have isStart : (laterBar day minute).start = istOpenUtc + (1440 * day + minute - 1) * minuteUs := by
    unfold laterBar flatBar dayUs
    ring
  have length : (0 : Int) < minutes * minuteUs := by
    unfold minuteUs
    omega
  -- the bucket in minutes: its end is past the last minute and not at the end of it
  let steps : Int := (1440 * day + minute - 1) / minutes
  have isLabel : bucketLabel minutes istOpenUtc (laterBar day minute).start =
      istOpenUtc + steps * minutes * minuteUs := by
    have quotient : ((1440 * day + minute - 1) * minuteUs : Int) / (minutes * minuteUs) = steps :=
      Int.mul_ediv_mul_of_pos_left _ _ (by decide)
    unfold bucketLabel
    rw [isStart, add_sub_cancel_left, quotient, mul_assoc]
  have past : (1440 * day + minute - 1 : Int) < steps * minutes + minutes := by
    have high := Int.lt_ediv_add_one_mul_self (1440 * day + minute - 1 : Int) (by omega : (0 : Int) < minutes)
    rw [add_mul, one_mul] at high
    exact high
  have notAt : (1440 * day + minute : Int) ≠ steps * minutes + minutes := by
    intro ends
    apply crosses
    have divides : (minutes : Int) ∣ ((1440 * day + minute : Nat) : Int) := ⟨steps + 1, by push_cast; rw [ends]; ring⟩
    exact_mod_cast divides
  have after : (1440 * day + minute : Int) < steps * minutes + minutes := by omega
  rw [isLabel, isStart]
  unfold bucketEnd
  dsimp only
  generalize steps * minutes = grid at *
  split
  case isFalse =>
    unfold minuteUs at *
    omega
  case isTrue capped =>
    -- shorter than a session, it begins on the later day, and is capped at the close of that
    have isMinute := shorter capped.1
    have begun := @bucketLabel_le _ istOpenUtc positive (laterBar day minute).start
    rw [isLabel, isStart] at begun
    unfold normalize istOpenUtc istCloseUtc sessionMinutes dayUs minuteUs at *
    omega

/-- A bucket of bars at the price 1 does not close at 2. -/
theorem close_ne_two {label : Int} {rows : List Bar} (atOne : ∀ b ∈ rows, b.close = 1) :
    (ohlc label rows).close ≠ 2 := by
  show (rows.map Bar.close).getLastD 0 ≠ 2
  rw [List.getLastD_eq_getLast?, List.getLast?_map]
  cases isLast : rows.getLast? with
  | none => simp
  | some b => simp [atOne b (List.mem_of_getLast? isLast)]

/-- Another length fails by such bars. -/
theorem exists_crossing (wrong : ¬ (minutes ∣ 1440 ∧ minutes < sessionMinutes)) :
    ∃ day, 1 ≤ day ∧ ¬ minutes ∣ 1440 * day + min minutes sessionMinutes := by
  by_contra none_crosses
  push Not at none_crosses
  have second := none_crosses 2 (by decide)
  have third := none_crosses 3 (by decide)
  have divides : minutes ∣ 1440 := by
    have apart := Nat.dvd_sub third second
    have isDay : 1440 * 3 + min minutes sessionMinutes - (1440 * 2 + min minutes sessionMinutes) = 1440 := by omega
    rwa [isDay] at apart
  have rest : minutes ∣ min minutes sessionMinutes := (Nat.dvd_add_right (divides.mul_right 2)).mp second
  rcases lt_or_ge minutes sessionMinutes with short | long
  · exact wrong ⟨divides, short⟩
  · rw [min_eq_right long] at rest
    have isSession : minutes = sessionMinutes := le_antisymm (Nat.le_of_dvd (by decide) rest) long
    rw [isSession] at divides
    exact absurd divides (by decide)

end Three

/-! ## The lengths that keep -/

/-- An operand on a higher timeframe is the same from any starting session, and reads buckets counted from 09:15 of each
session that end with it, exactly for the lengths that divide a day and are shorter than a session. -/
theorem sameFromAnyStart_iff {tf : String} {minutes : Nat} (isTf : tfMinutes tf = some minutes)
    (positive : 0 < minutes) :
    SameFromAnyStart tf minutes ↔ minutes ∣ 1440 ∧ minutes < sessionMinutes := by
  constructor
  · intro same
    by_contra wrong
    obtain ⟨day, later, crosses⟩ := exists_crossing wrong
    obtain ⟨opened, open_, -⟩ := minute_bounds positive
    have lastIs := lastClosed_three positive later
    have notClosed := bucketEnd_later positive crosses
    generalize min minutes sessionMinutes = minute at *
    have isBase := baseFrame_three later opened open_
    have isSession : session (laterBar day minute) = day := session_later opened open_
    have at_ : ((threeBars day minute).fromSession (session (flatBar istOpenUtc 1))).bars[2]? =
        some (laterBar day minute) := by
      rw [session_first, fromSession_zero opened open_]
      rfl
    have mem : flatBar istOpenUtc 1 ∈ (threeBars day minute).bars := List.mem_cons_self
    have before : session (flatBar istOpenUtc 1) < session (laterBar day minute) := by
      rw [session_first, isSession]
      omega
    obtain ⟨values, -, given, -, -, isLast⟩ :=
        same minuteUs _ isBase .close Bar.close rfl _ mem _ mem _ 2 2 at_ at_ before before
    rw [session_first, fromSession_zero opened open_,
      higherTimeframe_eq rfl isTf positive isBase.volumes isBase.ascending rfl] at given
    obtain rfl := Except.ok.inj given
    rw [lastIs, baseMinutes_three later opened] at isLast
    have value : ((threeBars day minute).bars.filter fun b =>
        bucketEnd minutes (bucketLabel minutes istOpenUtc b.start) ≤
          (laterBar day minute).start + minuteUs).getLast?.map
          (fun b => (ohlc (bucketLabel minutes istOpenUtc b.start)
            (groupOfRow (fun b => bucketLabel minutes istOpenUtc b.start) b
              (threeBars day minute).bars)).close) = some 2 :=
      Option.some.inj isLast
    rw [Option.map_eq_some_iff] at value
    obtain ⟨b, isB, isTwo⟩ := value
    have closed := of_decide_eq_true (List.mem_filter.mp (List.mem_of_getLast? isB)).2
    refine close_ne_two ?_ isTwo
    -- the bars of a bucket that has closed are those of day 0
    intro b' inGroup
    obtain ⟨inBars, sameBucket⟩ := List.mem_filter.mp inGroup
    have sameBucket : bucketLabel minutes istOpenUtc b'.start = bucketLabel minutes istOpenUtc b.start :=
      of_decide_eq_true sameBucket
    simp only [threeBars, List.mem_cons, List.not_mem_nil, or_false] at inBars
    rcases inBars with rfl | rfl | rfl
    · rfl
    · rfl
    · rw [sameBucket] at notClosed
      exact absurd closed notClosed.not_ge
  · rintro ⟨divides, short⟩ base f isBase operand column reads first mem first' mem' b k k' at_ at' later later'
    obtain ⟨values, given, isValue⟩ := value_from positive divides short isBase reads isTf mem at_ later
    obtain ⟨values', given', isValue'⟩ := value_from positive divides short isBase reads isTf mem' at' later'
    exact ⟨values, values', given, given', isValue.trans isValue'.symm, isValue⟩

theorem sameFromAnyStart_15min : tfMinutes "15min" = some 15 ∧ 0 < 15 ∧
    (SameFromAnyStart "15min" 15 ↔ 15 ∣ 1440 ∧ 15 < sessionMinutes) :=
  ⟨by decide +kernel, by decide, sameFromAnyStart_iff (by decide +kernel) (by decide)⟩

/-- The day's own bar, closed at 15:30, is not what the last minute of the second session reads on `day`: there the
buckets end at 10:15 and 16:30. -/
theorem day_reads_other_buckets : tfMinutes "day" = some 375 ∧ ¬ SameFromAnyStart "day" 375 := by
  refine ⟨by decide +kernel, ?_⟩
  intro same
  have isBase : BaseFrame minuteUs (threeBars 1 375) := baseFrame_three (by decide) (by decide) (by decide)
  have mem : flatBar istOpenUtc 1 ∈ (threeBars 1 375).bars := List.mem_cons_self
  have at_ : ((threeBars 1 375).fromSession (session (flatBar istOpenUtc 1))).bars[2]? = some (laterBar 1 375) := by
    decide +kernel
  have before : session (flatBar istOpenUtc 1) < session (laterBar 1 375) := by decide +kernel
  obtain ⟨values, -, given, -, -, isLast⟩ :=
      same minuteUs _ isBase .close Bar.close rfl _ mem _ mem _ 2 2 at_ at_ before before
  have isValue : Operand.close.higherTimeframe "day" ((threeBars 1 375).fromSession (session (flatBar istOpenUtc 1)))
      = .ok [none, none, some 1] := by decide +kernel
  obtain rfl := Except.ok.inj (isValue.symm.trans given)
  have isOwn : lastClosed Bar.close 375 (threeBars 1 375).bars ((laterBar 1 375).start + minuteUs) = some 2 := by
    decide +kernel
  rw [isOwn] at isLast
  have differ : (1 : ℚ) = 2 := Option.some.inj (Option.some.inj isLast)
  norm_num at differ

end AdvanceTrading.StrategyEngine
