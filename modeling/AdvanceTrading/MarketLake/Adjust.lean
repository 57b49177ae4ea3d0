import AdvanceTrading.MarketLake.TenantStore
import Mathlib.Algebra.BigOperators.Group.List.Basic

/-!
# Corporate-action adjustment

Model of `app/market_lake/adjust.py:26-109`. The factor of a split or a bonus
is in the action itself; that of a rights issue or a dividend is taken from the
last close before the ex-date among the bars that were read. A window that stops
short of that close prices the same bar off an earlier one. Days are IST days.
-/

namespace AdvanceTrading.MarketLake

open TriggerRules (istDay)

/-- `ACTIONS` (`corporate_actions.py:31`). -/
inductive ActionKind where
  | split
  | bonus
  | rights
  | dividend
  deriving DecidableEq, Repr

/-- The fields of `MdCorporateActionRecord` that the adjustment reads. -/
structure CorporateAction where
  exDate : Int
  action : ActionKind
  ratioNew : Option ℚ
  ratioOld : Option ℚ
  amount : Option ℚ
  deriving DecidableEq, Repr

/-- `trade_date` (`ingest.py:29-34`). -/
def tradeDate (ts : Int) : Int := istDay (ts - 1)

/-- `SHARE_ACTIONS`. -/
def shareActions : List ActionKind := [ActionKind.split, ActionKind.bonus]

/-- `EQUITY_KINDS`. -/
def equityKinds : List String := ["EQ", "EQUITY", "UNDERLYING"]

/-- `ratio_new` and `ratio_old`, when neither is missing or 0. -/
def CorporateAction.ratio (a : CorporateAction) : Option (ℚ × ℚ) :=
  match a.ratioNew, a.ratioOld with
  | some new, some old => if new ≠ 0 ∧ old ≠ 0 then some (new, old) else none
  | _, _ => none

/-- `share_factor`. -/
def shareFactor (actions : List CorporateAction) (day : Int) : ℚ :=
  actions.foldl (fun factor a =>
    match a.ratio with
    | some (new, old) => if a.action ∈ shareActions ∧ day < a.exDate then factor * (old / new) else factor
    | none => factor) 1

/-- `before[-1].close`, of the bars before the ex-date. -/
def lastClose (bars : List LakeBar) (exDate : Int) : Option ℚ :=
  (bars.filter fun b => tradeDate b.ts < exDate).getLast?.map (·.close)

/-- What one action adds to `dividend_factors`, at the last close before its ex-date. -/
def dividendFactor (a : CorporateAction) : Option ℚ → Option ℚ
  | some cum =>
    match a.amount with
    | some amount =>
      if a.action = ActionKind.dividend ∧ amount ≠ 0 ∧ 0 < cum then some (max 0 (1 - amount / cum)) else none
    | none => none
  | none => none

/-- `dividend_factors`. -/
def dividendFactors (bars : List LakeBar) (actions : List CorporateAction) : List (Int × ℚ) :=
  actions.filterMap fun a => (dividendFactor a (lastClose bars a.exDate)).map fun df => (a.exDate, df)

/-- What one action adds to `rights_factors`, at the last close before its ex-date. The outer `none` is Python's
`ZeroDivisionError`: nothing keeps the two ratios of a rights issue from being opposite. -/
def rightsFactor (a : CorporateAction) : Option ℚ → Option (Option ℚ)
  | some cum =>
    match a.ratio, a.amount with
    | some (new, old), some price =>
      if a.action = ActionKind.rights ∧ 0 < cum ∧ price < cum then
        if (old + new) * cum = 0 then none else some (some ((old * cum + new * price) / ((old + new) * cum)))
      else some none
    | _, _ => some none
  | none => some none

/-- `rights_factors`. -/
def rightsFactors (bars : List LakeBar) : List CorporateAction → Option (List (Int × ℚ))
  | [] => some []
  | a :: actions =>
    match rightsFactor a (lastClose bars a.exDate), rightsFactors bars actions with
    | some (some df), some rest => some ((a.exDate, df) :: rest)
    | some none, some rest => some rest
    | _, _ => none

/-- The volume of a bar on the share count of today (`adjust`, the last argument of `replace`). -/
def sharedVolume (shares : ℚ) (volume : Option Int) : Option Int :=
  if shares = 0 then volume else volume.map fun v => Py.roundHalfEven (v / shares)

/-- The body of the loop of `adjust`, with the factor `f` of the bar. -/
def scaleBar (shares f : ℚ) (bar : LakeBar) : LakeBar :=
  if f = 1 then bar
  else
    { bar with
      open_ := bar.open_ * f
      high := bar.high * f
      low := bar.low * f
      close := bar.close * f
      volume := sharedVolume shares bar.volume }

/-- The loop body of `adjust`. -/
def adjustBar (actions : List CorporateAction) (divs : List (Int × ℚ)) (bar : LakeBar) : LakeBar :=
  let day := tradeDate bar.ts
  let shares := shareFactor actions day
  scaleBar shares (divs.foldl (fun f d => if day < d.1 then f * d.2 else f) shares) bar

/-- `adjust`; `none` is the `ZeroDivisionError` of `rights_factors`. -/
def adjust (dividends : Bool) (bars : List LakeBar) (actions : List CorporateAction) : Option (List LakeBar) :=
  let bars := sortBars bars
  match rightsFactors bars actions with
  | some rights =>
    let divs := (if dividends then dividendFactors bars actions else []) ++ rights
    some (bars.map (adjustBar actions divs))
  | none => none

/-- The end of `candles`: only equity is adjusted, and only when asked. -/
def adjustedView (adjusted : Bool) (kind : String) (dividends : Bool) (bars : List LakeBar)
    (actions : List CorporateAction) : Option (List LakeBar) :=
  if ¬ adjusted ∨ Py.upper kind ∉ equityKinds then some bars else adjust dividends bars actions

/-- A window `(start, end]` of bars. -/
structure Window where
  start : Int
  stop : Int
  deriving DecidableEq, Repr

/-- The window contains the bar that ends at `ts`. -/
abbrev Window.Holds (w : Window) (ts : Int) : Prop := w.start < ts ∧ ts ≤ w.stop

/-- The bars of a window. -/
def Window.cut (w : Window) (bars : List LakeBar) : List LakeBar := bars.filter fun b => w.Holds b.ts

variable {a : CorporateAction} {rights : List (Int × ℚ)}

section Factors

variable {actions : List CorporateAction} {bars : List LakeBar} {closes : Int → Option ℚ} {day : Int}

/-- What rights and dividends make of the price of a bar before `exDate`, at that last close. -/
def exFactor (dividends : Bool) (a : CorporateAction) (cum : Option ℚ) : ℚ :=
  (if dividends then (dividendFactor a cum).getD 1 else 1) * ((rightsFactor a cum).join.getD 1)

/-- The factors of all rights issues and dividends after `day`, each at the last close before it. -/
def exFactors (dividends : Bool) (actions : List CorporateAction) (closes : Int → Option ℚ) (day : Int) : ℚ :=
  ((actions.filter fun a => day < a.exDate).map fun a => exFactor dividends a (closes a.exDate)).prod

/-- A rights issue priced below the last close before it has no theoretical price: its ratios are opposite. -/
def Unpriced (actions : List CorporateAction) (closes : Int → Option ℚ) : Prop :=
  ∃ a ∈ actions, rightsFactor a (closes a.exDate) = none

theorem ratio_ne_zero {new old : ℚ} (known : a.ratio = some (new, old)) : new ≠ 0 ∧ old ≠ 0 := by
  unfold CorporateAction.ratio at known
  split at known
  · split at known
    · rename_i present
      cases known
      exact present
    · cases known
  · cases known

/-- Splits and bonuses never bring a price to 0. -/
theorem shareFactor_ne_zero (actions : List CorporateAction) (day : Int) : shareFactor actions day ≠ 0 := by
  suffices kept : ∀ factor : ℚ, factor ≠ 0 → actions.foldl (fun factor a =>
      match a.ratio with
      | some (new, old) => if a.action ∈ shareActions ∧ day < a.exDate then factor * (old / new) else factor
      | none => factor) factor ≠ 0 from kept 1 one_ne_zero
  induction actions with
  | nil => exact fun _ ne => ne
  | cons a actions ih =>
    intro factor ne
    rw [List.foldl_cons]
    apply ih
    split
    · rename_i new old known
      obtain ⟨newNe, oldNe⟩ := ratio_ne_zero known
      split
      · exact mul_ne_zero ne (div_ne_zero oldNe newNe)
      · exact ne
    · exact ne

/-- The loop over `divs` multiplies by the factors after the day. -/
theorem foldl_divs (divs : List (Int × ℚ)) (day : Int) (shares : ℚ) :
    divs.foldl (fun f d => if day < d.1 then f * d.2 else f) shares
      = shares * ((divs.filter fun d => day < d.1).map Prod.snd).prod := by
  induction divs generalizing shares with
  | nil => simp
  | cons d divs ih =>
    rw [List.foldl_cons, ih]
    by_cases pending : day < d.1
    · simp [pending, mul_assoc]
    · simp [pending]

theorem prod_dividendFactors (bars : List LakeBar) (actions : List CorporateAction) (day : Int) :
    (((dividendFactors bars actions).filter fun d => day < d.1).map Prod.snd).prod
      = ((actions.filter fun a => day < a.exDate).map fun a =>
          (dividendFactor a (lastClose bars a.exDate)).getD 1).prod := by
  unfold dividendFactors
  induction actions with
  | nil => rfl
  | cons a actions ih =>
    by_cases pending : day < a.exDate <;>
      cases known : dividendFactor a (lastClose bars a.exDate) <;> simp [known, pending, ih]

theorem rightsFactors_cons (read : rightsFactors bars (a :: actions) = some rights) :
    ∃ df rest, rightsFactor a (lastClose bars a.exDate) = some df ∧ rightsFactors bars actions = some rest
      ∧ rights = (df.map fun f => (a.exDate, f)).toList ++ rest := by
  rw [rightsFactors] at read
  split at read
  · rename_i df rest factor others
    exact ⟨some df, rest, factor, others, (Option.some.inj read).symm⟩
  · rename_i rest factor others
    exact ⟨none, rest, factor, others, (Option.some.inj read).symm⟩
  · cases read

theorem prod_rightsFactors (read : rightsFactors bars actions = some rights) (day : Int) :
    ((rights.filter fun d => day < d.1).map Prod.snd).prod
      = ((actions.filter fun a => day < a.exDate).map fun a =>
          (rightsFactor a (lastClose bars a.exDate)).join.getD 1).prod := by
  induction actions generalizing rights with
  | nil =>
    cases read
    rfl
  | cons a actions ih =>
    obtain ⟨df, rest, factor, others, rfl⟩ := rightsFactors_cons read
    have later := ih others
    by_cases pending : day < a.exDate <;> cases df <;> simp [factor, pending, later]

/-- `rights_factors` raises on an unpriced issue, and on nothing else. -/
theorem rightsFactors_eq_none_iff : rightsFactors bars actions = none ↔ Unpriced actions (lastClose bars) := by
  induction actions with
  | nil => simp [rightsFactors, Unpriced]
  | cons a actions ih =>
    have split : Unpriced (a :: actions) (lastClose bars)
        ↔ rightsFactor a (lastClose bars a.exDate) = none ∨ Unpriced actions (lastClose bars) := by
      simp [Unpriced]
    rw [split, ← ih, rightsFactors]
    cases rightsFactor a (lastClose bars a.exDate) with
    | none => simp
    | some df => cases df <;> cases rightsFactors bars actions <;> simp

theorem prod_map_mul (xs : List CorporateAction) (f g : CorporateAction → ℚ) :
    (xs.map fun a => f a * g a).prod = (xs.map f).prod * (xs.map g).prod := by
  induction xs with
  | nil => simp
  | cons a xs ih =>
    simp only [List.map_cons, List.prod_cons, ih]
    ring

/-- What the loop of `adjust` multiplies a price of `day` by. -/
theorem foldl_factors (dividends : Bool) (read : rightsFactors bars actions = some rights)
    (day : Int) (shares : ℚ) :
    ((if dividends then dividendFactors bars actions else []) ++ rights).foldl
        (fun f d => if day < d.1 then f * d.2 else f) shares
      = shares * exFactors dividends actions (lastClose bars) day := by
  rw [foldl_divs, List.filter_append, List.map_append, List.prod_append, prod_rightsFactors read]
  unfold exFactors exFactor
  rw [prod_map_mul]
  cases dividends with
  | true => simp [prod_dividendFactors]
  | false => simp

end Factors

section Windows

variable {actions : List CorporateAction} {bars : List LakeBar} {dividends : Bool} {w v : Window}

/-- The last close before an ex-date that a window of the history contains. -/
def Window.lastClose (w : Window) (bars : List LakeBar) : Int → Option ℚ :=
  MarketLake.lastClose (sortBars (w.cut bars))

/-- The adjusted bars of two windows agree on the bars that both contain, or neither window has any. -/
def SameInBoth (dividends : Bool) (bars : List LakeBar) (actions : List CorporateAction) (w v : Window) : Prop :=
  (adjust dividends (w.cut bars) actions).map (List.filter fun b => v.Holds b.ts)
    = (adjust dividends (v.cut bars) actions).map (List.filter fun b => w.Holds b.ts)

/-- The last closes `c` and `d` scale one bar alike: the factors multiply to the same, or the bar has no price to
scale and its volume stays or moves under both. -/
def LikeOn (dividends : Bool) (actions : List CorporateAction) (c d : Int → Option ℚ) (bar : LakeBar) : Prop :=
  let day := tradeDate bar.ts
  let shares := shareFactor actions day
  let f := exFactors dividends actions c day
  let g := exFactors dividends actions d day
  f = g ∨
    (bar.open_ = 0 ∧ bar.high = 0 ∧ bar.low = 0 ∧ bar.close = 0) ∧
      ((shares * f = 1 ↔ shares * g = 1) ∨ sharedVolume shares bar.volume = bar.volume)

/-- The last closes that two windows contain scale every bar of both alike. -/
def LikeCloses (dividends : Bool) (bars : List LakeBar) (actions : List CorporateAction) (w v : Window) : Prop :=
  (Unpriced actions (w.lastClose bars) ↔ Unpriced actions (v.lastClose bars)) ∧
    (¬ Unpriced actions (w.lastClose bars) → ∀ bar ∈ bars, w.Holds bar.ts → v.Holds bar.ts →
      LikeOn dividends actions (w.lastClose bars) (v.lastClose bars) bar)

@[simp] theorem scaleBar_ts (shares f : ℚ) (bar : LakeBar) : (scaleBar shares f bar).ts = bar.ts := by
  unfold scaleBar
  split <;> rfl

/-- A bar scaled as the last closes `c` say. -/
def closesBar (dividends : Bool) (actions : List CorporateAction) (c : Int → Option ℚ) (bar : LakeBar) : LakeBar :=
  let shares := shareFactor actions (tradeDate bar.ts)
  scaleBar shares (shares * exFactors dividends actions c (tradeDate bar.ts)) bar

/-- `adjust` scales the bars of the list, in time order, off the list's own last closes. -/
theorem adjust_eq (dividends : Bool) (bars : List LakeBar) (actions : List CorporateAction) :
    (Unpriced actions (lastClose (sortBars bars)) ∧ adjust dividends bars actions = none) ∨
      (¬ Unpriced actions (lastClose (sortBars bars)) ∧ adjust dividends bars actions
        = some ((sortBars bars).map (closesBar dividends actions (lastClose (sortBars bars))))) := by
  unfold adjust
  cases read : rightsFactors (sortBars bars) actions with
  | none => exact .inl ⟨rightsFactors_eq_none_iff.mp read, by simp [read]⟩
  | some rights =>
    refine .inr ⟨fun unpriced => ?_, ?_⟩
    · rw [rightsFactors_eq_none_iff.mpr unpriced] at read
      cases read
    · simp only [read]
      congr 1
      apply List.map_congr_left
      intro bar _
      unfold adjustBar closesBar
      simp only [foldl_factors dividends read]

/-- The prices of a bar are always scaled; its volume only when its factor is not 1. -/
theorem scaleBar_eq (shares f : ℚ) (bar : LakeBar) :
    scaleBar shares f bar =
      { bar with
        open_ := bar.open_ * f
        high := bar.high * f
        low := bar.low * f
        close := bar.close * f
        volume := if f = 1 then bar.volume else sharedVolume shares bar.volume } := by
  unfold scaleBar
  split
  · rename_i one
    simp [one]
  · rfl

/-- Two factors scale a bar alike when they are equal, or when the bar has neither a price nor a volume that tells. -/
theorem scaleBar_eq_iff {shares f g : ℚ} (bar : LakeBar) :
    scaleBar shares f bar = scaleBar shares g bar ↔
      f = g ∨ (bar.open_ = 0 ∧ bar.high = 0 ∧ bar.low = 0 ∧ bar.close = 0) ∧
        ((f = 1 ↔ g = 1) ∨ sharedVolume shares bar.volume = bar.volume) := by
  rcases eq_or_ne f g with same | ne
  · exact iff_of_true (by rw [same]) (.inl same)
  · have volumes : ((if f = 1 then bar.volume else sharedVolume shares bar.volume)
          = if g = 1 then bar.volume else sharedVolume shares bar.volume)
        ↔ (f = 1 ↔ g = 1) ∨ sharedVolume shares bar.volume = bar.volume := by
      by_cases oneF : f = 1 <;> by_cases oneG : g = 1 <;> simp [oneF, oneG, eq_comm]
    rw [scaleBar_eq, scaleBar_eq, LakeBar.mk.injEq, volumes]
    simp only [mul_eq_mul_left_iff, ne, false_or, true_and, and_true]
    tauto

/-- Bars of one window that the other holds too are the bars of both windows. -/
theorem filter_cut (w v : Window) (bars : List LakeBar) :
    (sortBars (w.cut bars)).filter (fun b => v.Holds b.ts) = (sortBars (v.cut bars)).filter fun b => w.Holds b.ts := by
  unfold sortBars Window.cut
  rw [filter_sortBy, filter_sortBy, List.filter_filter, List.filter_filter]
  congr 1
  apply List.filter_congr
  intro b _
  exact Bool.and_comm _ _

/-- Restricting the adjusted bars is adjusting the restricted ones. -/
theorem filter_closesBar (dividends : Bool) (actions : List CorporateAction) (c : Int → Option ℚ)
    (p : Int → Prop) [DecidablePred p] (xs : List LakeBar) :
    (xs.map (closesBar dividends actions c)).filter (fun b => p b.ts)
      = (xs.filter fun b => p b.ts).map (closesBar dividends actions c) := by
  rw [List.filter_map]
  congr 1
  apply List.filter_congr
  intro b _
  simp [closesBar]

/-- Scaled off either window's last closes, a bar comes out the same when they scale it alike. -/
theorem closesBar_eq_iff (c d : Int → Option ℚ) (bar : LakeBar) :
    closesBar dividends actions c bar = closesBar dividends actions d bar ↔ LikeOn dividends actions c d bar := by
  unfold closesBar LikeOn
  simp only
  rw [scaleBar_eq_iff, mul_right_inj' (shareFactor_ne_zero actions (tradeDate bar.ts))]

/-- Two windows adjust the bars they share alike exactly when their last closes before the rights issues and dividends
to come scale each of these bars alike. -/
theorem adjust_sameInBoth_iff (dividends : Bool) (bars : List LakeBar) (actions : List CorporateAction) (w v : Window) :
    SameInBoth dividends bars actions w v ↔ LikeCloses dividends bars actions w v := by
  have own : ∀ w : Window, lastClose (sortBars (w.cut bars)) = w.lastClose bars := fun _ => rfl
  unfold SameInBoth LikeCloses
  rcases adjust_eq dividends (w.cut bars) actions with ⟨raisesW, atW⟩ | ⟨pricedW, atW⟩ <;>
    rcases adjust_eq dividends (v.cut bars) actions with ⟨raisesV, atV⟩ | ⟨pricedV, atV⟩ <;>
    rw [own] at * <;> rw [atW, atV]
  · simp [raisesW, raisesV]
  · simp [raisesW, pricedV]
  · simp [pricedW, raisesV]
  · rw [Option.map_some, Option.map_some, Option.some_inj, filter_closesBar _ _ _ v.Holds,
      filter_closesBar _ _ _ w.Holds, filter_cut v w, List.map_inj_left]
    have shared : ∀ bar : LakeBar, bar ∈ ((sortBars (w.cut bars)).filter fun b => v.Holds b.ts)
        ↔ bar ∈ bars ∧ w.Holds bar.ts ∧ v.Holds bar.ts := by
      intro bar
      simp [sortBars, Window.cut, and_assoc]
    constructor
    · intro same
      refine ⟨iff_of_false pricedW pricedV, fun _ bar mem inW inV => ?_⟩
      exact (closesBar_eq_iff _ _ bar).mp (same bar ((shared bar).mpr ⟨mem, inW, inV⟩))
    · rintro ⟨-, alike⟩ bar mem
      obtain ⟨mem, inW, inV⟩ := (shared bar).mp mem
      exact (closesBar_eq_iff _ _ bar).mpr (alike pricedW bar mem inW inV)

/-- A rights issue of one new share at 50 for each held, when the closes before it are 100 and then 200. -/
def risingBeforeRights : List LakeBar :=
  [bar 10 100, bar 11 200]
where
  bar (day : Int) (price : ℚ) : LakeBar :=
    { instrumentKey := "NSE_EQ|ABC", timeframe := 1440, ts := MarketData.dayStart day + 930 * TriggerRules.minuteUs
      open_ := price, high := price, low := price, close := price, volume := some 100, oi := none }

/-- The issue, with its ex-date on the day after the last bar. -/
def rightsAtFifty : CorporateAction :=
  { exDate := 12, action := ActionKind.rights, ratioNew := some 1, ratioOld := some 1, amount := some 50 }

/-- The days up to and with `last`. -/
def daysUpTo (last : Int) : Window := ⟨MarketData.dayStart 0, MarketData.dayStart (last + 1)⟩

/-- A window that stops a day earlier scales the first bar by 3/4, the full one by 5/8. -/
theorem adjust_byWindow :
    ¬ ∀ (dividends : Bool) (bars : List LakeBar) (actions : List CorporateAction) (w v : Window),
      SameInBoth dividends bars actions w v := by
  intro always
  have same := always false risingBeforeRights [rightsAtFifty] (daysUpTo 10) (daysUpTo 11)
  revert same
  unfold SameInBoth
  decide +kernel

end Windows

end AdvanceTrading.MarketLake
