import AdvanceTrading.Misc.Cumulative
import AdvanceTrading.Misc.Machine
import AdvanceTrading.MarketData.MinuteBars

/-!
# Volumes of the bars from the feed

The volumes of `MinuteBarBuilder` (`app/market_data/bar_builder.py:148-202`) over
runs of `feed`, `close_due`, `suppress` and `forget` in any order. A bar's volume
is its last cumulative figure less that of the bar handed out before it, so the
bars of a session add up to no more than was traded in it.
-/

namespace AdvanceTrading.MarketData

open Cumulative (Reading amount amounts lastFigure total Counts)
open TriggerRules (minuteUs istDay)

/-- An instant of an IST day. -/
def FeedState.instant (hour minute second : Int) : Int :=
  dayStart 20000 + (hour * 60 + minute) * minuteUs + second * 1000000

open FeedState (instant)

/-! ## Runs of the builder -/

/-- `forget`. -/
def MinuteBarBuilder.forget (b : MinuteBarBuilder) (keys : List String) : MinuteBarBuilder :=
  { b with opens := keys.foldl (fun d key => Dict.pop key d) b.opens }

/-- A cumulative figure that came with a tick. -/
structure Figure where
  key : String
  ts : Int
  total : Int
  deriving DecidableEq, Repr

/-- The builder in a run, with the bars it handed out and the figures it was fed. -/
structure VolumeState where
  builder : MinuteBarBuilder
  handed : List FeedBar
  figures : List Figure

/-- One call of the builder. -/
inductive BuilderCall where
  | feed (key : String) (ts : Int) (price : Option ℚ) (now : Int) (volumeTotal : Option Int)
  | closeDue (now : Int) (keys : Option (List String))
  | suppress (keys : List String) (start stop : Int)
  | forget (keys : List String)

namespace VolumeState

def step (s : VolumeState) : BuilderCall → Option VolumeState
  | .feed key ts price now volumeTotal =>
      let (out, builder) := s.builder.feed key ts price now volumeTotal
      some { builder, handed := s.handed ++ out
             figures := s.figures ++ (volumeTotal.map fun total => { key, ts, total }).toList }
  | .closeDue now keys =>
      let (out, builder) := s.builder.closeDue now keys
      some { s with builder, handed := s.handed ++ out }
  | .suppress keys start stop => some { s with builder := (s.builder.suppressed keys start stop).2 }
  | .forget keys => some { s with builder := s.builder.forget keys }

def start (grace : Int) : VolumeState where
  builder := { grace }
  handed := []
  figures := []

def machine : Machine VolumeState BuilderCall where
  step := step

/-- The volumes of the bars handed out for a key in one session. -/
def sessionVolume (s : VolumeState) (key : String) (day : Int) : Int :=
  ((s.handed.filter fun x => x.instrumentKey = key ∧ istDay x.start = day).map fun x => x.volume.getD 0).sum

/-- The bars of a key that were handed out with a figure. -/
def metered (s : VolumeState) (key : String) : List FeedBar :=
  (s.handed.filter fun x => x.instrumentKey = key).filter fun x => x.volumeKnown

end VolumeState

/-- The figures of a key count what is traded in each session, from zero. -/
structure SessionCounter (key : String) (traded : Int → Int) (figures : List Figure) : Prop where
  positive : ∀ day, 0 ≤ traded day
  within : ∀ f ∈ figures, f.key = key → 0 ≤ f.total ∧ f.total ≤ traded (istDay f.ts)
  rises : ∀ f ∈ figures, ∀ g ∈ figures, f.key = key → g.key = key → istDay f.ts = istDay g.ts → f.ts < g.ts →
    f.total ≤ g.total

/-! ## One key of the builder -/

/-- What the builder keeps of a key for its volumes. -/
structure KeyView where
  opens : List OpenBar
  until_ : Option Int
  vtt : Option Int

namespace MinuteBarBuilder

variable {b : MinuteBarBuilder} {key k : String} {bar : OpenBar} {now : Int}

def view (b : MinuteBarBuilder) (key : String) : KeyView where
  opens := b.opened key
  until_ := Dict.get key b.emittedUntil
  vtt := Dict.get key b.emittedVtt

/-- A closed bar as a reading of the figure. -/
def reading (bar : OpenBar) (last : Int) : Reading where
  session := istDay bar.start
  first := bar.vttFirst.getD last
  last := last

theorem handOut_view (b : MinuteBarBuilder) (key : String) (bar : OpenBar) :
    (b.handOut key bar).2.view key =
      { opens := (b.opened key).filter fun o => o.start ≠ bar.start
        until_ := some (max (bar.start + minuteUs) ((Dict.get key b.emittedUntil).getD (bar.start + minuteUs)))
        vtt := bar.vttLast.or (Dict.get key b.emittedVtt) } := by
  have opens := (b.handOut_spec key bar).2.2.1
  unfold view
  rw [opens]
  cases isLast : bar.vttLast <;> simp [handOut, volume, isLast, setBars]

theorem handOut_view_of_ne (b : MinuteBarBuilder) (bar : OpenBar) (ne : key ≠ k) :
    (b.handOut k bar).2.view key = b.view key := by
  have opens := (b.handOut_spec k bar).2.2.2 key ne
  unfold view
  rw [opens]
  cases isLast : bar.vttLast <;> simp [handOut, volume, isLast, setBars, ne]

/-- The volume of a bar handed out is the amount of its reading. -/
theorem handOut_volume (b : MinuteBarBuilder) (key : String) (bar : OpenBar) :
    (b.handOut key bar).1.volume
        = some ((bar.vttLast.map fun last => amount (Dict.get key b.emittedVtt) (reading bar last)).getD 0) ∧
      (b.handOut key bar).1.volumeKnown = bar.vttLast.isSome := by
  cases isLast : bar.vttLast with
  | none => simp [handOut, volume, isLast]
  | some last =>
    cases before : Dict.get key b.emittedVtt with
    | none => simp [handOut, volume, isLast, setBars, before, amount, Cumulative.base, reading]
    | some figure =>
      simp only [handOut, volume, isLast, setBars, before, Option.map_some, Option.getD_some]
      exact ⟨rfl, rfl⟩

theorem start_handOut (b : MinuteBarBuilder) (key : String) (bar : OpenBar) :
    (b.handOut key bar).1.start = bar.start := by
  have closes := (b.handOut_spec key bar).1.ts
  unfold FeedBar.start
  omega

/-- An accepted tick is of no minute that was handed out. -/
theorem accepted_later {start : Int} {price : Option ℚ} {p : ℚ} (accepted : b.verdict key start price now = .accepted p)
    {u : Int} (until_ : Dict.get key b.emittedUntil = some u) : u < start + minuteUs := by
  unfold verdict at accepted
  cases price with
  | none => exact nomatch accepted
  | some price =>
    simp only [until_, Option.any_some, decide_eq_true_eq] at accepted
    split at accepted
    · exact nomatch accepted
    · split at accepted
      · exact nomatch accepted
      · omega

end MinuteBarBuilder

/-! ## What a run keeps -/

/-- The figure was fed for a minute of the key. -/
def Fed (key : String) (figures : List Figure) (start figure : Int) : Prop :=
  ∃ f ∈ figures, f.key = key ∧ minuteStart f.ts = start ∧ f.total = figure

/-- A reading of a bar, by figures that were fed for its minute. -/
structure Reads (key : String) (figures : List Figure) (x : FeedBar) (r : Reading) : Prop where
  session : r.session = istDay x.start
  first : Fed key figures x.start r.first
  last : Fed key figures x.start r.last

/-- The bars of a key were handed out in order, and their volumes are the amounts of their readings. -/
structure Metered (key : String) (figures : List Figure) (v : KeyView) (handed : List FeedBar) : Prop where
  distinct : (v.opens.map (·.start)).Nodup
  fed : ∀ o ∈ v.opens, ∀ figure, o.vttFirst = some figure ∨ o.vttLast = some figure → Fed key figures o.start figure
  apart : ∀ x ∈ handed, ∀ o ∈ v.opens, x.start < o.start
  until_ : ∀ x ∈ handed, ∃ u, v.until_ = some u ∧ x.start + minuteUs ≤ u
  ordered : handed.Pairwise fun x y => x.start < y.start
  unknown : ∀ x ∈ handed, x.volumeKnown = false → x.volume = some 0
  readings : ∃ rs, List.Forall₂ (Reads key figures) (handed.filter fun x => x.volumeKnown) rs ∧
    (handed.filter fun x => x.volumeKnown).map (·.volume) = (amounts none rs).map some ∧ v.vtt = lastFigure rs

variable {x : FeedBar} {figure : Int}

section Kept

variable {key k : String} {figures figures' : List Figure} {b : MinuteBarBuilder} {handed : List FeedBar}
  {v : KeyView} {now : Int}

theorem Fed.mono {start : Int} (subset : figures ⊆ figures') (fed : Fed key figures start figure) :
    Fed key figures' start figure := by
  obtain ⟨f, mem, is⟩ := fed
  exact ⟨f, subset mem, is⟩

theorem Reads.mono {r : Reading} (subset : figures ⊆ figures') (reads : Reads key figures x r) :
    Reads key figures' x r :=
  ⟨reads.session, reads.first.mono subset, reads.last.mono subset⟩

theorem Metered.mono (subset : figures ⊆ figures') (metered : Metered key figures v handed) :
    Metered key figures' v handed where
  distinct := metered.distinct
  fed := fun o mem figure is => (metered.fed o mem figure is).mono subset
  apart := metered.apart
  until_ := metered.until_
  ordered := metered.ordered
  unknown := metered.unknown
  readings := by
    obtain ⟨rs, reads, volumes, vtt⟩ := metered.readings
    exact ⟨rs, reads.imp fun _ _ read => read.mono subset, volumes, vtt⟩

/-- Fewer bars are open. -/
theorem Metered.drop {v' : KeyView} (metered : Metered key figures v handed) (fewer : v'.opens.Sublist v.opens)
    (until_ : v'.until_ = v.until_) (vtt : v'.vtt = v.vtt) : Metered key figures v' handed where
  distinct := metered.distinct.sublist (fewer.map _)
  fed := fun o mem => metered.fed o (fewer.subset mem)
  apart := fun x inHanded o mem => metered.apart x inHanded o (fewer.subset mem)
  until_ := by
    rw [until_]
    exact metered.until_
  ordered := metered.ordered
  unknown := metered.unknown
  readings := by
    rw [vtt]
    exact metered.readings

/-- The oldest open bar is handed out. -/
theorem Metered.handOut {bar : OpenBar} (metered : Metered key figures (b.view key) handed)
    (mem : bar ∈ b.opened key) (oldest : ∀ o ∈ b.opened key, bar.start ≤ o.start) :
    Metered key figures ((b.handOut key bar).2.view key) (handed ++ [(b.handOut key bar).1]) := by
  have view := b.handOut_view key bar
  obtain ⟨volume, known⟩ := b.handOut_volume key bar
  have isStart := b.start_handOut key bar
  have before : ∀ x ∈ handed, x.start < bar.start := fun x inHanded => metered.apart x inHanded bar mem
  have remaining : ∀ o ∈ ((b.handOut key bar).2.view key).opens, o ∈ b.opened key ∧ o.start ≠ bar.start := by
    intro o inOpens
    rw [view] at inOpens
    simpa using inOpens
  constructor
  case distinct =>
    rw [view]
    exact metered.distinct.sublist (List.filter_sublist.map _)
  case fed => exact fun o inOpens => metered.fed o (remaining o inOpens).1
  case apart =>
    intro x inHanded o inOpens
    obtain ⟨old, other⟩ := remaining o inOpens
    rcases List.mem_append.mp inHanded with earlier | isIt
    · exact metered.apart x earlier o old
    · rw [List.mem_singleton.mp isIt, isStart]
      exact lt_of_le_of_ne (oldest o old) other.symm
  case until_ =>
    intro x inHanded
    rw [view]
    refine ⟨_, rfl, ?_⟩
    rcases List.mem_append.mp inHanded with earlier | isIt
    · have := before x earlier
      omega
    · rw [List.mem_singleton.mp isIt, isStart]
      omega
  case ordered =>
    refine List.pairwise_append.mpr ⟨metered.ordered, List.pairwise_singleton _ _, ?_⟩
    intro x earlier y isIt
    rw [List.mem_singleton.mp isIt, isStart]
    exact before x earlier
  case unknown =>
    intro x inHanded
    rcases List.mem_append.mp inHanded with earlier | isIt
    · exact metered.unknown x earlier
    · rw [List.mem_singleton.mp isIt, volume, known]
      intro none_
      rw [Option.isSome_eq_false_iff, Option.isNone_iff_eq_none] at none_
      rw [none_]
      rfl
  case readings =>
    obtain ⟨rs, reads, volumes, vtt⟩ := metered.readings
    change Dict.get key b.emittedVtt = lastFigure rs at vtt
    rw [view]
    cases isLast : bar.vttLast with
    | none =>
      rw [isLast] at known
      have same : (handed ++ [(b.handOut key bar).1]).filter (fun x => x.volumeKnown) =
          handed.filter fun x => x.volumeKnown := by
        simp [List.filter_append, known]
      rw [same]
      exact ⟨rs, reads, volumes, vtt⟩
    | some last =>
      rw [isLast] at known volume
      have longer : (handed ++ [(b.handOut key bar).1]).filter (fun x => x.volumeKnown)
          = handed.filter (fun x => x.volumeKnown) ++ [(b.handOut key bar).1] := by
        simp [List.filter_append, known]
      have lastFed := metered.fed bar mem last (Or.inr isLast)
      have firstFed : Fed key figures bar.start (bar.vttFirst.getD last) := by
        cases isFirst : bar.vttFirst with
        | none => exact lastFed
        | some first => exact metered.fed bar mem first (Or.inl isFirst)
      refine ⟨rs ++ [MinuteBarBuilder.reading bar last], ?_, ?_, ?_⟩
      · rw [longer]
        refine List.rel_append reads (List.Forall₂.cons ⟨?_, ?_, ?_⟩ List.Forall₂.nil)
        · rw [isStart]
          rfl
        · rw [isStart]
          exact firstFed
        · rw [isStart]
          exact lastFed
      · rw [longer, List.map_append, volumes, Cumulative.amounts_snoc, List.map_append, List.map_singleton, volume, vtt]
        rfl
      · rw [Cumulative.lastFigure_snoc]
        rfl

/-- The due bars of the key, from the oldest on. -/
theorem Metered.closeBars {bars : List OpenBar} (metered : Metered key figures (b.view key) handed)
    (all : bars.Perm (b.opened key)) (sorted : bars.Pairwise fun o o' => o.start ≤ o'.start) :
    Metered key figures ((MinuteBarBuilder.closeBars now key b bars).2.view key)
      (handed ++ (MinuteBarBuilder.closeBars now key b bars).1) := by
  induction bars generalizing b handed with
  | nil => simpa [MinuteBarBuilder.closeBars] using metered
  | cons bar bars ih =>
    unfold MinuteBarBuilder.closeBars
    split
    case isTrue => simpa using metered
    case isFalse =>
      obtain ⟨first, rest⟩ := List.pairwise_cons.mp sorted
      have oldest : ∀ o ∈ b.opened key, bar.start ≤ o.start := by
        intro o mem
        rcases List.mem_cons.mp (all.mem_iff.mpr mem) with rfl | later
        · exact le_rfl
        · exact first o later
      have next := metered.handOut (all.mem_iff.mp List.mem_cons_self) oldest
      have others : (bar :: bars).filter (fun o => o.start ≠ bar.start) = bars := by
        have distinct : ((bar :: bars).map (·.start)).Nodup := (all.map _).nodup_iff.mpr metered.distinct
        rw [List.map_cons, List.nodup_cons] at distinct
        rw [List.filter_cons_of_neg (by simp), List.filter_eq_self]
        intro o mem
        have other : o.start ≠ bar.start := fun same => distinct.1 (List.mem_map.mpr ⟨o, mem, same⟩)
        simpa using other
      have left : bars.Perm ((b.handOut key bar).2.opened key) := by
        have opens : (b.handOut key bar).2.opened key = (b.opened key).filter fun o => o.start ≠ bar.start :=
          (b.handOut_spec key bar).2.2.1
        rw [opens]
        exact (List.Perm.of_eq others.symm).trans (all.filter _)
      have closed := ih next left rest
      simpa using closed

theorem closeBars_view_of_ne (bars : List OpenBar) (ne : key ≠ k) :
    (MinuteBarBuilder.closeBars now k b bars).2.view key = b.view key := by
  induction bars generalizing b with
  | nil => rfl
  | cons bar bars ih =>
    unfold MinuteBarBuilder.closeBars
    split
    · rfl
    · exact ih.trans (b.handOut_view_of_ne bar ne)

/-- An empty dictionary of open bars is removed. -/
theorem view_pop (empty : b.opened k = []) : { b with opens := Dict.pop k b.opens }.view key = b.view key := by
  unfold MinuteBarBuilder.view
  by_cases same : key = k
  · subst same
    have none_ : { b with opens := Dict.pop key b.opens }.opened key = b.opened key := by
      rw [empty]
      simp [MinuteBarBuilder.opened]
    rw [none_]
  · have other : { b with opens := Dict.pop k b.opens }.opened key = b.opened key := by
      unfold MinuteBarBuilder.opened
      rw [Dict.get_pop_of_ne _ same]
    rw [other]

theorem closeKey_view (b : MinuteBarBuilder) (now : Int) (k key : String) (some_ : b.opened k ≠ []) :
    (b.closeKey now k).2.view key
      = (MinuteBarBuilder.closeBars now k b (sortBy (·.start) (b.opened k))).2.view key := by
  unfold MinuteBarBuilder.closeKey
  rw [if_neg some_]
  dsimp only
  split
  case isTrue empty => exact view_pop empty
  case isFalse => rfl

theorem Metered.closeKey (metered : Metered key figures (b.view key) handed) :
    Metered key figures ((b.closeKey now k).2.view key)
      (handed ++ (b.closeKey now k).1.filter fun x => x.instrumentKey = key) := by
  obtain ⟨closes, -⟩ := b.closeKey_spec now k
  by_cases none_ : b.opened k = []
  · have same : b.closeKey now k = ([], b) := by
      unfold MinuteBarBuilder.closeKey
      rw [if_pos none_]
    rw [same]
    simpa using metered
  · rw [closeKey_view b now k key none_]
    by_cases own : key = k
    · subst own
      have all : (b.closeKey now key).1.filter (fun x => x.instrumentKey = key) = (b.closeKey now key).1 := by
        rw [List.filter_eq_self]
        intro x mem
        obtain ⟨o, -, isBar⟩ := partner_of_right closes mem
        exact decide_eq_true isBar.instrumentKey
      have out : (b.closeKey now key).1 =
          (MinuteBarBuilder.closeBars now key b (sortBy (·.start) (b.opened key))).1 := by
        unfold MinuteBarBuilder.closeKey
        rw [if_neg none_]
      rw [all, out]
      exact metered.closeBars (sortBy_perm _ _) (sortBy_sorted _ _)
    · have none_out : (b.closeKey now k).1.filter (fun x => x.instrumentKey = key) = [] := by
        rw [List.filter_eq_nil_iff]
        intro x mem isKey
        obtain ⟨o, -, isBar⟩ := partner_of_right closes mem
        exact own ((of_decide_eq_true isKey).symm.trans isBar.instrumentKey)
      rw [none_out, List.append_nil, closeBars_view_of_ne _ own]
      exact metered

theorem Metered.closeKeys {keys : List String} (metered : Metered key figures (b.view key) handed) :
    Metered key figures ((MinuteBarBuilder.closeKeys now b keys).2.view key)
      (handed ++ (MinuteBarBuilder.closeKeys now b keys).1.filter fun x => x.instrumentKey = key) := by
  induction keys generalizing b handed with
  | nil => simpa [MinuteBarBuilder.closeKeys] using metered
  | cons k keys ih =>
    have one : Metered key figures ((b.closeKey now k).2.view key)
        (handed ++ (b.closeKey now k).1.filter fun x => x.instrumentKey = key) := metered.closeKey
    have closed := ih one
    simpa [MinuteBarBuilder.closeKeys] using closed

theorem start_absorb (o : OpenBar) (price : ℚ) (volumeTotal : Option Int) :
    (o.absorb price volumeTotal).start = o.start := by
  cases volumeTotal <;> rfl

variable {volumeTotal : Option Int} {price : ℚ}

/-- The figures of a bar after a tick are the tick's or were the bar's. -/
theorem absorb_figures {o : OpenBar}
    (is : (o.absorb price volumeTotal).vttFirst = some figure ∨ (o.absorb price volumeTotal).vttLast = some figure) :
    volumeTotal = some figure ∨ o.vttFirst = some figure ∨ o.vttLast = some figure := by
  cases volumeTotal with
  | none => exact Or.inr is
  | some v =>
    simp only [OpenBar.absorb, Option.some.injEq] at is ⊢
    rcases is with first | last
    · cases isFirst : o.vttFirst with
      | none =>
        rw [isFirst] at first
        exact Or.inl first
      | some w =>
        rw [isFirst] at first
        rcases min_choice w v with isOld | isNew
        · exact Or.inr (Or.inl (congrArg some (isOld.symm.trans first)))
        · exact Or.inl (isNew.symm.trans first)
    · cases isLast : o.vttLast with
      | none =>
        rw [isLast] at last
        exact Or.inl last
      | some w =>
        rw [isLast] at last
        rcases max_choice w v with isOld | isNew
        · exact Or.inr (Or.inr (congrArg some (isOld.symm.trans last)))
        · exact Or.inl (isNew.symm.trans last)

/-- An accepted tick goes into the bar of its minute. -/
theorem Metered.build {start : Int} (metered : Metered key figures (b.view key) handed)
    (later : ∀ x ∈ handed, x.start < start)
    (fed : ∀ total, volumeTotal = some total → Fed key figures start total) :
    Metered key figures ((b.build key start price volumeTotal).view key) handed := by
  by_cases present : (b.opened key).any (·.start = start) = true
  · have opens : (b.build key start price volumeTotal).opened key
        = (b.opened key).map fun o => if o.start = start then o.absorb price volumeTotal else o := by
      unfold MinuteBarBuilder.build
      rw [MinuteBarBuilder.opened_setBars, if_pos present]
    have starts : ∀ o : OpenBar, (if o.start = start then o.absorb price volumeTotal else o).start = o.start := by
      intro o
      split
      · exact start_absorb o price volumeTotal
      · rfl
    have fromOld : ∀ o ∈ (b.build key start price volumeTotal).opened key,
        ∃ o' ∈ b.opened key, o = if o'.start = start then o'.absorb price volumeTotal else o' := by
      intro o mem
      rw [opens] at mem
      obtain ⟨o', inOpens, rfl⟩ := List.mem_map.mp mem
      exact ⟨o', inOpens, rfl⟩
    constructor
    case distinct =>
      show (((b.build key start price volumeTotal).opened key).map (·.start)).Nodup
      rw [opens, List.map_map]
      simp only [Function.comp_def, starts]
      exact metered.distinct
    case fed =>
      intro o mem figure is
      obtain ⟨o', inOpens, rfl⟩ := fromOld o mem
      rw [starts]
      by_cases isStart : o'.start = start
      · rw [if_pos isStart] at is
        rcases absorb_figures is with tick | old
        · rw [isStart]
          exact fed figure tick
        · exact metered.fed o' inOpens figure old
      · rw [if_neg isStart] at is
        exact metered.fed o' inOpens figure is
    case apart =>
      intro x inHanded o mem
      obtain ⟨o', inOpens, rfl⟩ := fromOld o mem
      rw [starts]
      exact metered.apart x inHanded o' inOpens
    case until_ => exact metered.until_
    case ordered => exact metered.ordered
    case unknown => exact metered.unknown
    case readings => exact metered.readings
  · have opens : (b.build key start price volumeTotal).opened key = b.opened key ++
        [{ start, open_ := price, high := price, low := price, close := price,
           vttFirst := volumeTotal, vttLast := volumeTotal }] := by
      unfold MinuteBarBuilder.build
      rw [MinuteBarBuilder.opened_setBars, if_neg present]
    constructor
    case distinct =>
      show (((b.build key start price volumeTotal).opened key).map (·.start)).Nodup
      rw [opens, List.map_append]
      refine List.nodup_append.mpr ⟨metered.distinct, List.nodup_singleton _, ?_⟩
      intro s old s' new
      rintro rfl
      obtain ⟨o, inOpens, same⟩ := List.mem_map.mp old
      exact present (List.any_eq_true.mpr ⟨o, inOpens, decide_eq_true (same.trans (List.mem_singleton.mp new))⟩)
    case fed =>
      intro o mem figure is
      change o ∈ (b.build key start price volumeTotal).opened key at mem
      rw [opens] at mem
      rcases List.mem_append.mp mem with old | new
      · exact metered.fed o old figure is
      · rw [List.mem_singleton.mp new] at is ⊢
        exact fed figure (or_self_iff.mp is)
    case apart =>
      intro x inHanded o mem
      change o ∈ (b.build key start price volumeTotal).opened key at mem
      rw [opens] at mem
      rcases List.mem_append.mp mem with old | new
      · exact metered.apart x inHanded o old
      · rw [List.mem_singleton.mp new]
        exact later x inHanded
    case until_ => exact metered.until_
    case ordered => exact metered.ordered
    case unknown => exact metered.unknown
    case readings => exact metered.readings

theorem build_view_of_ne {start : Int} (ne : key ≠ k) :
    (b.build k start price volumeTotal).view key = b.view key := by
  have opens : (b.build k start price volumeTotal).opened key = b.opened key := by
    unfold MinuteBarBuilder.build
    rw [MinuteBarBuilder.opened_setBars_of_ne _ _ ne]
  unfold MinuteBarBuilder.view
  rw [opens]
  rfl

/-- A tick that is settled, whatever the verdict. -/
theorem Metered.settle {start : Int} {price : Option ℚ} {volumeTotal : Option Int}
    (metered : Metered key figures (b.view key) handed)
    (fed : ∀ total, k = key → volumeTotal = some total → Fed key figures start total) :
    Metered key figures ((b.settle k start volumeTotal (b.verdict k start price now)).view key) handed := by
  cases verdict : b.verdict k start price now with
  | unpriced | late | outsideSession | suppressed => exact metered
  | accepted p =>
    by_cases own : key = k
    · subst own
      refine metered.build ?_ fun total is => fed total rfl is
      intro x inHanded
      obtain ⟨u, isUntil, ended⟩ := metered.until_ x inHanded
      have := MinuteBarBuilder.accepted_later verdict isUntil
      omega
    · have same : (b.build k start p volumeTotal).view key = b.view key := build_view_of_ne own
      show Metered key figures ((b.build k start p volumeTotal).view key) handed
      rw [same]
      exact metered

theorem suppressKeys_view (start stop : Int) (keys : List String) (key : String) (b : MinuteBarBuilder) :
    ((MinuteBarBuilder.suppressKeys start stop b keys).2.view key).opens.Sublist (b.view key).opens ∧
      ((MinuteBarBuilder.suppressKeys start stop b keys).2.view key).until_ = (b.view key).until_ ∧
      ((MinuteBarBuilder.suppressKeys start stop b keys).2.view key).vtt = (b.view key).vtt := by
  have opens := (MinuteBarBuilder.suppressKeys_spec start stop b keys key).2
  have rest : (MinuteBarBuilder.suppressKeys start stop b keys).2.emittedUntil = b.emittedUntil ∧
      (MinuteBarBuilder.suppressKeys start stop b keys).2.emittedVtt = b.emittedVtt := by
    clear opens
    induction keys generalizing b with
    | nil => exact ⟨rfl, rfl⟩
    | cons k keys ih => exact ih (b.suppressKey start stop k).2
  refine ⟨?_, congrArg (Dict.get key) rest.1, congrArg (Dict.get key) rest.2⟩
  show ((MinuteBarBuilder.suppressKeys start stop b keys).2.opened key).Sublist (b.opened key)
  rw [opens]
  split
  · exact List.filter_sublist
  · exact List.Sublist.refl _

theorem opened_forget (b : MinuteBarBuilder) (keys : List String) (key : String) :
    (b.forget keys).opened key = if key ∈ keys then [] else b.opened key := by
  have popped : ∀ (d : Dict String (List OpenBar)) (keys : List String),
      Dict.get key (keys.foldl (fun d key => Dict.pop key d) d) = if key ∈ keys then none else Dict.get key d := by
    intro d keys
    induction keys generalizing d with
    | nil => rfl
    | cons k keys ih =>
      rw [List.foldl_cons, ih]
      by_cases same : key = k
      · subst same
        simp
      · simp [same]
  unfold MinuteBarBuilder.opened MinuteBarBuilder.forget
  rw [popped]
  split <;> rfl

end Kept

/-! ## Runs -/

section Runs

variable {key : String} {s t : VolumeState}

/-- The bars of a key that were handed out. -/
def VolumeState.handedOf (s : VolumeState) (key : String) : List FeedBar :=
  s.handed.filter fun x => x.instrumentKey = key

theorem step_feed (s : VolumeState) (k : String) (ts : Int) (price : Option ℚ) (now : Int) (volumeTotal : Option Int) :
    s.step (.feed k ts price now volumeTotal) = some
      { builder := (s.builder.beforeTick k now).2.settle k (minuteStart ts) volumeTotal
          ((s.builder.beforeTick k now).2.verdict k (minuteStart ts) price now)
        handed := s.handed ++ (s.builder.beforeTick k now).1
        figures := s.figures ++ (volumeTotal.map fun total => { key := k, ts, total }).toList } := rfl

theorem Metered.step {call : BuilderCall} (metered : Metered key s.figures (s.builder.view key) (s.handedOf key))
    (stepped : s.step call = some t) : Metered key t.figures (t.builder.view key) (t.handedOf key) := by
  cases call with
  | feed k ts price now volumeTotal =>
    rw [step_feed, Option.some.injEq] at stepped
    subst stepped
    have counted : Metered key s.figures (MinuteBarBuilder.view
        { s.builder with stats := { s.builder.stats with ticks := s.builder.stats.ticks + 1 } } key)
          (s.handedOf key) := metered
    have closed : Metered key s.figures ((s.builder.beforeTick k now).2.view key)
        (s.handedOf key ++ (s.builder.beforeTick k now).1.filter fun x => x.instrumentKey = key) :=
      @Metered.closeKeys key _ _ _ now [k] counted
    have grown : s.figures ⊆ s.figures ++ (volumeTotal.map fun total => { key := k, ts, total : Figure }).toList :=
      List.subset_append_left _ _
    have settled := @Metered.settle key k _ _ _ now (minuteStart ts) price volumeTotal (closed.mono grown) ?_
    · unfold VolumeState.handedOf at settled ⊢
      rw [List.filter_append]
      exact settled
    · rintro total rfl rfl
      exact ⟨⟨k, ts, total⟩, by simp, rfl, rfl, rfl⟩
  | closeDue now keys =>
    obtain rfl := Option.some.inj stepped
    have closed := @Metered.closeKeys key _ _ _ now (keys.getD (Dict.keys s.builder.opens)) metered
    simpa [VolumeState.handedOf, MinuteBarBuilder.closeDue] using closed
  | suppress keys start stop =>
    obtain rfl := Option.some.inj stepped
    obtain ⟨fewer, until_, vtt⟩ := suppressKeys_view (minuteStart start) stop keys key s.builder
    exact metered.drop fewer until_ vtt
  | forget keys =>
    obtain rfl := Option.some.inj stepped
    refine metered.drop ?_ rfl rfl
    show ((s.builder.forget keys).opened key).Sublist (s.builder.opened key)
    rw [opened_forget]
    split
    · exact List.nil_sublist _
    · exact List.Sublist.refl _

theorem start_metered (grace : Int) (key : String) :
    Metered key (VolumeState.start grace).figures ((VolumeState.start grace).builder.view key)
      ((VolumeState.start grace).handedOf key) where
  distinct := List.nodup_nil
  fed := List.forall_mem_nil _
  apart := List.forall_mem_nil _
  until_ := List.forall_mem_nil _
  ordered := List.Pairwise.nil
  unknown := List.forall_mem_nil _
  readings := ⟨[], List.Forall₂.nil, rfl, rfl⟩

theorem run_metered {grace : Int} {calls : List BuilderCall}
    (ran : VolumeState.machine.run (VolumeState.start grace) calls = some s) (key : String) :
    Metered key s.figures (s.builder.view key) (s.handedOf key) :=
  VolumeState.machine.run_invariant_all
    (P := fun s : VolumeState => Metered key s.figures (s.builder.view key) (s.handedOf key))
    (fun _ _ _ metered stepped => metered.step stepped) (start_metered grace key) ran

end Runs

/-! ## The volumes of a session -/

section Volumes

variable {key : String} {traded : Int → Int} {figures : List Figure} {xs : List FeedBar} {rs : List Reading}

theorem istDay_minuteStart (ts : Int) : istDay (minuteStart ts) = istDay ts := by
  unfold istDay minuteStart TriggerRules.istOffset TriggerRules.dayUs minuteUs
  omega

theorem lt_of_minuteStart_lt {ts ts' : Int} (lt : minuteStart ts < minuteStart ts') : ts < ts' := by
  unfold minuteStart minuteUs at lt
  omega

/-- Bars in order are read from a counter that does not fall within a session. -/
theorem counts_of_reads (counter : SessionCounter key traded figures)
    (ordered : xs.Pairwise fun x y => x.start < y.start)
    (reads : List.Forall₂ (Reads key figures) xs rs) : Counts rs := by
  induction reads with
  | nil => exact ⟨List.forall_mem_nil _, List.Pairwise.nil⟩
  | @cons x r xs rs read rest ih =>
    obtain ⟨later, ordered⟩ := List.pairwise_cons.mp ordered
    have counts := ih ordered
    obtain ⟨f, isFed, isKey, isStart, isTotal⟩ := read.last
    obtain ⟨f', isFed', isKey', isStart', isTotal'⟩ := read.first
    refine ⟨List.forall_mem_cons.mpr ⟨⟨?_, ?_⟩, counts.nonneg⟩, List.pairwise_cons.mpr ⟨?_, counts.ordered⟩⟩
    · rw [← isTotal']
      exact (counter.within f' isFed' isKey').1
    · rw [← isTotal]
      exact (counter.within f isFed isKey).1
    · intro r' mem
      obtain ⟨y, inBars, read'⟩ := partner_of_right rest mem
      obtain ⟨g, isFedG, isKeyG, isStartG, isTotalG⟩ := read'.last
      have lt := later y inBars
      rw [read.session, read'.session]
      have days : istDay x.start ≤ istDay y.start := by
        unfold istDay TriggerRules.dayUs minuteUs
        omega
      rcases days.lt_or_eq with before | same
      · exact Or.inl before
      · refine Or.inr ⟨same, ?_⟩
        rw [← isStart, ← isStartG] at lt same
        rw [istDay_minuteStart, istDay_minuteStart] at same
        rw [← isTotal, ← isTotalG]
        exact counter.rises f isFed g isFedG isKey isKeyG same (lt_of_minuteStart_lt lt)

/-- A bar among others has a reading among theirs. -/
theorem reads_split {before after : List FeedBar}
    (reads : List.Forall₂ (Reads key figures) (before ++ x :: after) rs) :
    ∃ rb r ra, rs = rb ++ r :: ra ∧ List.Forall₂ (Reads key figures) before rb ∧ Reads key figures x r := by
  induction before generalizing rs with
  | nil =>
    obtain ⟨r, ra, read, -, rfl⟩ := List.forall₂_cons_left_iff.mp reads
    exact ⟨[], r, ra, rfl, List.Forall₂.nil, read⟩
  | cons y before ih =>
    obtain ⟨r', rest, read', reads', rfl⟩ := List.forall₂_cons_left_iff.mp reads
    obtain ⟨rb, r, ra, rfl, earlier, read⟩ := ih reads'
    exact ⟨r' :: rb, r, ra, rfl, List.Forall₂.cons read' earlier, read⟩

/-- The volumes of the bars of a day are the amounts of its readings. -/
theorem sum_volumes {volumes : List Int} (day : Int) (reads : List.Forall₂ (Reads key figures) xs rs)
    (isVolume : xs.map (·.volume) = volumes.map some) :
    ((xs.filter fun x => istDay x.start = day).map fun x => x.volume.getD 0).sum
      = (((rs.zip volumes).filter fun p => p.1.session = day).map Prod.snd).sum := by
  induction reads generalizing volumes with
  | nil => rfl
  | cons read _ ih =>
    cases volumes with
    | nil => exact nomatch isVolume
    | cons volume volumes =>
      rw [List.map_cons, List.map_cons, List.cons.injEq] at isVolume
      have rest := ih isVolume.2
      rw [List.zip_cons_cons, List.filter_cons, List.filter_cons, read.session]
      split
      · rw [List.map_cons, List.map_cons, List.sum_cons, List.sum_cons, rest, isVolume.1]
        rfl
      · exact rest

/-- A bar without a figure adds nothing. -/
theorem sum_known {handed : List FeedBar}
    (unknown : ∀ x ∈ handed, x.volumeKnown = false → x.volume = some 0) (day : Int) :
    ((handed.filter fun x => istDay x.start = day).map fun x => x.volume.getD 0).sum
      = (((handed.filter fun x => x.volumeKnown).filter fun x => istDay x.start = day).map fun x =>
        x.volume.getD 0).sum := by
  induction handed with
  | nil => rfl
  | cons x handed ih =>
    obtain ⟨own, others⟩ := List.forall_mem_cons.mp unknown
    have rest := ih others
    cases known : x.volumeKnown with
    | true =>
      rw [List.filter_cons_of_pos known, List.filter_cons, List.filter_cons]
      split
      · rw [List.map_cons, List.map_cons, List.sum_cons, List.sum_cons, rest]
      · exact rest
    | false =>
      have fewer : (x :: handed).filter (fun x => x.volumeKnown) = handed.filter fun x => x.volumeKnown :=
        List.filter_cons_of_neg (by rw [known]; decide)
      rw [fewer, ← rest, List.filter_cons]
      split
      · rw [List.map_cons, List.sum_cons, own known]
        exact zero_add _
      · rfl

variable {v : KeyView} {handed : List FeedBar}

theorem Metered.counts {rs : List Reading} (metered : Metered key figures v handed)
    (counter : SessionCounter key traded figures)
    (reads : List.Forall₂ (Reads key figures) (handed.filter fun x => x.volumeKnown) rs) :
    Counts rs :=
  counts_of_reads counter (metered.ordered.sublist List.filter_sublist) reads

/-- The bars of a session come to no more than was traded in it. -/
theorem Metered.volume_le (metered : Metered key figures v handed)
    (counter : SessionCounter key traded figures) (day : Int) :
    ((handed.filter fun x => istDay x.start = day).map fun x => x.volume.getD 0).sum ≤ traded day := by
  obtain ⟨rs, reads, isVolume, -⟩ := metered.readings
  have isTotal : ((handed.filter fun x => istDay x.start = day).map fun x => x.volume.getD 0).sum = total day rs := by
    rw [sum_known metered.unknown, sum_volumes day reads isVolume]
    rfl
  rw [isTotal]
  refine (metered.counts counter reads).total_le (counter.positive day) ?_
  intro r mem own
  obtain ⟨x, -, read⟩ := partner_of_right reads mem
  obtain ⟨f, isFed, isKey, isStart, isLast⟩ := read.last
  have isDay : istDay f.ts = day := by
    rw [← istDay_minuteStart, isStart, ← read.session, own]
  rw [← isLast, ← isDay]
  exact (counter.within f isFed isKey).2

/-- The figure is of the key, and of the session. -/
def FigureOf (key : String) (figures : List Figure) (day figure : Int) : Prop :=
  ∃ f ∈ figures, f.key = key ∧ istDay f.ts = day ∧ f.total = figure

theorem Fed.figureOf {start : Int} (fed : Fed key figures start figure) :
    FigureOf key figures (istDay start) figure := by
  obtain ⟨f, mem, isKey, isStart, isTotal⟩ := fed
  refine ⟨f, mem, isKey, ?_, isTotal⟩
  rw [← isStart, istDay_minuteStart]

/-- The volume is a figure of the session, or the difference of two. -/
def OwnFigures (key : String) (figures : List Figure) (x : FeedBar) : Prop :=
  ∃ figure, FigureOf key figures (istDay x.start) figure ∧
    (x.volume = some figure ∨ ∃ before, FigureOf key figures (istDay x.start) before ∧
      x.volume = some (figure - before))

/-- The figures of the bar's session are below those of every session before. -/
def WentBack (key : String) (figures : List Figure) (x : FeedBar) : Prop :=
  ∀ f ∈ figures, ∀ g ∈ figures, f.key = key → g.key = key → istDay f.ts < istDay x.start →
    istDay g.ts = istDay x.start →
    g.total < f.total

theorem Metered.own_figures (metered : Metered key figures v handed)
    (counter : SessionCounter key traded figures) {before after : List FeedBar}
    (split : (handed.filter fun x => x.volumeKnown) = before ++ x :: after)
    (own : (∃ y ∈ before, istDay y.start = istDay x.start) ∨ WentBack key figures x) :
    OwnFigures key figures x := by
  obtain ⟨rs, reads, isVolume, -⟩ := metered.readings
  rw [split] at reads isVolume
  obtain ⟨rb, r, ra, rfl, earlier, read⟩ := reads_split reads
  have upTo : (before ++ [x]).Sublist (handed.filter fun x => x.volumeKnown) := by
    rw [split]
    exact (List.Sublist.refl before).append (List.singleton_sublist.mpr List.mem_cons_self)
  have counts : Counts (rb ++ [r]) := counts_of_reads counter
    ((metered.ordered.sublist List.filter_sublist).sublist upTo)
    (List.rel_append earlier (List.Forall₂.cons read List.Forall₂.nil))
  have volume : x.volume = some (amount (lastFigure rb) r) := by
    have length : (before.map (·.volume)).length = ((amounts none rb).map some).length := by
      rw [List.length_map, List.length_map, Cumulative.length_amounts, earlier.length_eq]
    rw [Cumulative.amounts_append, List.map_append, List.map_append, List.map_cons, Option.or_none] at isVolume
    exact (List.cons.inj (List.append_inj isVolume length).2).1
  have last : FigureOf key figures (istDay x.start) r.last := read.last.figureOf
  have ownReading : (∃ q ∈ rb, q.session = r.session) ∨ ∀ q ∈ rb, q.session < r.session → r.last < q.last := by
    rcases own with ⟨y, inBars, same⟩ | back
    · obtain ⟨q, mem, read'⟩ := partner_of_left earlier inBars
      exact Or.inl ⟨q, mem, read'.session.trans (same.trans read.session.symm)⟩
    · refine Or.inr fun q mem lt => ?_
      obtain ⟨y, -, read'⟩ := partner_of_right earlier mem
      obtain ⟨f, isFed, isKey, isDay, isTotal⟩ := read'.last.figureOf
      obtain ⟨g, isFed', isKey', isDay', isTotal'⟩ := last
      rw [read'.session, read.session] at lt
      rw [← isTotal, ← isTotal']
      exact back f isFed g isFed' isKey isKey' (isDay.trans_lt lt) isDay'
  rcases counts.amount_own ownReading with isFigure | ⟨figure, isOwn, isDifference⟩
  · exact ⟨r.last, last, Or.inl (volume.trans (congrArg some isFigure))⟩
  · refine ⟨r.last, last, Or.inr ⟨figure, ?_, volume.trans (congrArg some isDifference)⟩⟩
    rcases isOwn with rfl | rfl | ⟨q, mem, same, rfl⟩
    · exact read.first.figureOf
    · exact last
    · obtain ⟨y, -, read'⟩ := partner_of_right earlier mem
      have figure := read'.last.figureOf
      rw [← read'.session, same, read.session] at figure
      exact figure

end Volumes

namespace VolumeState

variable {key : String} {s : VolumeState} {calls : List BuilderCall}

theorem sessionVolume_eq (s : VolumeState) (key : String) (day : Int) :
    s.sessionVolume key day = (((s.handedOf key).filter fun x => istDay x.start = day).map fun x =>
      x.volume.getD 0).sum := by
  unfold sessionVolume handedOf
  rw [List.filter_filter]
  congr 3
  funext x
  rw [Bool.and_comm, Bool.decide_and]

/-- In every run, the volumes of a session come to no more than was traded in it, and no volume is of figures of
another session but that of the first bar of its session whose figure has not gone back. -/
theorem session_volumes (grace : Int) (calls : List BuilderCall) (ran : machine.run (start grace) calls = some s)
    (key : String) (traded : Int → Int) (counter : SessionCounter key traded s.figures) :
    (∀ day, s.sessionVolume key day ≤ traded day) ∧
      ∀ before x after, s.metered key = before ++ x :: after →
        ((∃ y ∈ before, istDay y.start = istDay x.start) ∨ WentBack key s.figures x) → OwnFigures key s.figures x := by
  have metered := run_metered ran key
  constructor
  · intro day
    rw [sessionVolume_eq]
    exact metered.volume_le counter day
  · intro before x after split own
    exact metered.own_figures counter split own

/-- A bar, an outage, a symbol that is dropped and fed again, and the next day. -/
def twoMornings : List BuilderCall :=
  [.feed "NSE:X" (instant 10 0 10) (some 50) (instant 10 0 11) (some 100),
   .feed "NSE:X" (instant 10 0 50) (some 51) (instant 10 0 51) (some 200),
   .suppress ["NSE:X"] (instant 10 1 0) (instant 10 6 0),
   .feed "NSE:X" (instant 10 6 10) (some 52) (instant 10 6 11) (some 1000),
   .forget ["NSE:X"],
   .feed "NSE:X" (instant 10 8 10) (some 53) (instant 10 8 11) (some 1300),
   .feed "NSE:X" (instant 33 15 5) (some 54) (instant 33 15 6) (some 50),
   .feed "NSE:X" (instant 33 16 5) (some 55) (instant 33 16 6) (some 70),
   .closeDue (instant 33 20 0) none]

theorem session_volumes_twoMornings : ∃ s, machine.run (start 3000000) twoMornings = some s ∧
    (s.metered "NSE:X").map (·.volume) = [some 100, some 1100, some 50, some 20] ∧
    (∀ day, s.sessionVolume "NSE:X" day ≤ if day = 20000 then 1300 else if day = 20001 then 70 else 0) ∧
    ∀ before x after, s.metered "NSE:X" = before ++ x :: after →
      ((∃ y ∈ before, istDay y.start = istDay x.start) ∨ WentBack "NSE:X" s.figures x) →
        OwnFigures "NSE:X" s.figures x := by
  have runs : (machine.run (start 3000000) twoMornings).any (fun s =>
      decide ((s.metered "NSE:X").map (·.volume) = [some 100, some 1100, some 50, some 20] ∧
        s.figures = [⟨"NSE:X", instant 10 0 10, 100⟩, ⟨"NSE:X", instant 10 0 50, 200⟩, ⟨"NSE:X", instant 10 6 10, 1000⟩,
          ⟨"NSE:X", instant 10 8 10, 1300⟩, ⟨"NSE:X", instant 33 15 5, 50⟩,
          ⟨"NSE:X", instant 33 16 5, 70⟩])) = true := by
    decide +kernel
  obtain ⟨s, ran, both⟩ := (Option.any_eq_true _ _).mp runs
  obtain ⟨volumes, figures⟩ := of_decide_eq_true both
  refine ⟨s, ran, volumes, session_volumes 3000000 twoMornings ran "NSE:X" _ ?_⟩
  rw [figures]
  constructor
  case positive =>
    intro day
    split_ifs <;> decide
  case within => decide +kernel
  case rises => decide +kernel

/-! ## What is traded in a gap -/

/-- The minutes of an IST day. -/
def minutesOf (day : Int) : List Int := (List.range 1440).map fun i => dayStart day + i * minuteUs

/-- What is traded in a day before a minute. -/
def tradedBefore (traded : Int → Int) (minute : Int) : Int :=
  (((minutesOf (istDay minute)).filter fun m => m < minute).map traded).sum

/-- What is traded in the minutes of a day that no window holds. -/
def tradedOutside (traded : Int → Int) (windows : List (Int × Int)) (day : Int) : Int :=
  (((minutesOf day).filter fun m => !windows.any fun w => w.1 ≤ m && m < w.2).map traded).sum

/-- The windows that were given to `suppress` for a key. -/
def windowsOf (key : String) : List BuilderCall → List (Int × Int) :=
  List.filterMap fun
    | .suppress keys start stop => if key ∈ keys then some (start, stop) else none
    | _ => none

/-- The figures of a key count what is traded in each minute, from zero in every session. -/
structure MinuteCounter (key : String) (traded : Int → Int) (figures : List Figure) : Prop where
  positive : ∀ m, 0 ≤ traded m
  between : ∀ f ∈ figures, f.key = key → tradedBefore traded (minuteStart f.ts) ≤ f.total ∧
    f.total ≤ tradedBefore traded (minuteStart f.ts) + traded (minuteStart f.ts)
  rises : ∀ f ∈ figures, ∀ g ∈ figures, f.key = key → g.key = key → istDay f.ts = istDay g.ts → f.ts < g.ts →
    f.total ≤ g.total

/-- A bar, an outage of five minutes, and a bar. -/
def gapCalls : List BuilderCall :=
  [.feed "NSE:X" (instant 10 0 10) (some 50) (instant 10 0 11) (some 100),
   .feed "NSE:X" (instant 10 0 50) (some 51) (instant 10 0 51) (some 200),
   .suppress ["NSE:X"] (instant 10 1 0) (instant 10 6 0),
   .feed "NSE:X" (instant 10 6 10) (some 52) (instant 10 6 11) (some 1000),
   .closeDue (instant 10 7 3) none]

/-- 200 in the minute 10:00, and 800 in the outage. -/
def gapTraded (m : Int) : Int := if m = instant 10 0 0 then 200 else if m = instant 10 1 0 then 800 else 0

/-- The first bar after an outage carries what was traded in it. -/
theorem gap_volume_counted : ∃ s, machine.run (start 3000000) gapCalls = some s ∧
    MinuteCounter "NSE:X" gapTraded s.figures ∧ tradedOutside gapTraded (windowsOf "NSE:X" gapCalls) 20000 = 200 ∧
    (s.metered "NSE:X").map (·.volume) = [some 100, some 800] ∧
    tradedOutside gapTraded (windowsOf "NSE:X" gapCalls) 20000 < s.sessionVolume "NSE:X" 20000 := by
  have runs : (machine.run (start 3000000) gapCalls).any (fun s =>
      decide (((s.metered "NSE:X").map (·.volume) = [some 100, some 800] ∧ s.sessionVolume "NSE:X" 20000 = 900) ∧
        s.figures = [⟨"NSE:X", instant 10 0 10, 100⟩, ⟨"NSE:X", instant 10 0 50, 200⟩,
          ⟨"NSE:X", instant 10 6 10, 1000⟩]))
      = true := by
    decide +kernel
  have outside : tradedOutside gapTraded (windowsOf "NSE:X" gapCalls) 20000 = 200 := by decide +kernel
  obtain ⟨s, ran, all⟩ := (Option.any_eq_true _ _).mp runs
  obtain ⟨⟨volumes, volume⟩, figures⟩ := of_decide_eq_true all
  refine ⟨s, ran, ?_, outside, volumes, ?_⟩
  · rw [figures]
    constructor
    case positive =>
      intro m
      unfold gapTraded
      split_ifs <;> decide
    case between => decide +kernel
    case rises => decide +kernel
  · rw [outside, volume]
    decide

end VolumeState

end AdvanceTrading.MarketData
