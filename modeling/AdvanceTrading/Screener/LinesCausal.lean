import AdvanceTrading.Screener.LinesFound
import Mathlib.Data.List.Dedup

/-!
# Lines bar by bar

B5 looks only at the bars its candidates name. With a buffer of at least the
tolerance these are all the bars a signal can be on, so the columns are those of
looking at every bar. With any buffer a column's row reads no bar after its own:
the columns of a cut frame are those of the whole frame, cut.
-/

namespace AdvanceTrading.Breakouts

open PriceAction Columns Choice

variable {f s : Frame} {p : LineParams} {kind : LineSide} {rr gap : ℚ} {t n i a b : Nat} {k : Line} {mode : LineMode}
  {attr : BreakOf} {L : Lines} {buf : Nat → Option ℚ} {rrs : Nat → Option ℚ} {edges : Bool}

/-! ## The rows that are written -/

variable {signalAt : Nat → Option BreakRow} {out : List BreakRow} {ts : List Nat}

/-- The row of bar `i` after the bars `ts` were looked at. -/
theorem fillBars_get (inside : i < out.length) :
    (fillBars signalAt out ts)[i]? = if i ∈ ts then (signalAt i).or out[i]? else out[i]? := by
  unfold fillBars
  induction ts generalizing out with
  | nil => simp
  | cons t ts ih =>
    rw [List.foldl_cons]
    cases signal : signalAt t with
    | none =>
      rw [Option.elim_none, ih inside]
      by_cases here : i = t
      · subst here
        simp [signal]
      · simp [here]
    | some row =>
      rw [Option.elim_some, ih (by rwa [List.length_set])]
      by_cases here : i = t
      · subst here
        rw [List.getElem?_set_self inside]
        rw [signal]
        simp
      · rw [List.getElem?_set_ne (Ne.symm here)]
        simp [here]

theorem length_fillBars (signalAt : Nat → Option BreakRow) (out : List BreakRow) (ts : List Nat) :
    (fillBars signalAt out ts).length = out.length := by
  unfold fillBars
  induction ts generalizing out with
  | nil => rfl
  | cons t ts ih =>
    rw [List.foldl_cons, ih]
    cases signalAt t with
    | none => rfl
    | some row => exact List.length_set

/-- Looking at other bars makes no difference where neither writes. -/
theorem fillBars_congr {ts' : List Nat}
    (same : ∀ t < out.length, (signalAt t).isSome → (t ∈ ts ↔ t ∈ ts')) :
    fillBars signalAt out ts = fillBars signalAt out ts' := by
  apply List.ext_getElem?
  intro i
  by_cases inside : i < out.length
  · rw [fillBars_get inside, fillBars_get inside]
    cases signal : signalAt i with
    | none => simp
    | some row =>
      have both := same i inside (by rw [signal]; rfl)
      by_cases here : i ∈ ts
      · rw [if_pos here, if_pos (both.mp here)]
      · rw [if_neg here, if_neg fun there => here (both.mpr there)]
  · rw [List.getElem?_eq_none (by rw [length_fillBars]; omega), List.getElem?_eq_none (by rw [length_fillBars]; omega)]

/-! ## The bars a line breaks on -/

theorem mem_candidates {column : Nat → ℚ} :
    t ∈ L.candidates attr column buf ↔ ∃ k ∈ L.pairs, L.hit attr column buf k = some t := by
  unfold Lines.candidates
  rw [(sortBy_perm id _).mem_iff, List.mem_dedup, List.mem_filterMap]

/-- The swings a hit counts. -/
theorem hit_touches (edges : Bool) :
    ((swingPositions kind (kind.column s) s.length p.order).filter fun i =>
      |kind.column s i - ((pairRow s p kind edges a b).m * i + (pairRow s p kind edges a b).c0)| ≤ p.touchTol * rr ∧
        (pairRow s p kind edges a b).a ≤ i ∧ (i : Int) ≤ (t : Int) - 1 - p.order) =
      touchPoints (kind.column s) (p.touchTol * rr) (knownSwings s kind p.order t) a b := by
  unfold touchPoints knownSwings
  rw [List.filter_filter]
  apply List.filter_congr
  intro i _
  rw [pairRow_line, ← Bool.decide_and, decide_eq_decide]
  change |_| ≤ _ ∧ a ≤ i ∧ _ ↔ _
  constructor
  · rintro ⟨near, late, soon⟩
    exact ⟨⟨late, near⟩, by omega⟩
  · rintro ⟨⟨late, near⟩, soon⟩
    exact ⟨near, late, by omega⟩

/-- When a pair of the grid is hit, and where. -/
theorem hit_iff {column : Nat → ℚ} (anchors : Anchors s p kind a b) :
    (Lines.build s p kind rrs edges).hit attr column buf (pairRow s p kind edges a b) = some t ↔
      attr.first (pairRow s p kind edges a b) = some t ∧ ∃ gap rr, buf t = some gap ∧ rrs t = some rr ∧
        lineOver (kind.column s) a b t + attr.offset (pairRow s p kind edges a b) + gap < column t ∧ 0 < rr ∧
        b + p.order < t ∧ slope (kind.column s) a b * kind.slopeSign ≤ p.maxSlope * rr ∧
        p.minTouches ≤ (touchPoints (kind.column s) (p.touchTol * rr) (knownSwings s kind p.order t) a b).length := by
  have steep : |(pairRow s p kind edges a b).m| = slope (kind.column s) a b * kind.slopeSign := abs_slope anchors.sloped
  unfold Lines.hit
  cases first : attr.first (pairRow s p kind edges a b) with
  | none => simp
  | some tt =>
    have ranged : (Lines.build s p kind rrs edges).rr tt = rrs tt := rfl
    dsimp only
    rw [ranged]
    cases gapped : buf tt with
    | none =>
      simp only [reduceCtorEq, Option.some.injEq, false_iff]
      rintro ⟨rfl, gap, rr, known, -⟩
      rw [gapped] at known
      cases known
    | some gap =>
      cases known : rrs tt with
      | none =>
        simp only [reduceCtorEq, Option.some.injEq, false_iff]
        rintro ⟨rfl, gap, rr, -, known', -⟩
        rw [known] at known'
        cases known'
      | some rr =>
        dsimp only
        rw [steep]
        constructor
        · intro hit
          split at hit
          case isFalse => cases hit
          case isTrue passed =>
            obtain rfl := Option.some.inj hit
            obtain ⟨beyond, positive, last, angle, touched⟩ := passed
            have second : b + p.order < tt := by
              change (b : Int) ≤ (tt : Int) - 1 - (p.order : Int) at last
              omega
            refine ⟨rfl, gap, rr, gapped, known, beyond, positive, second, angle, ?_⟩
            rw [← hit_touches edges]
            exact touched
        · rintro ⟨first', gap', rr', gapped', known', beyond, positive, second, angle, touched⟩
          obtain rfl := Option.some.inj first'
          obtain rfl := Option.some.inj (gapped.symm.trans gapped')
          obtain rfl := Option.some.inj (known.symm.trans known')
          refine if_pos ⟨beyond, positive, ?_, angle, ?_⟩
          · change (b : Int) ≤ (tt : Int) - 1 - (p.order : Int)
            omega
          · rw [← hit_touches edges] at touched
            exact touched

/-- A first break that is not before `t`, and a break at `t`, is at `t`. -/
theorem first_at {P : Nat → Bool} {reach : Nat}
    (late : (((List.range (reach + 1)).find? P).map (a + ·)).all fun x => t ≤ x) (after : a ≤ t)
    (within : t ≤ a + reach) (breaks : P (t - a)) :
    ((List.range (reach + 1)).find? P).map (a + ·) = some t := by
  have none_before := first_break.mp late
  have found : (List.range (reach + 1)).find? P = some (t - a) := by
    rw [List.find?_range_eq_some]
    refine ⟨breaks, List.mem_range.mpr (by omega), ?_⟩
    intro j before
    rw [none_before j (by omega) (by omega)]
    rfl
  rw [found, Option.map_some, Nat.add_sub_cancel' after]

/-! ## Every bar -/

/-- The side of the lines a mode reads. -/
def LineMode.side : LineMode → LineSide
  | .line => .resistance
  | .channel => .support

/-- The lines of a mode have their channels. -/
def LineMode.channels : LineMode → Bool
  | .line => false
  | .channel => true

theorem LineMode.lines_eq (mode : LineMode) (s : Frame) (p : LineParams) (rrs : Nat → Option ℚ) :
    mode.lines s p rrs = Lines.build s p mode.side rrs mode.channels := by
  cases mode <;> rfl

/-- What a line needs to signal on a bar: no break before it, and a close beyond by the buffer. -/
theorem signalAt_isSome : (mode.signalAt s L buf t).isSome ↔
    ∃ l gap, L.select t = some l ∧ buf t = some gap ∧
      (mode = .channel → (l.edgeBroken.all fun x => t ≤ x) = true) ∧
        l.at_ t + mode.breakOf.offset l + gap < close s t := by
  unfold LineMode.signalAt
  cases L.select t with
  | none => simp
  | some l =>
    cases buf t with
    | none => simp
    | some gap =>
      simp only [Option.some.injEq, exists_and_left, exists_eq_left']
      cases mode with
      | line =>
        change _ ↔ _ ∧ l.at_ t + 0 + gap < close s t
        rw [add_zero, Option.isSome_ite]
        exact (and_iff_right nofun).symm
      | channel =>
        have late : (l.edgeBroken.all fun x => decide (t ≤ x)) = !(l.edgeBroken.any fun x => decide (x < t)) := by
          cases l.edgeBroken with
          | none => rfl
          | some x =>
            rw [Option.all_some, Option.any_some, ← decide_not, decide_eq_decide]
            omega
        rw [late]
        change _ ↔ _ ∧ l.at_ t + l.edge + gap < close s t
        cases l.edgeBroken.any fun x => decide (x < t) with
        | true => simp
        | false => simp

/-- A buffer of at least the tolerance wherever there is one. -/
def Wide (buf : Nat → Option ℚ) : Prop := ∀ t gap, buf t = some gap → EPS ≤ gap

/-- The line of a signal is first closed beyond on the signal's bar. -/
theorem first_of_signal (inside : t < s.length) (line : LineAt s p mode.side rr t a b) (wide : EPS ≤ gap)
    (unbroken : mode = .channel → ((pairRow s p mode.side mode.channels a b).edgeBroken.all fun x => t ≤ x) = true)
    (beyond : lineOver (mode.side.column s) a b t +
      mode.breakOf.offset (pairRow s p mode.side mode.channels a b) + gap <
      close s t) : mode.breakOf.first (pairRow s p mode.side mode.channels a b) = some t := by
  have apart := line.apart.1
  have young := line.young
  have known : b + p.order < t := (mem_knownSwings inside.le |>.mp line.second).2
  have here : a + (t - a) = t := by omega
  cases mode with
  | line =>
    refine first_at (first_break.mpr ?_) (by omega) young ?_
    · intro j _ before
      rw [decide_eq_false_iff_not]
      rintro ⟨-, breaks⟩
      have free := line.unbroken (a + j) (by omega) before
      rw [show LineMode.line.side = LineSide.resistance from rfl] at free
      exact absurd (free.symm.trans breaks) Bool.false_ne_true
    · rw [decide_eq_true_eq]
      refine ⟨by omega, ?_⟩
      change decide (lineOver (high s) a b (a + (t - a)) + 1 / 10 ^ 9 < close s (a + (t - a))) = true
      rw [decide_eq_true_eq, here]
      change lineOver (high s) a b t + 0 + gap < close s t at beyond
      change (1 / 10 ^ 9 : ℚ) ≤ gap at wide
      linarith
  | channel =>
    refine first_at (unbroken rfl) (by omega) young ?_
    rw [decide_eq_true_eq]
    refine ⟨by omega, ?_, by omega⟩
    change lineOver (low s) a b (a + (t - a)) + (pairRow s p .support true a b).edge + EPS < close s (a + (t - a))
    rw [here]
    change lineOver (low s) a b t + (pairRow s p .support true a b).edge + gap < close s t at beyond
    linarith

/-- Every bar a signal is on is a candidate. -/
theorem signal_candidate (inside : t < s.length) (wide : Wide buf)
    (signal : (mode.signalAt s (mode.lines s p rrs) buf t).isSome) :
    t ∈ (mode.lines s p rrs).candidates mode.breakOf (close s) buf := by
  rw [LineMode.lines_eq] at signal ⊢
  obtain ⟨l, gap, chosen, gapped, unbroken, beyond⟩ := signalAt_isSome.mp signal
  obtain ⟨rr, known, positive, -, line⟩ := select_line inside.le chosen
  obtain ⟨anchors, -, touched⟩ := (lineAt_iff rrs mode.channels inside.le).mp line
  have row := select_row inside.le chosen
  have beyond' : lineOver (mode.side.column s) l.a l.b t +
      mode.breakOf.offset (pairRow s p mode.side mode.channels l.a l.b) + gap < close s t := by
    have at_row : l.at_ t = lineOver (mode.side.column s) l.a l.b t := by
      rw [row]
      exact pairRow_line _ _
    rw [← row, ← at_row]
    exact beyond
  have first := first_of_signal inside line (wide t gap gapped) (by rw [← row]; exact unbroken) beyond'
  rw [mem_candidates]
  refine ⟨pairRow s p mode.side mode.channels l.a l.b, mem_pairs.mpr ⟨l.a, l.b, anchors, rfl⟩, ?_⟩
  rw [hit_iff anchors]
  exact ⟨first, gap, rr, gapped, known, beyond', positive, (mem_knownSwings inside.le |>.mp line.second).2,
    line.angle.2, touched⟩

/-- B5 computed on the candidates alone is B5 computed on every bar. -/
theorem b5_everyBar (f : Frame) (up : Bool) (p : LineParams) (mode : LineMode)
    (buf : Nat → Option ℚ) (wide : Wide buf) : b5 f up p mode buf = b5EveryBar f up p mode buf := by
  unfold b5 b5EveryBar
  apply fillBars_congr
  intro t inside signal
  rw [emptyRows, List.length_replicate] at inside
  have inside' : t < (sideBars up f).length := by rwa [length_sideBars]
  exact iff_of_true (signal_candidate inside' wide signal) (List.mem_range.mpr inside)

/-- The pre-computed lines are the finder's on the bars before every bar, and B5 on its candidates is B5 on every bar,
exactly where no line can be drawn on the fewest bars. -/
theorem trendlines_agree_iff (f : Frame) (p : LineParams) :
    ((∀ up kind edges t, t ≤ f.length → Agrees f up p kind edges t) ∧
      ∀ up mode buf, Wide buf → b5 f up p mode buf = b5EveryBar f up p mode buf) ↔
      ∀ up kind t, t ≤ f.length → ¬FirstLine (sideBars up f) p kind t := by
  constructor
  · rintro ⟨agree, -⟩ up kind t upto
    exact (select_agrees_iff f up p kind false t upto).mp (agree up kind false t upto)
  · intro free
    exact ⟨fun up kind edges t upto => (select_agrees_iff f up p kind edges t upto).mpr (free up kind t upto),
      fun up mode buf wide => b5_everyBar f up p mode buf wide⟩

/-! ## A cut frame -/

/-- The first place of a reach that is before `n`. -/
theorem first_cut {P Q : Nat → Bool} {reach : Nat} (cut : ∀ j, Q j = (decide (a + j < n) && P j)) :
    ((List.range (reach + 1)).find? Q).map (a + ·) =
      (((List.range (reach + 1)).find? P).map (a + ·)).filter fun x => x < n := by
  cases found : (List.range (reach + 1)).find? P with
  | none =>
    rw [List.find?_eq_none] at found
    have missed : (List.range (reach + 1)).find? Q = none := by
      rw [List.find?_eq_none]
      intro j mem
      rw [cut, Bool.eq_false_iff.mpr (found j mem), Bool.and_false]
      exact Bool.false_ne_true
    rw [missed]
    rfl
  | some j =>
    obtain ⟨holds, mem, before⟩ := List.find?_range_eq_some.mp found
    rw [Option.map_some, Option.filter_some]
    by_cases inside : a + j < n
    · rw [if_pos (decide_eq_true inside)]
      have hit : (List.range (reach + 1)).find? Q = some j := by
        rw [List.find?_range_eq_some]
        refine ⟨?_, mem, ?_⟩
        · rw [cut, decide_eq_true inside, holds]
          rfl
        · intro i less
          have none := before i less
          rw [Bool.not_eq_true'] at none
          rw [cut, none, Bool.and_false]
          rfl
      rw [hit, Option.map_some]
    · rw [if_neg (by rw [decide_eq_true_eq]; exact inside)]
      have missed : (List.range (reach + 1)).find? Q = none := by
        rw [List.find?_eq_none]
        intro i mem_i
        rw [cut]
        rcases Nat.lt_or_ge i j with less | more
        · have none := before i less
          rw [Bool.not_eq_true'] at none
          rw [none, Bool.and_false]
          exact Bool.false_ne_true
        · rw [decide_eq_false (by omega), Bool.false_and]
          exact Bool.false_ne_true
      rw [missed]
      rfl

theorem channelEdge_take (short : n ≤ s.length) (less : a < b) (b_lt : b < n) (m c0 : ℚ) :
    channelEdge (s.take n) a b m c0 = channelEdge s a b m c0 := by
  have length : (s.take n).length = n := List.length_take_of_le short
  unfold channelEdge
  rw [length]
  congr 2
  apply List.filterMap_congr
  intro j mem
  rw [List.mem_range] at mem
  rw [if_pos (by omega), if_pos (by omega), high_take (by omega)]

/-- The row of a pair in a cut frame: the breaks at the cut and after it are not there. -/
theorem pairRow_take (short : n ≤ s.length) (less : a < b) (b_lt : b < n) :
    pairRow (s.take n) p kind edges a b =
      { pairRow s p kind edges a b with
        broken := (pairRow s p kind edges a b).broken.filter fun x => x < n
        edgeBroken := (pairRow s p kind edges a b).edgeBroken.filter fun x => x < n } := by
  have a_lt : a < n := by omega
  have length : (s.take n).length = n := List.length_take_of_le short
  have sloped : slope (kind.column (s.take n)) a b = slope (kind.column s) a b := slope_take a_lt b_lt
  have first : kind.column (s.take n) a = kind.column s a := column_take a_lt
  unfold pairRow
  rw [sloped, first]
  unfold lineRow
  rw [channelEdge_take short less b_lt, length]
  dsimp only
  congr 1
  · refine first_cut fun j => ?_
    rw [← Bool.decide_and, decide_eq_decide]
    constructor
    · rintro ⟨inside, breaks⟩
      rw [close_take inside] at breaks
      exact ⟨inside, by omega, breaks⟩
    · rintro ⟨inside, -, breaks⟩
      rw [close_take inside]
      exact ⟨inside, breaks⟩
  · cases edges with
    | false => rfl
    | true =>
      simp only [if_true]
      refine first_cut fun j => ?_
      rw [← Bool.decide_and, decide_eq_decide]
      constructor
      · rintro ⟨inside, breaks, later⟩
        rw [close_take inside] at breaks
        exact ⟨inside, by omega, breaks, later⟩
      · rintro ⟨inside, -, breaks, later⟩
        rw [close_take inside]
        exact ⟨inside, breaks, later⟩

/-- The pairs of a cut frame are those whose swings are known before the cut. -/
theorem anchors_take (short : n ≤ s.length) :
    Anchors (s.take n) p kind a b ↔ Anchors s p kind a b ∧ b + p.order < n := by
  have length : (s.take n).length = n := List.length_take_of_le short
  constructor
  · intro anchors
    obtain ⟨first, first_lt⟩ := mem_swingPositions.mp anchors.first
    obtain ⟨second, second_lt⟩ := mem_swingPositions.mp anchors.second
    rw [length] at first_lt second_lt
    have sloped := anchors.sloped
    rw [slope_take (by omega) (by omega)] at sloped
    exact ⟨⟨mem_swingPositions.mpr ⟨(isSwing_take first_lt).mp first, by omega⟩,
      mem_swingPositions.mpr ⟨(isSwing_take second_lt).mp second, by omega⟩, anchors.apart,
      anchors.near, sloped⟩, second_lt⟩
  · rintro ⟨anchors, known⟩
    obtain ⟨first, -⟩ := mem_swingPositions.mp anchors.first
    obtain ⟨second, -⟩ := mem_swingPositions.mp anchors.second
    have less := anchors.apart.1
    have sloped := anchors.sloped
    rw [← slope_take (n := n) (by omega) (by omega)] at sloped
    exact ⟨mem_swingPositions.mpr ⟨(isSwing_take (by omega)).mpr first, by omega⟩,
      mem_swingPositions.mpr ⟨(isSwing_take (by omega)).mpr second, by omega⟩, anchors.apart, anchors.near, sloped⟩

theorem touchPoints_take {tol : ℚ} (upto : t ≤ n) (short : n ≤ s.length) (a_lt : a < n) (b_lt : b < n) (order : Nat) :
    touchPoints (kind.column (s.take n)) tol (knownSwings (s.take n) kind order t) a b =
      touchPoints (kind.column s) tol (knownSwings s kind order t) a b := by
  rw [knownSwings_take upto short]
  exact touchPoints_column (fun _ mem => (knownSwings_lt mem).trans_le upto) a_lt b_lt

/-- The lines as of a bar are the same in a cut frame. -/
theorem lineAt_take (upto : t ≤ n) (short : n ≤ s.length) :
    LineAt (s.take n) p kind rr t a b ↔ LineAt s p kind rr t a b := by
  constructor
  · intro line
    have first := line.first
    have second := line.second
    rw [knownSwings_take upto short] at first second
    have a_lt := (knownSwings_lt first).trans_le upto
    have b_lt := (knownSwings_lt second).trans_le upto
    have angle := line.angle
    have touched := line.touched
    rw [slope_take a_lt b_lt] at angle
    rw [touchPoints_take upto short a_lt b_lt] at touched
    refine ⟨first, second, line.apart, line.young, angle, ?_, touched⟩
    intro x after before
    have free := line.unbroken x after before
    rwa [lineOver_take a_lt b_lt, close_take (by omega)] at free
  · intro line
    have a_lt := (knownSwings_lt line.first).trans_le upto
    have b_lt := (knownSwings_lt line.second).trans_le upto
    refine ⟨?_, ?_, line.apart, line.young, ?_, ?_, ?_⟩
    · rw [knownSwings_take upto short]
      exact line.first
    · rw [knownSwings_take upto short]
      exact line.second
    · rw [slope_take a_lt b_lt]
      exact line.angle
    · intro x after before
      rw [lineOver_take a_lt b_lt, close_take (by omega)]
      exact line.unbroken x after before
    · rw [touchPoints_take upto short a_lt b_lt]
      exact line.touched

variable {rrs' : Nat → Option ℚ}

/-- The line chosen as of a bar in a cut frame is the one chosen in the whole, but for the breaks from the cut on. -/
theorem select_take (upto : t ≤ n) (short : n ≤ s.length) (same : rrs' t = rrs t) :
    (Lines.build (s.take n) p kind rrs' edges).select t =
      ((Lines.build s p kind rrs edges).select t).map fun l =>
        { l with broken := l.broken.filter fun x => x < n, edgeBroken := l.edgeBroken.filter fun x => x < n } := by
  have length : (s.take n).length = n := List.length_take_of_le short
  by_cases flat : ∀ rr, rrs t = some rr → rr ≤ 0
  · rw [select_none flat, select_none (by rw [same]; exact flat)]
    rfl
  · push Not at flat
    obtain ⟨rr, known, positive⟩ := flat
    have finds := select_finds p kind edges (by omega : t ≤ s.length) known positive
    have finds' := select_finds (s := s.take n) p kind edges (by omega) (same.trans known) positive
    have keys := finds'.unique (finds.congr fun a b => (lineAt_take upto short).symm)
    cases chosen : (Lines.build s p kind rrs edges).select t with
    | none =>
      rw [chosen] at keys
      rw [Option.map_eq_none_iff.mp keys]
      rfl
    | some l =>
      rw [chosen] at keys finds
      obtain ⟨l', chosen', key⟩ := Option.map_eq_some_iff.mp keys
      obtain ⟨keyA, keyB⟩ := Prod.mk.inj key
      have line : LineAt s p kind rr t l.a l.b := finds.holds
      have b_lt := ((mem_knownSwings (by omega)).mp line.second).2
      have row := select_row (by omega) chosen
      have row' := select_row (by omega) chosen'
      rw [keyA, keyB, pairRow_take short line.apart.1 (by omega), ← row] at row'
      rw [chosen', row', Option.map_some]

/-- The anchors of a chosen line are before the bar. -/
theorem select_inside (upto : t ≤ s.length) {l : Line} (chosen : (Lines.build s p kind rrs edges).select t = some l) :
    l.a < l.b ∧ l.b + p.order < t := by
  obtain ⟨_, -, -, -, line⟩ := select_line upto chosen
  exact ⟨line.apart.1, ((mem_knownSwings upto).mp line.second).2⟩

/-- A break before `t` is before a cut after `t`. -/
theorem any_before_cut (upto : t ≤ n) (x : Option Nat) :
    ((x.filter fun x => x < n).any fun x => decide (x < t)) = x.any fun x => decide (x < t) := by
  cases x with
  | none => rfl
  | some x =>
    rw [Option.filter_some]
    by_cases inside : x < n
    · rw [if_pos (decide_eq_true inside)]
    · rw [if_neg (by rw [decide_eq_true_eq]; exact inside), Option.any_some, decide_eq_false (by omega)]
      rfl

/-- What a bar writes in a cut frame is what it writes in the whole. -/
theorem signalAt_take (inside : t < n) (short : n ≤ s.length) (same : rrs' t = rrs t) :
    mode.signalAt (s.take n) (mode.lines (s.take n) p rrs') buf t = mode.signalAt s (mode.lines s p rrs) buf t := by
  rw [LineMode.lines_eq, LineMode.lines_eq]
  unfold LineMode.signalAt
  rw [select_take inside.le short same]
  cases chosen : (Lines.build s p mode.side rrs mode.channels).select t with
  | none => rfl
  | some l =>
    obtain ⟨less, known⟩ := select_inside (by omega) chosen
    rw [Option.map_some]
    cases buf t with
    | none => rfl
    | some gap =>
      cases mode with
      | line =>
        dsimp only
        have lows : lowest (low (s.take n)) l.a (t - 1 - l.a) = lowest (low s) l.a (t - 1 - l.a) :=
          lowest_congr fun i upto => low_take (by omega)
        rw [close_take inside, lows]
        rfl
      | channel =>
        dsimp only
        rw [close_take inside, any_before_cut inside.le]
        rfl

theorem first_take (short : n ≤ s.length) (less : a < b) (b_lt : b < n) :
    attr.first (pairRow (s.take n) p kind edges a b) =
      (attr.first (pairRow s p kind edges a b)).filter fun x => x < n := by
  rw [pairRow_take short less b_lt]
  cases attr <;> rfl

theorem offset_take (short : n ≤ s.length) (less : a < b) (b_lt : b < n) :
    attr.offset (pairRow (s.take n) p kind edges a b) = attr.offset (pairRow s p kind edges a b) := by
  rw [pairRow_take short less b_lt]
  cases attr <;> rfl

/-- A pair is hit before the cut in the cut frame when it is in the whole. -/
theorem hit_take (inside : t < n) (short : n ≤ s.length) (same : rrs' t = rrs t)
    (anchors : Anchors s p kind a b) (known : b + p.order < n) :
    (Lines.build (s.take n) p kind rrs' edges).hit attr (close (s.take n)) buf
      (pairRow (s.take n) p kind edges a b) = some t ↔
      (Lines.build s p kind rrs edges).hit attr (close s) buf (pairRow s p kind edges a b) = some t := by
  have less := anchors.apart.1
  have a_lt : a < n := by omega
  have b_lt : b < n := by omega
  rw [hit_iff anchors, hit_iff ((anchors_take short).mpr ⟨anchors, known⟩), first_take short less b_lt,
    offset_take short less b_lt, lineOver_take a_lt b_lt, slope_take a_lt b_lt, close_take inside, same]
  have first : (attr.first (pairRow s p kind edges a b)).filter (fun x => x < n) = some t ↔
      attr.first (pairRow s p kind edges a b) = some t := by
    rw [Option.filter_eq_some_iff, decide_eq_true_eq]
    exact ⟨fun both => both.1, fun first => ⟨first, inside⟩⟩
  simp only [first, touchPoints_take inside.le short a_lt b_lt]

/-- The candidates of a cut frame are those of the whole before the cut. -/
theorem mem_candidates_take (p : LineParams) (kind : LineSide) (attr : BreakOf)
    (buf : Nat → Option ℚ) (edges : Bool) (inside : t < n) (short : n ≤ s.length)
    (same : rrs' t = rrs t) :
    t ∈ (Lines.build (s.take n) p kind rrs' edges).candidates attr (close (s.take n)) buf ↔
      t ∈ (Lines.build s p kind rrs edges).candidates attr (close s) buf := by
  rw [mem_candidates, mem_candidates]
  constructor
  · rintro ⟨k, mem, hit⟩
    obtain ⟨a, b, cut, rfl⟩ := mem_pairs.mp mem
    obtain ⟨anchors, known⟩ := (anchors_take short).mp cut
    exact ⟨_, mem_pairs.mpr ⟨a, b, anchors, rfl⟩, (hit_take inside short same anchors known).mp hit⟩
  · rintro ⟨k, mem, hit⟩
    obtain ⟨a, b, anchors, rfl⟩ := mem_pairs.mp mem
    obtain ⟨-, gap, rr, -, -, -, -, known, -⟩ := (hit_iff anchors).mp hit
    have before : b + p.order < n := by omega
    exact ⟨_, mem_pairs.mpr ⟨a, b, (anchors_take short).mpr ⟨anchors, before⟩, rfl⟩,
      (hit_take inside short same anchors before).mpr hit⟩

theorem sideBars_take (up : Bool) (f : Frame) (n : Nat) : sideBars up (f.take n) = (sideBars up f).take n := by
  cases up with
  | true => rfl
  | false => exact List.map_take

theorem refRanges_take (upto : t ≤ n) (short : n ≤ f.length) :
    refRanges (ranges (f.take n)) t = refRanges (ranges f) t := by
  have length : (ranges f).length = f.length := List.length_map _
  have cut : ((ranges f).take n).length = n := by rw [List.length_take, length, Nat.min_eq_left short]
  rw [ranges_take, refRanges_eq (by omega), refRanges_eq (by omega), List.take_take, Nat.min_eq_left upto]

/-- B5 reads no later bar: its columns over a cut frame are those over the whole frame, cut. -/
theorem b5_take (f : Frame) (up : Bool) (p : LineParams) (mode : LineMode) (buf : Nat → Option ℚ) (n : Nat)
    (short : n ≤ f.length) : b5 (f.take n) up p mode buf = (b5 f up p mode buf).take n := by
  have short' : n ≤ (sideBars up f).length := by rwa [length_sideBars]
  have length : (f.take n).length = n := List.length_take_of_le short
  apply List.ext_getElem?
  intro t
  rw [List.getElem?_take]
  unfold b5
  by_cases inside : t < n
  · have same : refRanges (ranges (f.take n)) t = refRanges (ranges f) t := refRanges_take inside.le short
    rw [if_pos inside, sideBars_take, length]
    have empty : ∀ m, t < m → (emptyRows m)[t]? = some {} := by
      intro m less
      rw [emptyRows, List.getElem?_replicate, if_pos less]
    rw [fillBars_get (by rw [emptyRows, List.length_replicate]; exact inside),
      fillBars_get (by rw [emptyRows, List.length_replicate]; omega), empty n inside, empty f.length (by omega),
      signalAt_take inside short' same]
    have candidate := mem_candidates_take p mode.side mode.breakOf buf mode.channels
      inside short' same
    rw [← LineMode.lines_eq, ← LineMode.lines_eq] at candidate
    simp only [candidate]
  · rw [if_neg inside, List.getElem?_eq_none]
    rw [length_fillBars, emptyRows, List.length_replicate]
    omega

/-- One fifth from the second bar on. -/
def fifth (t : Nat) : Option ℚ := if t = 0 then none else some (1 / 5)

theorem b5_take_falling : b5 (fallingBars.take 13) true LineParams.defaults .line fifth =
    (b5 fallingBars true LineParams.defaults .line fifth).take 13 :=
  b5_take fallingBars true LineParams.defaults .line fifth 13 (by decide)

/-! ## The channel line -/

/-- Before the first second anchor is known there is no line. -/
theorem select_early (upto : t ≤ s.length) (early : ∀ k ∈ (Lines.build s p kind rrs edges).pairs, t ≤ k.b + p.order) :
    (Lines.build s p kind rrs edges).select t = none := by
  cases chosen : (Lines.build s p kind rrs edges).select t with
  | none => rfl
  | some l =>
    obtain ⟨-, -, -, mem, -⟩ := select_line upto chosen
    have known := (select_inside upto chosen).2
    have late := early l mem
    omega

/-- So `channel_line` may start there. -/
theorem channelLine_everyBar (f : Frame) (up : Bool) (p : LineParams) (wanted : Nat) :
    channelLine f up p wanted = (List.range f.length).map fun t =>
      channelAt (sideBars up f) (Lines.build (sideBars up f) p .support (refRanges (ranges f)) true)
        (if 0 < wanted then swingPositions .resistance (high (sideBars up f))
          (sideBars up f).length p.order else []) wanted t := by
  have upto : ∀ t < f.length, t ≤ (sideBars up f).length := by
    intro t inside
    rw [length_sideBars]
    omega
  unfold channelLine
  dsimp only
  cases first : ((Lines.build (sideBars up f) p .support (refRanges (ranges f)) true).pairs.map Line.b).min? with
  | none =>
    rw [List.min?_eq_none_iff, List.map_eq_nil_iff] at first
    symm
    refine List.eq_replicate_iff.mpr ⟨by rw [List.length_map, List.length_range], ?_⟩
    rintro value mem
    obtain ⟨t, mem_t, rfl⟩ := List.mem_map.mp mem
    unfold channelAt
    rw [select_early (upto t (List.mem_range.mp mem_t)) (by rw [first]; exact nofun)]
  | some b =>
    apply List.map_congr_left
    intro t mem
    rw [List.mem_range] at mem
    by_cases started : b + p.order + 1 ≤ t
    · rw [if_pos started]
    · rw [if_neg started]
      unfold channelAt
      rw [select_early (upto t mem)]
      intro k mem_k
      have := (List.min?_eq_some_iff.mp first).2 k.b (List.mem_map_of_mem mem_k)
      omega

/-- The touches of the far edge are told by the swing highs known as of the bar. -/
theorem edgeTouches_eq (l : Line) :
    edgeTouches s (Lines.build s p kind rrs edges) (swingPositions .resistance (high s) s.length p.order) rr t l =
      ((knownSwings s .resistance p.order t).filter fun i =>
        l.a ≤ i ∧ |high s i - (l.m * i + l.c0 + l.edge)| ≤ p.touchTol * rr).length := by
  unfold edgeTouches knownSwings
  rw [List.filter_filter]
  congr 1
  apply List.filter_congr
  intro i _
  rw [← Bool.decide_and, decide_eq_decide]
  change (l.a ≤ i ∧ (i : Int) ≤ (t : Int) - 1 - (p.order : Int)) ∧ _ ↔ _
  constructor
  · rintro ⟨⟨late, soon⟩, near⟩
    exact ⟨⟨late, near⟩, by omega⟩
  · rintro ⟨⟨late, near⟩, soon⟩
    exact ⟨⟨late, by omega⟩, near⟩

theorem channelAt_take (wanted : Nat) (inside : t < n) (short : n ≤ s.length)
    (same : rrs' t = rrs t) :
    channelAt (s.take n) (Lines.build (s.take n) p .support rrs' true)
        (if 0 < wanted then swingPositions .resistance (high (s.take n)) (s.take n).length p.order else []) wanted t =
      channelAt s (Lines.build s p .support rrs true)
        (if 0 < wanted then swingPositions .resistance (high s) s.length p.order else []) wanted t := by
  have ranged : (Lines.build (s.take n) p .support rrs' true).rr t = (Lines.build s p .support rrs true).rr t := same
  unfold channelAt
  rw [select_take inside.le short same, ranged]
  cases chosen : (Lines.build s p .support rrs true).select t with
  | none => rfl
  | some l =>
    rw [Option.map_some]
    dsimp only
    rw [any_before_cut inside.le]
    by_cases counted : 0 < wanted
    · rw [if_pos counted, if_pos counted, edgeTouches_eq, edgeTouches_eq, knownSwings_take inside.le short]
      have highs : ((knownSwings s .resistance p.order t).filter fun i =>
            l.a ≤ i ∧ |high (s.take n) i - (l.m * i + l.c0 + l.edge)| ≤
              p.touchTol * ((Lines.build s p .support rrs true).rr t).getD 0) =
          (knownSwings s .resistance p.order t).filter fun i =>
            l.a ≤ i ∧ |high s i - (l.m * i + l.c0 + l.edge)| ≤
              p.touchTol * ((Lines.build s p .support rrs true).rr t).getD 0 := by
        apply List.filter_congr
        intro i mem
        have known := ((mem_knownSwings (by omega)).mp mem).2
        rw [high_take (by omega)]
      rw [highs]
      rfl
    · by_cases broken : (l.edgeBroken.any fun x => decide (x < t)) = true
      · rw [if_pos broken, if_pos broken]
      · rw [if_neg broken, if_neg broken, if_neg fun both => counted both.1, if_neg fun both => counted both.1]
        rfl

/-- The channel line reads no later bar. -/
theorem channelLine_take (f : Frame) (up : Bool) (p : LineParams) (wanted n : Nat) (short : n ≤ f.length) :
    channelLine (f.take n) up p wanted = (channelLine f up p wanted).take n := by
  have short' : n ≤ (sideBars up f).length := by rwa [length_sideBars]
  have length : (f.take n).length = n := List.length_take_of_le short
  rw [channelLine_everyBar, channelLine_everyBar, ← List.map_take, List.take_range,
    Nat.min_eq_left short, length, sideBars_take]
  apply List.map_congr_left
  intro t mem
  rw [List.mem_range] at mem
  exact channelAt_take wanted mem short' (refRanges_take mem.le short)

theorem channelLine_take_falling : channelLine (fallingBars.take 13) false LineParams.defaults 1 =
    (channelLine fallingBars false LineParams.defaults 1).take 13 :=
  channelLine_take fallingBars false LineParams.defaults 1 13 (by decide)

end AdvanceTrading.Breakouts
