import AdvanceTrading.PriceAction.ZigzagPivots
import Mathlib.Data.List.Chain

/-!
# The ZigZag of the contraction screen

Model of `zigzag` of `app/screener/breakouts/vcp.py:54-101`, and that it is the
ZigZag of `causal_swings.py`. It keeps the prices of the extremes beside their
bars, passes over a bar without prices and starts at the first one that has both.
A column is read by index; a NaN is `none`.
-/

namespace AdvanceTrading.Vcp

open PriceAction Scan

/-! ## The loop -/

/-- `Pivot` (`vcp.py:46-51`). -/
structure Pivot where
  confirmed : Nat
  bar : Nat
  kind : SwingKind
  price : ℚ
  deriving DecidableEq, Repr

/-- What the loop carries; `mode` 0, 1 and -1 are the trends undecided, rising and falling. -/
structure State where
  mode : Trend := .undecided
  hi : ℚ
  hiI : Nat
  lw : ℚ
  lwI : Nat
  out : List Pivot := []
  deriving DecidableEq, Repr

/-- The first bar so far with the best price, one more bar read. -/
def keepBest (better : ℚ → ℚ → Bool) (column : Nat → Option ℚ) (best : Option (ℚ × Nat)) (i : Nat) :
    Option (ℚ × Nat) :=
  match column i, best with
  | none, best => best
  | some x, none => some (x, i)
  | some x, some (y, j) => if better x y then some (x, i) else some (y, j)

/-- The best price of bars `i + 1, …, t` and its first bar, as `nanargmin` and `nanargmax` find them. -/
def bestAfter (better : ℚ → ℚ → Bool) (column : Nat → Option ℚ) (i t : Nat) : ℚ × Nat :=
  ((List.range' (i + 1) (t - i)).foldl (keepBest better column) none).getD (0, 0)

/-- `lowest_after`. -/
def lowestAfter (lo : Nat → Option ℚ) (i t : Nat) : ℚ × Nat := bestAfter (fun x y => x < y) lo i t

/-- `highest_after`. -/
def highestAfter (h : Nat → Option ℚ) (i t : Nat) : ℚ × Nat := bestAfter (fun x y => y < x) h i t

/-- The extremes with a bar's prices: an equal one moves to the later bar. -/
def State.track (s : State) (t : Nat) (ht lt : ℚ) : State :=
  { s with
    hi := if s.mode ≠ .falling ∧ s.hi ≤ ht then ht else s.hi
    hiI := if s.mode ≠ .falling ∧ s.hi ≤ ht then t else s.hiI
    lw := if s.mode ≠ .rising ∧ lt ≤ s.lw then lt else s.lw
    lwI := if s.mode ≠ .rising ∧ lt ≤ s.lw then t else s.lwI }

/-- A reversal of at least `thr` on bar `t`. -/
def State.confirm (h lo : Nat → Option ℚ) (s : State) (t : Nat) (ht lt thr : ℚ) : State :=
  if s.mode ≠ .falling ∧ s.hiI < t ∧ thr ≤ s.hi - lt then
    { s with
      mode := .falling
      lw := (lowestAfter lo s.hiI t).1
      lwI := (lowestAfter lo s.hiI t).2
      out := s.out ++ [⟨t, s.hiI, .high, s.hi⟩] }
  else if s.mode ≠ .rising ∧ s.lwI < t ∧ thr ≤ ht - s.lw then
    { s with
      mode := .rising
      hi := (highestAfter h s.lwI t).1
      hiI := (highestAfter h s.lwI t).2
      out := s.out ++ [⟨t, s.lwI, .low, s.lw⟩] }
  else s

/-- One bar of the loop. A size that is missing or not positive reads no reversal. -/
def step (h lo size : Nat → Option ℚ) (s : State) (t : Nat) : State :=
  match h t, lo t with
  | some ht, some lt =>
      match (size t).filter fun thr => 0 < thr with
      | none => s.track t ht lt
      | some thr => (s.track t ht lt).confirm h lo t ht lt thr
  | _, _ => s

/-- The first bar with both prices. -/
def firstFinite (h lo : Nat → Option ℚ) (n : Nat) : Option Nat :=
  (List.range n).find? fun i => (h i).isSome && (lo i).isSome

/-- `zigzag` over the first `n` bars. -/
def zigzag (h lo size : Nat → Option ℚ) (n : Nat) : List Pivot :=
  match firstFinite h lo n with
  | none => []
  | some start =>
      ((List.range' (start + 1) (n - start - 1)).foldl (step h lo size)
        { hi := (h start).getD 0, hiI := start, lw := (lo start).getD 0, lwI := start }).out

/-! ## The bars of a frame -/

/-- The highs of a frame. -/
def highs (f : Frame) (i : Nat) : Option ℚ := f[i]?.map SwingBar.high

/-- The lows of a frame. -/
def lows (f : Frame) (i : Nat) : Option ℚ := f[i]?.map SwingBar.low

/-- A pivot of `zigzag_pivots` as `zigzag` records it. -/
def ofRaw (p : RawPivot) : Pivot := ⟨p.confirmBar, p.pivotBar, p.kind, p.price⟩

variable {f : Frame} {size : Nat → Option ℚ} {i a k t : Nat}

theorem highs_eq (inside : i < f.length) : highs f i = some (high f i) := by
  unfold highs high
  rw [List.getElem?_eq_getElem inside]
  rfl

theorem lows_eq (inside : i < f.length) : lows f i = some (low f i) := by
  unfold lows low
  rw [List.getElem?_eq_getElem inside]
  rfl

/-! ## The best price after a bar -/

/-- Over bars that all have a price the loop keeps the first with the greatest key. -/
theorem foldl_keepBest {better : ℚ → ℚ → Bool} {column : Nat → Option ℚ} {price key : Nat → ℚ}
    (orders : ∀ i j, better (price i) (price j) = true ↔ key j < key i)
    (filled : ∀ j, a ≤ j → j ≤ a + k → column j = some (price j)) :
    (List.range' a (k + 1)).foldl (keepBest better column) none
      = some (price (argmaxTo key a k), argmaxTo key a k) := by
  induction k with
  | zero =>
    show keepBest better column none a = _
    unfold keepBest
    rw [filled a (le_refl a) (by omega)]
    rfl
  | succ k ih =>
    have last : a + 1 * (k + 1) = a + k + 1 := by omega
    have next : argmaxTo key a (k + 1)
        = if key (argmaxTo key a k) < key (a + k + 1) then a + k + 1 else argmaxTo key a k := rfl
    rw [List.range'_concat, List.foldl_append, ih fun j lower upper => filled j lower (by omega), last, next]
    show keepBest better column _ (a + k + 1) = _
    unfold keepBest
    rw [filled (a + k + 1) (by omega) (by omega)]
    dsimp only
    rw [if_congr (orders (a + k + 1) (argmaxTo key a k)) rfl rfl]
    split <;> rfl

theorem bestAfter_eq {better : ℚ → ℚ → Bool} {column : Nat → Option ℚ} {price key : Nat → ℚ}
    (orders : ∀ i j, better (price i) (price j) = true ↔ key j < key i)
    (filled : ∀ j, j ≤ t → column j = some (price j)) (before : i < t) :
    bestAfter better column i t = (price (argmax key (i + 1) (t + 1)), argmax key (i + 1) (t + 1)) := by
  have steps : t - i = (t - i - 1) + 1 := by omega
  have width : t + 1 - (i + 1) - 1 = t - i - 1 := by omega
  unfold bestAfter argmax
  rw [steps, foldl_keepBest orders fun j _ upper => filled j (by omega), width]
  rfl

theorem lowestAfter_eq (before : i < t) (inside : t < f.length) :
    lowestAfter (lows f) i t = (low f (lowestBar f (i + 1) (t + 1)), lowestBar f (i + 1) (t + 1)) :=
  bestAfter_eq (fun i j => by rw [decide_eq_true_iff, neg_lt_neg_iff])
    (fun _ upper => lows_eq (by omega)) before

theorem highestAfter_eq (before : i < t) (inside : t < f.length) :
    highestAfter (highs f) i t
      = (high f (highestBar f (i + 1) (t + 1)), highestBar f (i + 1) (t + 1)) :=
  bestAfter_eq (fun i j => decide_eq_true_iff) (fun _ upper => highs_eq (by omega)) before

/-! ## The two loops -/

/-- The state of `zigzag_pivots` with the prices of its extremes. -/
def priced (f : Frame) (s : ZigzagState) : State where
  mode := s.trend
  hi := high f s.hi
  hiI := s.hi
  lw := low f s.lo
  lwI := s.lo
  out := s.out.map ofRaw

/-- The size on a bar reads as its threshold. -/
theorem movedBack_eq (positive : ∀ thr ∈ size t, 0 < thr) (move : ℚ) :
    movedBack move (size t) = true ↔ ∃ thr, (size t).filter (fun thr => 0 < thr) = some thr ∧ thr ≤ move := by
  cases isSize : size t with
  | none => simp [movedBack]
  | some thr =>
    have above := positive thr isSize
    simp [movedBack, Option.filter, above]

theorem track_priced (f : Frame) (s : ZigzagState) (t : Nat) :
    (priced f s).track t (high f t) (low f t) = priced f { s with
      hi := if s.trend ≠ .falling ∧ high f s.hi ≤ high f t then t else s.hi
      lo := if s.trend ≠ .rising ∧ low f t ≤ low f s.lo then t else s.lo } := by
  unfold State.track priced
  dsimp only
  congr 1 <;> split <;> rfl

/-- One bar of both loops. -/
theorem step_priced {s : ZigzagState} (positive : ∀ thr ∈ size t, 0 < thr) (inside : t < f.length) :
    step (highs f) (lows f) size (priced f s) t = priced f (zigzagStep f size s t) := by
  unfold step zigzagStep
  rw [highs_eq inside, lows_eq inside]
  dsimp only
  rw [track_priced]
  generalize (if s.trend ≠ .falling ∧ high f s.hi ≤ high f t then t else s.hi) = hi
  generalize (if s.trend ≠ .rising ∧ low f t ≤ low f s.lo then t else s.lo) = lo
  cases read : (size t).filter fun thr => 0 < thr with
  | none =>
    have no (move : ℚ) : ¬ movedBack move (size t) = true := by
      rw [movedBack_eq positive move, read]
      rintro ⟨thr, isThr, -⟩
      cases isThr
    dsimp only
    rw [if_neg fun all => no _ all.2.2, if_neg fun all => no _ all.2.2]
  | some thr =>
    have reads (move : ℚ) : movedBack move (size t) = true ↔ thr ≤ move := by
      rw [movedBack_eq positive move, read]
      constructor
      · rintro ⟨thr', isThr, le⟩
        cases isThr
        exact le
      · exact fun le => ⟨thr, rfl, le⟩
    dsimp only
    unfold State.confirm
    by_cases falls : s.trend ≠ .falling ∧ hi < t ∧ movedBack (high f hi - low f t) (size t) = true
    · have falls' : (priced f { s with hi := hi, lo := lo }).mode ≠ .falling ∧
          (priced f { s with hi := hi, lo := lo }).hiI < t ∧
          thr ≤ (priced f { s with hi := hi, lo := lo }).hi - low f t :=
        ⟨falls.1, falls.2.1, (reads _).mp falls.2.2⟩
      have after := lowestAfter_eq falls.2.1 inside
      rw [if_pos falls, if_pos falls']
      show State.mk _ _ _ (lowestAfter (lows f) hi t).1 (lowestAfter (lows f) hi t).2 _ = _
      rw [after]
      simp [priced, ofRaw]
    · have falls' : ¬ ((priced f { s with hi := hi, lo := lo }).mode ≠ .falling ∧
          (priced f { s with hi := hi, lo := lo }).hiI < t ∧
          thr ≤ (priced f { s with hi := hi, lo := lo }).hi - low f t) :=
        fun all => falls ⟨all.1, all.2.1, (reads _).mpr all.2.2⟩
      rw [if_neg falls, if_neg falls']
      by_cases rises : s.trend ≠ .rising ∧ lo < t ∧ movedBack (high f t - low f lo) (size t) = true
      · have rises' : (priced f { s with hi := hi, lo := lo }).mode ≠ .rising ∧
            (priced f { s with hi := hi, lo := lo }).lwI < t ∧
            thr ≤ high f t - (priced f { s with hi := hi, lo := lo }).lw :=
          ⟨rises.1, rises.2.1, (reads _).mp rises.2.2⟩
        have after := highestAfter_eq rises.2.1 inside
        rw [if_pos rises, if_pos rises']
        show State.mk _ (highestAfter (highs f) lo t).1 (highestAfter (highs f) lo t).2 _ _ _ = _
        rw [after]
        simp [priced, ofRaw]
      · have rises' : ¬ ((priced f { s with hi := hi, lo := lo }).mode ≠ .rising ∧
            (priced f { s with hi := hi, lo := lo }).lwI < t ∧
            thr ≤ high f t - (priced f { s with hi := hi, lo := lo }).lw) :=
          fun all => rises ⟨all.1, all.2.1, (reads _).mpr all.2.2⟩
        rw [if_neg rises, if_neg rises']

/-- The two loops side by side, up to bar `k`. -/
theorem foldl_step (positive : ∀ i < f.length, ∀ thr ∈ size i, 0 < thr) (inside : k < f.length) :
    (List.range' 1 k).foldl (step (highs f) (lows f) size) (priced f {}) = priced f (zigzagLoop f size k) := by
  induction k with
  | zero => rfl
  | succ k ih =>
    rw [List.range'_concat, List.foldl_append, ih (by omega)]
    show step _ _ _ (priced f (zigzagLoop f size k)) (1 + 1 * k) = priced f (zigzagLoop f size (k + 1))
    rw [show 1 + 1 * k = k + 1 by omega, step_priced (positive _ inside) inside]
    rfl

/-- The two lists are one. -/
theorem zigzag_map (size : Nat → Option ℚ) (f : Frame) (positive : ∀ i < f.length, ∀ thr ∈ size i, 0 < thr) :
    zigzag (highs f) (lows f) size f.length = (zigzagPivots f size).map ofRaw := by
  unfold zigzag zigzagPivots
  cases f with
  | nil => rfl
  | cons bar rest =>
    have start : firstFinite (highs (bar :: rest)) (lows (bar :: rest)) (bar :: rest).length = some 0 := by
      unfold firstFinite
      rw [List.length_cons, List.range_succ_eq_map]
      rfl
    rw [start]
    dsimp only
    have looped := foldl_step (k := rest.length) positive (by simp)
    rw [List.length_cons, show rest.length + 1 - 0 - 1 = rest.length by omega]
    refine (congrArg State.out looped).trans ?_
    split
    · rename_i short
      rw [show rest.length = 0 by omega]
      rfl
    · rfl

/-! ## Prefixes -/

theorem zigzagPivots_confirmed (f : Frame) (size : Nat → Option ℚ) :
    ∀ p ∈ zigzagPivots f size, p.pivotBar < p.confirmBar :=
  (zigzagPivots_linked f size).forall_mem fun _ _ confirms => confirms.known

/-- Linked members differ in kind from the one before. -/
theorem isChain_of_linked {previous : Option RawPivot} {ps : List RawPivot}
    (linked : Linked (Confirms f) previous ps) : ps.IsChain fun p q => p.kind ≠ q.kind := by
  induction ps generalizing previous with
  | nil => exact .nil
  | cons p ps ih =>
    cases ps with
    | nil => exact .singleton p
    | cons q ps => exact .cons_cons (linked.2.1.other p rfl) (ih linked.2)

/-- The first `n` bars show the pivots confirmed before bar `n`. -/
theorem zigzagPivots_shorter (f : Frame) (size : Nat → Option ℚ) {n : Nat} (short : n ≤ f.length) :
    zigzagPivots (f.take n) size = (zigzagPivots f size).filter fun p => p.confirmBar < n := by
  by_cases long : 2 ≤ n
  · exact zigzagPivots_take (fun _ _ => rfl) long short
  · have nothing : zigzagPivots (f.take n) size = [] := by
      unfold zigzagPivots
      rw [if_pos (by rw [List.length_take]; omega)]
    have none_ : (zigzagPivots f size).filter (fun p => p.confirmBar < n) = [] := by
      refine List.filter_eq_nil_iff.mpr fun p mem => ?_
      have later := zigzagPivots_confirmed f size p mem
      rw [decide_eq_true_iff]
      omega
    rw [nothing, none_]

/-- What the pivots of the first bars add to is the list of more bars. -/
theorem zigzagLoop_grows (f : Frame) (size : Nat → Option ℚ) (k m : Nat) :
    (zigzagLoop f size k).out <+: (zigzagLoop f size (k + m)).out := by
  induction m with
  | zero => exact ⟨[], List.append_nil _⟩
  | succ m ih =>
    obtain ⟨added, out_eq, -⟩ := zigzagStep_out f size (zigzagLoop f size (k + m)) (k + m + 1)
    refine ih.trans ⟨added, ?_⟩
    exact out_eq.symm

theorem zigzagPivots_grows (f : Frame) (size : Nat → Option ℚ) {n : Nat} (short : n ≤ f.length) :
    ((zigzagPivots f size).filter fun p => p.confirmBar < n) <+: zigzagPivots f size := by
  rw [← zigzagPivots_shorter f size short]
  unfold zigzagPivots
  by_cases long : (f.take n).length < 2
  · rw [if_pos long]
    exact ⟨_, List.nil_append _⟩
  · rw [if_neg long]
    rw [List.length_take] at long ⊢
    have least : min n f.length = n := by omega
    rw [if_neg (by omega), least, zigzagLoop_take (fun _ _ => rfl) short (by omega)]
    have rest : f.length - 1 = (n - 1) + (f.length - n) := by omega
    rw [rest]
    exact zigzagLoop_grows f size (n - 1) (f.length - n)

theorem filter_ofRaw (ps : List RawPivot) (n : Nat) : (ps.map ofRaw).filter (fun p => p.confirmed < n)
    = (ps.filter fun p => p.confirmBar < n).map ofRaw := by
  rw [List.filter_map]
  rfl

/-- The pivots of the contraction screen are those of `zigzag_pivots`; they alternate, are known after
their own bars, and the first bars show those confirmed on them. -/
structure OneZigzag (f : Frame) (size : Nat → Option ℚ) : Prop where
  same : zigzag (highs f) (lows f) size f.length = (zigzagPivots f size).map ofRaw
  alternate : (zigzag (highs f) (lows f) size f.length).IsChain fun p q => p.kind ≠ q.kind
  later : ∀ p ∈ zigzag (highs f) (lows f) size f.length, p.bar < p.confirmed
  shorter : ∀ n ≤ f.length, zigzag (highs (f.take n)) (lows (f.take n)) size n
    = (zigzag (highs f) (lows f) size f.length).filter fun p => p.confirmed < n
  grows : ∀ n ≤ f.length, zigzag (highs (f.take n)) (lows (f.take n)) size n
    <+: zigzag (highs f) (lows f) size f.length

/-- Over bars with prices and sizes that are positive or missing the two zigzags are one. -/
theorem zigzag_one (f : Frame) (size : Nat → Option ℚ)
    (positive : ∀ i < f.length, ∀ thr ∈ size i, 0 < thr) : OneZigzag f size := by
  have shorter {n : Nat} (short : n ≤ f.length) : zigzag (highs (f.take n)) (lows (f.take n)) size n
      = ((zigzagPivots f size).filter fun p => p.confirmBar < n).map ofRaw := by
    have length : (f.take n).length = n := by
      rw [List.length_take]
      omega
    have taken := zigzag_map size (f.take n) fun i inside => positive i (by omega)
    rw [length] at taken
    rw [taken, zigzagPivots_shorter f size short]
  have same := zigzag_map size f positive
  constructor
  · exact same
  · rw [same, List.isChain_map]
    exact isChain_of_linked (zigzagPivots_linked f size)
  · rw [same]
    intro p mem
    obtain ⟨raw, rawMem, rfl⟩ := List.mem_map.mp mem
    exact zigzagPivots_confirmed f size raw rawMem
  · intro n short
    rw [shorter short, same, filter_ofRaw]
  · intro n short
    rw [shorter short, same]
    exact (zigzagPivots_grows f size short).map ofRaw

/-- Three bars, with a reversal of one read on the last. -/
theorem zigzag_one_turn : OneZigzag [⟨0, 1, 10, 11, 9, 10⟩, ⟨1, 2, 10, 13, 10, 12⟩, ⟨2, 3, 12, 12, 10, 10⟩]
    (fun i => if i = 2 then some 1 else none) := by
  refine zigzag_one _ _ fun i inside thr isThr => ?_
  split at isThr
  · cases isThr
    exact one_pos
  · cases isThr

end AdvanceTrading.Vcp
