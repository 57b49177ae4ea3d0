import AdvanceTrading.PriceAction.ZigzagPivots

/-!
# What the fractal mode keeps

A fractal is the extreme of the `r` bars on each side of it and is known `r` bars
later. Making the fractals alternate skips some and inserts, between two of one
kind, the opposite extreme of the bars between them. The pivots alternate like
those of the ZigZag, but a pivot is an extreme of its window only, not of all the
bars since the pivot before it.
-/

namespace AdvanceTrading.PriceAction

open Scan

/-- A fractal of radius `r`: the extreme of the bars from `r` before it to `r` after it. -/
structure Found (f : Frame) (r : Nat) (p : RawPivot) : Prop where
  window : r ≤ p.pivotBar
  confirm : p.confirmBar = p.pivotBar + r
  inside : p.confirmBar < f.length
  price : p.price = priceAt f p.kind p.pivotBar
  extreme : ∀ j, p.pivotBar ≤ j + r → j ≤ p.confirmBar → reach f p.kind j ≤ reach f p.kind p.pivotBar

/-- A pivot of the fractal mode after the one before it. -/
structure FractalFollows (f : Frame) (r : Nat) (previous : Option RawPivot) (p : RawPivot) : Prop where
  other : ∀ q ∈ previous, q.kind ≠ p.kind
  later : fromBar previous ≤ p.pivotBar
  known : p.pivotBar < p.confirmBar
  windows : 2 * r ≤ p.confirmBar
  inside : p.confirmBar < f.length
  price : p.price = priceAt f p.kind p.pivotBar
  extreme : Found f r p ∨
    ∀ j, fromBar previous ≤ j → j + r < p.confirmBar → reach f p.kind j ≤ reach f p.kind p.pivotBar

variable {f : Frame} {r : Nat}

variable {p : RawPivot}

theorem mem_fractalAt {j : Nat} (mem : p ∈ fractalAt f r j) :
    p.pivotBar = j ∧ p.confirmBar = j + r ∧ p.price = priceAt f p.kind j ∧
      (∀ k < r, reach f p.kind (j - r + k) < reach f p.kind j) ∧
      ∀ k < r, reach f p.kind (j + 1 + k) ≤ reach f p.kind j := by
  unfold fractalAt at mem
  obtain high_mem | low_mem := List.mem_append.mp mem
  · split at high_mem
    case isTrue fractal =>
      obtain rfl := List.mem_singleton.mp high_mem
      exact ⟨rfl, rfl, rfl, fractal.1, fractal.2⟩
    case isFalse => cases high_mem
  · split at low_mem
    case isTrue fractal =>
      obtain rfl := List.mem_singleton.mp low_mem
      refine ⟨rfl, rfl, rfl, ?_, ?_⟩
      · intro k bound
        exact neg_lt_neg (fractal.1 k bound)
      · intro k bound
        exact neg_le_neg (fractal.2 k bound)
    case isFalse => cases low_mem

/-- The bars whose window is inside the frame, in order, with the pivots they are. -/
def fractalScan (f : Frame) (r : Nat) : List RawPivot :=
  (List.range' r (f.length - 2 * r)).flatMap (fractalAt f r)

theorem mem_fractalScan (mem : p ∈ fractalScan f r) : Found f r p := by
  obtain ⟨j, ranged, here⟩ := List.mem_flatMap.mp mem
  obtain ⟨lower, upper⟩ := List.mem_range'_1.mp ranged
  obtain ⟨rfl, confirm, price, before, after⟩ := mem_fractalAt here
  refine ⟨lower, confirm, by omega, price, ?_⟩
  intro j left right
  obtain earlier | same | later := lt_trichotomy j p.pivotBar
  · have at_ : p.pivotBar - r + (j + r - p.pivotBar) = j := by omega
    have above := before (j + r - p.pivotBar) (by omega)
    rw [at_] at above
    exact above.le
  · rw [same]
  · have at_ : p.pivotBar + 1 + (j - p.pivotBar - 1) = j := by omega
    have above := after (j - p.pivotBar - 1) (by omega)
    rw [at_] at above
    exact above

/-- The scan is in the order of the sort already. -/
theorem fractalPivots_eq (f : Frame) (r : Nat) : fractalPivots f r = fractalScan f r := by
  apply List.Pairwise.insertionSort_eq
  rw [List.pairwise_flatMap]
  constructor
  · intro j _
    apply List.pairwise_of_forall_mem_list
    intro p p_mem q q_mem
    obtain ⟨p_bar, p_confirm, -⟩ := mem_fractalAt p_mem
    obtain ⟨q_bar, q_confirm, -⟩ := mem_fractalAt q_mem
    exact .inr ⟨by omega, by omega⟩
  · apply (List.pairwise_lt_range' (s := r) (n := f.length - 2 * r)).imp
    intro i j before p p_mem q q_mem
    obtain ⟨-, p_confirm, -⟩ := mem_fractalAt p_mem
    obtain ⟨-, q_confirm, -⟩ := mem_fractalAt q_mem
    exact .inl (by omega)

/-- The inserted pivot is the opposite extreme of the bars between. -/
theorem between_spec {last : RawPivot} (room : last.pivotBar + 1 < p.pivotBar) :
    (between f last p).kind ≠ p.kind ∧ (between f last p).confirmBar = p.confirmBar ∧
      (between f last p).price = priceAt f (between f last p).kind (between f last p).pivotBar ∧
      Greatest (reach f (between f last p).kind) (last.pivotBar + 1) (p.pivotBar - 1)
        (between f last p).pivotBar := by
  have slice : p.pivotBar - 1 + 1 = p.pivotBar := by omega
  cases kind : p.kind with
  | high =>
    have found := argmax_greatest (fun j => -low f j) (show last.pivotBar + 1 ≤ p.pivotBar - 1 by omega)
    rw [slice] at found
    simp only [between, kind]
    exact ⟨by simp, trivial, rfl, found⟩
  | low =>
    have found := argmax_greatest (high f) (show last.pivotBar + 1 ≤ p.pivotBar - 1 by omega)
    rw [slice] at found
    simp only [between, kind]
    exact ⟨by simp, trivial, rfl, found⟩

theorem Found.follows {previous : Option RawPivot} (found : Found f r p) (positive : 0 < r)
    (other : ∀ q ∈ previous, q.kind ≠ p.kind) (later : fromBar previous ≤ p.pivotBar) :
    FractalFollows f r previous p where
  other := other
  later := later
  known := by
    have confirm := found.confirm
    omega
  windows := by
    have confirm := found.confirm
    have window := found.window
    omega
  inside := found.inside
  price := found.price
  extreme := .inl found

/-- An inserted pivot follows the pivot before it. -/
theorem between_follows {last : RawPivot} (found : Found f r p) (same : p.kind = last.kind)
    (room : last.pivotBar + 1 < p.pivotBar) :
    FractalFollows f r (some last) (between f last p) := by
  obtain ⟨other, confirm, price, greatest⟩ := between_spec (f := f) room
  have window := found.window
  have confirmed := found.confirm
  have inside := found.inside
  have upper := greatest.last
  refine ⟨?_, greatest.first, by omega, by omega, by omega, price, .inr ?_⟩
  · rintro q ⟨⟩
    rw [← same]
    exact other.symm
  · intro j lower before
    exact greatest.bound j lower (by omega)

/-- One fractal keeps the pivots linked. -/
theorem alternatingStep_linked {out : List RawPivot} (found : Found f r p) (positive : 0 < r)
    (linked : Linked (FractalFollows f r) none out) :
    Linked (FractalFollows f r) none (alternatingStep f out p) := by
  unfold alternatingStep
  cases newest : out.getLast? with
  | none =>
    refine linked.snoc ?_
    rw [newest]
    exact found.follows positive (by simp) (Nat.zero_le _)
  | some last =>
    dsimp only
    by_cases kinds : p.kind ≠ last.kind
    · rw [if_pos kinds]
      split
      case isTrue beyond_last =>
        refine linked.snoc ?_
        rw [newest]
        exact found.follows positive (by simpa using kinds.symm) beyond_last.1
      case isFalse => exact linked
    · rw [if_neg kinds]
      split
      case isTrue => exact linked
      case isFalse more =>
        have room : last.pivotBar + 1 < p.pivotBar := not_le.mp fun near => more (.inr near)
        obtain ⟨other, -, -, greatest⟩ := between_spec (f := f) room
        have upper := greatest.last
        have middle : Linked (FractalFollows f r) none (out ++ [between f last p]) := by
          refine linked.snoc ?_
          rw [newest]
          exact between_follows found (not_ne_iff.mp kinds) room
        rw [← List.singleton_append, ← List.append_assoc]
        refine middle.snoc ?_
        rw [List.getLast?_concat]
        refine found.follows positive ?_ ?_
        · rintro q ⟨⟩
          exact other
        · show (between f last p).pivotBar + 1 ≤ p.pivotBar
          omega

theorem foldl_alternatingStep_linked {ps out : List RawPivot} (found : ∀ p ∈ ps, Found f r p)
    (positive : 0 < r) (linked : Linked (FractalFollows f r) none out) :
    Linked (FractalFollows f r) none (ps.foldl (alternatingStep f) out) := by
  induction ps generalizing out with
  | nil => exact linked
  | cons p ps ih =>
    exact ih (fun q mem => found q (List.mem_cons_of_mem p mem))
      (alternatingStep_linked (found p List.mem_cons_self) positive linked)

/-- The pivots of the fractal mode follow one another. -/
theorem alternatingFractals_linked (positive : 0 < r) :
    Linked (FractalFollows f r) none (alternatingFractals f r) := by
  unfold alternatingFractals
  rw [fractalPivots_eq]
  exact foldl_alternatingStep_linked (fun p => mem_fractalScan) positive trivial

/-! ## Shorter frames -/

/-- A bar whose window a shorter frame holds is the same fractal there. -/
theorem fractalAt_take {n j : Nat} (inside : j + r < n) :
    fractalAt (f.take n) r j = fractalAt f r j := by
  have highs : IsFractalHigh (f.take n) r j ↔ IsFractalHigh f r j := by
    unfold IsFractalHigh
    rw [high_take (by omega : j < n)]
    refine and_congr (forall₂_congr ?_) (forall₂_congr ?_)
    · intro k bound
      rw [high_take (by omega)]
    · intro k bound
      rw [high_take (by omega)]
  have lows : IsFractalLow (f.take n) r j ↔ IsFractalLow f r j := by
    unfold IsFractalLow
    rw [low_take (by omega : j < n)]
    refine and_congr (forall₂_congr ?_) (forall₂_congr ?_)
    · intro k bound
      rw [low_take (by omega)]
    · intro k bound
      rw [low_take (by omega)]
  unfold fractalAt
  simp only [highs, lows, high_take (by omega : j < n), low_take (by omega : j < n)]

/-- The scan of a frame is the scan of its first `n` bars, then fractals known at `n` or later. -/
theorem fractalScan_split {n : Nat} (short : n ≤ f.length) :
    ∃ rest, fractalScan f r = fractalScan (f.take n) r ++ rest ∧ ∀ p ∈ rest, n ≤ p.confirmBar := by
  have length : (f.take n).length = n := by
    rw [List.length_take]
    omega
  let rest := (List.range' (r + (n - 2 * r)) (f.length - 2 * r - (n - 2 * r))).flatMap (fractalAt f r)
  refine ⟨rest, ?_, ?_⟩
  · have bars : List.range' r (f.length - 2 * r) = List.range' r (n - 2 * r) ++
        List.range' (r + (n - 2 * r)) (f.length - 2 * r - (n - 2 * r)) := by
      rw [List.range'_append_1]
      congr 1
      omega
    have early : (List.range' r (n - 2 * r)).flatMap (fractalAt (f.take n) r) =
        (List.range' r (n - 2 * r)).flatMap (fractalAt f r) := by
      apply List.flatMap_congr
      intro j ranged
      obtain ⟨lower, upper⟩ := List.mem_range'_1.mp ranged
      exact fractalAt_take (by omega)
    unfold fractalScan
    rw [bars, List.flatMap_append, length, early]
  · intro p mem
    obtain ⟨j, ranged, here⟩ := List.mem_flatMap.mp mem
    obtain ⟨lower, upper⟩ := List.mem_range'_1.mp ranged
    obtain ⟨-, confirm, -⟩ := mem_fractalAt here
    omega

theorem between_take {n : Nat} {last : RawPivot} (room : last.pivotBar + 1 < p.pivotBar)
    (inside : p.pivotBar ≤ n) : between (f.take n) last p = between f last p := by
  obtain ⟨-, -, -, greatest⟩ := between_spec (f := f) room
  have upper := greatest.last
  cases kind : p.kind with
  | high =>
    simp only [between, kind] at upper ⊢
    rw [lowestBar_take room inside, low_take (by omega)]
  | low =>
    simp only [between, kind] at upper ⊢
    rw [highestBar_take room inside, high_take (by omega)]

/-- A fractal inside a shorter frame is made to alternate alike there. -/
theorem alternatingStep_take {n : Nat} {out : List RawPivot} (inside : p.pivotBar ≤ n) :
    alternatingStep (f.take n) out p = alternatingStep f out p := by
  unfold alternatingStep
  cases out.getLast? with
  | none => rfl
  | some last =>
    dsimp only
    by_cases near : p.pivotBar ≤ last.pivotBar + 1
    · simp only [near, or_true, if_true]
    · rw [between_take (not_le.mp near) inside]

/-- Every pivot of the fold is known when one of its fractals is. -/
theorem alternatingStep_out (f : Frame) (out : List RawPivot) (p : RawPivot) :
    ∃ added, alternatingStep f out p = out ++ added ∧ ∀ q ∈ added, q.confirmBar = p.confirmBar := by
  have middle : ∀ last, (between f last p).confirmBar = p.confirmBar := by
    intro last
    unfold between
    cases p.kind <;> rfl
  unfold alternatingStep
  split
  · exact ⟨[p], rfl, by simp⟩
  · split
    · split
      · exact ⟨[p], rfl, by simp⟩
      · exact ⟨[], by simp, by simp⟩
    · split
      · exact ⟨[], by simp, by simp⟩
      · exact ⟨[between f _ p, p], rfl, by simp [middle]⟩

theorem foldl_alternatingStep_out (f : Frame) (ps out : List RawPivot) :
    ∃ added, ps.foldl (alternatingStep f) out = out ++ added ∧
      ∀ q ∈ added, ∃ p ∈ ps, q.confirmBar = p.confirmBar := by
  induction ps generalizing out with
  | nil => exact ⟨[], by simp, by simp⟩
  | cons p ps ih =>
    obtain ⟨first, first_eq, first_confirm⟩ := alternatingStep_out f out p
    obtain ⟨added, added_eq, added_confirm⟩ := ih (alternatingStep f out p)
    refine ⟨first ++ added, ?_, ?_⟩
    · rw [List.foldl_cons, added_eq, first_eq, List.append_assoc]
    · intro q mem
      obtain early | late := List.mem_append.mp mem
      · exact ⟨p, List.mem_cons_self, first_confirm q early⟩
      · obtain ⟨source, source_mem, confirm⟩ := added_confirm q late
        exact ⟨source, List.mem_cons_of_mem p source_mem, confirm⟩

/-- A frame cut at bar `n` shows the pivots confirmed before it. -/
theorem alternatingFractals_take {n : Nat} (short : n ≤ f.length) :
    alternatingFractals (f.take n) r =
      (alternatingFractals f r).filter fun p => p.confirmBar < n := by
  have length : (f.take n).length = n := by
    rw [List.length_take]
    omega
  obtain ⟨rest, split, late⟩ := fractalScan_split (r := r) short
  have early : ∀ p ∈ fractalScan (f.take n) r, p.confirmBar < n := by
    intro p mem
    have inside := (mem_fractalScan mem).inside
    omega
  have same : (fractalScan (f.take n) r).foldl (alternatingStep (f.take n)) [] =
      (fractalScan (f.take n) r).foldl (alternatingStep f) [] := by
    apply List.foldl_ext
    intro out p mem
    have confirm := (mem_fractalScan mem).confirm
    have known := early p mem
    exact alternatingStep_take (by omega)
  obtain ⟨shown, shown_eq, shown_confirm⟩ :=
    foldl_alternatingStep_out f (fractalScan (f.take n) r) []
  obtain ⟨added, added_eq, added_confirm⟩ :=
    foldl_alternatingStep_out f rest ((fractalScan (f.take n) r).foldl (alternatingStep f) [])
  have kept : shown.filter (fun p => p.confirmBar < n) = shown := by
    apply List.filter_eq_self.mpr
    intro q mem
    obtain ⟨p, p_mem, confirm⟩ := shown_confirm q mem
    have known := early p p_mem
    simp only [decide_eq_true_eq]
    omega
  have dropped : added.filter (fun p => p.confirmBar < n) = [] := by
    apply List.filter_eq_nil_iff.mpr
    intro q mem
    obtain ⟨p, p_mem, confirm⟩ := added_confirm q mem
    have after := late p p_mem
    simp only [decide_eq_true_eq]
    omega
  rw [List.nil_append] at shown_eq
  unfold alternatingFractals
  rw [fractalPivots_eq, fractalPivots_eq, split, List.foldl_append, added_eq, same, shown_eq,
    List.filter_append, kept, dropped, List.append_nil]

end AdvanceTrading.PriceAction

/-!
# Confirmed swings never move

The pivots of a degree, for every frame, degree and mode: cutting the frame
shows exactly the pivots known by then, and a pivot's place among the others is
settled when it is confirmed. A frame of two bars is left out of the first in the
threshold modes: the guard on the frame's length shows no swing there, though
the second bar may confirm the first.
-/

namespace AdvanceTrading.PriceAction

open Scan

variable {f : Frame} {s : SwingSettings} {degree : Nat} {tf : String}

/-! ## Thresholds read no later bar -/

theorem trueRange_take {n i : Nat} (inside : i < n) : trueRange (f.take n) i = trueRange f i := by
  cases i with
  | zero => simp only [trueRange, high_take inside, low_take inside]
  | succ i => simp only [trueRange, high_take inside, low_take inside, close_take (by omega : i < n)]

theorem atr_take {n i m : Nat} (inside : i < n) : atr (f.take n) m i = atr f m i := by
  have ranges : (List.range m).map (fun k => trueRange (f.take n) (i - k)) =
      (List.range m).map fun k => trueRange f (i - k) := by
    apply List.map_congr_left
    intro k _
    exact trueRange_take (by omega)
  unfold atr
  rw [ranges]

/-- The thresholds of a shorter frame, and the error, are those of the whole. -/
theorem threshold_take (f : Frame) (s : SwingSettings) (degree n : Nat) :
    (∃ e, threshold f s degree = .error e ∧ threshold (f.take n) s degree = .error e) ∨
      ∃ thr thr', threshold f s degree = .ok thr ∧ threshold (f.take n) s degree = .ok thr' ∧
        ∀ i < n, thr' i = thr i := by
  unfold threshold
  split
  · cases s.swingPct[degree]? with
    | none => exact .inl ⟨_, rfl, rfl⟩
    | some pct =>
      refine .inr ⟨_, _, rfl, rfl, ?_⟩
      intro i inside
      rw [close_take inside]
  · cases s.swingAtrMult[degree]? with
    | none => exact .inl ⟨_, rfl, rfl⟩
    | some mult =>
      refine .inr ⟨_, _, rfl, rfl, ?_⟩
      intro i inside
      rw [atr_take inside]

/-- A frame cut at bar `n` shows the raw pivots confirmed before it. -/
theorem rawPivots_take {n : Nat} (three : 3 ≤ n) (short : n ≤ f.length) :
    rawPivots (f.take n) s degree =
      (rawPivots f s degree).map fun raw => raw.filter fun p => p.confirmBar < n := by
  unfold rawPivots
  split
  · cases s.swingFractalR[degree]? with
    | none => rfl
    | some r =>
      cases r with
      | zero => rfl
      | succ r => exact congrArg Except.ok (alternatingFractals_take short)
  · obtain ⟨e, whole, cut⟩ | ⟨thr, thr', whole, cut, same⟩ := threshold_take f s degree n
    · rw [whole, cut]
      rfl
    · rw [whole, cut]
      exact congrArg Except.ok (zigzagPivots_take same (by omega) short)

/-! ## Named pivots -/

/-- The pivot is confirmed before bar `n`. -/
def knownBefore (n : Nat) (p : Pivot) : Bool := p.confirmedIdx.any fun c => c < n

/-- Each pivot is of the other kind and of a later bar than the one before it, and is known
only after its own bar. -/
def Alternates (previous : Option Pivot) (p : Pivot) : Prop :=
  (∀ q ∈ previous, q.kind ≠ p.kind ∧ q.barIdx < p.barIdx) ∧
    ∃ c, p.confirmedIdx = some c ∧ p.barIdx < c

/-- Bar `j` does not go beyond the pivot. -/
def NotBeyond (f : Frame) (p : Pivot) (j : Nat) : Prop :=
  match p.kind with
  | .high => high f j ≤ p.price
  | .low => p.price ≤ low f j

instance (f : Frame) (p : Pivot) (j : Nat) : Decidable (NotBeyond f p j) :=
  match kind : p.kind with
  | .high => decidable_of_iff (high f j ≤ p.price) (by simp [NotBeyond, kind])
  | .low => decidable_of_iff (p.price ≤ low f j) (by simp [NotBeyond, kind])

/-- The pivot's price is its own bar's, and no bar after the previous pivot's bar up to the one
that confirms it goes beyond. -/
def ExtremeSince (f : Frame) (previous : Option Pivot) (p : Pivot) : Prop :=
  p.price = priceAt f p.kind p.barIdx ∧
    ∀ c ∈ p.confirmedIdx, ∀ j ≤ c, (∀ q ∈ previous, q.barIdx < j) → NotBeyond f p j

instance (f : Frame) (previous : Option Pivot) (p : Pivot) : Decidable (ExtremeSince f previous p) :=
  inferInstanceAs (Decidable (_ ∧ _))

/-- The pivot's price is its own bar's, and no bar of its window goes beyond; or it was inserted
and no bar goes beyond it between the previous pivot and the fractal that made it known. -/
def ExtremeAround (f : Frame) (r : Nat) (previous : Option Pivot) (p : Pivot) : Prop :=
  p.price = priceAt f p.kind p.barIdx ∧
    ∀ c ∈ p.confirmedIdx,
      (c = p.barIdx + r ∧ ∀ j ≤ c, p.barIdx ≤ j + r → NotBeyond f p j) ∨
        ∀ j, j + r < c → (∀ q ∈ previous, q.barIdx < j) → NotBeyond f p j

/-- What a mode promises of a pivot's price. -/
def PriceExtreme (f : Frame) (s : SwingSettings) (degree : Nat) (previous : Option Pivot) (p : Pivot) :
    Prop :=
  match s.swingMode with
  | .fractal => ∃ r ∈ s.swingFractalR[degree]?, ExtremeAround f r previous p
  | _ => ExtremeSince f previous p

/-- The mode has a parameter for the degree; a fractal has bars on each side. -/
def SwingSettings.Measures (s : SwingSettings) (degree : Nat) : Prop :=
  match s.swingMode with
  | .fractal => ∃ r ∈ s.swingFractalR[degree]?, 0 < r
  | .pct => degree < s.swingPct.length
  | .atr => degree < s.swingAtrMult.length

theorem notBeyond_named {p : RawPivot} {j : Nat} (price : p.price = priceAt f p.kind p.pivotBar)
    (within : reach f p.kind j ≤ reach f p.kind p.pivotBar) :
    NotBeyond f (p.named f degree tf) j := by
  unfold NotBeyond RawPivot.named
  dsimp only
  cases kind : p.kind with
  | high =>
    rw [price, kind]
    rw [kind] at within
    exact within
  | low =>
    rw [price, kind]
    rw [kind] at within
    exact neg_le_neg_iff.mp within

variable {previous : Option RawPivot}

/-- A bar after the previous pivot's, in raw and in named pivots. -/
theorem fromBar_le {j : Nat} (after : ∀ q ∈ previous.map (RawPivot.named f degree tf), q.barIdx < j) :
    fromBar previous ≤ j := by
  cases previous with
  | none => exact Nat.zero_le j
  | some q => exact after (q.named f degree tf) rfl

theorem alternates_named {p : RawPivot} (other : ∀ q ∈ previous, q.kind ≠ p.kind)
    (later : fromBar previous ≤ p.pivotBar) (known : p.pivotBar < p.confirmBar) :
    Alternates (previous.map (RawPivot.named f degree tf)) (p.named f degree tf) := by
  refine ⟨?_, p.confirmBar, rfl, known⟩
  cases previous with
  | none => simp
  | some q =>
    rintro _ ⟨⟩
    exact ⟨other q rfl, later⟩

theorem Confirms.extremeSince {p : RawPivot} (c : Confirms f previous p) :
    ExtremeSince f (previous.map (RawPivot.named f degree tf)) (p.named f degree tf) := by
  refine ⟨c.price, ?_⟩
  rintro _ ⟨⟩ j upto after
  exact notBeyond_named c.price (c.extreme j (fromBar_le after) upto)

theorem FractalFollows.extremeAround {r : Nat} {p : RawPivot} (c : FractalFollows f r previous p) :
    ExtremeAround f r (previous.map (RawPivot.named f degree tf)) (p.named f degree tf) := by
  refine ⟨c.price, ?_⟩
  rintro _ ⟨⟩
  obtain found | inserted := c.extreme
  · refine .inl ⟨found.confirm, ?_⟩
    intro j upto from_
    exact notBeyond_named c.price (found.extreme j from_ upto)
  · refine .inr ?_
    intro j before after
    exact notBeyond_named c.price (inserted j (fromBar_le after) before)

/-- What the raw pivots of a frame are, in every mode. -/
theorem rawPivots_spec (f : Frame) (s : SwingSettings) (degree : Nat) (tf : String) :
    (∃ e, rawPivots f s degree = .error e ∧ ¬ s.Measures degree) ∨
      ∃ raw, rawPivots f s degree = .ok raw ∧
        (∀ p ∈ raw, p.confirmBar < f.length) ∧
        (s.swingMode = .fractal → ∀ p ∈ raw, 2 ≤ p.confirmBar) ∧
        Linked (fun q p => Alternates (q.map (RawPivot.named f degree tf)) (p.named f degree tf)) none raw ∧
        Linked (fun q p => PriceExtreme f s degree (q.map (RawPivot.named f degree tf))
          (p.named f degree tf)) none raw := by
  have zigzag : ∀ thr, s.swingMode ≠ .fractal →
      (∀ p ∈ zigzagPivots f thr, p.confirmBar < f.length) ∧
        (s.swingMode = .fractal → ∀ p ∈ zigzagPivots f thr, 2 ≤ p.confirmBar) ∧
        Linked (fun q p => Alternates (q.map (RawPivot.named f degree tf)) (p.named f degree tf)) none
          (zigzagPivots f thr) ∧
        Linked (fun q p => PriceExtreme f s degree (q.map (RawPivot.named f degree tf))
          (p.named f degree tf)) none (zigzagPivots f thr) := by
    intro thr mode
    have linked := zigzagPivots_linked f thr
    refine ⟨linked.forall_mem fun q p c => c.inside, fun fractal => absurd fractal mode,
      linked.imp fun q p c => ?_, linked.imp fun q p c => ?_⟩
    · exact alternates_named c.other c.later c.known
    · unfold PriceExtreme
      split
      · contradiction
      · exact c.extremeSince
  unfold rawPivots SwingSettings.Measures threshold
  cases mode : s.swingMode with
  | fractal =>
    dsimp only
    cases radius : s.swingFractalR[degree]? with
    | none => exact .inl ⟨_, rfl, by simp⟩
    | some r =>
      cases r with
      | zero => exact .inl ⟨_, rfl, by simp⟩
      | succ r =>
        have linked := alternatingFractals_linked (f := f) (Nat.succ_pos r)
        refine .inr ⟨_, rfl, linked.forall_mem fun q p c => c.inside,
          fun _ => linked.forall_mem fun q p c => ?_, linked.imp fun q p c => ?_,
          linked.imp fun q p c => ?_⟩
        · have windows := c.windows
          omega
        · exact alternates_named c.other c.later c.known
        · unfold PriceExtreme
          rw [mode]
          exact ⟨r + 1, radius, c.extremeAround⟩
  | pct =>
    dsimp only
    cases found : s.swingPct[degree]? with
    | none => exact .inl ⟨_, rfl, not_lt.mpr (List.getElem?_eq_none_iff.mp found)⟩
    | some pct =>
      have spec := fun thr => zigzag thr (by simp [mode])
      exact .inr ⟨_, rfl, (spec _).1, by simp, (spec _).2.2⟩
  | atr =>
    dsimp only
    cases found : s.swingAtrMult[degree]? with
    | none => exact .inl ⟨_, rfl, not_lt.mpr (List.getElem?_eq_none_iff.mp found)⟩
    | some mult =>
      have spec := fun thr => zigzag thr (by simp [mode])
      exact .inr ⟨_, rfl, (spec _).1, by simp, (spec _).2.2⟩

/-- A pivot confirmed inside a shorter frame has its name there. -/
theorem named_take {n : Nat} {p : RawPivot} (known : p.pivotBar < p.confirmBar)
    (before : p.confirmBar < n) : p.named (f.take n) degree tf = p.named f degree tf := by
  unfold RawPivot.named
  rw [List.getElem?_take_of_lt before, List.getElem?_take_of_lt (known.trans before)]

theorem degreePivots_short (short : f.length < 3) : degreePivots f degree s tf = .ok [] := if_pos short

theorem degreePivots_long (long : 3 ≤ f.length) : degreePivots f degree s tf =
    (rawPivots f s degree).map fun raw => raw.map (RawPivot.named f degree tf) :=
  if_neg (not_lt.mpr long)

/-- A frame cut at bar `n` shows the pivots confirmed before it, named alike. -/
theorem degreePivots_take {n : Nat} {raw : List RawPivot} (long : 3 ≤ f.length)
    (two : n ≠ 2 ∨ ∀ p ∈ raw, 2 ≤ p.confirmBar) (found : rawPivots f s degree = .ok raw)
    (inside : ∀ p ∈ raw, p.confirmBar < f.length) (known : ∀ p ∈ raw, p.pivotBar < p.confirmBar) :
    degreePivots (f.take n) degree s tf =
      .ok ((raw.map (RawPivot.named f degree tf)).filter (knownBefore n)) := by
  have kept : (raw.map (RawPivot.named f degree tf)).filter (knownBefore n) =
      (raw.filter fun p => p.confirmBar < n).map (RawPivot.named f degree tf) := by
    rw [List.filter_map]
    rfl
  rw [kept]
  by_cases few : n < 3
  · have none_known : (raw.filter fun p => p.confirmBar < n) = [] := by
      apply List.filter_eq_nil_iff.mpr
      intro p mem
      have after := known p mem
      simp only [decide_eq_true_eq]
      obtain apart | late := two
      · omega
      · have windows := late p mem
        omega
    rw [none_known, degreePivots_short (by rw [List.length_take]; omega)]
    rfl
  · by_cases cut : n ≤ f.length
    · rw [degreePivots_long (by rw [List.length_take]; omega), rawPivots_take (by omega) cut, found]
      have names : (raw.filter fun p => p.confirmBar < n).map (RawPivot.named (f.take n) degree tf) =
          (raw.filter fun p => p.confirmBar < n).map (RawPivot.named f degree tf) := by
        apply List.map_congr_left
        intro p mem
        obtain ⟨mem, before⟩ := List.mem_filter.mp mem
        exact named_take (known p mem) (of_decide_eq_true before)
      exact congrArg Except.ok names
    · have all_known : (raw.filter fun p => p.confirmBar < n) = raw := by
        apply List.filter_eq_self.mpr
        intro p mem
        have before := inside p mem
        simp only [decide_eq_true_eq]
        omega
      rw [all_known, List.take_of_length_le (by omega), degreePivots_long long, found]
      rfl

/-- The pivots of a degree are raw pivots with their names. -/
theorem degreePivots_spec (f : Frame) (degree : Nat) (s : SwingSettings) (tf : String) :
    (∃ e, degreePivots f degree s tf = .error e ∧ ¬ s.Measures degree) ∨
      ∃ raw : List RawPivot,
        degreePivots f degree s tf = .ok (raw.map (RawPivot.named f degree tf)) ∧
        (∀ n, n ≠ 2 ∨ s.swingMode = .fractal → degreePivots (f.take n) degree s tf =
          .ok ((raw.map (RawPivot.named f degree tf)).filter (knownBefore n))) ∧
        (∀ p ∈ raw, p.confirmBar < f.length) ∧
        Linked Alternates none (raw.map (RawPivot.named f degree tf)) ∧
        Linked (PriceExtreme f s degree) none (raw.map (RawPivot.named f degree tf)) := by
  by_cases short : f.length < 3
  · refine .inr ⟨[], degreePivots_short short, ?_, by simp, trivial, trivial⟩
    intro n _
    exact degreePivots_short (by rw [List.length_take]; omega)
  · have long : 3 ≤ f.length := not_lt.mp short
    rw [degreePivots_long long]
    obtain ⟨e, failed, unmeasured⟩ | ⟨raw, found, inside, windows, alternate, extreme⟩ :=
      rawPivots_spec f s degree tf
    · exact .inl ⟨e, by rw [failed]; rfl, unmeasured⟩
    · refine .inr ⟨raw, by rw [found]; rfl, ?_, inside, linked_map.mpr alternate, linked_map.mpr extreme⟩
      intro n two
      apply degreePivots_take long (two.imp_right windows) found inside
      refine alternate.forall_mem (P := fun p => p.pivotBar < p.confirmBar) ?_
      rintro q p ⟨-, c, confirm, before⟩
      cases confirm
      exact before

/-- The pivots of a degree are settled when they are confirmed. -/
theorem degreePivots_settled (f : Frame) (degree : Nat) (s : SwingSettings) (tf : String) :
    match degreePivots f degree s tf with
    | .error _ => ¬ s.Measures degree
    | .ok pivots =>
      (∀ n, n ≠ 2 ∨ s.swingMode = .fractal →
          degreePivots (f.take n) degree s tf = .ok (pivots.filter (knownBefore n))) ∧
        Linked Alternates none pivots ∧ Linked (PriceExtreme f s degree) none pivots := by
  obtain ⟨e, failed, unmeasured⟩ | ⟨raw, found, cut, -, alternate, extreme⟩ :=
    degreePivots_spec f degree s tf
  · rw [failed]
    exact unmeasured
  · rw [found]
    exact ⟨cut, alternate, extreme⟩

/-- `known_at` the end of a bar gives what the frame cut after that bar shows. -/
theorem knownAt_barEnd {n : Nat} {bar : SwingBar} {pivots : List Pivot}
    (ordered : f.Pairwise fun a b => a.barEnd < b.barEnd)
    (found : degreePivots f degree s tf = .ok pivots) (two : n ≠ 1) (last : f[n]? = some bar) :
    degreePivots (f.take (n + 1)) degree s tf = .ok (knownAt pivots bar.barEnd) := by
  obtain ⟨e, failed, -⟩ | ⟨raw, raw_eq, cut, inside, -, -⟩ := degreePivots_spec f degree s tf
  · rw [failed] at found
    cases found
  rw [raw_eq] at found
  obtain rfl := Except.ok.inj found
  rw [cut (n + 1) (.inl (by omega))]
  congr 1
  apply List.filter_congr
  intro p mem
  obtain ⟨q, q_mem, rfl⟩ := List.mem_map.mp mem
  have confirmed := inside q q_mem
  obtain ⟨here, rfl⟩ := List.getElem?_eq_some_iff.mp last
  have order := List.pairwise_iff_getElem.mp ordered
  simp only [knownBefore, RawPivot.named, List.getElem?_eq_getElem confirmed, Option.map_some,
    Option.any_some, decide_eq_decide]
  constructor
  · intro before
    obtain earlier | same := Nat.lt_or_eq_of_le (Nat.le_of_lt_succ before)
    · exact (order _ _ confirmed here earlier).le
    · simp [same]
  · intro ended
    by_contra after
    exact absurd ended (not_le.mpr (order _ _ here confirmed (by omega)))

/-! ## What the pivots do not promise -/

/-- The default parameters (`pa_settings.py:60-62`), in one of the modes. -/
def defaultSwings (mode : SwingMode) : SwingSettings where
  swingMode := mode
  swingAtrMult := [3 / 2, 3, 6, 12]
  swingPct := [3 / 20, 3 / 10, 3 / 5, 6 / 5]
  swingFractalR := [2, 4, 8, 16]
  atrLen := 14
  atrLen_pos := by decide

/-- Bars of five minutes with these highs and lows, each closing at its low. -/
def fiveMinuteBars (ranges : List (ℚ × ℚ)) : Frame :=
  ranges.zipIdx.map fun ((top, bottom), i) =>
    ⟨i * 300000000, (i + 1) * 300000000, bottom, top, bottom, bottom⟩

/-- The second bar confirms the high of the first. -/
def fallingBars : Frame := fiveMinuteBars [(100, 99), (99, 98), (98, 97)]

/-- Two fractal highs, and between them a low that the bar after the second goes below. -/
def fractalBars : Frame :=
  fiveMinuteBars [(1, 1), (2, 2), (5, 1), (4, 4), (4, 4), (8, 4), (1, 1), (4, 2)]

/-- The pivots of a frame, none where it has no parameters. -/
def pivotsOf (f : Frame) (mode : SwingMode) : List Pivot :=
  (degreePivots f 0 (defaultSwings mode) "5m").toOption.getD []

theorem knownAt_barEnd_fractal : degreePivots (fractalBars.take 6) 0 (defaultSwings .fractal) "5m" =
    .ok (knownAt (pivotsOf fractalBars .fractal) 1800000000) := by
  have last : fractalBars[5]? = some ⟨1500000000, 1800000000, 4, 8, 4, 4⟩ := rfl
  exact knownAt_barEnd (by decide +kernel) rfl (by decide) last

/-- The second bar's pivot is missing from a frame of two bars, and an inserted low is not the
lowest up to the bar that confirms it. -/
theorem confirmed_swings_differ :
    pivotsOf (fallingBars.take 2) .pct ≠ (pivotsOf fallingBars .pct).filter (knownBefore 2) ∧
      ¬ Linked (ExtremeSince fractalBars) none (pivotsOf fractalBars .fractal) := by
  constructor <;> decide +kernel

end AdvanceTrading.PriceAction
