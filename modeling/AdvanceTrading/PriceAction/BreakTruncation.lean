import AdvanceTrading.Misc.Dict
import AdvanceTrading.Misc.Rounding
import AdvanceTrading.PriceAction.RealBreaks

/-!
# A real break on a shorter frame

A search of the first `m` bars finds what the search of more bars finds, if
that is one of the `m` bars. This rests on the failed retests: the search stops
at a candidate that its bars do not decide, so a retest of that candidate must
not be told before the bar that took the candidate back.
-/

namespace AdvanceTrading.Breaks

open PriceAction Columns Earliest

/-- A failed retest comes after its break candidate, and a shorter frame knows the retests of its own bars. -/
structure RetestFn.Causal (fn : RetestFn) : Prop where
  later : ∀ t level side e r, fn t level side e = some r → t < r
  truncated : ∀ t level side e e' r, e ≤ e' → (fn t level side e = some r ↔ fn t level side e' = some r ∧ r ≤ e)

/-- The bar that takes back a break at bar `t` which nothing confirmed before, when the search starts there. -/
def takenBack (f : Frame) (s : Settings) (level : ℚ) (side : Side) (t : Nat) : Option Nat :=
  if timeAccepted f level side s.breakAcceptCloses t t || !candidate f s level side t || displaced f s level side t ||
      s.breakNoReclaimBars == 0 then none
  else
    match followUp f s level side t f.length s.breakNoReclaimBars t with
    | .reclaimed j => some j
    | _ => none

/-- No failed retest is told of a bar before the one that took the break back. -/
def RejectedAfterReclaim (f : Frame) (s : Settings) (retest : Option RetestFn) : Prop :=
  ∀ fn ∈ retest, ∀ level side t j r, takenBack f s level side t = some j →
    fn t level side (f.length - 1) = some r → j ≤ r

section Windows

variable {f : Frame} {s : Settings} {level : ℚ} {side : Side} {start m m' left j i t : Nat}

/-- A later start accepts less by time. -/
theorem timeAccepted_start {start' n : Nat} (later : start ≤ start')
    (accepted : timeAccepted f level side n start' t = true) : timeAccepted f level side n start t = true := by
  simp only [timeAccepted, Bool.and_eq_true, decide_eq_true_eq] at accepted ⊢
  exact ⟨⟨accepted.1.1, by omega⟩, accepted.2⟩

/-- What a verdict says of the bars, as the first `m` of them can tell it. -/
def Verdict.known (m last : Nat) : Verdict → Verdict
  | .undecided => .undecided
  | .confirmed i => if i < m then .confirmed i else .undecided
  | .reclaimed i => if i < m then .reclaimed i else .undecided
  | .held => if last < m then .held else .undecided

/-- The verdicts that name a bar name one of the window. -/
theorem followUp_bounds (inside : j < m) :
    (∀ i, followUp f s level side start m left j = .confirmed i → j < i ∧ i < m) ∧
      (∀ i, followUp f s level side start m left j = .reclaimed i → j < i ∧ i < m) ∧
      (followUp f s level side start m left j = .held → j + left < m) := by
  induction left generalizing j with
  | zero => simp [followUp, inside]
  | succ left ih =>
    unfold followUp
    by_cases ended : m ≤ j + 1
    · simp [ended]
    rw [if_neg ended]
    obtain ⟨confirmed, reclaimed, held⟩ := @ih (j + 1) (by omega)
    refine ⟨fun i found => ?_, fun i found => ?_, fun found => ?_⟩
    · split at found
      · cases found
        omega
      split at found
      · cases found
      split at found
      · cases found
        omega
      have := confirmed i found
      omega
    · split at found
      · cases found
      split at found
      · cases found
        omega
      split at found
      · cases found
      have := reclaimed i found
      omega
    · split at found
      · cases found
      split at found
      · cases found
      split at found
      · cases found
      have := held found
      omega

/-- The first `m` bars give the verdict of more bars, as far as they can tell it. -/
theorem followUp_cut (inside : j < m) (more : m ≤ m') :
    followUp f s level side start m left j = (followUp f s level side start m' left j).known m (j + left) := by
  induction left generalizing j with
  | zero => simp [followUp, Verdict.known, inside]
  | succ left ih =>
    have bounds := @followUp_bounds f s level side start m' (left + 1) j (by omega)
    by_cases ended : m ≤ j + 1
    · have undecided : followUp f s level side start m (left + 1) j = .undecided := by
        unfold followUp
        rw [if_pos ended]
      rw [undecided]
      cases verdict : followUp f s level side start m' (left + 1) j with
      | undecided => rfl
      | confirmed i =>
        have := bounds.1 i verdict
        simp [Verdict.known, show ¬ i < m by omega]
      | reclaimed i =>
        have := bounds.2.1 i verdict
        simp [Verdict.known, show ¬ i < m by omega]
      | held => simp [Verdict.known, show ¬ j + (left + 1) < m by omega]
    · unfold followUp
      rw [if_neg ended, if_neg (by omega : ¬ m' ≤ j + 1), @ih (j + 1) (by omega)]
      have next : j + 1 < m := by omega
      split
      · simp [Verdict.known, next]
      split
      · simp [Verdict.known, next]
      split
      · simp [Verdict.known, next]
      rw [show j + 1 + left = j + (left + 1) by omega]

/-- A break that is taken back is taken back on the same bar when the search starts later. -/
theorem followUp_reclaimed_start {start' : Nat} (later : start ≤ start')
    (found : followUp f s level side start m left j = .reclaimed i) :
    followUp f s level side start' m left j = .reclaimed i := by
  induction left generalizing j with
  | zero => cases found
  | succ left ih =>
    unfold followUp at found ⊢
    split at found
    · cases found
    rename_i inside
    rw [if_neg inside]
    split at found
    · cases found
    rename_i waiting
    have waiting' : timeAccepted f level side s.breakAcceptCloses start' (j + 1) ≠ true :=
      fun accepted => waiting (timeAccepted_start later accepted)
    rw [if_neg waiting']
    split at found
    · rename_i back
      rw [if_pos back]
      exact found
    rename_i outside
    rw [if_neg outside]
    split at found
    · cases found
    rename_i weak
    rw [if_neg weak]
    exact ih found

end Windows

section Scans

variable {f : Frame} {s : Settings} {level : ℚ} {side : Side} {retest : Option RetestFn}
variable {start m m' fuel t : Nat} {best : Option Nat}

theorem scan_over (over_ : m ≤ t) : scan f s level side retest start m fuel t best = best := by
  cases fuel with
  | zero => rfl
  | succ fuel =>
    unfold scan
    rw [if_pos over_]

/-- From bar `m` on a search finds nothing before bar `m`. -/
theorem scan_late (causal : ∀ fn ∈ retest, fn.Causal) (late : m ≤ t) :
    before m (scan f s level side retest start m' fuel t best) = before m best := by
  induction fuel generalizing t best with
  | zero => rfl
  | succ fuel ih =>
    unfold scan
    split
    · rfl
    rename_i inside
    split
    · rfl
    split
    · exact before_earlier_late late best
    split
    · exact ih (by omega)
    split
    · exact before_earlier_late late best
    have bounds := @followUp_bounds f s level side start m' s.breakNoReclaimBars t (by omega)
    split
    · rfl
    · rename_i j verdict
      have := bounds.1 j verdict
      exact before_earlier_late (by omega) best
    · exact before_earlier_late (by omega) best
    · rename_i j verdict
      have := bounds.2.1 j verdict
      rw [ih (by omega)]
      cases asked : retest.bind fun fn => fn t level side (m' - 1) with
      | none => rfl
      | some r =>
        obtain ⟨fn, given, answer⟩ := Option.bind_eq_some_iff.mp asked
        have := (causal fn given).later t level side (m' - 1) r answer
        exact before_earlier_late (by omega) best

/-- The failed retests that the first `m` bars know. -/
theorem retest_before (causal : ∀ fn ∈ retest, fn.Causal) (inside : t < m) (more : m ≤ m') :
    (retest.bind fun fn => fn t level side (m - 1)) = before m (retest.bind fun fn => fn t level side (m' - 1)) := by
  cases retest with
  | none => rfl
  | some fn =>
    have truncated := (causal fn rfl).truncated t level side (m - 1) (m' - 1)
    apply Option.ext
    intro r
    rw [Option.bind_some, Option.bind_some, before_eq_some, truncated r (by omega)]
    exact and_congr_right fun _ => by omega

/-- A candidate of a search from `start` that bar `j` takes back is one of a search of the whole frame from itself. -/
theorem takenBack_of_followUp {j : Nat} (upto : start ≤ t) (inside : t < m) (whole : m ≤ f.length)
    (waiting : timeAccepted f level side s.breakAcceptCloses start t ≠ true)
    (breaks : candidate f s level side t = true)
    (weak : ¬(displaced f s level side t ∨ s.breakNoReclaimBars = 0))
    (verdict : followUp f s level side start m s.breakNoReclaimBars t = .reclaimed j) :
    takenBack f s level side t = some j := by
  have cut := @followUp_cut f s level side start m f.length s.breakNoReclaimBars t inside whole
  have full : followUp f s level side start f.length s.breakNoReclaimBars t = .reclaimed j := by
    rw [verdict] at cut
    cases verdict' : followUp f s level side start f.length s.breakNoReclaimBars t <;>
      simp only [verdict', Verdict.known] at cut
    all_goals (try split at cut) <;> first | exact cut.symm | cases cut
  have own : timeAccepted f level side s.breakAcceptCloses t t = false := by
    rw [Bool.eq_false_iff]
    exact fun accepted => waiting (timeAccepted_start upto accepted)
  rw [not_or, Bool.not_eq_true] at weak
  unfold takenBack
  rw [followUp_reclaimed_start upto full]
  simp [own, breaks, weak.1, weak.2]

/-- The search of the first `m` bars knows of the search of more bars what lies before bar `m`. -/
theorem scan_before (causal : ∀ fn ∈ retest, fn.Causal) (after : RejectedAfterReclaim f s retest) (more : m ≤ m')
    (whole : m' ≤ f.length) {fuel' : Nat} (enough : m ≤ t + fuel) (enough' : m' ≤ t + fuel') (upto : start ≤ t) :
    scan f s level side retest start m fuel t (before m best) =
      before m (scan f s level side retest start m' fuel' t best) := by
  induction fuel' generalizing t best fuel with
  | zero => exact scan_over (by omega)
  | succ fuel' ih =>
    by_cases ended : m ≤ t
    · rw [scan_over ended, scan_late causal ended]
    obtain ⟨fuel, rfl⟩ : ∃ k, fuel = k + 1 := ⟨fuel - 1, by omega⟩
    unfold scan
    rw [if_neg ended, if_neg (by omega : ¬ m' ≤ t), any_before t (by omega)]
    by_cases passed : (best.any fun r => r < t) = true
    · rw [if_pos passed, if_pos passed]
    rw [if_neg passed, if_neg passed]
    split
    · rw [before_earlier_soon (by omega)]
    rename_i waiting
    split
    · exact ih (by omega) (by omega) (by omega)
    rename_i breaks
    split
    · rw [before_earlier_soon (by omega)]
    rename_i weak
    have cut := @followUp_cut f s level side start m m' s.breakNoReclaimBars t (by omega) more
    have bounds := @followUp_bounds f s level side start m' s.breakNoReclaimBars t (by omega)
    cases verdict : followUp f s level side start m' s.breakNoReclaimBars t with
    | undecided =>
      rw [verdict] at cut
      rw [cut]
      rfl
    | confirmed j =>
      rw [verdict] at cut
      by_cases seen : j < m
      · rw [cut, Verdict.known, if_pos seen, before_earlier_soon seen]
      · rw [cut, Verdict.known, if_neg seen, before_earlier_late (by omega)]
    | held =>
      rw [verdict] at cut
      by_cases seen : t + s.breakNoReclaimBars < m
      · rw [cut, Verdict.known, if_pos seen, before_earlier_soon seen]
      · rw [cut, Verdict.known, if_neg seen, before_earlier_late (by omega)]
    | reclaimed j =>
      rw [verdict] at cut
      have later := bounds.2.1 j verdict
      by_cases seen : j < m
      · rw [cut, Verdict.known, if_pos seen]
        simp only
        rw [retest_before causal (by omega) more, ← before_earlier]
        exact ih (by omega) (by omega) (by omega)
      · -- the shorter frame stops at this candidate: what its retest says must lie past bar `j`
        rw [cut, Verdict.known, if_neg seen]
        simp only
        rw [scan_late causal (by omega)]
        cases asked : retest.bind fun fn => fn t level side (m' - 1) with
        | none => rfl
        | some r =>
          obtain ⟨fn, given, answer⟩ := Option.bind_eq_some_iff.mp asked
          have back : takenBack f s level side t = some j :=
            takenBack_of_followUp upto (by omega) whole waiting (by simpa using breaks) weak verdict
          have told : fn t level side (f.length - 1) = some r :=
            (((causal fn given).truncated t level side (m' - 1) (f.length - 1) r (by omega)).mp answer).1
          have := after fn given level side t j r back told
          rw [before_earlier_late (by omega)]

end Scans

section Breaks

variable {f : Frame} {s : Settings} {retest : Option RetestFn}

theorem upTo_le (f : Frame) (end_ : Int) : upTo f end_ ≤ f.length := Nat.min_le_right _ _

theorem lt_upTo {end_ : Int} {r : Nat} : r < upTo f end_ ↔ (r : Int) ≤ end_ ∧ r < f.length := by
  unfold upTo
  omega

section

variable (causal : ∀ fn ∈ retest, fn.Causal) (after : RejectedAfterReclaim f s retest)
include causal after

/-- `first_real_break` up to a bar, from what it finds up to a later bar. -/
theorem firstRealBreak_before
    (level : ℚ) (side : Side) (start : Int) {end_ end' : Int} (upto : end_ ≤ end') :
    firstRealBreak f s level side retest start end_ =
      before (upTo f end_) (firstRealBreak f s level side retest start end') := by
  have more : upTo f end_ ≤ upTo f end' := by
    unfold upTo
    omega
  have cut : scan f s level side retest start.toNat (upTo f end_) (upTo f end_) start.toNat
      (before (upTo f end_) none) =
      before (upTo f end_) (scan f s level side retest start.toNat (upTo f end') (upTo f end') start.toNat none) :=
    scan_before causal after more (upTo_le f end') (by omega) (by omega) le_rfl
  exact cut

/-- A break is found among the bars that may be read. -/
theorem firstRealBreak_bound {level : ℚ} {side : Side} {start end_ : Int} {r : Nat}
    (found : firstRealBreak f s level side retest start end_ = some r) :
    (r : Int) ≤ end_ ∧ r < f.length := by
  rw [firstRealBreak_before causal after level side start (le_refl end_)] at found
  exact lt_upTo.mp (before_eq_some.mp found).2

/-- Where no retest is told too early, a break found by bar `end` is the one found later, if that is by bar `end`. -/
theorem firstRealBreak_truncated (level : ℚ) (side : Side) (start : Int) {end_ end' : Int}
    (upto : end_ ≤ end') (r : Nat) :
    firstRealBreak f s level side retest start end_ = some r ↔
      firstRealBreak f s level side retest start end' = some r ∧ (r : Int) ≤ end_ := by
  rw [firstRealBreak_before causal after level side start upto, before_eq_some]
  constructor
  · intro ⟨found, inside⟩
    exact ⟨found, (lt_upTo.mp inside).1⟩
  · intro ⟨found, inside⟩
    exact ⟨found, lt_upTo.mpr ⟨inside, (firstRealBreak_bound causal after found).2⟩⟩

end

/-- The bar that takes a break back is a later one of the frame. -/
theorem takenBack_bounds {level : ℚ} {side : Side} {t j : Nat}
    (back : takenBack f s level side t = some j) : t < j ∧ j < f.length := by
  unfold takenBack at back
  split at back
  · cases back
  rename_i open_
  split at back
  · rename_i i verdict
    cases back
    have inside : t < f.length := by
      by_contra outside
      obtain ⟨k, more⟩ : ∃ k, s.breakNoReclaimBars = k + 1 := ⟨s.breakNoReclaimBars - 1, by
        simp at open_
        omega⟩
      have ended : followUp f s level side t f.length s.breakNoReclaimBars t = .undecided := by
        rw [more]
        unfold followUp
        rw [if_pos (by omega)]
      rw [ended] at verdict
      cases verdict
    exact (followUp_bounds inside).2.1 j verdict
  · cases back

/-- A search that starts at a break which bar `j` takes back finds its retest, if that is told of a bar before `j`. -/
theorem firstRealBreak_of_early {fn : RetestFn} {level : ℚ} {side : Side} {t j r : Nat}
    (back : takenBack f s level side t = some j) (told : fn t level side (f.length - 1) = some r) (early : r < j) :
    firstRealBreak f s level side (some fn) t (f.length - 1 : Nat) = some r ∧
      firstRealBreak f s level side (some fn) t (j - 1 : Nat) = none := by
  have bounds := takenBack_bounds back
  unfold takenBack at back
  split at back
  · cases back
  rename_i open_
  simp only [Bool.or_eq_true, not_or, Bool.not_eq_true, beq_iff_eq, Bool.not_eq_false'] at open_
  obtain ⟨⟨⟨waiting, breaks⟩, weak⟩, several⟩ := open_
  split at back
  · rename_i i verdict
    cases back
    have weak' : ¬(displaced f s level side t = true ∨ s.breakNoReclaimBars = 0) := by simp [weak, several]
    have whole : upTo f ((f.length - 1 : Nat) : Int) = f.length := by
      unfold upTo
      omega
    have short : upTo f ((j - 1 : Nat) : Int) = j := by
      unfold upTo
      omega
    refine ⟨?_, ?_⟩
    · unfold firstRealBreak
      rw [whole, Int.toNat_natCast]
      obtain ⟨k, more⟩ : ∃ k, f.length = k + 1 := ⟨f.length - 1, by omega⟩
      have turn : scan f s level side (some fn) t f.length (k + 1) t none =
          scan f s level side (some fn) t f.length k (j + 1) (some r) := by
        conv_lhs => unfold scan
        rw [if_neg (by omega)]
        simp only [Option.any_none, Bool.false_eq_true, if_false, waiting, breaks, Bool.not_true, weak', verdict,
          Option.bind_some, told, earlier_none_right]
      rw [show scan f s level side (some fn) t f.length f.length t none =
        scan f s level side (some fn) t f.length (k + 1) t none by rw [← more], turn]
      cases k with
      | zero => rfl
      | succ k =>
        unfold scan
        split
        · rfl
        rw [if_pos (by simp; omega)]
    · unfold firstRealBreak
      rw [short, Int.toNat_natCast]
      have cut := @followUp_cut f s level side t j f.length s.breakNoReclaimBars t bounds.1 (by omega)
      rw [verdict, Verdict.known, if_neg (by omega)] at cut
      obtain ⟨k, more⟩ : ∃ k, j = k + 1 := ⟨j - 1, by omega⟩
      rw [show scan f s level side (some fn) t j j t none = scan f s level side (some fn) t j (k + 1) t none by
        rw [← more]]
      unfold scan
      rw [if_neg (by omega)]
      simp only [Option.any_none, Bool.false_eq_true, if_false, waiting, breaks, Bool.not_true, weak', cut]
  · cases back

/-- The wick breaks of a shorter frame. -/
theorem firstWickBreak_truncated (f : Frame) (level : ℚ) (side : Side) (start : Int) {end_ end' : Int}
    (upto : end_ ≤ end') :
    firstWickBreak f level side start end_ = before (upTo f end_) (firstWickBreak f level side start end') := by
  have more : upTo f end_ ≤ upTo f end' := by
    unfold upTo
    omega
  exact find_before _ start.toNat more

end Breaks

end AdvanceTrading.Breaks

/-!
# The cache of break bars

Model of `BreakCache` (`app/price_action/breaks.py:139-172`): a break that was
found is kept, with the highest bar up to which none was found. A key has the
level rounded to six places.
-/

namespace AdvanceTrading.Breaks

open PriceAction Earliest

/-- A question for a break of a level by bar `tIdx`. -/
structure Query where
  start : Int
  level : ℚ
  side : Side
  tIdx : Int
  deriving DecidableEq

/-- The key of a question (the basis is the cache's own). -/
abbrev Key := Int × ℚ × Side

def Query.key (q : Query) : Key := (q.start, Py.roundTo 6 q.level, q.side)

/-- `BreakCache`: the breaks found, and the highest bar of a search that found none. -/
structure BreakCache where
  found : Dict Key Nat := []
  clear : Dict Key Int := []

section Cache

variable (f : Frame) (s : Settings) (retest : Option RetestFn)

/-- The search behind a question, without the cache. -/
def Query.direct (q : Query) : Option Nat :=
  match s.countInvBasis with
  | .wick => firstWickBreak f q.level q.side q.start q.tIdx
  | .realBreak => firstRealBreak f s q.level q.side retest q.start q.tIdx

/-- `confirm_index`: the answer and the cache after it. -/
def confirmIndex (cache : BreakCache) (q : Query) : Option Nat × BreakCache :=
  match Dict.get q.key cache.found with
  | some found => (if (found : Int) ≤ q.tIdx then some found else none, cache)
  | none =>
      if q.tIdx ≤ (Dict.get q.key cache.clear).getD (-1) then (none, cache)
      else
        match q.direct f s retest with
        | none => (none, { cache with clear := Dict.set q.key q.tIdx cache.clear })
        | some found =>
            (if (found : Int) ≤ q.tIdx then some found else none,
              { cache with found := Dict.set q.key found cache.found })

/-- The answers to questions in their order. -/
def answers (cache : BreakCache) : List Query → List (Option Nat)
  | [] => []
  | q :: qs => (confirmIndex f s retest cache q).1 :: answers (confirmIndex f s retest cache q).2 qs

/-- The levels of the questions are the same or more than 1e-6 apart. -/
def LevelsApart (qs : List Query) : Prop :=
  ∀ p ∈ qs, ∀ q ∈ qs, p.level ≠ q.level → 1 / 10 ^ 6 < |p.level - q.level|

end Cache

/-- Levels with one rounding are at most 1e-6 apart. -/
theorem roundTo_near {x y : ℚ} (same : Py.roundTo 6 x = Py.roundTo 6 y) : |x - y| ≤ 1 / 10 ^ 6 := by
  have rounds : (Py.roundHalfEven (x * 10 ^ 6) : ℚ) = Py.roundHalfEven (y * 10 ^ 6) :=
    (div_left_inj' (by norm_num)).mp same
  have near := abs_le.mp (Py.abs_sub_roundHalfEven_le (x * 10 ^ 6))
  have near' := abs_le.mp (Py.abs_sub_roundHalfEven_le (y * 10 ^ 6))
  rw [rounds] at near
  rw [abs_le]
  constructor <;> linarith [near.1, near.2, near'.1, near'.2]

section Exact

variable {f : Frame} {s : Settings} {retest : Option RetestFn}

/-- The cache knows the searches behind the questions: a break that it keeps is the one of every search up to it or
later, and no search up to the bar that it keeps finds one. -/
structure BreakCache.Exact (f : Frame) (s : Settings) (retest : Option RetestFn) (qs : List Query)
    (cache : BreakCache) :
    Prop where
  found : ∀ q ∈ qs, ∀ r, Dict.get q.key cache.found = some r →
    q.direct f s retest = if (r : Int) ≤ q.tIdx then some r else none
  clear : ∀ q ∈ qs, ∀ t, Dict.get q.key cache.clear = some t → q.tIdx ≤ t → q.direct f s retest = none

/-- A search and one with the same key ask for the same break. -/
theorem LevelsApart.same {qs : List Query} (apart : LevelsApart qs) {p q : Query} (mp : p ∈ qs) (mq : q ∈ qs)
    (key : p.key = q.key) : p.start = q.start ∧ p.level = q.level ∧ p.side = q.side := by
  simp only [Query.key, Prod.mk.injEq] at key
  refine ⟨key.1, ?_, key.2.2⟩
  by_contra differ
  have := apart p mp q mq differ
  have := roundTo_near key.2.1
  linarith

variable (causal : ∀ fn ∈ retest, fn.Causal) (after : RejectedAfterReclaim f s retest)
include causal after

/-- The search up to an earlier bar, of either basis. -/
theorem Query.direct_truncated {p q : Query} (start : p.start = q.start) (level : p.level = q.level)
    (side : p.side = q.side) (upto : p.tIdx ≤ q.tIdx) :
    p.direct f s retest = before (upTo f p.tIdx) (q.direct f s retest) := by
  unfold Query.direct
  rw [start, level, side]
  cases s.countInvBasis with
  | realBreak => exact firstRealBreak_before causal after q.level q.side q.start upto
  | wick => exact firstWickBreak_truncated f q.level q.side q.start upto

/-- What the search finds is found of the bars it may read. -/
theorem Query.direct_bound {q : Query} {r : Nat} (found : q.direct f s retest = some r) :
    (r : Int) ≤ q.tIdx ∧ r < f.length := by
  rw [q.direct_truncated causal after rfl rfl rfl le_rfl] at found
  exact lt_upTo.mp (before_eq_some.mp found).2

/-- A search of no bar finds none. -/
theorem Query.direct_of_neg {q : Query} (outside : q.tIdx ≤ -1) : q.direct f s retest = none := by
  cases found : q.direct f s retest with
  | none => rfl
  | some r =>
    have := (q.direct_bound causal after found).1
    omega

/-- One question: the answer is the direct search's, and the cache stays exact. -/
theorem confirmIndex_exact {qs : List Query} (apart : LevelsApart qs) {cache : BreakCache}
    (exact_ : cache.Exact f s retest qs) {q : Query} (mem : q ∈ qs) :
    (confirmIndex f s retest cache q).1 = q.direct f s retest ∧
      (confirmIndex f s retest cache q).2.Exact f s retest qs := by
  unfold confirmIndex
  split
  · rename_i r kept
    exact ⟨(exact_.found q mem r kept).symm, exact_⟩
  split
  · rename_i absent passed
    refine ⟨?_, exact_⟩
    cases kept : Dict.get q.key cache.clear with
    | none =>
      rw [kept] at passed
      exact (q.direct_of_neg causal after passed).symm
    | some t =>
      rw [kept] at passed
      exact (exact_.clear q mem t kept passed).symm
  split
  · rename_i none_
    refine ⟨none_.symm, ⟨exact_.found, ?_⟩⟩
    intro p mp t kept upto
    by_cases key : p.key = q.key
    · rw [key, Dict.get_set_self] at kept
      cases kept
      obtain ⟨start, level, side⟩ := apart.same mp mem key
      rw [Query.direct_truncated causal after start level side upto, none_, before_none]
    · rw [Dict.get_set_of_ne _ _ key] at kept
      exact exact_.clear p mp t kept upto
  · rename_i r some_
    have bound := q.direct_bound causal after some_
    refine ⟨by rw [if_pos bound.1, some_], ⟨?_, exact_.clear⟩⟩
    intro p mp r' kept
    by_cases key : p.key = q.key
    · rw [key, Dict.get_set_self] at kept
      cases kept
      obtain ⟨start, level, side⟩ := apart.same mp mem key
      rcases le_total p.tIdx q.tIdx with upto | upto
      · rw [Query.direct_truncated causal after start level side upto, some_, before_some]
        by_cases inside : (r : Int) ≤ p.tIdx
        · rw [if_pos inside, if_pos (lt_upTo.mpr ⟨inside, bound.2⟩)]
        · rw [if_neg inside, if_neg fun lt => inside (lt_upTo.mp lt).1]
      · have known := Query.direct_truncated causal after start.symm level.symm side.symm upto
        rw [some_, eq_comm, before_eq_some] at known
        rw [known.1, if_pos (by omega)]
    · rw [Dict.get_set_of_ne _ _ key] at kept
      exact exact_.found p mp r' kept

theorem answers_exact {all : List Query} (apart : LevelsApart all) {qs : List Query}
    (asked : ∀ q ∈ qs, q ∈ all) {cache : BreakCache} (exact_ : cache.Exact f s retest all) :
    answers f s retest cache qs = qs.map fun q => q.direct f s retest := by
  induction qs generalizing cache with
  | nil => rfl
  | cons q qs ih =>
    obtain ⟨answer, next⟩ := confirmIndex_exact causal after apart exact_ (asked q List.mem_cons_self)
    rw [answers, List.map_cons, answer, ih (fun p mem => asked p (List.mem_cons_of_mem q mem)) next]

end Exact

/-- What a search up to a bar finds is what a search up to any later bar finds, if that is by the bar. -/
def TruncationInvariant (f : Frame) (s : Settings) (retest : Option RetestFn) : Prop :=
  ∀ level side start end_ end' r, end_ ≤ end' →
    (firstRealBreak f s level side retest start end_ = some r ↔
      firstRealBreak f s level side retest start end' = some r ∧ (r : Int) ≤ end_)

/-- Questions in any order are answered as the searches behind them would. -/
def CacheExact (f : Frame) (s : Settings) (retest : Option RetestFn) : Prop :=
  ∀ qs, LevelsApart qs → answers f s retest {} qs = qs.map fun q => q.direct f s retest

/-- Real breaks are truncation invariant, and the cache is exact, exactly when no failed retest is told of a bar before
the one that took its break back. -/
theorem truncationInvariant_and_cacheExact_iff (f : Frame) (s : Settings) (retest : Option RetestFn)
    (causal : ∀ fn ∈ retest, fn.Causal) :
    TruncationInvariant f s retest ∧ CacheExact f s retest ↔ RejectedAfterReclaim f s retest := by
  constructor
  · intro ⟨truncated, _⟩ fn given level side t j r back told
    by_contra early
    have : retest = some fn := given
    subst this
    obtain ⟨whole, short⟩ := firstRealBreak_of_early back told (by omega)
    have within := takenBack_bounds back
    have known := (truncated level side t (j - 1 : Nat) (f.length - 1 : Nat) r (by omega)).mpr ⟨whole, by omega⟩
    rw [short] at known
    cases known
  · intro after
    refine ⟨fun level side start end_ end' r upto => firstRealBreak_truncated causal after level side start upto r, ?_⟩
    intro qs apart
    have empty : BreakCache.Exact f s retest qs {} := {
      found := fun q mem r kept => by cases kept
      clear := fun q mem t kept => by cases kept }
    exact answers_exact causal after apart (fun q mem => mem) empty

/-- A level of 100, closed through at bar 2 and taken back at bar 5. -/
def flickerBars : Frame :=
  [⟨0, 1, 101, 102, 100, 101⟩, ⟨1, 2, 101, 102, 100, 101⟩, ⟨2, 3, 101, 101, 98, 98⟩, ⟨3, 4, 99, 100, 98, 98⟩,
    ⟨4, 5, 98, 99, 97, 98⟩, ⟨5, 6, 98, 102, 98, 101⟩]

/-- Three closes accept a break; a strong bar alone does not. -/
def threeCloses : Settings := { medianRangeN := 2, breakDisplacementConfirm := false, breakNoReclaimBars := 3 }

/-- A retest of the break at bar 2 that is rejected on bar 3. -/
def rejectedAtOnce : RetestFn := fun t _ _ end_ => if t = 2 ∧ 3 ≤ end_ then some 3 else none

theorem rejectedAtOnce_causal : rejectedAtOnce.Causal where
  later := by
    intro t level side e r told
    unfold rejectedAtOnce at told
    grind
  truncated := by
    intro t level side e e' r upto
    unfold rejectedAtOnce
    grind

/-- The rejection on bar 3 is told only once bar 5 has taken the break back. -/
theorem rejectedAtOnce_told_late :
    rejectedAtOnce.Causal ∧
      ¬(firstRealBreak flickerBars threeCloses 100 .below (some rejectedAtOnce) 0 4 = some 3 ↔
        firstRealBreak flickerBars threeCloses 100 .below (some rejectedAtOnce) 0 5 = some 3 ∧ (3 : Int) ≤ 4) :=
  ⟨rejectedAtOnce_causal, by decide +kernel⟩

theorem truncationInvariant_and_cacheExact_iff_rejectedAtOnce :
    ¬(TruncationInvariant flickerBars threeCloses (some rejectedAtOnce) ∧
      CacheExact flickerBars threeCloses (some rejectedAtOnce)) := by
  rw [truncationInvariant_and_cacheExact_iff flickerBars threeCloses (some rejectedAtOnce)
    fun fn given => Option.some.inj given ▸ rejectedAtOnce_causal]
  intro after
  have back : takenBack flickerBars threeCloses 100 .below 2 = some 5 := by decide +kernel
  have := after rejectedAtOnce rfl 100 .below 2 5 3 back rfl
  omega

end AdvanceTrading.Breaks
