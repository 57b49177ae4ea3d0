import Mathlib.Algebra.BigOperators.Group.List.Basic
import Mathlib.Data.List.Induction
import Mathlib.Tactic.Linarith

/-!
# Amounts from a cumulative figure

A counter that starts from zero in every session is read from time to time, and an
amount is what a reading adds to the one before it; a figure that went back starts
from zero. The amounts of a session never add up to more than its last figure, and
an amount after another of its session is the difference of the two figures.
Nothing here knows what is counted.
-/

namespace AdvanceTrading.Cumulative

/-- A reading: its session, and the first and last figure seen for it. -/
structure Reading where
  session : ℤ
  first : ℤ
  last : ℤ

/-- What the figure is compared with: the last one before, or the first of the reading where there is none. -/
def base (before : Option ℤ) (r : Reading) : ℤ :=
  match before with
  | none => r.first
  | some b => if r.last < b then 0 else b

def amount (before : Option ℤ) (r : Reading) : ℤ := max 0 (r.last - base before r)

/-- The amounts of some readings, each after the one before it. -/
def amounts : Option ℤ → List Reading → List ℤ
  | _, [] => []
  | before, r :: rs => amount before r :: amounts (some r.last) rs

/-- The last figure of some readings. -/
def lastFigure (rs : List Reading) : Option ℤ := rs.getLast?.map Reading.last

/-- The amounts of one session, added up. -/
def total (session : ℤ) (rs : List Reading) : ℤ :=
  (((rs.zip (amounts none rs)).filter fun p => p.1.session = session).map Prod.snd).sum

/-- Readings in the order of their sessions, of a counter that does not fall within one. -/
structure Counts (rs : List Reading) : Prop where
  nonneg : ∀ r ∈ rs, 0 ≤ r.first ∧ 0 ≤ r.last
  ordered : rs.Pairwise fun r r' => r.session < r'.session ∨ r.session = r'.session ∧ r.last ≤ r'.last

variable {rs : List Reading} {r : Reading} {session : ℤ}

@[simp] theorem lastFigure_snoc (rs : List Reading) (r : Reading) : lastFigure (rs ++ [r]) = some r.last := by
  simp [lastFigure]

theorem length_amounts (before : Option ℤ) (rs : List Reading) : (amounts before rs).length = rs.length := by
  induction rs generalizing before with
  | nil => rfl
  | cons r rs ih => simp [amounts, ih]

theorem amounts_append (before : Option ℤ) (rs ts : List Reading) :
    amounts before (rs ++ ts) = amounts before rs ++ amounts ((lastFigure rs).or before) ts := by
  induction rs generalizing before with
  | nil => rfl
  | cons q rs ih =>
    have last : (lastFigure (q :: rs)).or before = (lastFigure rs).or (some q.last) := by
      cases isLast : rs.getLast? <;> simp [lastFigure, List.getLast?_cons, isLast]
    simp only [List.cons_append, amounts, ih, last]

theorem amounts_snoc (rs : List Reading) (r : Reading) :
    amounts none (rs ++ [r]) = amounts none rs ++ [amount (lastFigure rs) r] := by
  rw [amounts_append, Option.or_none]
  rfl

theorem total_snoc (session : ℤ) (rs : List Reading) (r : Reading) :
    total session (rs ++ [r]) = total session rs + if r.session = session then amount (lastFigure rs) r else 0 := by
  have same : rs.length = (amounts none rs).length := (length_amounts none rs).symm
  unfold total
  rw [amounts_snoc, List.zip_append same, List.filter_append, List.map_append, List.sum_append]
  by_cases own : r.session = session <;> simp [own]

section

variable (counts : Counts (rs ++ [r]))
include counts

theorem Counts.initial : Counts rs where
  nonneg := fun q mem => counts.nonneg q (List.mem_append_left _ mem)
  ordered := (List.pairwise_append.mp counts.ordered).1

theorem Counts.upTo {q : Reading} (mem : q ∈ rs) :
    q.session < r.session ∨ q.session = r.session ∧ q.last ≤ r.last :=
  (List.pairwise_append.mp counts.ordered).2.2 q mem r (List.mem_singleton_self r)

omit counts in
/-- No amount was read in a session that has not begun. -/
theorem total_eq_zero (none_ : ∀ r ∈ rs, r.session ≠ session) : total session rs = 0 := by
  induction rs using List.reverseRecOn with
  | nil => rfl
  | append_singleton rs r ih =>
    rw [total_snoc, if_neg (none_ r (List.mem_append_right _ (List.mem_singleton_self r))),
      ih fun q mem => none_ q (List.mem_append_left _ mem), add_zero]

/-- After a reading, its session has come to no more than its last figure. -/
theorem Counts.total_le_last : total r.session (rs ++ [r]) ≤ r.last := by
  induction rs using List.reverseRecOn generalizing r with
  | nil =>
    have positive := counts.nonneg r (List.mem_singleton_self r)
    rw [total_snoc, if_pos rfl]
    show 0 + max 0 (r.last - r.first) ≤ r.last
    omega
  | append_singleton rs q ih =>
    have positive := counts.nonneg r (List.mem_append_right _ (List.mem_singleton_self r))
    have positive' := counts.nonneg q (List.mem_append_left _ (List.mem_append_right _ (List.mem_singleton_self q)))
    rw [total_snoc, if_pos rfl, lastFigure_snoc]
    have isAmount : amount (some q.last) r = max 0 (r.last - if r.last < q.last then 0 else q.last) := rfl
    rcases counts.upTo (List.mem_append_right _ (List.mem_singleton_self q)) with earlier | ⟨same, le⟩
    · -- the first reading of its session
      have none_ : total r.session (rs ++ [q]) = 0 := by
        apply total_eq_zero
        intro p mem
        rcases List.mem_append.mp mem with old | isIt
        · rcases counts.initial.upTo old with lt | ⟨eq, -⟩ <;> omega
        · rw [List.mem_singleton.mp isIt]
          exact earlier.ne
      rw [none_, isAmount]
      split <;> omega
    · have soFar := ih counts.initial
      rw [same] at soFar
      rw [isAmount, if_neg (not_lt.mpr le)]
      omega

omit counts in
/-- The amounts of a session add up to no more than what bounds its figures. -/
theorem Counts.total_le (counts : Counts rs) {bound : ℤ} (positive : 0 ≤ bound)
    (within : ∀ r ∈ rs, r.session = session → r.last ≤ bound) : total session rs ≤ bound := by
  induction rs using List.reverseRecOn with
  | nil => exact positive
  | append_singleton rs r ih =>
    by_cases own : r.session = session
    · have atMost := within r (List.mem_append_right _ (List.mem_singleton_self r)) own
      have soFar := counts.total_le_last
      rw [own] at soFar
      exact soFar.trans atMost
    · rw [total_snoc, if_neg own, add_zero]
      exact ih counts.initial fun q mem => within q (List.mem_append_left _ mem)

/-- A reading after another of its session adds the difference of its figure and that of the reading before it. -/
theorem Counts.amount_eq (again : ∃ q ∈ rs, q.session = r.session) :
    ∃ q ∈ rs, q.session = r.session ∧ amount (lastFigure rs) r = r.last - q.last := by
  obtain ⟨p, mem, same⟩ := again
  cases isLast : rs.getLast? with
  | none =>
    rw [List.getLast?_eq_none_iff] at isLast
    rw [isLast] at mem
    exact nomatch mem
  | some q =>
    obtain ⟨old, rfl⟩ := List.getLast?_eq_some_iff.mp isLast
    have isOld : q ∈ old ++ [q] := List.mem_append_right _ (List.mem_singleton_self q)
    have notBefore : p.session ≤ q.session := by
      rcases List.mem_append.mp mem with earlier | isIt
      · rcases counts.initial.upTo earlier with lt | ⟨eq, -⟩ <;> omega
      · rw [List.mem_singleton.mp isIt]
    rcases counts.upTo isOld with lt | ⟨eq, le⟩
    · omega
    · refine ⟨q, isOld, eq, ?_⟩
      rw [lastFigure_snoc]
      show max 0 (r.last - if r.last < q.last then 0 else q.last) = r.last - q.last
      rw [if_neg (not_lt.mpr le)]
      omega

/-- A reading that is not the first of its session, or whose figure went back, adds by figures of its own session. -/
theorem Counts.amount_own
    (own : (∃ q ∈ rs, q.session = r.session) ∨ ∀ q ∈ rs, q.session < r.session → r.last < q.last) :
    amount (lastFigure rs) r = r.last ∨
      ∃ figure, (figure = r.first ∨ figure = r.last ∨ ∃ q ∈ rs, q.session = r.session ∧ q.last = figure) ∧
        amount (lastFigure rs) r = r.last - figure := by
  rcases own with again | back
  · obtain ⟨q, mem, same, isAmount⟩ := counts.amount_eq again
    exact Or.inr ⟨q.last, Or.inr (Or.inr ⟨q, mem, same, rfl⟩), isAmount⟩
  · cases isLast : rs.getLast? with
    | none =>
      rw [List.getLast?_eq_none_iff] at isLast
      subst isLast
      -- the first reading of all: the difference inside it
      have isAmount : amount (lastFigure []) r = max 0 (r.last - r.first) := rfl
      rcases le_total r.first r.last with rises | falls
      · refine Or.inr ⟨r.first, Or.inl rfl, ?_⟩
        rw [isAmount, max_eq_right (sub_nonneg.mpr rises)]
      · refine Or.inr ⟨r.last, Or.inr (Or.inl rfl), ?_⟩
        rw [isAmount, max_eq_left (sub_nonpos.mpr falls), sub_self]
    | some q =>
      obtain ⟨old, rfl⟩ := List.getLast?_eq_some_iff.mp isLast
      have mem : q ∈ old ++ [q] := List.mem_append_right _ (List.mem_singleton_self q)
      rcases counts.upTo mem with earlier | ⟨same, -⟩
      · refine Or.inl ?_
        have positive := counts.nonneg r (List.mem_append_right _ (List.mem_singleton_self r))
        rw [lastFigure_snoc]
        show max 0 (r.last - if r.last < q.last then 0 else q.last) = r.last
        rw [if_pos (back q mem earlier)]
        omega
      · obtain ⟨q', mem', same', isAmount⟩ := counts.amount_eq ⟨q, mem, same⟩
        exact Or.inr ⟨q'.last, Or.inr (Or.inr ⟨q', mem', same', rfl⟩), isAmount⟩

end

end AdvanceTrading.Cumulative
