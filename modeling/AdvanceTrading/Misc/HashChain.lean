import Mathlib.Data.List.Induction
import Mathlib.Tactic.SplitIfs

/-!
# Hash chains

Rows that each carry the hash of the row before them and a hash of their own, which is to be the
digest of what they hold. `firstBroken` is the check from the beginning; a chain it accepts
determines, by its last hash, every previous hash on the way to it, so that no hash comes back.
-/

namespace AdvanceTrading

/-- How a row is read: the hash it names as the previous one, its own hash, and the digest of what it holds. -/
structure HashChain (ρ η : Type*) where
  prev : ρ → η
  hash : ρ → η
  digest : ρ → η

namespace HashChain

variable {ρ η : Type*} (c : HashChain ρ η)

/-- The hash the next row has to name. -/
@[grind =] def head (start : η) (rows : List ρ) : η := (rows.getLast?.map c.hash).getD start

variable {c} {start : η} {rows more : List ρ} {r : ρ}

@[simp] theorem head_nil : c.head start [] = start := rfl

@[simp] theorem head_snoc : c.head start (rows ++ [r]) = c.hash r := by
  simp [head]

theorem head_append : c.head start (rows ++ more) = c.head (c.head start rows) more := by
  rcases List.eq_nil_or_concat more with rfl | ⟨more, r, rfl⟩
  · simp
  · rw [List.concat_eq_append, ← List.append_assoc, head_snoc, head_snoc]

/-- A digest of the chain's rows tells which hash they name as the previous one, and is not the hash the chain starts
from. -/
structure Determined (c : HashChain ρ η) (start : η) (rows : List ρ) : Prop where
  fresh : ∀ r ∈ rows, c.digest r ≠ start
  prev : ∀ r ∈ rows, ∀ r' ∈ rows, c.digest r = c.digest r' → c.prev r = c.prev r'

theorem Determined.left (determined : Determined c start (rows ++ more)) : Determined c start rows where
  fresh := fun r mem => determined.fresh r (List.mem_append_left _ mem)
  prev := fun r mem r' mem' => determined.prev r (List.mem_append_left _ mem) r' (List.mem_append_left _ mem')

variable [DecidableEq η] (c)

/-- The first row that does not follow the one before it or does not hold what its hash says. -/
@[grind =] def firstBroken : η → List ρ → Option ρ
  | _, [] => none
  | expected, r :: rows =>
    if c.prev r ≠ expected then some r
    else if c.digest r ≠ c.hash r then some r
    else firstBroken (c.hash r) rows

@[grind =] def Intact (start : η) (rows : List ρ) : Prop := c.firstBroken start rows = none

variable {c}

@[simp] theorem intact_nil : c.Intact start [] := rfl

theorem intact_cons : c.Intact start (r :: rows) ↔ c.prev r = start ∧ c.digest r = c.hash r ∧
    c.Intact (c.hash r) rows := by
  unfold Intact
  rw [firstBroken]
  split_ifs with other tampered
  · simp [other]
  · simp [tampered]
  · simp [not_ne_iff.mp other, not_ne_iff.mp tampered]

/-- After rows that are intact the check goes on from their head. -/
theorem firstBroken_append (intact : c.Intact start rows) :
    c.firstBroken start (rows ++ more) = c.firstBroken (c.head start rows) more := by
  induction rows generalizing start with
  | nil => rfl
  | cons r rows ih =>
    obtain ⟨follows, holds, rest⟩ := intact_cons.mp intact
    rw [List.cons_append, firstBroken, if_neg (not_ne_iff.mpr follows), if_neg (not_ne_iff.mpr holds), ih rest,
      ← List.singleton_append, head_append]
    rfl

theorem intact_append : c.Intact start (rows ++ more) ↔ c.Intact start rows ∧ c.Intact (c.head start rows) more := by
  induction rows generalizing start with
  | nil => simp
  | cons r rows ih =>
    rw [List.cons_append, intact_cons, intact_cons, ih]
    have same : c.head start (r :: rows) = c.head (c.hash r) rows := @head_append _ _ c start [r] rows
    rw [same]
    simp only [and_assoc]

/-- What comes later does not mend a broken row. -/
theorem firstBroken_left (broken : c.firstBroken start rows = some r) :
    c.firstBroken start (rows ++ more) = some r := by
  induction rows generalizing start with
  | nil => cases broken
  | cons first rows ih =>
    rw [List.cons_append, firstBroken]
    rw [firstBroken] at broken
    split_ifs at broken ⊢
    · exact broken
    · exact broken
    · exact ih broken

/-- A broken row is one of the rows. -/
theorem firstBroken_mem (broken : c.firstBroken start rows = some r) : r ∈ rows := by
  induction rows generalizing start with
  | nil => cases broken
  | cons first rows ih =>
    rw [firstBroken] at broken
    split_ifs at broken
    · exact Option.some.inj broken ▸ List.mem_cons_self
    · exact Option.some.inj broken ▸ List.mem_cons_self
    · exact List.mem_cons_of_mem _ (ih broken)

/-- A row that does not name the head is the first broken one after intact rows. -/
theorem firstBroken_of_prev (intact : c.Intact start rows) (other : c.prev r ≠ c.head start rows) :
    c.firstBroken start (rows ++ r :: more) = some r := by
  rw [firstBroken_append intact, firstBroken, if_pos other]

theorem firstBroken_of_digest (intact : c.Intact start rows) (other : c.digest r ≠ c.hash r) :
    c.firstBroken start (rows ++ r :: more) = some r := by
  rw [firstBroken_append intact, firstBroken]
  split_ifs
  · rfl
  · rfl

/-- In an intact chain each row names the head before it and holds what its hash says. -/
theorem Intact.at (intact : c.Intact start (rows ++ r :: more)) :
    c.prev r = c.head start rows ∧ c.digest r = c.hash r := by
  obtain ⟨-, rest⟩ := intact_append.mp intact
  obtain ⟨follows, holds, -⟩ := intact_cons.mp rest
  exact ⟨follows, holds⟩

/-- No hash comes back: the heads of an intact chain at different lengths differ. -/
theorem Intact.head_ne (intact : c.Intact start (rows ++ more)) (determined : Determined c start (rows ++ more))
    (longer : more ≠ []) : c.head start rows ≠ c.head start (rows ++ more) := by
  induction rows using List.reverseRecOn generalizing more with
  | nil =>
    obtain ⟨more, last, rfl⟩ := List.eq_nil_or_concat more |>.resolve_left longer
    rw [List.concat_eq_append] at *
    rw [List.nil_append] at *
    rw [head_nil, head_snoc, ← intact.at.2]
    exact (determined.fresh last (by simp)).symm
  | append_singleton rows r ih =>
    obtain ⟨more, last, rfl⟩ := List.eq_nil_or_concat more |>.resolve_left longer
    rw [List.concat_eq_append] at *
    intro same
    -- Both hashes are digests, so the rows before them have one head already.
    have split : rows ++ [r] ++ (more ++ [last]) = (rows ++ ([r] ++ more)) ++ last :: [] := by simp
    have split' : rows ++ [r] ++ (more ++ [last]) = rows ++ r :: (more ++ [last]) := by simp
    obtain ⟨follows, holds⟩ := (split' ▸ intact).at
    obtain ⟨follows', holds'⟩ := (split ▸ intact).at
    rw [head_snoc, split, head_snoc] at same
    have before : c.prev r = c.prev last :=
      determined.prev r (by simp) last (by simp) (by rw [holds, same, holds'])
    refine @ih ([r] ++ more) ?_ ?_ (by simp) ?_
    · exact (intact_append.mp (split ▸ intact)).1
    · exact @Determined.left _ _ c _ _ [last] (by simpa using determined)
    · rw [← follows, before, follows']

/-- No two rows of an intact chain name one previous hash. -/
theorem Intact.prev_nodup (intact : c.Intact start rows) (determined : Determined c start rows) :
    (rows.map c.prev).Nodup := by
  induction rows using List.reverseRecOn with
  | nil => exact List.nodup_nil
  | append_singleton rows r ih =>
    rw [List.map_append, List.nodup_append]
    refine ⟨ih (intact_append.mp intact).1 determined.left, by simp, ?_⟩
    intro prev mem last isLast same
    obtain ⟨earlier, inRows, rfl⟩ := List.mem_map.mp mem
    obtain rfl : last = c.prev r := by simpa using isLast
    obtain ⟨front, back, rfl⟩ := List.append_of_mem inRows
    -- Both name a head of the chain, at different lengths.
    have whole := (intact_append.mp intact).1
    refine whole.head_ne determined.left (List.cons_ne_nil _ _) ?_
    rw [← intact.at.1, ← same, whole.at.1]

end HashChain

end AdvanceTrading
