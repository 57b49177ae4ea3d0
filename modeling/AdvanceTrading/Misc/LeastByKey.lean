import Mathlib.Data.List.Nodup
import Mathlib.Order.Lattice

/-!
# The least row of each key

`leastByKey` keeps, of a list of rows, one row per key: the first of those
whose value is least. `holds_of_leastByKey` says when checking only the kept
rows checks them all: the checked quantity has to be a function of the key
alone. A quantity that also depends on the row itself needs its dropped rows
checked one by one (`holds_iff_dropped`). Rows, keys and values are arbitrary.
-/

namespace AdvanceTrading

section LeastByKey

variable {α κ ν : Type*} [DecidableEq κ] [LinearOrder ν] (key : α → κ) (value : α → ν)

/-- Put `row` in the place of its key: it replaces the row there only when its
value is smaller. -/
def keepLeast : List α → α → List α
  | [], row => [row]
  | kept :: rest, row =>
      if key kept = key row then (if value row < value kept then row else kept) :: rest
      else kept :: keepLeast rest row

/-- One row per key, the first with the least value, in order of first appearance. -/
def leastByKey (rows : List α) : List α := rows.foldl (keepLeast key value) []

variable {key value}

variable {best : List α} {kept row : α}

theorem mem_keepLeast (member : kept ∈ keepLeast key value best row) :
    kept = row ∨ kept ∈ best := by
  induction best with
  | nil => simpa [keepLeast] using member
  | cons first rest ih =>
    simp only [keepLeast] at member
    split_ifs at member with same smaller
    · rcases List.mem_cons.mp member with rfl | member
      · exact .inl rfl
      · exact .inr (List.mem_cons_of_mem _ member)
    · exact .inr member
    · rcases List.mem_cons.mp member with rfl | member
      · exact .inr List.mem_cons_self
      · exact (ih member).imp id (List.mem_cons_of_mem _)

/-- The row that was put in, and every row kept before, is bounded below by a
kept row of its key. -/
theorem exists_le_keepLeast {best : List α} {row : α} :
    (∃ kept ∈ keepLeast key value best row, key kept = key row ∧ value kept ≤ value row) ∧
      ∀ old ∈ best, ∃ kept ∈ keepLeast key value best row,
        key kept = key old ∧ value kept ≤ value old := by
  induction best with
  | nil => simp [keepLeast]
  | cons first rest ih =>
    simp only [keepLeast]
    split_ifs with same smaller
    · refine ⟨⟨row, List.mem_cons_self, rfl, le_rfl⟩, fun old member => ?_⟩
      rcases List.mem_cons.mp member with rfl | member
      · exact ⟨row, List.mem_cons_self, same.symm, smaller.le⟩
      · exact ⟨old, List.mem_cons_of_mem _ member, rfl, le_rfl⟩
    · refine ⟨⟨first, List.mem_cons_self, same, not_lt.mp smaller⟩, fun old member => ?_⟩
      exact ⟨old, member, rfl, le_rfl⟩
    · obtain ⟨⟨kept, member, keyed, below⟩, olds⟩ := ih
      refine ⟨⟨kept, List.mem_cons_of_mem _ member, keyed, below⟩, fun old member => ?_⟩
      rcases List.mem_cons.mp member with rfl | member
      · exact ⟨old, List.mem_cons_self, rfl, le_rfl⟩
      · obtain ⟨kept, member, keyed, below⟩ := olds old member
        exact ⟨kept, List.mem_cons_of_mem _ member, keyed, below⟩

variable {rows : List α}

theorem mem_foldl_keepLeast (member : kept ∈ rows.foldl (keepLeast key value) best) :
    kept ∈ rows ∨ kept ∈ best := by
  induction rows generalizing best with
  | nil => exact .inr member
  | cons row rest ih =>
    rcases ih member with later | kept
    · exact .inl (List.mem_cons_of_mem _ later)
    · rcases mem_keepLeast kept with rfl | old
      · exact .inl List.mem_cons_self
      · exact .inr old

/-- Only rows of the list are kept. -/
theorem leastByKey_subset : leastByKey key value rows ⊆ rows := fun _ member =>
  (mem_foldl_keepLeast member).resolve_right List.not_mem_nil

theorem exists_le_foldl_keepLeast (member : row ∈ rows ∨ row ∈ best) :
    ∃ kept ∈ rows.foldl (keepLeast key value) best, key kept = key row ∧ value kept ≤ value row := by
  induction rows generalizing best row with
  | nil => exact ⟨row, member.resolve_left List.not_mem_nil, rfl, le_rfl⟩
  | cons next rest ih =>
    obtain ⟨added, olds⟩ := @exists_le_keepLeast _ _ _ _ _ key value best next
    -- a row that is already put in is bounded by one kept so far, and that one to the end
    have bounded : row ∈ rest ∨ ∃ kept ∈ keepLeast key value best next,
        key kept = key row ∧ value kept ≤ value row := by
      rcases member with member | old
      · rcases List.mem_cons.mp member with rfl | later
        · exact .inr added
        · exact .inl later
      · exact .inr (olds row old)
    rcases bounded with later | ⟨kept, member, keyed, below⟩
    · exact ih (.inl later)
    · obtain ⟨least, member, keyed', below'⟩ := @ih _ kept (.inr member)
      exact ⟨least, member, keyed'.trans keyed, below'.trans below⟩

/-- Every row is bounded below by the kept row of its key. -/
theorem exists_le_leastByKey {rows : List α} {row : α} (member : row ∈ rows) :
    ∃ kept ∈ leastByKey key value rows, key kept = key row ∧ value kept ≤ value row :=
  exists_le_foldl_keepLeast (.inl member)

/-- A quantity that depends on the key alone is within every row's value once
it is within the kept ones. -/
theorem holds_of_leastByKey {quantity : α → ν} (member : row ∈ rows)
    (byKey : ∀ other ∈ rows, key other = key row → quantity other = quantity row)
    (kept : ∀ k ∈ leastByKey key value rows, quantity k ≤ value k) : quantity row ≤ value row := by
  obtain ⟨least, leastMember, keyed, below⟩ := @exists_le_leastByKey _ _ _ _ _ key value _ _ member
  have listed : least ∈ rows := leastByKey_subset leastMember
  calc quantity row = quantity least := (byKey least listed keyed).symm
    _ ≤ value least := kept _ leastMember
    _ ≤ value row := below

/-- When the quantity is a function of the key except for the rows in `own`,
the kept rows and the dropped rows of `own` together decide all rows. -/
theorem holds_iff_dropped {quantity : α → ν} {own : α → Prop}
    (byKey : ∀ row ∈ rows, ¬ own row → ∀ other ∈ rows, key other = key row → quantity other = quantity row)
    (kept : ∀ k ∈ leastByKey key value rows, quantity k ≤ value k) :
    (∀ row ∈ rows, quantity row ≤ value row) ↔
      ∀ row ∈ rows, row ∉ leastByKey key value rows → own row → quantity row ≤ value row := by
  refine ⟨fun all row member _ _ => all row member, fun dropped row member => ?_⟩
  by_cases isKept : row ∈ leastByKey key value rows
  · exact kept row isKept
  · by_cases isOwn : own row
    · exact dropped row member isKept isOwn
    · exact holds_of_leastByKey member (byKey row member isOwn) kept

/-- A key that is kept, or put in, is kept once. -/
theorem nodup_keepLeast (once : (best.map key).Nodup) (row : α) :
    ((keepLeast key value best row).map key).Nodup := by
  induction best with
  | nil => simp [keepLeast]
  | cons first rest ih =>
    obtain ⟨fresh, others⟩ := List.nodup_cons.mp once
    simp only [keepLeast]
    split_ifs with same smaller
    · rw [List.map_cons, ← same]
      exact once
    · exact once
    · rw [List.map_cons, List.nodup_cons]
      refine ⟨fun kept => ?_, ih others⟩
      obtain ⟨x, member, keyed⟩ := List.mem_map.mp kept
      rcases mem_keepLeast member with rfl | old
      · exact same keyed.symm
      · exact fresh (List.mem_map.mpr ⟨x, old, keyed⟩)

theorem nodup_leastByKey (rows : List α) : ((leastByKey key value rows).map key).Nodup := by
  have all : ∀ best : List α, (best.map key).Nodup → ((rows.foldl (keepLeast key value) best).map key).Nodup := by
    induction rows with
    | nil => exact fun _ once => once
    | cons row rest ih => exact fun best once => ih _ (nodup_keepLeast once row)
  exact all [] .nil

/-- A kept row is least among the rows of its key. -/
theorem leastByKey_le (member : kept ∈ leastByKey key value rows) (listed : row ∈ rows)
    (same : key row = key kept) : value kept ≤ value row := by
  obtain ⟨least, leastMember, keyed, below⟩ := @exists_le_leastByKey _ _ _ _ _ key value _ _ listed
  have one : least = kept := List.inj_on_of_nodup_map (nodup_leastByKey rows) leastMember member (keyed.trans same)
  exact one ▸ below

/-- Where the least row of each key is the only one so small, it is the one that is kept. -/
theorem mem_leastByKey_iff
    (single : ∀ r ∈ rows, ∀ s ∈ rows, key r = key s → value r = value s →
      (∀ x ∈ rows, key x = key r → value r ≤ value x) → r = s) :
    kept ∈ leastByKey key value rows ↔ kept ∈ rows ∧ ∀ x ∈ rows, key x = key kept → value kept ≤ value x := by
  constructor
  · intro member
    exact ⟨leastByKey_subset member, fun x listed same => leastByKey_le member listed same⟩
  · rintro ⟨listed, least⟩
    obtain ⟨other, member, keyed, below⟩ := @exists_le_leastByKey _ _ _ _ _ key value _ _ listed
    have upto := least other (leastByKey_subset member) keyed
    rw [single kept listed other (leastByKey_subset member) keyed.symm (le_antisymm upto below) least]
    exact member

/-- A row that is least of its key and comes first is kept. -/
theorem mem_leastByKey_cons {first : α}
    (least : ∀ x ∈ rows, key x = key first → value first ≤ value x) :
    first ∈ leastByKey key value (first :: rows) := by
  have stays : ∀ best, first ∈ best → (best.map key).Nodup → first ∈ rows.foldl (keepLeast key value) best := by
    induction rows with
    | nil => exact fun _ held _ => held
    | cons row rest ih =>
      intro best held once
      refine ih (fun x listed => least x (List.mem_cons_of_mem _ listed)) _ ?_ (nodup_keepLeast once row)
      clear ih
      induction best with
      | nil => cases held
      | cons kept others ih =>
        simp only [keepLeast]
        obtain ⟨fresh, distinct⟩ := List.nodup_cons.mp once
        split_ifs with same smaller
        · rcases List.mem_cons.mp held with rfl | held
          · exact absurd smaller (not_lt.mpr (least row List.mem_cons_self same.symm))
          · exact List.mem_cons_of_mem _ held
        · exact held
        · rcases List.mem_cons.mp held with rfl | held
          · exact List.mem_cons_self
          · exact List.mem_cons_of_mem _ (ih held distinct)
  exact stays [first] List.mem_cons_self (by simp)

/-- Rows that come from others are kept when the others are. -/
theorem leastByKey_map {β : Type*} (f : β → α) (rows : List β) :
    leastByKey key value (rows.map f) = (leastByKey (fun x => key (f x)) (fun x => value (f x)) rows).map f := by
  have step : ∀ (best : List β) (row : β), keepLeast key value (best.map f) (f row) =
      (keepLeast (fun x => key (f x)) (fun x => value (f x)) best row).map f := by
    intro best row
    induction best with
    | nil => rfl
    | cons first rest ih =>
      simp only [List.map_cons, keepLeast]
      split_ifs
      · rfl
      · rfl
      · rw [List.map_cons, ih]
  have all : ∀ best : List β, (rows.map f).foldl (keepLeast key value) (best.map f) =
      (rows.foldl (keepLeast (fun x => key (f x)) fun x => value (f x)) best).map f := by
    induction rows with
    | nil => exact fun _ => rfl
    | cons row rest ih =>
      intro best
      rw [List.map_cons, List.foldl_cons, step, ih]
      rfl
  exact all []

/-- Leaving out the rows of some keys before or after the choice comes to the same. -/
theorem filter_leastByKey (p : κ → Bool) (rows : List α) :
    (leastByKey key value rows).filter (fun row => p (key row))
      = leastByKey key value (rows.filter fun row => p (key row)) := by
  have step : ∀ (best : List α) (row : α), (keepLeast key value best row).filter (fun r => p (key r))
      = if p (key row) then keepLeast key value (best.filter fun r => p (key r)) row
        else best.filter fun r => p (key r) := by
    intro best row
    induction best with
    | nil => by_cases kept : p (key row) = true <;> simp [keepLeast, kept]
    | cons first rest ih =>
      simp only [keepLeast]
      by_cases same : key first = key row
      · by_cases kept : p (key row) = true
        · simp [same, kept, keepLeast, apply_ite key]
        · simp [same, kept, apply_ite key]
      · by_cases head : p (key first) = true
        · rw [if_neg same, List.filter_cons_of_pos (p := fun r => p (key r)) head, ih,
            List.filter_cons_of_pos (p := fun r => p (key r)) head]
          split <;> simp [keepLeast, same]
        · rw [if_neg same, List.filter_cons_of_neg (p := fun r => p (key r)) head, ih,
            List.filter_cons_of_neg (p := fun r => p (key r)) head]
  have all : ∀ best : List α, (rows.foldl (keepLeast key value) best).filter (fun row => p (key row))
      = (rows.filter fun row => p (key row)).foldl (keepLeast key value) (best.filter fun row => p (key row)) := by
    induction rows with
    | nil => exact fun _ => rfl
    | cons row rest ih =>
      intro best
      rw [List.foldl_cons, ih, step, List.filter_cons]
      split <;> rfl
  exact all []

end LeastByKey

end AdvanceTrading
