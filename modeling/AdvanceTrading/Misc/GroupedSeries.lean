import AdvanceTrading.Misc.Dict
import Mathlib.Data.List.Pairwise
import Mathlib.Logic.Function.Basic

/-!
# Grouped series

Operations of a data frame on the rows of each group: running values
(`groupScan`), one aggregate for all rows of a group (`groupTransform`), and a
table of aggregates shifted by one group (`groupTable`, `shiftedLookup`). A
missing value is `none`, and the aggregates skip it. What they answer for a row
is compared between a list of rows and its first rows. Nothing here knows what
the rows and keys are.
-/

namespace AdvanceTrading

section Aggregates

variable {ν : Type*}

/-- `first`, of the values that are there. -/
def firstValid (values : List (Option ν)) : Option ν := (values.filterMap id).head?

/-- `last`, of the values that are there. -/
def lastValid (values : List (Option ν)) : Option ν := (values.filterMap id).getLast?

/-- `max`, of the values that are there. -/
def maxValid [Max ν] (values : List (Option ν)) : Option ν := (values.filterMap id).max?

/-- `min`, of the values that are there. -/
def minValid [Min ν] (values : List (Option ν)) : Option ν := (values.filterMap id).min?

end Aggregates

section Scans

variable {α β σ κ : Type*} [DecidableEq κ] (step : σ → α → σ × β) (key : α → κ)

/-- A running value of each group: `step` takes the group's state to the next one and answers for
the row. -/
def groupScan : (κ → σ) → List α → List β
  | _, [] => []
  | state, x :: xs =>
      (step (state (key x)) x).2
        :: groupScan (Function.update state (key x) (step (state (key x)) x).1) xs

@[simp] theorem length_groupScan (state : κ → σ) (xs : List α) :
    (groupScan step key state xs).length = xs.length := by
  induction xs generalizing state with
  | nil => rfl
  | cons x xs ih => simp [groupScan, ih]

/-- A running value does not depend on the rows after it. -/
theorem groupScan_take (state : κ → σ) (xs : List α) (n : Nat) :
    groupScan step key state (xs.take n) = (groupScan step key state xs).take n := by
  induction xs generalizing state n with
  | nil => simp [groupScan]
  | cons x xs ih =>
    cases n with
    | zero => rfl
    | succ n => simp [groupScan, ih]

end Scans

section Transforms

variable {α κ μ ν : Type*} [DecidableEq κ] (agg : List ν → μ) (key : α → κ) (value : α → ν)

/-- The rows of the group of `x`. -/
def groupOfRow (x : α) (xs : List α) : List α := xs.filter fun y => key y = key x

/-- `groupby(key).transform(agg)`: every row gets the aggregate of its group. -/
def groupTransform (xs : List α) : List μ :=
  xs.map fun x => agg ((groupOfRow key x xs).map value)

@[simp] theorem length_groupTransform (xs : List α) :
    (groupTransform agg key value xs).length = xs.length := List.length_map _

end Transforms

section Tables

variable {α κ ν μ : Type*} [LinearOrder κ] (agg : List ν → Option μ) (key : α → κ) (value : α → ν)

/-- `groupby(key).agg(agg)`: the aggregates by increasing key. -/
def groupTable (xs : List α) : List (κ × Option μ) :=
  (sortBy Prod.fst (Dict.groupBy key xs)).map fun e => (e.1, agg (e.2.map value))

/-- What `table.shift(1)` holds at a key, when `previous` is in front of the table. -/
def shiftedLookup (k : κ) : Option μ → List (κ × Option μ) → Option μ
  | _, [] => none
  | previous, (k', v) :: table => if k' = k then previous else shiftedLookup k v table

variable {key} {xs ys : List α}

section

variable (sorted : xs.Pairwise fun x y => key x ≤ key y)
include sorted

/-- The keys of a dictionary of groups, when the rows come by increasing key. -/
theorem keys_groupBy_sorted :
    (Dict.keys (Dict.groupBy key xs)).Pairwise (· < ·) ∧
      ∀ k ∈ Dict.keys (Dict.groupBy key xs), ∃ x ∈ xs, key x = k := by
  induction xs using List.reverseRecOn with
  | nil => exact ⟨List.Pairwise.nil, by simp [Dict.keys]⟩
  | append_singleton xs x ih =>
    obtain ⟨before, -, last⟩ := List.pairwise_append.mp sorted
    obtain ⟨increasing, occur⟩ := ih before
    have fromRows : ∀ k ∈ Dict.keys (Dict.groupBy key (xs ++ [x])), ∃ y ∈ xs ++ [x], key y = k := by
      intro k mem
      rw [Dict.groupBy_snoc, Dict.file, Dict.mem_keys_set] at mem
      rcases mem with rfl | old
      · exact ⟨x, List.mem_append_right _ (List.mem_singleton_self x), rfl⟩
      · obtain ⟨y, inRows, same⟩ := occur k old
        exact ⟨y, List.mem_append_left _ inRows, same⟩
    refine ⟨?_, fromRows⟩
    rw [Dict.groupBy_snoc, Dict.file]
    by_cases known : key x ∈ Dict.keys (Dict.groupBy key xs)
    · rw [Dict.keys_set_of_mem _ known]
      exact increasing
    · rw [Dict.keys_set_of_not_mem _ known]
      refine List.pairwise_append.mpr ⟨increasing, List.pairwise_singleton _ _, ?_⟩
      intro k old k' new
      rw [List.mem_singleton.mp new]
      obtain ⟨y, inRows, rfl⟩ := occur k old
      have le := last y inRows x (List.mem_singleton_self x)
      exact lt_of_le_of_ne le fun same => known (same ▸ old)

/-- The last group of rows that come by increasing key is the group of the last row. -/
theorem getLast?_groupBy :
    (Dict.groupBy key xs).getLast? = xs.getLast?.map fun x => (key x, groupOfRow key x xs) := by
  cases isLast : xs.getLast? with
  | none =>
    rw [List.getLast?_eq_none_iff] at isLast
    subst isLast
    rfl
  | some x =>
    obtain ⟨before, rfl⟩ := List.getLast?_eq_some_iff.mp isLast
    have inRows : x ∈ before ++ [x] := List.mem_append_right _ (List.mem_singleton_self x)
    have atMost : ∀ y ∈ before ++ [x], key y ≤ key x := by
      intro y mem
      rcases List.mem_append.mp mem with isBefore | isIt
      · exact (List.pairwise_append.mp sorted).2.2 y isBefore x (List.mem_singleton_self x)
      · rw [List.mem_singleton.mp isIt]
    obtain ⟨group, found⟩ := Dict.exists_get_groupBy key inRows
    have listed := Dict.mem_of_get found
    have isGroup : group = groupOfRow key x (before ++ [x]) := Dict.snd_of_mem_groupBy listed
    rw [isGroup] at listed
    obtain ⟨increasing, occur⟩ := keys_groupBy_sorted sorted
    obtain ⟨first, rest, split⟩ := List.append_of_mem listed
    have none_after : rest = [] := by
      by_contra more
      obtain ⟨e, later⟩ := List.exists_mem_of_ne_nil rest more
      have above : key x < e.1 := by
        have pairs := List.pairwise_map.mp increasing
        rw [split] at pairs
        exact List.rel_of_pairwise_cons (List.pairwise_append.mp pairs).2.1 later
      obtain ⟨y, mem, isKey⟩ := occur e.1 (List.mem_map.mpr ⟨e, by rw [split]; simp [later], rfl⟩)
      exact absurd (atMost y mem) (by rw [isKey]; exact above.not_ge)
    rw [split, none_after]
    exact List.getLast?_concat

/-- Rows that come by increasing key need no sorting of the groups. -/
theorem groupTable_eq :
    groupTable agg key value xs
      = (Dict.groupBy key xs).map fun e => (e.1, agg (e.2.map value)) := by
  have increasing := List.pairwise_map.mp (keys_groupBy_sorted sorted).1
  rw [groupTable, sortBy_of_sorted (increasing.imp fun lt => lt.le)]

end

/-- In a table by increasing key, the entry before a key is the last one below it. -/
theorem shiftedLookup_eq {k : κ} {table : List (κ × Option μ)} (previous : Option μ)
    (increasing : table.Pairwise fun e e' => e.1 < e'.1) (present : ∃ e ∈ table, e.1 = k) :
    shiftedLookup k previous table
      = ((table.filter fun e => e.1 < k).map Prod.snd).getLast?.getD previous := by
  induction table generalizing previous with
  | nil => simp at present
  | cons e table ih =>
    obtain ⟨first, rest⟩ := List.pairwise_cons.mp increasing
    unfold shiftedLookup
    by_cases same : e.1 = k
    · have none_ : (e :: table).filter (fun e => e.1 < k) = [] := by
        apply List.filter_eq_nil_iff.mpr
        intro e' mem below
        have below := of_decide_eq_true below
        rcases List.mem_cons.mp mem with rfl | later
        · exact absurd same below.ne
        · exact absurd (first e' later) (by rw [same]; exact below.not_gt)
      rw [if_pos same, none_]
      rfl
    · obtain ⟨e', mem, isKey⟩ := present
      have later : e' ∈ table := by
        rcases List.mem_cons.mp mem with rfl | later
        · exact absurd isKey same
        · exact later
      have below : e.1 < k := isKey ▸ first e' later
      rw [if_neg same, ih e.2 rest ⟨e', later, isKey⟩,
        List.filter_cons_of_pos (by simpa using below), List.map_cons, List.getLast?_cons]
      rfl

/-- The entry of the group before a row's own is the same once only rows after it are left out. -/
theorem shiftedLookup_append {x : α} (sorted : (xs ++ ys).Pairwise fun x y => key x ≤ key y)
    (mem : x ∈ xs) :
    shiftedLookup (key x) none (groupTable agg key value (xs ++ ys))
      = shiftedLookup (key x) none (groupTable agg key value xs) := by
  have spec : ∀ rows : List α, rows.Pairwise (fun x y => key x ≤ key y) → x ∈ rows →
      shiftedLookup (key x) none (groupTable agg key value rows)
        = (((Dict.groupBy key (rows.filter fun y => key y < key x)).map fun e =>
            (e.1, agg (e.2.map value))).map Prod.snd).getLast?.getD none := by
    intro rows inOrder inRows
    obtain ⟨increasing, -⟩ := keys_groupBy_sorted inOrder
    rw [groupTable_eq agg value inOrder, shiftedLookup_eq]
    · rw [← Dict.filter_groupBy_keys (fun k => decide (k < key x)), List.filter_map]
      rfl
    · exact List.pairwise_map.mpr (List.pairwise_map.mp increasing)
    · obtain ⟨group, found⟩ := Dict.exists_get_groupBy key inRows
      exact ⟨_, List.mem_map.mpr ⟨_, Dict.mem_of_get found, rfl⟩, rfl⟩
  obtain ⟨before, -, between⟩ := List.pairwise_append.mp sorted
  have none_ : ys.filter (fun y => key y < key x) = [] := by
    apply List.filter_eq_nil_iff.mpr
    intro y inRest below
    exact absurd (of_decide_eq_true below) (between x mem y inRest).not_gt
  rw [spec _ sorted (List.mem_append_left _ mem), spec _ before mem, List.filter_append, none_,
    List.append_nil]

end Tables

end AdvanceTrading
