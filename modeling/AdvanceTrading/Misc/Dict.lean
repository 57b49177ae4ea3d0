import Mathlib.Data.List.Induction
import Mathlib.Data.List.Sort

/-!
# Insertion-ordered dictionaries and sorting by a key

A dictionary that remembers the order its keys came in, as an association list:
assigning to a key it has keeps the key's place, a new key goes last. `groupBy`
is the loop that files the items of a list under their keys. `sortBy` is the
stable sort by a key. Nothing here knows what the keys and values are.
-/

namespace AdvanceTrading

section Sorting

variable {α κ : Type*} [LinearOrder κ] {key : α → κ} {xs : List α}

/-- `sorted(xs, key=key)`: items of equal keys stay in their order. -/
def sortBy (key : α → κ) (xs : List α) : List α := xs.insertionSort fun a b => key a ≤ key b

theorem sortBy_perm (key : α → κ) (xs : List α) : (sortBy key xs).Perm xs :=
  List.perm_insertionSort _ xs

@[simp] theorem mem_sortBy {x : α} : x ∈ sortBy key xs ↔ x ∈ xs := (sortBy_perm key xs).mem_iff

theorem sortBy_sorted (key : α → κ) (xs : List α) :
    (sortBy key xs).Pairwise fun a b => key a ≤ key b := by
  have total : Std.Total fun a b : α => key a ≤ key b := ⟨fun a b => le_total (key a) (key b)⟩
  have trans : IsTrans α fun a b => key a ≤ key b := ⟨fun _ _ _ => le_trans⟩
  exact List.pairwise_insertionSort _ xs

/-- A list in order stays as it is. -/
theorem sortBy_of_sorted (sorted : xs.Pairwise fun a b => key a ≤ key b) : sortBy key xs = xs :=
  sorted.insertionSort_eq

/-- Putting an item into its place and leaving some items out can be done in either order. -/
theorem filter_orderedInsert (p : α → Bool) (x : α) (sorted : xs.Pairwise fun a b => key a ≤ key b) :
    (xs.orderedInsert (fun a b => key a ≤ key b) x).filter p
      = if p x then (xs.filter p).orderedInsert (fun a b => key a ≤ key b) x else xs.filter p := by
  induction xs with
  | nil => by_cases kept : p x = true <;> simp [kept]
  | cons y xs ih =>
    rw [List.pairwise_cons] at sorted
    obtain ⟨least, sorted⟩ := sorted
    by_cases first : key x ≤ key y
    · have front : ((y :: xs).filter p).orderedInsert (fun a b => key a ≤ key b) x = x :: (y :: xs).filter p := by
        cases rest : (y :: xs).filter p with
        | nil => rfl
        | cons z zs =>
          have among : z ∈ y :: xs := List.mem_of_mem_filter (p := p) (rest ▸ List.mem_cons_self)
          have lower : key x ≤ key z := by
            rcases List.mem_cons.mp among with rfl | later
            · exact first
            · exact first.trans (least z later)
          simp [lower]
      rw [front, List.orderedInsert_cons, if_pos first, List.filter_cons]
    · rw [List.orderedInsert_cons, if_neg first, List.filter_cons, ih sorted, List.filter_cons]
      by_cases kept : p x = true <;> by_cases head : p y = true <;> simp [kept, head, first]

/-- Sorting by a key and leaving some items out can be done in either order. -/
theorem filter_sortBy (key : α → κ) (p : α → Bool) (xs : List α) :
    (sortBy key xs).filter p = sortBy key (xs.filter p) := by
  induction xs with
  | nil => rfl
  | cons x xs ih =>
    have step : sortBy key (x :: xs) = (sortBy key xs).orderedInsert (fun a b => key a ≤ key b) x := rfl
    rw [step, filter_orderedInsert p x (sortBy_sorted key xs), ih, List.filter_cons]
    split <;> rfl

end Sorting

/-- The items of a dictionary, oldest key first. -/
abbrev Dict (κ ν : Type*) := List (κ × ν)

namespace Dict

variable {κ ν : Type*} [DecidableEq κ]

/-- `d.get(k)`. -/
def get (k : κ) : Dict κ ν → Option ν
  | [] => none
  | (k', v) :: d => if k' = k then some v else get k d

/-- `d[k] = v`. -/
def set (k : κ) (v : ν) : Dict κ ν → Dict κ ν
  | [] => [(k, v)]
  | (k', v') :: d => if k' = k then (k', v) :: d else (k', v') :: set k v d

/-- `d.pop(k, None)`, what is left of it. -/
def pop (k : κ) (d : Dict κ ν) : Dict κ ν := d.filter fun e => e.1 ≠ k

/-- `list(d)`. -/
def keys (d : Dict κ ν) : List κ := d.map Prod.fst

attribute [grind =] get set

@[simp] theorem get_nil (k : κ) : get k ([] : Dict κ ν) = none := rfl

@[simp] theorem get_set_self (k : κ) (v : ν) (d : Dict κ ν) : get k (set k v d) = some v := by
  induction d with
  | nil => simp [set, get]
  | cons e d ih =>
    by_cases same : e.1 = k
    · simp [set, get, same]
    · simp [set, get, same, ih]

variable {k : κ}

@[simp] theorem get_set_of_ne {k' : κ} (v : ν) (d : Dict κ ν) (ne : k' ≠ k) :
    get k' (set k v d) = get k' d := by
  induction d with
  | nil => simp [set, get, ne.symm]
  | cons e d ih =>
    by_cases same : e.1 = k
    · simp [set, get, same, ne.symm]
    · simp [set, get, same, ih]

@[simp] theorem get_pop_self (k : κ) (d : Dict κ ν) : get k (pop k d) = none := by
  induction d with
  | nil => rfl
  | cons e d ih =>
    by_cases same : e.1 = k
    · simpa [pop, same] using ih
    · simpa [pop, same, get] using ih

@[simp] theorem get_pop_of_ne {k' : κ} (d : Dict κ ν) (ne : k' ≠ k) :
    get k' (pop k d) = get k' d := by
  induction d with
  | nil => rfl
  | cons e d ih =>
    by_cases same : e.1 = k
    · simpa [pop, same, get, ne.symm] using ih
    · simpa [pop, same, get] using congrArg (fun g => if e.1 = k' then some e.2 else g) ih

variable {d : Dict κ ν} {v : ν}

/-- What a dictionary answers for, it lists. -/
theorem mem_keys_of_get (found : get k d = some v) : k ∈ keys d := by
  induction d with
  | nil => simp at found
  | cons e d ih =>
    by_cases same : e.1 = k
    · simp [keys, same]
    · simp only [get, same, if_false] at found
      exact List.mem_cons_of_mem _ (ih found)

theorem get_of_mem (distinct : (keys d).Nodup) (mem : (k, v) ∈ d) : get k d = some v := by
  induction d with
  | nil => cases mem
  | cons e d ih =>
    obtain ⟨fresh, rest⟩ := List.nodup_cons.mp distinct
    rcases List.mem_cons.mp mem with head | tail
    · subst head
      simp [get]
    · have ne : e.1 ≠ k := by
        rintro rfl
        exact fresh (List.mem_map.mpr ⟨_, tail, rfl⟩)
      simp [get, ne, ih rest tail]

theorem mem_of_get (found : get k d = some v) : (k, v) ∈ d := by
  induction d with
  | nil => simp at found
  | cons e d ih =>
    by_cases same : e.1 = k
    · simp only [get, same, if_true, Option.some.injEq] at found
      subst same found
      exact List.mem_cons_self
    · simp only [get, same, if_false] at found
      exact List.mem_cons_of_mem _ (ih found)

theorem filter_keys (distinct : (keys d).Nodup) :
    d.filter (fun e => e.1 = k) = (get k d).toList.map fun v => (k, v) := by
  induction d with
  | nil => rfl
  | cons e d ih =>
    obtain ⟨fresh, rest⟩ := List.nodup_cons.mp distinct
    by_cases same : e.1 = k
    · have others : d.filter (fun e => e.1 = k) = [] := by
        apply List.filter_eq_nil_iff.mpr
        intro e' mem isK
        exact fresh (List.mem_map.mpr ⟨e', mem, (of_decide_eq_true isK).trans same.symm⟩)
      simp [get, same, others, Prod.ext_iff]
    · simp [get, same, ih rest]

theorem nodup_keys_pop (distinct : (keys d).Nodup) : (keys (pop k d)).Nodup :=
  distinct.sublist (List.filter_sublist.map _)

/-- Several keys popped one after the other. -/
theorem get_popAll {ι : Type*} (f : ι → κ) (es : List ι) (k : κ) (d : Dict κ ν) :
    get k (es.foldl (fun d e => pop (f e) d) d) = if k ∈ es.map f then none else get k d := by
  induction es generalizing d with
  | nil => simp
  | cons e es ih =>
    rw [List.foldl_cons, ih]
    by_cases same : k = f e
    · subst same
      simp
    · simp [same]

/-- Values that go with their keys, assigned one after another. -/
theorem get_setAll {ι : Type*} [DecidableEq ι] {f : ι → κ} (apart : Function.Injective f)
    (v : ι → ν) (es : List ι) (d : Dict κ ν) (e : ι) :
    get (f e) (es.foldl (fun d e => set (f e) (v e) d) d) = if e ∈ es then some (v e) else get (f e) d := by
  induction es generalizing d with
  | nil => rfl
  | cons first es ih =>
    rw [List.foldl_cons, ih]
    by_cases later : e ∈ es
    · rw [if_pos later, if_pos (List.mem_cons_of_mem _ later)]
    · rw [if_neg later]
      by_cases here : e = first
      · rw [here, get_set_self, if_pos List.mem_cons_self]
      · rw [get_set_of_ne _ _ (fun same => here (apart same)), if_neg (by simp [here, later])]

theorem nodup_keys_popAll {ι : Type*} (f : ι → κ) (es : List ι) (distinct : (keys d).Nodup) :
    (keys (es.foldl (fun d e => pop (f e) d) d)).Nodup := by
  induction es generalizing d with
  | nil => exact distinct
  | cons e es ih => exact ih (nodup_keys_pop distinct)

theorem mem_keys_set {k' : κ} : k' ∈ keys (set k v d) ↔ k' = k ∨ k' ∈ keys d := by
  induction d with
  | nil => simp [set, keys]
  | cons e d ih =>
    by_cases same : e.1 = k
    · simp only [set, same, if_true, keys, List.map_cons, List.mem_cons]
      tauto
    · simp only [keys] at ih
      simp only [set, same, if_false, keys, List.map_cons, List.mem_cons, ih]
      tauto

theorem keys_set_of_mem (v : ν) (known : k ∈ keys d) : keys (set k v d) = keys d := by
  induction d with
  | nil => cases known
  | cons e d ih =>
    by_cases same : e.1 = k
    · simp [set, keys, same]
    · rcases List.mem_cons.mp known with head | tail
      · exact absurd head.symm same
      · simpa [set, keys, same] using ih tail

theorem keys_set_of_not_mem (v : ν) (fresh : k ∉ keys d) : keys (set k v d) = keys d ++ [k] := by
  induction d with
  | nil => rfl
  | cons e d ih =>
    have ne : e.1 ≠ k := fun same => fresh (by simp [keys, same])
    have rest : k ∉ keys d := fun mem => fresh (List.mem_cons_of_mem _ mem)
    simpa [set, keys, ne] using ih rest

theorem filter_set_key {p : κ → Bool} (v : ν) (d : Dict κ ν) :
    (set k v d).filter (fun e => p e.1)
      = if p k = true then set k v (d.filter fun e => p e.1) else d.filter fun e => p e.1 := by
  induction d with
  | nil => by_cases kept : p k = true <;> simp [set, kept]
  | cons e d ih =>
    by_cases same : e.1 = k
    · by_cases kept : p k = true <;> simp [set, same, kept]
    · by_cases keptHere : p e.1 = true <;> by_cases kept : p k = true <;>
        simp_all [set]

theorem get_filter_key {p : κ → Bool} (d : Dict κ ν) (kept : p k = true) :
    get k (d.filter fun e => p e.1) = get k d := by
  induction d with
  | nil => rfl
  | cons e d ih =>
    by_cases same : e.1 = k
    · simp [get, same, kept]
    · by_cases keptHere : p e.1 = true <;> simp [get, same, keptHere, ih]

/-- Of the items that a filter keeps, a key has its own if the filter keeps it. -/
theorem get_filter {p : κ × ν → Bool} (distinct : (keys d).Nodup) (k : κ) :
    get k (d.filter p) = (get k d).filter fun v => p (k, v) := by
  induction d with
  | nil => rfl
  | cons e d ih =>
    obtain ⟨key, value⟩ := e
    obtain ⟨fresh, rest⟩ := List.nodup_cons.mp distinct
    by_cases same : key = k
    · subst same
      have gone : get key (d.filter p) = none := by
        cases found : get key (d.filter p) with
        | none => rfl
        | some v =>
          have listed := List.mem_of_mem_filter (mem_of_get found)
          exact absurd (List.mem_map.mpr ⟨_, listed, rfl⟩) fresh
      by_cases kept : p (key, value) = true
      · simp [get, kept, Option.filter]
      · simp [get, kept, gone, Option.filter]
    · by_cases kept : p (key, value) = true
      · simp [get, same, kept, ih rest]
      · simp [get, same, kept, ih rest]

omit [DecidableEq κ] in
theorem nodup_keys_filter {p : κ × ν → Bool} (distinct : (keys d).Nodup) :
    (keys (d.filter p)).Nodup :=
  distinct.sublist (List.filter_sublist.map _)

theorem nodup_keys_set (distinct : (keys d).Nodup) : (keys (set k v d)).Nodup := by
  induction d with
  | nil => simp [set, keys]
  | cons e d ih =>
    obtain ⟨fresh, rest⟩ := List.nodup_cons.mp distinct
    by_cases same : e.1 = k
    · simpa [set, same, keys] using distinct
    · have kept : e.1 ∉ keys (set k v d) := by
        rw [mem_keys_set]
        rintro (isK | old)
        · exact same isK
        · exact fresh old
      simpa [set, same, keys] using And.intro kept (ih rest)

section Accumulating

variable {α : Type*}

end Accumulating

section Grouping

variable {α : Type*}

/-- `d.setdefault(k, []).append(a)`. -/
def file (k : κ) (a : α) (d : Dict κ (List α)) : Dict κ (List α) :=
  set k ((get k d).getD [] ++ [a]) d

/-- The items of a list under their keys, each group in the order of the list. -/
def groupBy (f : α → κ) (xs : List α) : Dict κ (List α) :=
  xs.foldl (fun d x => file (f x) x d) []

@[simp] theorem groupBy_nil (f : α → κ) : groupBy f ([] : List α) = [] := rfl

theorem groupBy_snoc (f : α → κ) (xs : List α) (x : α) :
    groupBy f (xs ++ [x]) = file (f x) x (groupBy f xs) := by
  simp [groupBy]

theorem nodup_keys_groupBy (f : α → κ) (xs : List α) : (keys (groupBy f xs)).Nodup := by
  induction xs using List.reverseRecOn with
  | nil => simp [keys]
  | append_singleton xs x ih =>
    rw [groupBy_snoc]
    exact nodup_keys_set ih

section Mapping

variable {β μ : Type*} (h : ν → μ)

theorem get_map (k : κ) (d : Dict κ ν) : get k (d.map fun e => (e.1, h e.2)) = (get k d).map h := by
  induction d with
  | nil => rfl
  | cons e d ih =>
    by_cases same : e.1 = k
    · simp [get, same]
    · simp [get, same, ih]

theorem set_map (k : κ) (v : ν) (d : Dict κ ν) :
    set k (h v) (d.map fun e => (e.1, h e.2)) = (set k v d).map fun e => (e.1, h e.2) := by
  induction d with
  | nil => rfl
  | cons e d ih =>
    by_cases same : e.1 = k
    · simp [set, same]
    · simp [set, same, ih]

/-- The groups of items that come from others are those of the others. -/
theorem groupBy_map (f : β → κ) (g : α → β) (xs : List α) :
    groupBy f (xs.map g) = (groupBy (fun x => f (g x)) xs).map fun e => (e.1, e.2.map g) := by
  induction xs using List.reverseRecOn with
  | nil => rfl
  | append_singleton xs x ih =>
    have longer := set_map (List.map g) (f (g x))
      ((get (f (g x)) (groupBy (fun x => f (g x)) xs)).getD [] ++ [x])
      (groupBy (fun x => f (g x)) xs)
    rw [List.map_append, List.map_singleton, groupBy_snoc, groupBy_snoc, ih, file, file, ← longer,
      get_map]
    cases get (f (g x)) (groupBy (fun x => f (g x)) xs) <;> simp

end Mapping

variable {f : α → κ} {xs : List α}

theorem mem_keys_groupBy : k ∈ keys (groupBy f xs) ↔ ∃ x ∈ xs, f x = k := by
  induction xs using List.reverseRecOn with
  | nil => simp [keys]
  | append_singleton xs x ih =>
    rw [groupBy_snoc, file, mem_keys_set, ih]
    simp only [List.mem_append, List.mem_singleton]
    constructor
    · rintro (rfl | ⟨y, mem, rfl⟩)
      · exact ⟨x, Or.inr rfl, rfl⟩
      · exact ⟨y, Or.inl mem, rfl⟩
    · rintro ⟨y, mem | rfl, rfl⟩
      · exact Or.inr ⟨y, mem, rfl⟩
      · exact Or.inl rfl

theorem get_groupBy (f : α → κ) (xs : List α) (k : κ) :
    (get k (groupBy f xs)).getD [] = xs.filter fun x => f x = k := by
  induction xs using List.reverseRecOn with
  | nil => rfl
  | append_singleton xs x ih =>
    rw [groupBy_snoc, List.filter_append, ← ih]
    by_cases same : f x = k
    · subst same
      simp [file]
    · simp [file, same, get_set_of_ne _ _ (Ne.symm same)]

/-- The groups of some keys are the groups of the items with those keys. -/
theorem filter_groupBy_keys (p : κ → Bool) (xs : List α) :
    (groupBy f xs).filter (fun e => p e.1) = groupBy f (xs.filter fun x => p (f x)) := by
  induction xs using List.reverseRecOn with
  | nil => rfl
  | append_singleton xs x ih =>
    rw [groupBy_snoc, file, filter_set_key, List.filter_append, ih]
    by_cases kept : p (f x) = true
    · have single : [x].filter (fun x => p (f x)) = [x] := by simp [kept]
      rw [if_pos kept, single, groupBy_snoc, file, ← ih, get_filter_key _ kept]
    · have single : [x].filter (fun x => p (f x)) = [] := by simp [kept]
      rw [if_neg kept, single, List.append_nil]

theorem exists_get_groupBy (f : α → κ) {x : α} (mem : x ∈ xs) :
    ∃ group, get (f x) (groupBy f xs) = some group := by
  cases found : get (f x) (groupBy f xs) with
  | some group => exact ⟨group, rfl⟩
  | none =>
    have own := get_groupBy f xs (f x)
    rw [found] at own
    have listed : x ∈ xs.filter fun y => f y = f x := List.mem_filter.mpr ⟨mem, decide_eq_true rfl⟩
    rw [← own] at listed
    cases listed

/-- A key with items has all of them. -/
theorem get_groupBy_eq (f : α → κ) (xs : List α) (k : κ) :
    get k (groupBy f xs) = if (xs.filter fun x => f x = k) = [] then none else some (xs.filter fun x => f x = k) := by
  have all := get_groupBy f xs k
  cases found : get k (groupBy f xs) with
  | some group =>
    rw [found, Option.getD_some] at all
    rw [← all, if_neg]
    intro empty
    obtain ⟨x, mem, same⟩ := mem_keys_groupBy.mp (mem_keys_of_get found)
    have listed : x ∈ xs.filter fun y => f y = k := List.mem_filter.mpr ⟨mem, decide_eq_true same⟩
    rw [← all, empty] at listed
    cases listed
  | none =>
    rw [found, Option.getD_none] at all
    rw [← all, if_pos rfl]

/-- The items of the groups are the items. -/
theorem flatMap_groupBy_perm (f : α → κ) (xs : List α) : ((groupBy f xs).flatMap Prod.snd).Perm xs := by
  have file_perm : ∀ (k : κ) (a : α) (d : Dict κ (List α)),
      ((file k a d).flatMap Prod.snd).Perm (d.flatMap Prod.snd ++ [a]) := by
    intro k a d
    unfold file
    induction d with
    | nil => simp [set]
    | cons e d ih =>
      by_cases same : e.1 = k
      · have moved : (e.2 ++ [a] ++ d.flatMap Prod.snd).Perm (e.2 ++ (d.flatMap Prod.snd ++ [a])) := by
          rw [List.append_assoc]
          exact List.perm_append_comm.append_left e.2
        simpa [set, get, same] using moved
      · simpa [set, get, same] using ih.append_left e.2
  induction xs using List.reverseRecOn with
  | nil => exact .nil
  | append_singleton xs x ih =>
    rw [groupBy_snoc]
    exact (file_perm _ _ _).trans (ih.append_right [x])

/-- A listed group is all the items of its key. -/
theorem snd_of_mem_groupBy {e : κ × List α} (mem : e ∈ groupBy f xs) :
    e.2 = xs.filter fun x => f x = e.1 := by
  have found := get_of_mem (nodup_keys_groupBy f xs) mem
  have own := get_groupBy f xs e.1
  rw [found] at own
  exact own

end Grouping

end Dict

end AdvanceTrading
