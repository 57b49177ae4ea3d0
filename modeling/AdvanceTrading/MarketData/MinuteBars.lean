import AdvanceTrading.MarketData.BarBuilder
import Mathlib.Data.List.Forall2

/-!
# The minute builder, seen at one key

What `close_due` and `suppress` do to the open bars of a key.
-/

namespace AdvanceTrading.MarketData

open TriggerRules (minuteUs istDay)
open MarketLake

/-- Of two lists that are related throughout, each has a partner of any member of the other. -/
theorem partner_of_right {α β : Type} {R : α → β → Prop} {xs : List α} {ys : List β}
    (all : List.Forall₂ R xs ys) {y : β} (mem : y ∈ ys) : ∃ x ∈ xs, R x y := by
  induction all with
  | nil => cases mem
  | cons related _ ih =>
    rcases List.mem_cons.mp mem with rfl | later
    · exact ⟨_, List.mem_cons_self, related⟩
    · obtain ⟨x, mem, related⟩ := ih later
      exact ⟨x, List.mem_cons_of_mem _ mem, related⟩

theorem partner_of_left {α β : Type} {R : α → β → Prop} {xs : List α} {ys : List β}
    (all : List.Forall₂ R xs ys) {x : α} (mem : x ∈ xs) : ∃ y ∈ ys, R x y :=
  partner_of_right (List.Forall₂.flip (R := fun y x => R x y) all) mem

variable {key : String} {b : MinuteBarBuilder} {now : Int}

/-- The bar that is handed out for an open one, its volume aside. -/
structure Closes (key : String) (o : OpenBar) (bar : FeedBar) : Prop where
  instrumentKey : bar.instrumentKey = key
  timeframe : bar.timeframe = 1
  ts : bar.ts = o.start + minuteUs
  open_ : bar.open_ = o.open_
  high : bar.high = o.high
  low : bar.low = o.low
  close : bar.close = o.close

namespace MinuteBarBuilder

@[simp] theorem opened_setBars (b : MinuteBarBuilder) (key : String) (bars : List OpenBar) :
    (b.setBars key bars).opened key = bars := by
  simp [opened, setBars]

theorem opened_setBars_of_ne {key' : String} (b : MinuteBarBuilder) (bars : List OpenBar)
    (ne : key' ≠ key) : (b.setBars key bars).opened key' = b.opened key' := by
  simp [opened, setBars, ne]

theorem volume_spec (b : MinuteBarBuilder) (key : String) (bar : OpenBar) :
    (b.volume key bar).2.opens = b.opens ∧ (b.volume key bar).2.grace = b.grace := by
  unfold volume
  split <;> exact ⟨rfl, rfl⟩

theorem handOut_spec (b : MinuteBarBuilder) (key : String) (bar : OpenBar) :
    Closes key bar (b.handOut key bar).1 ∧ (b.handOut key bar).2.grace = b.grace ∧
      (b.handOut key bar).2.opened key = ((b.opened key).filter fun o => o.start ≠ bar.start) ∧
      ∀ key', key' ≠ key → (b.handOut key bar).2.opened key' = b.opened key' := by
  generalize popped : b.setBars key ((b.opened key).filter fun o => o.start ≠ bar.start) = b'
  obtain ⟨opens, grace⟩ := volume_spec b' key bar
  have views : ∀ key', (b.handOut key bar).2.opened key' = b'.opened key' := by
    intro key'
    unfold opened handOut
    rw [popped]
    exact congrArg (fun d => (Dict.get key' d).getD []) opens
  subst popped
  refine ⟨?_, grace, ?_, ?_⟩
  · constructor <;> rfl
  · rw [views, opened_setBars]
  · intro key' ne
    rw [views, opened_setBars_of_ne _ _ ne]

/-- An open bar whose minute ended the grace window ago. -/
def Due (grace now : Int) (o : OpenBar) : Prop := o.start + minuteUs + grace ≤ now

instance (grace now : Int) : DecidablePred (Due grace now) := fun _ =>
  inferInstanceAs (Decidable (_ ≤ _))

theorem closeBars_spec (now : Int) (key : String) (b : MinuteBarBuilder) (bars : List OpenBar)
    (sorted : bars.Pairwise fun o o' => o.start ≤ o'.start) :
    List.Forall₂ (Closes key) (bars.filter (Due b.grace now)) (closeBars now key b bars).1 ∧
      (closeBars now key b bars).2.grace = b.grace ∧
      (closeBars now key b bars).2.opened key
        = ((b.opened key).filter fun o => o.start ∉ (bars.filter (Due b.grace now)).map (·.start)) ∧
      ∀ key', key' ≠ key → (closeBars now key b bars).2.opened key' = b.opened key' := by
  induction bars generalizing b with
  | nil => exact ⟨List.Forall₂.nil, rfl, by simp [closeBars], fun _ _ => rfl⟩
  | cons bar bars ih =>
    obtain ⟨first, rest⟩ := List.pairwise_cons.mp sorted
    unfold closeBars
    split
    · rename_i early
      have none_ : (bar :: bars).filter (Due b.grace now) = [] := by
        apply List.filter_eq_nil_iff.mpr
        intro o mem due
        have due : o.start + minuteUs + b.grace ≤ now := of_decide_eq_true due
        rcases List.mem_cons.mp mem with rfl | later
        · omega
        · have := first o later
          omega
      rw [none_]
      exact ⟨List.Forall₂.nil, rfl, by simp, fun _ _ => rfl⟩
    · rename_i late
      obtain ⟨closes, grace, own, others⟩ := b.handOut_spec key bar
      obtain ⟨out, grace', own', others'⟩ := ih (b.handOut key bar).2 rest
      have due : Due b.grace now bar := not_lt.mp late
      simp only [grace] at out own'
      rw [List.filter_cons_of_pos (by simpa using due)]
      refine ⟨List.Forall₂.cons closes out, grace'.trans grace, ?_, ?_⟩
      · dsimp only
        rw [own', own, List.filter_filter]
        apply List.filter_congr
        intro o _
        by_cases same : o.start = bar.start <;> simp [same]
      · intro key' ne
        exact (others' key' ne).trans (others key' ne)

/-- The bars of a key that are due, oldest first. -/
def dueBars (b : MinuteBarBuilder) (now : Int) (key : String) : List OpenBar :=
  (sortBy (·.start) (b.opened key)).filter (Due b.grace now)

theorem closeKey_spec (b : MinuteBarBuilder) (now : Int) (key : String) :
    List.Forall₂ (Closes key) (b.dueBars now key) (b.closeKey now key).1 ∧
      (b.closeKey now key).2.grace = b.grace ∧
      (b.closeKey now key).2.opened key = ((b.opened key).filter fun o => ¬ Due b.grace now o) ∧
      ∀ key', key' ≠ key → (b.closeKey now key).2.opened key' = b.opened key' := by
  obtain ⟨out, grace, own, others⟩ := closeBars_spec now key b _ (sortBy_sorted (·.start) (b.opened key))
  have kept : ((b.opened key).filter fun o =>
      o.start ∉ ((sortBy (·.start) (b.opened key)).filter (Due b.grace now)).map (·.start))
      = (b.opened key).filter fun o => ¬ Due b.grace now o := by
    apply List.filter_congr
    intro o mem
    apply decide_eq_decide.mpr
    apply not_congr
    constructor
    · intro listed
      obtain ⟨o', due, same⟩ := List.mem_map.mp listed
      have due := of_decide_eq_true (List.mem_filter.mp due).2
      unfold Due at *
      rwa [same] at due
    · intro due
      exact List.mem_map.mpr ⟨o, List.mem_filter.mpr ⟨mem_sortBy.mpr mem, decide_eq_true due⟩, rfl⟩
  unfold closeKey
  split
  · rename_i empty
    refine ⟨?_, rfl, ?_, fun _ _ => rfl⟩
    · simp [dueBars, empty]
    · simp [empty]
  · dsimp only
    refine ⟨out, ?_, ?_, ?_⟩
    · split <;> exact grace
    · rw [← kept, ← own]
      split
      · rename_i empty
        rw [empty]
        simp [opened]
      · rfl
    · intro key' ne
      rw [← others key' ne]
      split
      · unfold opened
        rw [Dict.get_pop_of_ne _ ne]
      · rfl

theorem suppressKeys_spec (start stop : Int) (b : MinuteBarBuilder) (keys : List String)
    (key : String) :
    (suppressKeys start stop b keys).2.grace = b.grace ∧
      (suppressKeys start stop b keys).2.opened key =
        if key ∈ keys then (b.opened key).filter fun o => ¬ (start ≤ o.start ∧ o.start < stop)
        else b.opened key := by
  induction keys generalizing b with
  | nil => exact ⟨rfl, rfl⟩
  | cons k keys ih =>
    obtain ⟨grace, own⟩ := ih (b.suppressKey start stop k).2
    have first : ∀ key', (b.suppressKey start stop k).2.opened key' =
        if key' = k then (b.opened k).filter fun o => ¬ (start ≤ o.start ∧ o.start < stop)
        else b.opened key' := by
      intro key'
      unfold suppressKey opened
      dsimp only
      by_cases same : key' = k
      · subst same
        cases found : Dict.get key' b.opens <;> simp [found]
      · cases found : Dict.get k b.opens <;> simp [same]
    refine ⟨grace, ?_⟩
    change (suppressKeys start stop (b.suppressKey start stop k).2 keys).2.opened key = _
    rw [own, first]
    by_cases same : key = k
    · subst same
      simp [List.filter_filter]
    · simp [same]

end MinuteBarBuilder

end AdvanceTrading.MarketData
