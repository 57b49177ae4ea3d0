import AdvanceTrading.Misc.Tallies

/-!
# Entry slots of a day

Model of `reserve_entry`, `release_entry` and `releases_unused_entry_slot`
(`app/risk_engine/by_default.py:565-618`) on one user's account row, with any
number of order pipelines. Each UPDATE is one statement; the day is read from
the clock where the source reads it, before the activity and again in the
release. Days are counted.
-/

namespace AdvanceTrading.EntrySlots

/-- What the pipelines share: the clock's IST day, the account row and the entries made on each day. -/
structure Account where
  today : Nat
  entriesDay : Option Nat
  entriesCount : Nat
  entered : Nat → Nat
  /-- The releases that changed the row: the day the entry took its slot on, and the day it was given back to. -/
  givenBack : List (Nat × Nat) := []

/-- Where an order pipeline is. The day is the one it reserved on. -/
inductive Pipeline where
  | waiting
  | dated (day : Nat)
  /-- `day_activity` is read. -/
  | counted (day entriesToday : Nat)
  | rolled (day : Nat)
  | holding (day : Nat)
  | refused
  | placed (day : Nat)
  | incomplete (day : Nat)
  /-- The pipeline raised: the wrapper releases nothing. -/
  | raised (day : Nat)
  | releasing (day : Nat)
  | releasingOn (day today : Nat)
  | released
  deriving DecidableEq, Repr

/-- What a statement comes to. -/
inductive Outcome where
  | go
  | place
  | incomplete
  | refuse
  | raise
  /-- The UPDATE of the release raises: it is rolled back. -/
  | fail
  deriving DecidableEq, Repr

/-- An entry made on the clock's day. -/
def enter (a : Account) : Account :=
  { a with entered := Function.update a.entered a.today (a.entered a.today + 1) }

/-- A new day starts from the entries already made on it. -/
def roll (a : Account) (day entriesToday : Nat) : Account :=
  if a.entriesDay = some day then a else { a with entriesDay := some day, entriesCount := entriesToday }

/-- The conditional `entries_count + 1`: the row after it, and whether it matched. -/
def take (limit : Nat) (a : Account) (day : Nat) : Account × Bool :=
  if a.entriesDay = some day ∧ a.entriesCount < limit then ({ a with entriesCount := a.entriesCount + 1 }, true)
  else (a, false)

/-- The conditional `entries_count - 1` of an entry that reserved on `day`. -/
def giveBack (a : Account) (day today : Nat) : Account :=
  if a.entriesDay = some today ∧ 0 < a.entriesCount then
    { a with entriesCount := a.entriesCount - 1, givenBack := (day, today) :: a.givenBack }
  else a

/-- A statement of a pipeline. -/
def statement (limit : Nat) (a : Account) : Pipeline → Outcome → Option (Account × Pipeline)
  | .waiting, .go => some (a, .dated a.today)
  | .dated day, .go => some (a, .counted day (a.entered a.today))
  | .counted day entriesToday, .go => some (roll a day entriesToday, .rolled day)
  | .rolled day, .go => some ((take limit a day).1, if (take limit a day).2 then .holding day else .refused)
  | .holding day, .place => some (enter a, .placed day)
  | .holding day, .incomplete => some (enter a, .incomplete day)
  | .holding day, .refuse => some (a, .releasing day)
  | .holding day, .raise => some (a, .raised day)
  | .releasing day, .go => some (a, .releasingOn day a.today)
  | .releasingOn day today, .go => some (giveBack a day today, .released)
  | .releasingOn _ _, .fail => some (a, .released)
  | _, _ => none

/-- What happens besides: midnight passes, or an entry is made without a slot. -/
inductive Outside where
  | nextDay
  | entered
  deriving DecidableEq, Repr

def outside (a : Account) : Outside → Option Account
  | .nextDay => some { a with today := a.today + 1 }
  | .entered => some (enter a)

/-- Every interleaving of `n` pipelines, for a constant limit. -/
def pipelines (limit n : Nat) : Machine (Procs Account Pipeline n) (ProcEvent n Outcome Outside) :=
  Procs.interleave (statement limit) outside n

/-- No pipeline has begun. -/
def start (n : Nat) (a : Account) : Procs Account Pipeline n := ⟨a, fun _ => .waiting⟩

/-- The day whose slot an entry that is placed took; an INCOMPLETE structure keeps its slot. -/
def Pipeline.placedOn : Pipeline → Option Nat
  | .placed day | .incomplete day => some day
  | _ => none

/-- The day whose slot a pipeline took and has not released. -/
def Pipeline.tookOn : Pipeline → Option Nat
  | .holding day | .placed day | .incomplete day | .raised day | .releasing day | .releasingOn day _ => some day
  | _ => none

/-- The entries placed with a slot of a day. -/
def placed {n : Nat} (day : Nat) (w : Procs Account Pipeline n) : Nat := w.tally fun p => decide (p.placedOn = some day)

/-- The slots of a day that are taken. -/
def taken {n : Nat} (day : Nat) (w : Procs Account Pipeline n) : Nat := w.tally fun p => decide (p.tookOn = some day)

/-- The slots are neither oversold nor given back to another day than they were taken on. -/
structure Fair (limit : Nat) {n : Nat} (w : Procs Account Pipeline n) : Prop where
  placed : ∀ day, placed day w ≤ limit
  givenBack : ∀ e ∈ w.shared.givenBack, e.1 = e.2

/-- A roll does not go back to a day before the row's, and a release does not find the row on a later day than the
entry's own with a count to lower. -/
def OwnDay {n : Nat} (w : Procs Account Pipeline n) : ProcEvent n Outcome Outside → Prop
  | .act who .go =>
      match w.point who with
      | .counted day _ => ∀ row ∈ w.shared.entriesDay, row ≤ day
      | .releasingOn day today => day = today ∨ w.shared.entriesDay ≠ some today ∨ w.shared.entriesCount = 0
      | _ => True
  | _ => True

/-- The slots taken on a day are within the limit and counted by the row while it is on that day; none is taken of a
later day. -/
structure Counted (limit : Nat) {n : Nat} (w : Procs Account Pipeline n) : Prop where
  within : ∀ day, taken day w ≤ limit
  row : ∀ day, w.shared.entriesDay = some day → taken day w ≤ w.shared.entriesCount
  later : ∀ day, (∀ row ∈ w.shared.entriesDay, row < day) → taken day w = 0
  givenBack : ∀ e ∈ w.shared.givenBack, e.1 = e.2

section Steps

variable {limit n : Nat} {w : Procs Account Pipeline n} {who : Fin n} {a : Account} {next : Pipeline}

theorem counted_start (limit n : Nat) {a : Account} (fresh : a.givenBack = []) : Counted limit (start n a) := by
  have none_ : ∀ day, taken day (start n a) = 0 := fun day => Procs.tally_eq_zero fun _ => rfl
  refine ⟨fun day => by rw [none_]; omega, fun day _ => by rw [none_]; omega, fun day _ => none_ day, ?_⟩
  intro e mem
  rw [show (start n a).shared.givenBack = [] from fresh] at mem
  cases mem

/-- What a move does to the slots that are taken. -/
theorem taken_move (day : Nat) (who : Fin n) (a : Account) (next : Pipeline) :
    taken day (w.move who a next) + (if (w.point who).tookOn = some day then 1 else 0) =
    taken day w + if next.tookOn = some day then 1 else 0 := by
  have moved := Procs.tally_move (w := w) (fun p : Pipeline => decide (p.tookOn = some day)) who a next
  simpa [taken] using moved

/-- A move that neither takes nor releases a slot, and leaves the row alone. -/
theorem Counted.idle (inv : Counted limit w) (same : next.tookOn = (w.point who).tookOn)
    (day : a.entriesDay = w.shared.entriesDay) (count : a.entriesCount = w.shared.entriesCount)
    (log : a.givenBack = w.shared.givenBack) : Counted limit (w.move who a next) := by
  have taken_ : ∀ d, taken d (w.move who a next) = taken d w := by
    intro d
    have := taken_move (w := w) d who a next
    rw [same] at this
    omega
  refine ⟨fun d => ?_, fun d row => ?_, fun d later => ?_, ?_⟩
  · rw [taken_]
    exact inv.within d
  · rw [taken_, Procs.move_shared, count]
    exact inv.row d (day ▸ row)
  · rw [taken_]
    exact inv.later d (day ▸ later)
  · rw [Procs.move_shared, log]
    exact inv.givenBack

/-- A roll to a day from one before it: no slot of that day is taken yet. -/
theorem Counted.roll {day entriesToday : Nat} (inv : Counted limit w)
    (at_ : w.point who = .counted day entriesToday) (own : ∀ row ∈ w.shared.entriesDay, row ≤ day) :
    Counted limit (w.move who (EntrySlots.roll w.shared day entriesToday) (.rolled day)) := by
  have same : (Pipeline.rolled day).tookOn = (w.point who).tookOn := by rw [at_]; rfl
  unfold EntrySlots.roll
  split
  · exact inv.idle same rfl rfl rfl
  rename_i other
  have before : ∀ row ∈ w.shared.entriesDay, row < day := by
    intro row mem
    refine lt_of_le_of_ne (own row mem) ?_
    rintro rfl
    exact other mem
  have taken_ : ∀ d a', taken d (w.move who a' (.rolled day)) = taken d w := by
    intro d a'
    have := taken_move (w := w) d who a' (.rolled day)
    rw [same] at this
    omega
  refine ⟨fun d => ?_, fun d row => ?_, fun d later => ?_, inv.givenBack⟩
  · rw [taken_]
    exact inv.within d
  · cases row
    rw [taken_, inv.later day before]
    exact Nat.zero_le _
  · rw [taken_]
    apply inv.later d
    intro row mem
    exact (before row mem).trans (later day rfl)

/-- A slot is taken on the row's day, below the limit. -/
theorem Counted.take {day : Nat} (inv : Counted limit w) (at_ : w.point who = .rolled day) :
    Counted limit (w.move who (EntrySlots.take limit w.shared day).1
      (if (EntrySlots.take limit w.shared day).2 then .holding day else .refused)) := by
  unfold EntrySlots.take
  split
  · rename_i free
    obtain ⟨row_, below⟩ := free
    simp only [if_true]
    have taken_ : ∀ d a', taken d (w.move who a' (.holding day)) = taken d w + if day = d then 1 else 0 := by
      intro d a'
      have moved := taken_move (w := w) d who a' (.holding day)
      rw [at_] at moved
      simpa [Pipeline.tookOn] using moved
    refine ⟨fun d => ?_, fun d row => ?_, fun d later => ?_, inv.givenBack⟩
    · rw [taken_]
      split
      · rename_i here
        subst here
        have := inv.row day row_
        omega
      · exact inv.within d
    · rw [taken_]
      have := inv.row d row
      simp only [Procs.move_shared]
      split <;> omega
    · have past : day < d := later day row_
      rw [taken_, inv.later d later, if_neg (by omega)]
  · exact inv.idle (by rw [at_]; rfl) rfl rfl rfl

section

variable {day : Nat} (took : (w.point who).tookOn = some day)
include took

/-- A slot that is released is not taken any more. -/
theorem taken_release (d : Nat) (a' : Account) :
    taken d (w.move who a' .released) + (if day = d then 1 else 0) = taken d w := by
  have moved := taken_move (w := w) d who a' (.released)
  rw [took] at moved
  simpa [Pipeline.tookOn] using moved

/-- A slot is released, and the row stays as it is. -/
theorem Counted.drop (inv : Counted limit w) : Counted limit (w.move who w.shared .released) := by
  refine ⟨fun d => ?_, fun d row => ?_, fun d later => ?_, inv.givenBack⟩
  · have := taken_release took d w.shared
    have := inv.within d
    omega
  · have := taken_release took d w.shared
    have := inv.row d row
    rw [Procs.move_shared]
    omega
  · have := taken_release took d w.shared
    have := inv.later d later
    omega

/-- A slot of the row's day is released, and the row counts one less. -/
theorem Counted.lower (inv : Counted limit w) (row_ : w.shared.entriesDay = some day)
    (same : a.entriesDay = some day) (count : a.entriesCount + 1 = w.shared.entriesCount)
    (log : ∀ e ∈ a.givenBack, e.1 = e.2) : Counted limit (w.move who a .released) := by
  have released := taken_release took
  refine ⟨fun d => ?_, fun d row => ?_, fun d later => ?_, log⟩
  · have := inv.within d
    have := released d a
    omega
  · obtain rfl : day = d := Option.some.inj (same.symm.trans row)
    have := inv.row day row_
    have one := released day a
    rw [if_pos rfl] at one
    rw [Procs.move_shared]
    omega
  · have := inv.later d (row_ ▸ same ▸ later)
    have := released d a
    omega

end

/-- A slot is given back to the day it was taken on. -/
theorem Counted.giveBack {day today : Nat} (inv : Counted limit w) (at_ : w.point who = .releasingOn day today)
    (own : day = today ∨ w.shared.entriesDay ≠ some today ∨ w.shared.entriesCount = 0) :
    Counted limit (w.move who (EntrySlots.giveBack w.shared day today) .released) := by
  have took : (w.point who).tookOn = some day := by rw [at_]; rfl
  unfold EntrySlots.giveBack
  split
  · rename_i found
    obtain ⟨row_, some_⟩ := found
    obtain rfl : day = today := by
      rcases own with same | other | empty
      · exact same
      · exact absurd row_ other
      · omega
    refine inv.lower took row_ row_ (Nat.sub_add_cancel some_) ?_
    intro e mem
    rcases List.mem_cons.mp mem with rfl | before
    · rfl
    · exact inv.givenBack e before
  · exact inv.drop took

theorem Counted.step {t : Procs Account Pipeline n} {e : ProcEvent n Outcome Outside} (inv : Counted limit w)
    (own : OwnDay w e) (stepped : (pipelines limit n).step w e = some t) : Counted limit t := by
  cases e with
  | outside event =>
    obtain ⟨shared, ran, rfl⟩ := Procs.outside_eq stepped
    have same : shared.entriesDay = w.shared.entriesDay ∧ shared.entriesCount = w.shared.entriesCount ∧
        shared.givenBack = w.shared.givenBack := by
      cases event <;> cases ran <;> exact ⟨rfl, rfl, rfl⟩
    obtain ⟨day, count, log⟩ := same
    refine ⟨inv.within, fun d row => ?_, fun d later => inv.later d (day ▸ later), ?_⟩
    · show taken d w ≤ shared.entriesCount
      rw [count]
      exact inv.row d (day ▸ row)
    · show ∀ e ∈ shared.givenBack, e.1 = e.2
      rw [log]
      exact inv.givenBack
  | act who outcome =>
    obtain ⟨shared, next, ran, rfl⟩ := Procs.act_eq stepped
    cases at_ : w.point who with
    | waiting | dated | releasing =>
      rw [at_] at ran
      cases outcome <;> cases ran
      exact inv.idle (by rw [at_]; rfl) rfl rfl rfl
    | counted day entriesToday =>
      rw [at_] at ran
      cases outcome <;> cases ran
      simp only [OwnDay, at_] at own
      exact inv.roll at_ own
    | rolled day =>
      rw [at_] at ran
      cases outcome <;> cases ran
      exact inv.take at_
    | holding day =>
      rw [at_] at ran
      cases outcome <;> cases ran
      all_goals exact inv.idle (by rw [at_]; rfl) rfl rfl rfl
    | releasingOn day today =>
      rw [at_] at ran
      cases outcome <;> cases ran
      · simp only [OwnDay, at_] at own
        exact inv.giveBack at_ own
      · exact inv.drop (by rw [at_]; rfl)
    | refused | placed | incomplete | raised | released =>
      rw [at_] at ran
      cases outcome <;> cases ran

theorem Counted.fair (inv : Counted limit w) : Fair limit w where
  placed := by
    intro day
    apply (Procs.tally_le _).trans (inv.within day)
    intro point here
    cases point <;> simp_all [Pipeline.placedOn, Pipeline.tookOn]
  givenBack := inv.givenBack

end Steps

/-- While every roll and every release stays on its own day, no day's slots are oversold, and an entry that is not
placed gives back the slot it took. -/
theorem entrySlots_fair (limit n : Nat) (a : Account) (fresh : a.givenBack = []) (w : Procs Account Pipeline n)
    (es : List (ProcEvent n Outcome Outside)) (own : (pipelines limit n).Meets OwnDay (start n a) es)
    (ran : (pipelines limit n).run (start n a) es = some w) : Fair limit w := by
  have counted : Counted limit w :=
    (pipelines limit n).run_invariant (fun _ _ _ (inv : Counted limit _) own stepped => inv.step own stepped)
      (counted_start limit n fresh) own ran
  exact counted.fair

instance {n : Nat} (w : Procs Account Pipeline n) (e : ProcEvent n Outcome Outside) : Decidable (OwnDay w e) :=
  match e with
  | .act who .go =>
      match h : w.point who with
      | .counted day _ =>
          decidable_of_iff (∀ row ∈ w.shared.entriesDay, row ≤ day) (by simp only [OwnDay, h])
      | .releasingOn day today =>
          decidable_of_iff (day = today ∨ w.shared.entriesDay ≠ some today ∨ w.shared.entriesCount = 0)
            (by simp only [OwnDay, h])
      | .waiting | .dated _ | .rolled _ | .holding _ | .refused | .placed _ | .incomplete _ | .raised _ | .releasing _
      | .released => isTrue (by simp only [OwnDay, h])
  | .act _ .place | .act _ .incomplete | .act _ .refuse | .act _ .raise | .act _ .fail | .outside _ =>
      isTrue trivial

/-- A day with no entry yet. -/
def quietDay : Account := { today := 0, entriesDay := none, entriesCount := 0, entered := fun _ => 0 }

/-- The first four statements of a pipeline: the day, the activity, the roll and the slot. -/
def reserve {n : Nat} (who : Fin n) : List (ProcEvent n Outcome Outside) := List.replicate 4 (.act who .go)

/-- An entry that is refused on its own day, and one that is placed in its slot. -/
theorem entrySlots_fair_sameDay :
    ∃ w, (pipelines 1 2).run (start 2 quietDay)
        (reserve 0 ++ [.act 0 .refuse, .act 0 .go, .act 0 .go] ++ reserve 1 ++ [.act 1 .place]) = some w ∧
      Fair 1 w ∧ placed 0 w = 1 := by
  have ended : ((pipelines 1 2).run (start 2 quietDay)
      (reserve 0 ++ [.act 0 .refuse, .act 0 .go, .act 0 .go] ++ reserve 1 ++ [.act 1 .place])).any
        (fun w => decide (placed 0 w = 1)) = true := by
    decide +kernel
  obtain ⟨w, ran, one⟩ := (Option.any_eq_true _ _).mp ended
  exact ⟨w, ran, entrySlots_fair 1 2 quietDay rfl w _ (by decide +kernel) ran, of_decide_eq_true one⟩

/-- An entry reserved before midnight and released after it frees the slot of the next day's entry: a limit of one
entry a day, and two placed. -/
theorem releasedAfterMidnight_oversold :
    ∃ w, (pipelines 1 3).run (start 3 quietDay)
        (reserve 0 ++ [.act 0 .refuse, .outside .nextDay] ++ reserve 1 ++ [.act 1 .place, .act 0 .go, .act 0 .go] ++
          reserve 2 ++ [.act 2 .place]) = some w ∧ placed 1 w = 2 ∧ w.shared.givenBack = [(0, 1)] := by
  have ended : ((pipelines 1 3).run (start 3 quietDay)
      (reserve 0 ++ [.act 0 .refuse, .outside .nextDay] ++ reserve 1 ++ [.act 1 .place, .act 0 .go, .act 0 .go] ++
        reserve 2 ++ [.act 2 .place])).any
          (fun w => decide (placed 1 w = 2 ∧ w.shared.givenBack = [(0, 1)])) = true := by
    decide +kernel
  obtain ⟨w, ran, two⟩ := (Option.any_eq_true _ _).mp ended
  exact ⟨w, ran, of_decide_eq_true two⟩

end AdvanceTrading.EntrySlots
