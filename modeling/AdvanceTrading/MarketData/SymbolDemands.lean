import AdvanceTrading.Misc.Dict
import AdvanceTrading.Misc.Machine
import AdvanceTrading.Misc.PyText
import Mathlib.Algebra.Order.Ring.Rat
import Mathlib.Data.Prod.Lex
import Mathlib.Data.String.Basic
import Mathlib.Tactic.Linarith
import Mathlib.Tactic.NormNum

/-!
# The symbol set of a broker session

Model of `plan_symbols` and `SessionSymbols` (`app/market_data/fanin.py:127-255`)
for one session. Times are epoch seconds, exact. The set is kept in the process
and mirrored to a store that other processes read; the store may be away, or let
the value expire. The figures a page shows of a plan are left out.
-/

namespace AdvanceTrading.FanIn

/-- `Priority`: the lower value wins a slot first. -/
inductive Priority where
  | position
  | chart
  | watchlist
  | screener
  deriving DecidableEq, Repr

def Priority.value : Priority → Nat
  | .position => 1
  | .chart => 2
  | .watchlist => 3
  | .screener => 4

/-- `IDLE_SECONDS`. -/
def idleSeconds : Priority → Option ℚ
  | .position => none
  | .chart => some 600
  | .watchlist => some 1800
  | .screener => some 900

/-- `[priority, last_seen, first_seen, held_seen]`. -/
structure Entry where
  priority : Priority
  lastSeen : ℚ
  firstSeen : ℚ
  heldSeen : ℚ
  deriving DecidableEq, Repr

/-- "EXCH:SYMBOL" to its entry. -/
abbrev Entries := Dict String Entry

/-- `_key`. -/
def keyOf (symbol exchange : String) : String :=
  Py.upper (Py.strip (if exchange = "" then "NSE" else exchange)) ++ ":" ++ Py.upper (Py.strip symbol)

/-- `_split`: what stands after the first colon, and what before it. -/
def split (key : String) : String × String :=
  (String.ofList ((key.toList.dropWhile (· ≠ ':')).drop 1), String.ofList (key.toList.takeWhile (· ≠ ':')))

/-- `_rank`. -/
def rank (item : String × Entry) : Nat ×ₗ ℚ ×ₗ String :=
  if item.2.priority = .screener then toLex (item.2.priority.value, toLex (-item.2.lastSeen, item.1))
  else toLex (item.2.priority.value, toLex (item.2.firstSeen, item.1))

structure Plan where
  cap : Int
  kept : List (String × String)
  dropped : List (String × String)
  deriving DecidableEq, Repr

/-- `Plan.keeps`. -/
def Plan.keeps (plan : Plan) (symbol exchange : String) : Bool :=
  (Py.upper (Py.strip symbol), Py.upper (Py.strip exchange)) ∈ plan.kept

/-- `plan_symbols`. -/
def planSymbols (entries : Entries) (cap : Int) : Plan :=
  let ordered := sortBy rank entries
  { cap := cap
    kept := (ordered.take (max 0 cap).toNat).map fun e => split e.1
    dropped := (ordered.drop (max 0 cap).toNat).map fun e => split e.1 }

/-- The last sighting is within the idle time of the entry's priority. -/
def Entry.fresh (now : ℚ) (e : Entry) : Bool :=
  (idleSeconds e.priority).all fun idle => now - e.lastSeen ≤ idle

/-- `_prune`. -/
def prune (entries : Entries) (now : ℚ) : Entries := entries.filter fun item => item.2.fresh now

/-- The entry of a symbol after one more demand on it (`_upsert`). -/
def upserted (current : Option Entry) (priority : Priority) (now : ℚ) : Entry :=
  match current with
  | none => ⟨priority, now, now, now⟩
  | some e =>
      if priority.value ≤ e.priority.value then ⟨priority, now, e.firstSeen, now⟩
      else if (idleSeconds e.priority).any fun idle => idle < now - e.heldSeen then ⟨priority, now, e.firstSeen, now⟩
      else ⟨e.priority, now, e.firstSeen, e.heldSeen⟩

/-- `_upsert`. -/
def upsert (entries : Entries) (key : String) (priority : Priority) (now : ℚ) : Entries :=
  Dict.set key (upserted (Dict.get key entries) priority now) entries

/-- A symbol that `replace` is given: one that was at the priority keeps its place. -/
def reassert (previous : Entries) (priority : Priority) (now : ℚ) (entries : Entries)
    (symbol : String × String) : Entries :=
  let key := keyOf symbol.1 symbol.2
  match Dict.get key previous, Dict.get key entries with
  | some held, none => Dict.set key ⟨priority, now, held.firstSeen, now⟩ entries
  | _, _ => upsert entries key priority now

/-- What `replace` makes of the pruned entries. -/
def replaced (entries : Entries) (priority : Priority) (symbols : List (String × String)) (now : ℚ) : Entries :=
  symbols.foldl (reassert (entries.filter fun item => item.2.priority = priority) priority now)
    (entries.filter fun item => item.2.priority ≠ priority)

/-- One session's set as one process sees it: its own copy, and the mirror. `mirrored` says
whether the mirror can be reached. -/
structure Session where
  stored : Option Entries
  held : Entries
  deriving DecidableEq, Repr

namespace Session

/-- `load`: the mirror's set, else the process's own. -/
def load (s : Session) : Session × Entries :=
  match s.stored with
  | some entries => ({ s with held := entries }, entries)
  | none => (s, s.held)

/-- `_save`. -/
def save (mirrored : Bool) (s : Session) (entries : Entries) : Session :=
  { stored := if mirrored then some entries else s.stored, held := entries }

/-- `admit`. -/
def admitOne (mirrored : Bool) (s : Session) (symbol exchange : String) (priority : Priority) (cap : Int) (now : ℚ)
    (register : Bool) : Session × (Bool × Plan) :=
  let (s, loaded) := s.load
  let entries := upsert (prune loaded now) (keyOf symbol exchange) priority now
  let plan := planSymbols entries cap
  (if register then s.save mirrored entries else s, (plan.keeps symbol exchange, plan))

/-- The loop of `admit_many`: the set so far, and the answers. -/
def admitLoop (priority : Priority) (cap : Int) (now : ℚ) (register : Bool) :
    Entries → List (String × String) → Entries × List (Bool × Plan)
  | base, [] => (base, [])
  | base, (symbol, exchange) :: symbols =>
      let entries := upsert base (keyOf symbol exchange) priority now
      let plan := planSymbols entries cap
      let (last, answers) := admitLoop priority cap now register (if register then entries else base) symbols
      (last, (plan.keeps symbol exchange, plan) :: answers)

/-- `admit_many`. -/
def admitMany (mirrored : Bool) (s : Session) (symbols : List (String × String)) (priority : Priority) (cap : Int)
    (now : ℚ) (register : Bool) : Session × List (Bool × Plan) :=
  let (s, loaded) := s.load
  let (base, out) := admitLoop priority cap now register (prune loaded now) symbols
  (if register ∧ out ≠ [] then s.save mirrored base else s, out)

/-- `replace`. -/
def replace (mirrored : Bool) (s : Session) (priority : Priority) (symbols : List (String × String)) (now : ℚ) :
    Session :=
  let (s, loaded) := s.load
  s.save mirrored (replaced (prune loaded now) priority symbols now)

/-- `plan`. -/
def plan (s : Session) (cap : Int) (now : ℚ) : Session × Plan :=
  let (s, loaded) := s.load
  (s, planSymbols (prune loaded now) cap)

/-- The mirror no longer has the set. -/
def expire (s : Session) : Session := { s with stored := none }

end Session

/-! ## Plans -/

/-- Two symbols of a set are never of one rank. -/
theorem key_of_rank {a b : String × Entry} (same : rank a = rank b) : a.1 = b.1 := by
  unfold rank at same
  split at same <;> split at same <;>
    simp only [EmbeddingLike.apply_eq_iff_eq, Prod.mk.injEq] at same <;> exact same.2.2

/-- The plan is of the entries, keeps at most the cap, and what it keeps ranks before what it drops. -/
def Plan.Ordered (entries : Entries) (plan : Plan) : Prop :=
  plan.kept.length ≤ (max 0 plan.cap).toNat ∧
    ∃ kept dropped : List (String × Entry), (kept ++ dropped).Perm entries ∧
      plan.kept = kept.map (fun e => split e.1) ∧ plan.dropped = dropped.map (fun e => split e.1) ∧
      ∀ a ∈ kept, ∀ b ∈ dropped, rank a < rank b

theorem planSymbols_ordered {entries : Entries} (distinct : (Dict.keys entries).Nodup) (cap : Int) :
    (planSymbols entries cap).Ordered entries := by
  refine ⟨?_, (sortBy rank entries).take (max 0 cap).toNat,
    (sortBy rank entries).drop (max 0 cap).toNat, ?_, rfl, rfl, ?_⟩
  · simp only [planSymbols, List.length_map]
    exact List.length_take_le _ _
  · rw [List.take_append_drop]
    exact sortBy_perm rank entries
  · have apart : (sortBy rank entries).Pairwise fun a b => rank a < rank b := by
      have keys : (sortBy rank entries).Pairwise fun a b => a.1 ≠ b.1 := by
        have nodup : ((sortBy rank entries).map Prod.fst).Nodup :=
          ((sortBy_perm rank entries).map Prod.fst).nodup_iff.mpr distinct
        exact List.pairwise_map.mp nodup
      refine ((sortBy_sorted rank entries).and keys).imp ?_
      rintro a b ⟨le, ne⟩
      exact lt_of_le_of_ne le fun same => ne (key_of_rank same)
    have whole := List.take_append_drop (max 0 cap).toNat (sortBy rank entries)
    rw [← whole] at apart
    exact fun a before b after => (List.pairwise_append.mp apart).2.2 a before b after

end AdvanceTrading.FanIn

/-!
# Demands and the symbol set

What a session's set is for: the demands on each symbol that have not lapsed, each
symbol at the strongest of them. The set keeps one entry a symbol, so it shows the
demands as long as the entry's own demand is the one that counts. `Keeps` says of
one call when it is; it decides whether the set shows the demands after the call.
-/

namespace AdvanceTrading.FanIn

/-- When each priority's demand on one symbol was last made. -/
abbrev Demand := Priority → Option ℚ

/-- The demand at a priority has not lapsed. -/
def Stands (now : ℚ) (d : Demand) (q : Priority) : Prop :=
  ∃ made ∈ d q, ∀ idle ∈ idleSeconds q, now - made ≤ idle

instance (now : ℚ) (d : Demand) (q : Priority) : Decidable (Stands now d q) :=
  inferInstanceAs (Decidable (∃ made ∈ d q, ∀ idle ∈ idleSeconds q, now - made ≤ idle))

/-- The strongest of the demands on a symbol that have not lapsed. -/
def strongest (now : ℚ) (d : Demand) : Option Priority :=
  [Priority.position, .chart, .watchlist, .screener].find? fun q => Stands now d q

/-- The entries are the symbols with a demand that has not lapsed, each at the strongest. -/
def Shows (now : ℚ) (entries : Entries) (demands : String → Demand) : Prop :=
  ∀ key, (Dict.get key entries).map Entry.priority = strongest now (demands key)

/-- What one call does to the demands on a symbol: it makes one at a priority, ends the one at a
priority, or neither. -/
inductive Effect where
  | named (priority : Priority)
  | withdrawn (priority : Priority)
  | untouched
  deriving DecidableEq

def Effect.demand (now : ℚ) (d : Demand) : Effect → Demand
  | .named p => fun q => if q = p then some now else d q
  | .withdrawn p => fun q => if q = p then none else d q
  | .untouched => d

/-- What the call makes of the symbol's entry. -/
def Effect.entry (now : ℚ) (e : Option Entry) : Effect → Option Entry
  | .named p => some (upserted (e.filter (Entry.fresh now)) p now)
  | .withdrawn p => (e.filter (Entry.fresh now)).filter fun e => e.priority ≠ p
  | .untouched => e.filter (Entry.fresh now)

/-- The entry's own demand stands after the call; or the call names the symbol and no stronger demand on it
stands; or no demand on it stands and the call drops it. -/
def Keeps (now : ℚ) (d : Demand) (e : Entry) (effect : Effect) : Prop :=
  Stands now (effect.demand now d) e.priority ∨
    match effect with
    | .named p => ∀ q ∈ [Priority.position, .chart, .watchlist, .screener],
    Stands now (effect.demand now d) q → p.value ≤ q.value
    | .withdrawn p => (e.priority = p ∨ e.fresh now = false) ∧ strongest now (effect.demand now d) = none
    | .untouched => e.fresh now = false ∧ strongest now (effect.demand now d) = none

instance (now : ℚ) (d : Demand) (e : Entry) (effect : Effect) : Decidable (Keeps now d e effect) := by
  unfold Keeps
  cases effect <;> dsimp only <;> infer_instance

/-- What an entry knows of the demands on its symbol: when the one at its priority was made, and that no
stronger one stood at the last call. -/
def Tracks (clock : ℚ) (d : Demand) : Option Entry → Prop
  | none => ∀ q, ¬ Stands clock d q
  | some e => d e.priority = some e.heldSeen ∧ e.heldSeen ≤ e.lastSeen ∧ e.lastSeen ≤ clock ∧
      ∀ q, q.value < e.priority.value → ¬ Stands clock d q

/-! ## The strongest demand -/

variable {now clock : ℚ} {d : Demand} {p q : Priority}

theorem idle_pos {idle : ℚ} (mem : idle ∈ idleSeconds q) : 0 < idle := by
  cases q <;> simp [idleSeconds] at mem <;> subst mem <;> norm_num

theorem Priority.forall {P : Priority → Prop} :
    (∀ q, P q) ↔ P .position ∧ P .chart ∧ P .watchlist ∧ P .screener := by
  constructor
  · exact fun all => ⟨all _, all _, all _, all _⟩
  · rintro ⟨one, two, three, four⟩ q
    cases q <;> assumption

theorem strongest_eq_none : strongest now d = none ↔ ∀ q, ¬ Stands now d q := by
  unfold strongest
  rw [List.find?_eq_none, Priority.forall (P := fun q => ¬ Stands now d q)]
  simp

theorem strongest_eq_some : strongest now d = some p ↔ Stands now d p ∧ ∀ q, Stands now d q → p.value ≤ q.value := by
  unfold strongest
  rw [Priority.forall]
  by_cases one : Stands now d .position <;> by_cases two : Stands now d .chart <;>
    by_cases three : Stands now d .watchlist <;> by_cases four : Stands now d .screener <;>
    cases p <;> simp [one, two, three, four, Priority.value]

/-- A demand that has lapsed stays so. -/
theorem Stands.earlier (later : clock ≤ now) (stands : Stands now d q) : Stands clock d q := by
  obtain ⟨made, isMade, within⟩ := stands
  exact ⟨made, isMade, fun idle isIdle => (sub_le_sub_right later made).trans (within idle isIdle)⟩

/-- A demand made now stands. -/
theorem stands_now (made : d q = some now) : Stands now d q := by
  refine ⟨now, made, fun idle isIdle => ?_⟩
  rw [sub_self]
  exact (idle_pos isIdle).le

theorem stands_congr {d' : Demand} (same : d' q = d q) : Stands now d' q ↔ Stands now d q := by
  unfold Stands
  rw [same]

/-! ## One symbol through one call -/

section OneSymbol

variable {e : Entry} {effect : Effect}

theorem fresh_upserted (current : Option Entry) (p : Priority) (now : ℚ) :
    (upserted current p now).fresh now = true := by
  have seen : (upserted current p now).lastSeen = now := by
    unfold upserted
    split
    · rfl
    · split
      · rfl
      · split <;> rfl
  unfold Entry.fresh
  rw [seen, Option.all_eq_true]
  intro idle mem
  simpa using (idle_pos mem).le

/-- An entry whose own demand stands is not pruned. -/
theorem fresh_of_stands (held : d e.priority = some e.heldSeen) (seen : e.heldSeen ≤ e.lastSeen)
    (stands : Stands now d e.priority) : e.fresh now = true := by
  obtain ⟨made, isMade, within⟩ := stands
  cases held.symm.trans isMade
  unfold Entry.fresh
  rw [Option.all_eq_true]
  intro idle mem
  exact decide_eq_true ((sub_le_sub_left seen now).trans (within idle mem))

/-- A weaker demand takes the entry over exactly when the entry's own demand has lapsed. -/
theorem upserted_weaker (held : d e.priority = some e.heldSeen) (weaker : e.priority.value < p.value) :
    upserted (some e) p now = if Stands now d e.priority then ⟨e.priority, now, e.firstSeen, e.heldSeen⟩
      else ⟨p, now, e.firstSeen, now⟩ := by
  have lapsed : ((idleSeconds e.priority).any fun idle => idle < now - e.heldSeen) = true ↔
      ¬ Stands now d e.priority := by
    unfold Stands
    rw [held, Option.any_eq_true]
    simp only [Option.mem_def, Option.some.injEq, exists_eq_left', not_forall, not_le, decide_eq_true_eq, exists_prop]
  unfold upserted
  dsimp only
  rw [if_neg (not_le.mpr weaker)]
  by_cases stands : Stands now d e.priority
  · rw [if_neg (lapsed.not.mpr (not_not.mpr stands)), if_pos stands]
  · rw [if_pos (lapsed.mpr stands), if_neg stands]

variable {current : Option Entry}
variable (tracks : Tracks clock d current)
include tracks

/-- What a call that names the symbol makes of its entry: the stronger demand it holds, refreshed, or the
new one. -/
theorem named_entry (p : Priority) (now : ℚ) :
    (∃ e ∈ current, e.priority.value < p.value ∧ Stands now d e.priority ∧
      upserted (current.filter (Entry.fresh now)) p now = ⟨e.priority, now, e.firstSeen, e.heldSeen⟩) ∨
    ((∀ e ∈ current, e.priority.value < p.value → ¬ Stands now d e.priority) ∧
      ∃ first, upserted (current.filter (Entry.fresh now)) p now = ⟨p, now, first, now⟩) := by
  cases current with
  | none => exact .inr ⟨by simp, now, rfl⟩
  | some e =>
    obtain ⟨held, seen, -, -⟩ := tracks
    cases fresh : e.fresh now with
    | false =>
      refine .inr ⟨?_, now, ?_⟩
      · rintro _ ⟨⟩ - stands
        rw [fresh_of_stands held seen stands] at fresh
        cases fresh
      · rw [Option.filter_some, if_neg (by simp [fresh])]
        rfl
    | true =>
      rw [Option.filter_some, if_pos fresh]
      rcases le_or_gt p.value e.priority.value with stronger | weaker
      · refine .inr ⟨?_, e.firstSeen, ?_⟩
        · rintro _ ⟨⟩ weaker
          omega
        · unfold upserted
          dsimp only
          rw [if_pos stronger]
      · rw [upserted_weaker held weaker]
        by_cases stands : Stands now d e.priority
        · exact .inl ⟨e, rfl, weaker, stands, by rw [if_pos stands]⟩
        · refine .inr ⟨?_, e.firstSeen, by rw [if_neg stands]⟩
          rintro _ ⟨⟩ -
          exact stands

theorem named_shows (later : clock ≤ now) (p : Priority) :
    (((Effect.named p).entry now current).map Entry.priority = strongest now ((Effect.named p).demand now d)) ↔
      ∀ e ∈ current, Keeps now d e (.named p) := by
  have other {q : Priority} (ne : q ≠ p) : Stands now ((Effect.named p).demand now d) q ↔ Stands now d q :=
    stands_congr (if_neg ne)
  have own : Stands now ((Effect.named p).demand now d) p := stands_now (if_pos rfl)
  have listed (q : Priority) : q ∈ [Priority.position, .chart, .watchlist, .screener] := by cases q <;> simp
  show (some _).map Entry.priority = _ ↔ _
  rcases named_entry tracks p now with ⟨e, rfl, weaker, stands, isEntry⟩ | ⟨lapsed, first, isEntry⟩
  · -- the stronger demand the entry holds
    rw [isEntry]
    have apart : e.priority ≠ p := by
      rintro same
      rw [same] at weaker
      exact lt_irrefl _ weaker
    refine iff_of_true ?_ ?_
    · refine (strongest_eq_some.mpr ⟨(other apart).mpr stands, fun q standing => ?_⟩).symm
      by_contra stronger
      have ne : q ≠ p := by
        rintro rfl
        omega
      exact tracks.2.2.2 q (by omega) (((other ne).mp standing).earlier later)
    · rintro _ ⟨⟩
      exact .inl ((other apart).mpr stands)
  · -- the demand just made
    rw [isEntry]
    show some p = _ ↔ _
    rw [eq_comm, strongest_eq_some]
    constructor
    · rintro ⟨-, least⟩ e -
      exact .inr fun q _ => least q
    · intro keeps
      refine ⟨own, fun q standing => ?_⟩
      by_cases same : q = p
      · rw [same]
      have before := ((other same).mp standing).earlier later
      cases current with
      | none => exact absurd before (tracks q)
      | some e =>
        rcases keeps e rfl with stands | least
        · have notStronger : e.priority.value ≤ q.value := not_lt.mp fun stronger => tracks.2.2.2 q stronger before
          by_cases isP : e.priority = p
          · rwa [isP] at notStronger
          · exact (not_lt.mp fun weaker => lapsed e rfl weaker ((other isP).mp stands)).trans notStronger
        · exact least q (listed q) standing

omit tracks in
/-- A call that does not name the symbol keeps its entry, or drops it. -/
theorem unnamed_shows {d' : Demand} {e : Entry} (tracks : Tracks clock d (some e)) (later : clock ≤ now) {keep : Bool}
    (fewer : ∀ q, Stands now d' q → Stands now d q) (dropped : keep = false → ¬ Stands now d' e.priority) :
    ((((some e).filter (Entry.fresh now)).filter fun _ => keep).map Entry.priority = strongest now d') ↔
      Stands now d' e.priority ∨ ((e.fresh now = false ∨ keep = false) ∧ strongest now d' = none) := by
  obtain ⟨held, seen, -, stronger⟩ := tracks
  by_cases stands : Stands now d' e.priority
  · have isKept : keep = true := by
      cases keep with
      | true => rfl
      | false => exact absurd stands (dropped rfl)
    have fresh := fresh_of_stands held seen (fewer _ stands)
    refine iff_of_true ?_ (.inl stands)
    simp only [Option.filter_some, fresh, isKept, if_true, Option.map_some]
    refine (strongest_eq_some.mpr ⟨stands, fun q standing => ?_⟩).symm
    exact not_lt.mp fun less => stronger q less ((fewer q standing).earlier later)
  · simp only [stands, false_or]
    cases fresh : e.fresh now <;> cases keep <;> simp [Option.filter, fresh, eq_comm]
    intro isStrongest
    exact stands (strongest_eq_some.mp isStrongest.symm).1

/-- After a call the entry shows the demands exactly when the call keeps it so. -/
theorem entry_shows (later : clock ≤ now) (effect : Effect) :
    ((effect.entry now current).map Entry.priority = strongest now (effect.demand now d)) ↔
      ∀ e ∈ current, Keeps now d e effect := by
  cases effect with
  | named p => exact named_shows tracks later p
  | withdrawn p =>
    have fewer (q : Priority) (stands : Stands now ((Effect.withdrawn p).demand now d) q) : Stands now d q := by
      obtain ⟨made, isMade, within⟩ := stands
      refine ⟨made, ?_, within⟩
      replace isMade : (if q = p then none else d q) = some made := isMade
      split at isMade
      · cases isMade
      · exact isMade
    cases current with
    | none =>
      refine iff_of_true ?_ (by simp)
      exact (strongest_eq_none.mpr fun q stands => tracks q ((fewer q stands).earlier later)).symm
    | some e =>
      have withdrawn_ : decide (e.priority ≠ p) = false →
          ¬ Stands now ((Effect.withdrawn p).demand now d) e.priority := by
        intro same
        rintro ⟨made, isMade, -⟩
        replace isMade : (if e.priority = p then none else d e.priority) = some made := isMade
        rw [if_pos (not_not.mp (of_decide_eq_false same))] at isMade
        cases isMade
      have shown := unnamed_shows tracks later fewer withdrawn_
      have same : ((some e).filter (Entry.fresh now)).filter (fun e => decide (e.priority ≠ p)) =
          ((some e).filter (Entry.fresh now)).filter fun _ => decide (e.priority ≠ p) := by
        cases fresh : e.fresh now <;> simp [Option.filter, fresh]
      show ((((some e).filter (Entry.fresh now)).filter fun e => decide (e.priority ≠ p)).map Entry.priority = _) ↔ _
      rw [same, shown]
      simp only [Option.mem_def, Option.some.injEq, forall_eq', Keeps]
      simp only [decide_eq_false_iff_not, not_not, or_comm]
  | untouched =>
    cases current with
    | none =>
      refine iff_of_true ?_ (by simp)
      exact (strongest_eq_none.mpr fun q stands => tracks q (stands.earlier later)).symm
    | some e =>
      have keeps : true = false → ¬ Stands now d e.priority := by simp
      have shown := unnamed_shows tracks later (fun q stands => stands) keeps
      have same : ((some e).filter (Entry.fresh now)).filter (fun _ => true) = (some e).filter (Entry.fresh now) := by
        cases fresh : e.fresh now <;> simp [Option.filter, fresh]
      show (((some e).filter (Entry.fresh now)).map Entry.priority = _) ↔ _
      rw [same] at shown
      rw [show Effect.untouched.demand now d = d from rfl, shown]
      simp [Keeps, show Effect.untouched.demand now d = d from rfl]

/-- An entry that shows the demands goes on knowing them. -/
theorem Tracks.after (later : clock ≤ now) {effect : Effect}
    (keeps : ∀ e ∈ current, Keeps now d e effect) :
    Tracks now (effect.demand now d) (effect.entry now current) := by
  have shown := (entry_shows tracks later effect).mpr keeps
  cases after : effect.entry now current with
  | none =>
    rw [after] at shown
    exact strongest_eq_none.mp shown.symm
  | some e' =>
    rw [after] at shown
    have stronger (q : Priority) (less : q.value < e'.priority.value) : ¬ Stands now
        (effect.demand now d) q := fun stands =>
      absurd ((strongest_eq_some.mp shown.symm).2 q stands) (not_le.mpr less)
    suffices known : effect.demand now d e'.priority = some e'.heldSeen ∧
        e'.heldSeen ≤ e'.lastSeen ∧ e'.lastSeen ≤ now from
      ⟨known.1, known.2.1, known.2.2, stronger⟩
    cases effect with
    | named p =>
      cases after
      rcases named_entry tracks p now with ⟨e, rfl, weaker, -, isEntry⟩ | ⟨-, first, isEntry⟩
      · rw [isEntry]
        obtain ⟨held, seen, before, -⟩ := tracks
        have apart : e.priority ≠ p := by
          rintro same
          rw [same] at weaker
          exact lt_irrefl _ weaker
        exact ⟨(if_neg apart).trans held, (seen.trans before).trans later, le_rfl⟩
      · rw [isEntry]
        exact ⟨if_pos rfl, le_rfl, le_rfl⟩
    | withdrawn p =>
      obtain ⟨kept, other⟩ := Option.filter_eq_some_iff.mp after
      obtain ⟨rfl, -⟩ := Option.filter_eq_some_iff.mp kept
      obtain ⟨held, seen, before, -⟩ := tracks
      exact ⟨(if_neg (of_decide_eq_true other)).trans held, seen, before.trans later⟩
    | untouched =>
      obtain ⟨rfl, -⟩ := Option.filter_eq_some_iff.mp after
      obtain ⟨held, seen, before, -⟩ := tracks
      exact ⟨held, seen, before.trans later⟩

end OneSymbol

end AdvanceTrading.FanIn
