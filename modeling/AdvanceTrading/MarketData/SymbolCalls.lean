import AdvanceTrading.MarketData.SymbolDemands

/-!
# Runs of calls on one session

The calls of one process on one session's set, in any order at non-decreasing times,
beside the demands they make. A look is a set that a call plans from, or leaves for
the next plan, with the demands it should show. A call that does not register is
answered as if it did, each of its symbols for itself.
-/

namespace AdvanceTrading.FanIn

/-- The demands on each symbol. -/
abbrev Demands := String → Demand

/-- What one registration, or one plan, asks of the set. -/
inductive Act where
  | admitOne (key : String) (priority : Priority)
  | replace (priority : Priority) (symbols : List (String × String))
  | plan

def Act.effect (key : String) : Act → Effect
  | .admitOne key' priority => if key' = key then .named priority else .untouched
  | .replace priority symbols =>
      if key ∈ symbols.map fun s => keyOf s.1 s.2 then .named priority else .withdrawn priority
  | .plan => .untouched

/-- The set after it, pruned. -/
def Act.entries (now : ℚ) (entries : Entries) : Act → Entries
  | .admitOne key priority => upsert (prune entries now) key priority now
  | .replace priority symbols => replaced (prune entries now) priority symbols now
  | .plan => prune entries now

def Act.demands (now : ℚ) (demands : Demands) (act : Act) : Demands :=
  fun key => (act.effect key).demand now (demands key)

/-- A call on the session; `register` as the caller asks. -/
inductive Call where
  | admitOne (symbol exchange : String) (priority : Priority) (cap : Int) (register : Bool)
  | admitMany (symbols : List (String × String)) (priority : Priority) (cap : Int) (register : Bool)
  | replace (priority : Priority) (symbols : List (String × String))
  | plan (cap : Int)

/-- What the call asks of the set, in turn. -/
def Call.acts : Call → List Act
  | .admitOne symbol exchange priority _ _ => [.admitOne (keyOf symbol exchange) priority]
  | .admitMany symbols priority _ _ => symbols.map fun s => .admitOne (keyOf s.1 s.2) priority
  | .replace priority symbols => [.replace priority symbols]
  | .plan .. => [.plan]

/-- The call saves what it makes of the set. -/
def Call.saves : Call → Bool
  | .admitOne _ _ _ _ register | .admitMany _ _ _ register => register
  | .replace .. => true
  | .plan _ => false

/-- The call, and the plans it makes. -/
def Call.run (mirrored : Bool) (s : Session) (now : ℚ) : Call → Session × List Plan
  | .admitOne symbol exchange priority cap register =>
      let (s, answer) := s.admitOne mirrored symbol exchange priority cap now register
      (s, [answer.2])
  | .admitMany symbols priority cap register =>
      let (s, answers) := s.admitMany mirrored symbols priority cap now register
      (s, answers.map Prod.snd)
  | .replace priority symbols => (s.replace mirrored priority symbols now, [])
  | .plan cap => ((s.plan cap now).1, [(s.plan cap now).2])

/-- The cap of the plans the call makes. -/
def Call.cap : Call → Option Int
  | .admitOne _ _ _ cap _ | .admitMany _ _ cap _ | .plan cap => some cap
  | .replace .. => none

/-- `admit` called for each symbol in turn. -/
def admitInTurn (mirrored : Bool) (priority : Priority) (cap : Int) (now : ℚ) (register : Bool) :
    Session → List (String × String) → Session × List (Bool × Plan)
  | s, [] => (s, [])
  | s, (symbol, exchange) :: symbols =>
      let (s, answer) := s.admitOne mirrored symbol exchange priority cap now register
      let (s, answers) := admitInTurn mirrored priority cap now register s symbols
      (s, answer :: answers)

/-- The sets the acts plan from or leave, with the demands each should show. -/
def looks (now : ℚ) (saves : Bool) : Entries → Demands → List Act → List (Entries × Demands)
  | _, _, [] => []
  | entries, demands, act :: acts =>
      (act.entries now entries, act.demands now demands) ::
        looks now saves (if saves then act.entries now entries else entries)
          (if saves then act.demands now demands else demands) acts

/-- Each act keeps the entry of each symbol of the set. -/
def Sustains (now : ℚ) (saves : Bool) : Entries → Demands → List Act → Prop
  | _, _, [] => True
  | entries, demands, act :: acts =>
      (∀ item ∈ entries, Keeps now (demands item.1) item.2 (act.effect item.1)) ∧
        Sustains now saves (if saves then act.entries now entries else entries)
          (if saves then act.demands now demands else demands) acts

instance decidableSustains (now : ℚ) (saves : Bool) :
    ∀ entries demands acts, Decidable (Sustains now saves entries demands acts)
  | _, _, [] => isTrue trivial
  | entries, demands, act :: acts =>
      have := decidableSustains now saves (if saves then act.entries now entries else entries)
        (if saves then act.demands now demands else demands) acts
      inferInstanceAs (Decidable (_ ∧ _))

/-- The set that `load` gives. -/
def Session.set (s : Session) : Entries := s.stored.getD s.held

/-- The session, the demands made on it, and the time of the last call. -/
structure World where
  session : Session
  demands : Demands
  clock : ℚ

inductive Event where
  | call (now : ℚ) (call : Call)
  | expire

def World.call (mirrored : Bool) (w : World) (now : ℚ) (call : Call) : World where
  session := (call.run mirrored w.session now).1
  demands := if call.saves then call.acts.foldl (Act.demands now) w.demands else w.demands
  clock := now

/-- The calls of one process, at non-decreasing times, on a mirror that is reached or not. -/
def calls (mirrored : Bool) : Machine World Event where
  step w
    | .call now call => if w.clock ≤ now then some (w.call mirrored now call) else none
    | .expire => some { w with session := w.session.expire }

/-- Nothing is wanted yet. -/
def unwanted (clock : ℚ) : World := ⟨⟨none, []⟩, fun _ _ => none, clock⟩

/-- Every set the call plans from or leaves shows the demands. -/
def Exact (w : World) : Event → Prop
  | .call now call => ∀ look ∈ looks now call.saves w.session.set w.demands call.acts, Shows now look.1 look.2
  | .expire => True

/-- The call keeps every entry of the set. -/
def Sustained (w : World) : Event → Prop
  | .call now call => Sustains now call.saves w.session.set w.demands call.acts
  | .expire => True

instance (w : World) : ∀ event, Decidable (Sustained w event)
  | .call now call => decidableSustains now call.saves w.session.set w.demands call.acts
  | .expire => isTrue trivial

/-! ## One act -/

variable {entries previous : Entries} {symbol : String × String} {priority : Priority}

section Acts

variable {now clock : ℚ} {entries : Entries} {demands : Demands}

section

variable (distinct : (Dict.keys entries).Nodup)
include distinct

theorem get_prune (key : String) :
    Dict.get key (prune entries now) = (Dict.get key entries).filter (Entry.fresh now) :=
  Dict.get_filter distinct key

theorem nodup_prune : (Dict.keys (prune entries now)).Nodup :=
  Dict.nodup_keys_filter distinct

omit distinct in
/-- A demand made twice at one time changes nothing the second time. -/
theorem upserted_again (current : Option Entry) (p : Priority) (now : ℚ) :
    upserted (some (upserted current p now)) p now = upserted current p now := by
  unfold upserted
  cases current with
  | none => simp
  | some e =>
    by_cases stronger : p.value ≤ e.priority.value
    · simp [stronger]
    · by_cases lapsed : ((idleSeconds e.priority).any fun idle => idle < now - e.heldSeen) = true
      · simp [stronger, lapsed]
      · simp [stronger, lapsed]

omit distinct in
theorem reassert_other {key : String} (other : key ≠ keyOf symbol.1 symbol.2) :
    Dict.get key (reassert previous priority now entries symbol) = Dict.get key entries := by
  unfold reassert
  dsimp only
  split
  · exact Dict.get_set_of_ne _ _ other
  · exact Dict.get_set_of_ne _ _ other

omit distinct in
theorem reassert_self (previous entries : Entries) (priority : Priority) (symbol : String × String) :
    Dict.get (keyOf symbol.1 symbol.2) (reassert previous priority now entries symbol) =
      match Dict.get (keyOf symbol.1 symbol.2) previous, Dict.get (keyOf symbol.1 symbol.2) entries with
      | some held, none => some ⟨priority, now, held.firstSeen, now⟩
      | _, current => some (upserted current priority now) := by
  unfold reassert upsert
  dsimp only
  cases Dict.get (keyOf symbol.1 symbol.2) previous with
  | none => exact Dict.get_set_self ..
  | some held =>
    cases Dict.get (keyOf symbol.1 symbol.2) entries with
    | none => exact Dict.get_set_self ..
    | some current => exact Dict.get_set_self ..

theorem nodup_reassert : (Dict.keys (reassert previous priority now entries symbol)).Nodup := by
  unfold reassert
  dsimp only
  split
  · exact Dict.nodup_keys_set distinct
  · exact Dict.nodup_keys_set distinct

theorem nodup_replaced (priority : Priority) (symbols : List (String × String)) :
    (Dict.keys (replaced entries priority symbols now)).Nodup := by
  unfold replaced
  induction symbols using List.reverseRecOn with
  | nil => exact Dict.nodup_keys_filter distinct
  | append_singleton symbols symbol ih =>
    rw [List.foldl_append]
    exact nodup_reassert ih

/-- `replace` names the symbols it is given, and drops the other entries of the priority. -/
theorem get_replaced (priority : Priority) (symbols : List (String × String))
    (now : ℚ) (key : String) :
    Dict.get key (replaced entries priority symbols now) =
      if key ∈ symbols.map (fun s => keyOf s.1 s.2) then some (upserted (Dict.get key entries) priority now)
      else (Dict.get key entries).filter fun e => e.priority ≠ priority := by
  unfold replaced
  induction symbols using List.reverseRecOn with
  | nil => exact Dict.get_filter distinct key
  | append_singleton symbols symbol ih =>
    rw [List.foldl_append, List.foldl_cons, List.foldl_nil, List.map_append, List.map_singleton]
    by_cases same : key = keyOf symbol.1 symbol.2
    · subst same
      rw [if_pos (by simp), reassert_self, ih, Dict.get_filter distinct]
      by_cases listed : keyOf symbol.1 symbol.2 ∈ symbols.map fun s => keyOf s.1 s.2
      · simp only [if_pos listed]
        split
        · contradiction
        · rw [upserted_again]
      · simp only [if_neg listed]
        cases Dict.get (keyOf symbol.1 symbol.2) entries with
        | none => rfl
        | some e =>
          -- an entry of the priority keeps its place; another is weighed against the demand
          by_cases isPriority : e.priority = priority
          · simp [Option.filter, isPriority, upserted]
          · simp [Option.filter, isPriority]
    · rw [reassert_other same, ih]
      simp only [List.mem_append, List.mem_singleton, same, or_false]

/-- Each symbol's entry after an act is what the act does to that symbol. -/
theorem get_act (act : Act) (now : ℚ) (key : String) :
    Dict.get key (act.entries now entries) = (act.effect key).entry now (Dict.get key entries) := by
  cases act with
  | admitOne key' priority =>
    by_cases same : key = key'
    · subst same
      simp only [Act.entries, Act.effect, if_true, Effect.entry, upsert, Dict.get_set_self, get_prune distinct]
    · simp only [Act.entries, Act.effect, if_neg (Ne.symm same), Effect.entry, upsert,
        Dict.get_set_of_ne _ _ same, get_prune distinct]
  | replace priority symbols =>
    simp only [Act.entries, Act.effect, get_replaced (nodup_prune distinct), get_prune distinct]
    split <;> rfl
  | plan => exact get_prune distinct key

theorem nodup_act (act : Act) : (Dict.keys (act.entries now entries)).Nodup := by
  cases act with
  | admitOne key priority => exact Dict.nodup_keys_set (nodup_prune distinct)
  | replace priority symbols => exact nodup_replaced (nodup_prune distinct) priority symbols
  | plan => exact nodup_prune distinct

end

/-- The set knows of the demands on each symbol what an entry can. -/
structure Known (clock : ℚ) (entries : Entries) (demands : Demands) : Prop where
  distinct : (Dict.keys entries).Nodup
  tracks : ∀ key, Tracks clock (demands key) (Dict.get key entries)

section

variable (known : Known clock entries demands)
include known

theorem Known.later (later : clock ≤ now) : Known now entries demands where
  distinct := known.distinct
  tracks key := by
    have before := known.tracks key
    cases found : Dict.get key entries with
    | none =>
      rw [found] at before
      exact fun q stands => before q (stands.earlier later)
    | some e =>
      rw [found] at before
      exact ⟨before.1, before.2.1, before.2.2.1.trans later,
        fun q less stands => before.2.2.2 q less (stands.earlier later)⟩

omit known in
/-- What holds of the entry of every symbol holds of every item. -/
theorem forall_items (distinct : (Dict.keys entries).Nodup) {P : String → Entry → Prop} :
    (∀ item ∈ entries, P item.1 item.2) ↔ ∀ key, ∀ e ∈ Dict.get key entries, P key e := by
  constructor
  · intro all key e found
    exact all (key, e) (Dict.mem_of_get found)
  · rintro all ⟨key, e⟩ mem
    exact all key e (Dict.get_of_mem distinct mem)

/-- An act shows the demands exactly when it keeps every entry. -/
theorem act_shows (later : clock ≤ now) (act : Act) :
    Shows now (act.entries now entries) (act.demands now demands) ↔
      ∀ item ∈ entries, Keeps now (demands item.1) item.2 (act.effect item.1) := by
  rw [forall_items known.distinct (P := fun key e => Keeps now (demands key) e (act.effect key))]
  apply forall_congr'
  intro key
  rw [get_act known.distinct]
  exact entry_shows (known.tracks key) later (act.effect key)

theorem Known.act (later : clock ≤ now) {act : Act}
    (keeps : ∀ item ∈ entries, Keeps now (demands item.1) item.2 (act.effect item.1)) :
    Known now (act.entries now entries) (act.demands now demands) where
  distinct := nodup_act known.distinct act
  tracks key := by
    rw [get_act known.distinct]
    rw [forall_items known.distinct (P := fun key e => Keeps now (demands key) e (act.effect key))] at keeps
    exact (known.tracks key).after later (keeps key)

/-- The looks of a call show the demands exactly when its acts keep every entry. -/
theorem looks_show (later : clock ≤ now) (saves : Bool) (acts : List Act) :
    (∀ look ∈ looks now saves entries demands acts, Shows now look.1 look.2) ↔
      Sustains now saves entries demands acts := by
  induction acts generalizing clock entries demands with
  | nil => simp [looks, Sustains]
  | cons act acts ih =>
    rw [looks, Sustains, List.forall_mem_cons, act_shows known later]
    refine and_congr_right fun keeps => ?_
    cases saves with
    | false => exact ih known later
    | true => exact ih (known.act later keeps) le_rfl

theorem Known.acts (later : clock ≤ now) {acts : List Act}
    (sustains : Sustains now true entries demands acts) :
    Known now (acts.foldl (Act.entries now) entries) (acts.foldl (Act.demands now) demands) := by
  induction acts generalizing clock entries demands with
  | nil => exact known.later later
  | cons act acts ih => exact ih (known.act later sustains.1) le_rfl sustains.2

end

end Acts

/-! ## The session's calls -/

section Calls

variable {now clock : ℚ} {mirrored : Bool} {s : Session}

/-- One process's own copy is what it last saved or read. -/
structure Session.Alone (mirrored : Bool) (s : Session) : Prop where
  same : ∀ entries ∈ s.stored, entries = s.held
  away : mirrored = false → s.stored = none

theorem Session.load_eq (s : Session) : s.load = (⟨s.stored, s.set⟩, s.set) := by
  unfold Session.load Session.set
  cases s with
  | mk stored held => cases stored <;> rfl

theorem Session.Alone.saved (alone : s.Alone mirrored) (entries : Entries) (held : Entries) :
    ((⟨s.stored, held⟩ : Session).save mirrored entries).set = entries ∧
      ((⟨s.stored, held⟩ : Session).save mirrored entries).Alone mirrored := by
  cases mirrored with
  | true => exact ⟨rfl, ⟨by rintro _ ⟨⟩; rfl, by simp⟩⟩
  | false =>
    have away := alone.away rfl
    refine ⟨?_, ⟨?_, fun _ => away⟩⟩
    · simp [Session.save, Session.set, away]
    · simp [Session.save, away]

theorem Session.Alone.loaded (alone : s.Alone mirrored) :
    (⟨s.stored, s.set⟩ : Session).set = s.set ∧ (⟨s.stored, s.set⟩ : Session).Alone mirrored := by
  refine ⟨?_, ⟨?_, alone.away⟩⟩
  · unfold Session.set
    cases s.stored <;> rfl
  · intro entries found
    simp only [Session.set, show s.stored = some entries from found, Option.getD_some]

theorem prune_of_fresh (fresh : ∀ item ∈ entries, item.2.fresh now = true) :
    prune entries now = entries :=
  List.filter_eq_self.mpr fresh

theorem fresh_prune (entries : Entries) (now : ℚ) : ∀ item ∈ prune entries now, item.2.fresh now = true :=
  fun _ mem => (List.mem_filter.mp mem).2

theorem fresh_upsert (fresh : ∀ item ∈ entries, item.2.fresh now = true) (key : String)
    (priority : Priority) : ∀ item ∈ upsert entries key priority now, item.2.fresh now = true := by
  have general (e : Entry) (isFresh : e.fresh now = true) :
      ∀ item ∈ Dict.set key e entries, item.2.fresh now = true := by
    induction entries with
    | nil =>
      intro item mem
      rw [List.mem_singleton.mp mem]
      exact isFresh
    | cons head entries ih =>
      intro item mem
      rw [List.forall_mem_cons] at fresh
      unfold Dict.set at mem
      split at mem
      · rcases List.mem_cons.mp mem with rfl | rest
        · exact isFresh
        · exact fresh.2 item rest
      · rcases List.mem_cons.mp mem with rfl | rest
        · exact fresh.1
        · exact ih fresh.2 item rest
  exact general _ (fresh_upserted _ _ _)

/-- The loop of `admit_many` makes the acts of the call on a set that is pruned already. -/
theorem admitLoop_eq (priority : Priority) (cap : Int) (register : Bool) (symbols : List (String × String))
    {base : Entries} (fresh : ∀ item ∈ base, item.2.fresh now = true) (demands : Demands) :
    let acts := symbols.map fun s => Act.admitOne (keyOf s.1 s.2) priority
    (Session.admitLoop priority cap now register base symbols).1 =
        (if register then acts.foldl (Act.entries now) base else base) ∧
      (Session.admitLoop priority cap now register base symbols).2.map Prod.snd =
        (looks now register base demands acts).map fun look => planSymbols look.1 cap := by
  induction symbols generalizing base demands with
  | nil => cases register <;> exact ⟨rfl, rfl⟩
  | cons symbol symbols ih =>
    obtain ⟨symbol, exchange⟩ := symbol
    have head : (Act.admitOne (keyOf symbol exchange) priority).entries now base =
        upsert base (keyOf symbol exchange) priority now := by
      rw [Act.entries, prune_of_fresh fresh]
    cases register with
    | true =>
      have rest := ih (fresh_upsert fresh (keyOf symbol exchange) priority)
        ((Act.admitOne (keyOf symbol exchange) priority).demands now demands)
      simp only [Session.admitLoop, List.map_cons, List.foldl_cons, looks, head, if_true, List.cons.injEq] at rest ⊢
      exact ⟨rest.1, trivial, rest.2⟩
    | false =>
      have rest := ih fresh demands
      simp only [Session.admitLoop, List.map_cons, looks, head, Bool.false_eq_true, if_false, List.cons.injEq] at rest ⊢
      exact ⟨rest.1, trivial, rest.2⟩

theorem act_pruned (act : Act) (entries : Entries) (now : ℚ) :
    act.entries now (prune entries now) = act.entries now entries := by
  have again := prune_of_fresh (fresh_prune entries now)
  cases act <;> simp only [Act.entries, again]

theorem looks_pruned (saves : Bool) (entries : Entries) (demands : Demands) (acts : List Act) (now : ℚ) :
    looks now saves (prune entries now) demands acts = looks now saves entries demands acts := by
  induction acts with
  | nil => rfl
  | cons act acts ih =>
    cases saves with
    | true => simp only [looks, act_pruned, if_true]
    | false => simpa only [looks, act_pruned, Bool.false_eq_true, if_false, List.cons.injEq, true_and] using ih

/-- What a call makes of the set, and what it plans from. -/
theorem run_call (alone : s.Alone mirrored) (now : ℚ) (call : Call) (demands : Demands) :
    (call.run mirrored s now).1.set = (if call.saves then call.acts.foldl (Act.entries now) s.set else s.set) ∧
      (call.run mirrored s now).1.Alone mirrored ∧
      ∀ cap ∈ call.cap, (call.run mirrored s now).2 =
        (looks now call.saves s.set demands call.acts).map fun look => planSymbols look.1 cap := by
  cases call with
  | admitOne symbol exchange priority cap register =>
    simp only [Call.run, Session.admitOne, Session.load_eq, Call.saves, Call.acts, Call.cap,
      Option.mem_def, Option.some.injEq,
      forall_eq', looks, Act.entries, List.map_cons, List.map_nil, List.foldl_cons, List.foldl_nil, and_true]
    cases register with
    | true => exact alone.saved _ _
    | false => exact alone.loaded
  | admitMany symbols priority cap register =>
    have loop := admitLoop_eq priority cap register symbols (fresh_prune s.set now) demands
    simp only [looks_pruned] at loop
    simp only [Call.run, Session.admitMany, Session.load_eq, Call.saves, Call.acts, Call.cap, Option.mem_def,
      Option.some.injEq, forall_eq']
    cases register with
    | false =>
      simp only [Bool.false_eq_true, false_and, if_false] at loop ⊢
      exact ⟨alone.loaded.1, alone.loaded.2, loop.2⟩
    | true =>
      refine ⟨?_, ?_, loop.2⟩
      · cases symbols with
        | nil => simpa [Session.admitLoop] using alone.loaded.1
        | cons symbol symbols =>
          rw [if_pos ⟨rfl, by simp [Session.admitLoop]⟩, (alone.saved _ _).1, loop.1]
          simp only [if_true, List.map_cons, List.foldl_cons, act_pruned]
      · split
        · exact (alone.saved _ _).2
        · exact alone.loaded.2
  | replace priority symbols =>
    simp only [Call.run, Session.replace, Session.load_eq, Call.saves, Call.acts, Call.cap,
      Option.mem_def, reduceCtorEq,
      false_implies, implies_true, and_true, if_true, List.foldl_cons, List.foldl_nil, Act.entries]
    exact alone.saved _ _
  | plan cap =>
    simp only [Call.run, Session.plan, Session.load_eq, Call.saves, Call.acts, Call.cap,
      Option.mem_def, Option.some.injEq,
      forall_eq', looks, Act.entries, List.map_cons, List.map_nil, Bool.false_eq_true, if_false, and_true]
    exact alone.loaded

/-- `admit_many` gives the answers of `admit` called in turn, and leaves the set that leaves. -/
theorem admitMany_inTurn (alone : s.Alone mirrored) (symbols : List (String × String))
    (priority : Priority) (cap : Int) (now : ℚ) (register : Bool) :
    (s.admitMany mirrored symbols priority cap now register).2 =
        (admitInTurn mirrored priority cap now register s symbols).2 ∧
      (s.admitMany mirrored symbols priority cap now register).1.set =
        (admitInTurn mirrored priority cap now register s symbols).1.set := by
  have general : ∀ (s : Session), s.Alone mirrored →
      (Session.admitLoop priority cap now register (prune s.set now) symbols).2 =
        (admitInTurn mirrored priority cap now register s symbols).2 ∧
      (admitInTurn mirrored priority cap now register s symbols).1.set =
        if register ∧ symbols ≠ [] then
          (Session.admitLoop priority cap now register (prune s.set now) symbols).1
        else s.set := by
    induction symbols with
    | nil => exact fun s _ => ⟨rfl, by simp [admitInTurn]⟩
    | cons symbol symbols ih =>
      intro s alone
      obtain ⟨symbol, exchange⟩ := symbol
      simp only [Session.admitLoop, admitInTurn, Session.admitOne, Session.load_eq]
      cases register with
      | true =>
        obtain ⟨isSet, alone'⟩ := alone.saved (upsert (prune s.set now) (keyOf symbol exchange) priority now) s.set
        obtain ⟨answers, last⟩ := ih _ alone'
        have again := prune_of_fresh (fresh_upsert (fresh_prune s.set now) (keyOf symbol exchange) priority)
        rw [isSet, again] at answers last
        simp only [if_true, List.cons.injEq, true_and, ne_eq, reduceCtorEq, not_false_iff, and_true]
        refine ⟨answers, last.trans ?_⟩
        cases symbols with
        | nil => simp [Session.admitLoop]
        | cons => simp
      | false =>
        obtain ⟨isSet, alone'⟩ := alone.loaded
        obtain ⟨answers, last⟩ := ih _ alone'
        rw [isSet] at answers last
        simp only [Bool.false_eq_true, if_false, false_and, List.cons.injEq, true_and] at last ⊢
        exact ⟨answers, last⟩
  obtain ⟨answers, last⟩ := general s alone
  simp only [Session.admitMany, Session.load_eq]
  refine ⟨answers, ?_⟩
  rw [last]
  cases register with
  | false => simpa using alone.loaded.1
  | true =>
    cases symbols with
    | nil => simpa [Session.admitLoop] using alone.loaded.1
    | cons symbol symbols =>
      rw [if_pos ⟨rfl, by simp [Session.admitLoop]⟩, if_pos ⟨rfl, by simp⟩, (alone.saved _ _).1]

end Calls

/-! ## Runs -/

section Runs

variable {mirrored : Bool} {w t : World} {event : Event}

/-- The set knows the demands, in a process that is alone. -/
structure World.Sound (mirrored : Bool) (w : World) : Prop where
  known : Known w.clock w.session.set w.demands
  alone : w.session.Alone mirrored

variable (mirrored) in
theorem unwanted_sound (clock : ℚ) : (unwanted clock).Sound mirrored where
  known := ⟨List.nodup_nil, fun _ _ stands => by obtain ⟨_, none_, _⟩ := stands; cases none_⟩
  alone := ⟨by rintro _ ⟨⟩, fun _ => rfl⟩

theorem exact_iff (sound : w.Sound mirrored) (stepped : (calls mirrored).step w event = some t) :
    Exact w event ↔ Sustained w event := by
  cases event with
  | call now call =>
    simp only [calls, Option.ite_none_right_eq_some] at stepped
    exact looks_show sound.known stepped.1 call.saves call.acts
  | expire => exact Iff.rfl

theorem sound_step (sound : w.Sound mirrored) (sustained : Sustained w event)
    (stepped : (calls mirrored).step w event = some t) : t.Sound mirrored := by
  cases event with
  | call now call =>
    simp only [calls, Option.ite_none_right_eq_some] at stepped
    obtain ⟨later, ⟨⟩⟩ := stepped
    obtain ⟨isSet, alone, -⟩ := run_call sound.alone now call w.demands
    refine ⟨?_, alone⟩
    show Known now (call.run mirrored w.session now).1.set _
    rw [isSet]
    simp only [Sustained] at sustained
    cases saves : call.saves with
    | false =>
      simp only [World.call, saves, Bool.false_eq_true, if_false]
      exact sound.known.later later
    | true =>
      rw [saves] at sustained
      simp only [World.call, saves, if_true]
      exact sound.known.acts later sustained
  | expire =>
    cases stepped
    have held : w.session.expire.set = w.session.set := by
      unfold Session.expire Session.set
      cases stored : w.session.stored with
      | none => rfl
      | some entries => exact (sound.alone.same entries stored).symm
    exact ⟨by show Known w.clock w.session.expire.set _; rw [held]; exact sound.known, ⟨by rintro _ ⟨⟩, fun _ => rfl⟩⟩

/-- Whatever is called, the set has one entry a symbol. -/
structure World.Plain (mirrored : Bool) (w : World) : Prop where
  distinct : (Dict.keys w.session.set).Nodup
  alone : w.session.Alone mirrored

theorem nodup_acts {now : ℚ} (distinct : (Dict.keys entries).Nodup) (acts : List Act) :
    (Dict.keys (acts.foldl (Act.entries now) entries)).Nodup := by
  induction acts generalizing entries with
  | nil => exact distinct
  | cons act acts ih => exact ih (nodup_act distinct act)

theorem nodup_looks {now : ℚ} {saves : Bool} {demands : Demands}
    (distinct : (Dict.keys entries).Nodup) (acts : List Act) :
    ∀ look ∈ looks now saves entries demands acts, (Dict.keys look.1).Nodup := by
  induction acts generalizing entries demands with
  | nil => simp [looks]
  | cons act acts ih =>
    rw [looks, List.forall_mem_cons]
    refine ⟨nodup_act distinct act, ih ?_⟩
    cases saves with
    | true => exact nodup_act distinct act
    | false => exact distinct

theorem plain_step (plain : w.Plain mirrored) (stepped : (calls mirrored).step w event = some t) :
    t.Plain mirrored := by
  cases event with
  | call now call =>
    simp only [calls, Option.ite_none_right_eq_some] at stepped
    obtain ⟨-, ⟨⟩⟩ := stepped
    obtain ⟨isSet, alone, -⟩ := run_call plain.alone now call w.demands
    refine ⟨?_, alone⟩
    show (Dict.keys (call.run mirrored w.session now).1.set).Nodup
    rw [isSet]
    split
    · exact nodup_acts plain.distinct call.acts
    · exact plain.distinct
  | expire =>
    cases stepped
    have held : w.session.expire.set = w.session.set := by
      unfold Session.expire Session.set
      cases stored : w.session.stored with
      | none => rfl
      | some entries => exact (plain.alone.same entries stored).symm
    exact ⟨by show (Dict.keys
      w.session.expire.set).Nodup; rw [held]; exact plain.distinct, ⟨by rintro _ ⟨⟩, fun _ => rfl⟩⟩

end Runs

/-- In every run the sets that the calls plan from show the demands exactly where every call keeps the entry
of every symbol; a plan keeps the cap's symbols of lowest rank; and `admit_many` is `admit` in turn. -/
theorem symbolSet_exact {mirrored : Bool} {clock : ℚ} {events : List Event} {w : World}
    (ran : (calls mirrored).run (unwanted clock) events = some w) :
    ((calls mirrored).Meets Exact (unwanted clock) events ↔ (calls mirrored).Meets Sustained (unwanted clock) events) ∧
      (∀ (now : ℚ) (call : Call), ∀ cap ∈ call.cap,
        (call.run mirrored w.session now).2 =
            (looks now call.saves w.session.set w.demands call.acts).map (fun look => planSymbols look.1 cap) ∧
          ∀ look ∈ looks now call.saves w.session.set w.demands call.acts, (planSymbols look.1 cap).Ordered look.1) ∧
      ∀ (symbols : List (String × String)) (priority : Priority) (cap : Int) (now : ℚ) (register : Bool),
        (w.session.admitMany mirrored symbols priority cap now register).2 =
            (admitInTurn mirrored priority cap now register w.session symbols).2 ∧
          (w.session.admitMany mirrored symbols priority cap now register).1.set =
            (admitInTurn mirrored priority cap now register w.session symbols).1.set := by
  have sound := unwanted_sound mirrored clock
  have plain : w.Plain mirrored := by
    refine (calls mirrored).run_invariant_all (fun s e t plain stepped => plain_step plain stepped) ?_ ran
    exact ⟨sound.known.distinct, sound.alone⟩
  refine ⟨?_, ?_, ?_⟩
  · exact (calls mirrored).meets_iff (P := World.Sound mirrored) (fun s e t known stepped => exact_iff known stepped)
      (fun s e t known sustained stepped => sound_step known sustained stepped) sound ran
  · intro now call cap isCap
    refine ⟨(run_call plain.alone now call w.demands).2.2 cap isCap, fun look mem => ?_⟩
    exact planSymbols_ordered (nodup_looks plain.distinct call.acts look mem) cap
  · intro symbols priority cap now register
    exact admitMany_inTurn plain.alone symbols priority cap now register

/-- A watched symbol is put on a chart, and another becomes a position. -/
def watchedThenHeld : List Event :=
  [.call 0 (.admitOne "INFY" "NSE" .watchlist 2 true),
    .call 10 (.admitMany [("infy", ""), ("TCS", "NSE")] .chart 2 true),
    .call 20 (.replace .position [("TCS", "NSE")]), .expire, .call 30 (.plan 2)]

theorem symbolSet_watchedThenHeld : ∃ w, (calls true).run (unwanted 0) watchedThenHeld = some w ∧
    (calls true).Meets Exact (unwanted 0) watchedThenHeld := by
  have runs : ((calls true).run (unwanted 0) watchedThenHeld).isSome = true := by decide +kernel
  obtain ⟨w, ran⟩ := Option.isSome_iff_exists.mp runs
  have sustained : (calls true).Meets Sustained (unwanted 0) watchedThenHeld := by decide +kernel
  exact ⟨w, ran, (symbolSet_exact ran).1.mpr sustained⟩

/-- A watched symbol is charted once. -/
def chartedOnce : List Event :=
  [.call 0 (.admitOne "INFY" "NSE" .watchlist 2 true), .call 10 (.admitOne "INFY" "NSE" .chart 2 true)]

/-- Ten minutes after the chart the symbol is gone, though the watchlist wants it for half an hour. -/
theorem chartedOnce_forgotten : ∃ w, (calls true).run (unwanted 0) (chartedOnce ++ [.call 700 (.plan 2)]) = some w ∧
    ¬ (calls true).Meets Exact (unwanted 0) (chartedOnce ++ [.call 700 (.plan 2)]) := by
  have runs : ((calls true).run (unwanted 0) (chartedOnce ++ [.call 700 (.plan 2)])).isSome = true := by decide +kernel
  obtain ⟨w, ran⟩ := Option.isSome_iff_exists.mp runs
  have first : ((calls true).run (unwanted 0) chartedOnce).any (fun t => decide
      (Dict.get "NSE:INFY" (prune t.session.set 700) = none ∧
        strongest 700 (t.demands "NSE:INFY") = some .watchlist)) = true := by
    decide +kernel
  obtain ⟨t, before, found⟩ := (Option.any_eq_true _ _).mp first
  obtain ⟨gone, wanted⟩ := of_decide_eq_true found
  refine ⟨w, ran, fun exact => ?_⟩
  have shows_ : Shows 700 (prune t.session.set 700) t.demands := (calls true).meets_at exact before _ List.mem_cons_self
  have told := shows_ "NSE:INFY"
  rw [gone, wanted] at told
  cases told

end AdvanceTrading.FanIn
