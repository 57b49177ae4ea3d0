import AdvanceTrading.Misc.Dict

/-!
# Recursions behind a memo table

A recursion is given by its body: a program that asks for the answers to
smaller questions. It is run plainly, or behind a table that outlives the calls:
every question is filed under a key, a guard stands in its place while its
answer is worked out, and a table grown too large is emptied, in the middle of a
recursion too. Where no two questions share a key, the table changes no
answer. The guard is never read back, as the questions asked are smaller.
-/

namespace AdvanceTrading

/-- A program that asks questions of type `Q` and goes on with their answers. -/
inductive Ask (Q A α : Type) where
  | ret (value : α)
  | ask (question : Q) (next : A → Ask Q A α)

namespace Ask

variable {Q A α β : Type}

def bind : Ask Q A α → (α → Ask Q A β) → Ask Q A β
  | ret value, f => f value
  | ask question next, f => ask question fun answer => bind (next answer) f

instance : Monad (Ask Q A) where
  pure := ret
  bind := bind

/-- One question. -/
def query (question : Q) : Ask Q A A := ask question ret

/-- Every question that may be asked, whatever the answers, is one of `P`. -/
def Asks (P : Q → Prop) : Ask Q A α → Prop
  | ret _ => True
  | ask question next => P question ∧ ∀ answer, (next answer).Asks P

variable {P R : Q → Prop} {p : Ask Q A α}

theorem Asks.mono (asks : p.Asks P) (imp : ∀ q, P q → R q) : p.Asks R := by
  induction p with
  | ret => trivial
  | ask question next ih => exact ⟨imp _ asks.1, fun answer => ih answer (asks.2 answer)⟩

theorem asks_pure (P : Q → Prop) (value : α) : (pure value : Ask Q A α).Asks P := trivial

theorem asks_query {question : Q} (holds : P question) : (query question : Ask Q A A).Asks P :=
  ⟨holds, fun _ => trivial⟩

theorem asks_bind {f : α → Ask Q A β} (first : p.Asks P) (then_ : ∀ value, (f value).Asks P) : (p >>= f).Asks P := by
  induction p with
  | ret value => exact then_ value
  | ask question next ih => exact ⟨first.1, fun answer => ih answer (first.2 answer)⟩

/-- The program with its questions answered by a function. -/
def eval (answer : Q → A) : Ask Q A α → α
  | ret value => value
  | ask question next => (next (answer question)).eval answer

@[simp] theorem eval_pure (answer : Q → A) (value : α) : (pure value : Ask Q A α).eval answer = value := rfl

@[simp] theorem eval_bind (answer : Q → A) (f : α → Ask Q A β) :
    (p >>= f).eval answer = (f (p.eval answer)).eval answer := by
  induction p with
  | ret => rfl
  | ask question next ih => exact ih (answer question)

@[simp] theorem eval_ite (answer : Q → A) (cond : Prop) [Decidable cond] (p q : Ask Q A α) :
    (if cond then p else q).eval answer = if cond then p.eval answer else q.eval answer := apply_ite _ _ _ _

/-- The questions that are asked of a function. -/
def questions (answer : Q → A) : Ask Q A α → List Q
  | ret _ => []
  | ask question next => question :: (next (answer question)).questions answer

theorem Asks.questions (asks : p.Asks P) (answer : Q → A) : ∀ q ∈ p.questions answer, P q := by
  induction p with
  | ret => exact fun _ mem => nomatch mem
  | ask question next ih =>
    intro q mem
    rcases List.mem_cons.mp mem with rfl | mem
    · exact asks.1
    · exact ih _ (asks.2 _) q mem

theorem questions_bind (answer : Q → A) (f : α → Ask Q A β) :
    (p >>= f).questions answer = p.questions answer ++ (f (p.eval answer)).questions answer := by
  induction p with
  | ret => rfl
  | ask question next ih => exact congrArg (question :: ·) (ih (answer question))

/-- Functions that agree on the questions asked give the same. -/
theorem eval_eq_of_questions {f g : Q → A} (same : ∀ q ∈ p.questions f, g q = f q) : p.eval g = p.eval f := by
  induction p with
  | ret => rfl
  | ask question next ih =>
    rw [eval, same question List.mem_cons_self, ih _ fun q mem => same q (List.mem_cons_of_mem _ mem)]
    rfl

/-- The program with other questions in place of its own. -/
def mapQ {Q' : Type} (g : Q → Q') : Ask Q A α → Ask Q' A α
  | ret value => ret value
  | ask question next => ask (g question) fun answer => (next answer).mapQ g

section MapQ

variable {Q' : Type} (g : Q → Q')

@[simp] theorem mapQ_pure (value : α) : (pure value : Ask Q A α).mapQ g = pure value := rfl

@[simp] theorem mapQ_bind (f : α → Ask Q A β) : (p >>= f).mapQ g = p.mapQ g >>= fun value => (f value).mapQ g := by
  induction p with
  | ret => rfl
  | ask question next ih => exact congrArg (ask (g question)) (funext ih)

@[simp] theorem mapQ_ite (cond : Prop) [Decidable cond] (p q : Ask Q A α) :
    (if cond then p else q).mapQ g = if cond then p.mapQ g else q.mapQ g := apply_ite _ _ _ _

theorem eval_mapQ (f : Q' → A) : (p.mapQ g).eval f = p.eval fun question => f (g question) := by
  induction p with
  | ret => rfl
  | ask question next ih => exact ih _

end MapQ

/-- If other questions in place of those that `p` asks have their answers, `p'` comes to the value of `p`. -/
def Like (g : Q → Q) (answer : Q → A) (p' p : Ask Q A α) : Prop :=
  (∀ q ∈ p.questions answer, answer (g q) = answer q) → p'.eval answer = p.eval answer

section Like

variable {g : Q → Q} {answer : Q → A} {p' : Ask Q A α}

theorem like_pure (value : α) : Like g answer (pure value : Ask Q A α) (pure value) := fun _ => rfl

theorem like_mapQ : Like g answer (p.mapQ g) p := by
  intro same
  rw [eval_mapQ]
  exact eval_eq_of_questions same

theorem Like.bind {f f' : α → Ask Q A β} (first : Like g answer p' p)
    (later : Like g answer (f' (p.eval answer)) (f (p.eval answer))) : Like g answer (p' >>= f') (p >>= f) := by
  intro same
  rw [questions_bind] at same
  rw [eval_bind, eval_bind, first fun q mem => same q (List.mem_append_left _ mem)]
  exact later fun q mem => same q (List.mem_append_right _ mem)

end Like

/-- The program with its questions answered one after the other by `call`, which keeps a state. -/
def run {σ : Type} (call : (q : Q) → P q → σ → A × σ) : (p : Ask Q A α) → p.Asks P → σ → α × σ
  | ret value, _, s => (value, s)
  | ask question next, asks, s =>
    let r := call question asks.1 s
    run call (next r.1) (asks.2 r.1) r.2

end Ask

/-- A recursion on questions that get smaller; `base` answers some of them outright. -/
structure Recursion (Q A : Type) where
  size : Q → Nat
  base : Q → Option A
  body : Q → Ask Q A A
  smaller : ∀ q, (body q).Asks fun r => size r < size q

namespace Recursion

variable {Q A : Type} (rec_ : Recursion Q A)

/-- The answers to the questions below a size. -/
def answerBelow : (n : Nat) → (q : Q) → rec_.size q < n → A
  | n + 1, q, below =>
    match rec_.base q with
    | some answer => answer
    | none =>
      (Ask.run (σ := Unit)
        (fun r (smaller : rec_.size r < rec_.size q) _ =>
          (answerBelow n r (Nat.lt_of_lt_of_le smaller (Nat.le_of_lt_succ below)), ()))
        (rec_.body q) (rec_.smaller q) ()).1

/-- The answer to a question. -/
def answer (q : Q) : A := rec_.answerBelow (rec_.size q + 1) q (Nat.lt_succ_self _)

theorem run_eq_eval {P : Q → Prop} {α : Type} {call : (q : Q) → P q → Unit → A × Unit} {f : Q → A}
    (same : ∀ q holds, (call q holds ()).1 = f q) (p : Ask Q A α) (asks : p.Asks P) :
    (p.run call asks ()).1 = p.eval f := by
  induction p with
  | ret => rfl
  | ask question next ih =>
    simp only [Ask.run, Ask.eval]
    rw [← same question asks.1]
    exact ih _ (asks.2 _)

/-- How many sizes are allowed for does not matter. -/
theorem answerBelow_eq {m n : Nat} {q : Q} (belowM : rec_.size q < m) (belowN : rec_.size q < n) :
    rec_.answerBelow m q belowM = rec_.answerBelow n q belowN := by
  induction m generalizing n q with
  | zero => omega
  | succ m ih =>
    cases n with
    | zero => omega
    | succ n =>
      unfold answerBelow
      split
      · rfl
      · have calls : (fun r (smaller : rec_.size r < rec_.size q) (_ : Unit) =>
              (rec_.answerBelow m r (Nat.lt_of_lt_of_le smaller (Nat.le_of_lt_succ belowM)), ()))
            = fun r smaller _ => (rec_.answerBelow n r
              (Nat.lt_of_lt_of_le smaller (Nat.le_of_lt_succ belowN)), ()) := by
          funext r smaller _
          rw [ih]
        rw [calls]

/-- The recursion's own equation. -/
theorem answer_eq (q : Q) :
    rec_.answer q = (rec_.base q).getD ((rec_.body q).eval rec_.answer) := by
  unfold answer
  rw [answerBelow]
  split
  · rename_i answer based
    rw [based]
    rfl
  · rename_i notBased
    rw [notBased]
    refine run_eq_eval (fun r smaller => ?_) _ _
    exact rec_.answerBelow_eq _ _

end Recursion

/-! ## The table -/

/-- What is filed under a key: the guard of a question that is being worked on, or an answer. -/
inductive Entry (A : Type) where
  | pending (guard : A)
  | settled (answer : A)

/-- A recursion behind a table: the key of a question, its guard, and how many entries are kept. The size of a question
can be read off its key. -/
structure Memo (Q A K : Type) extends Recursion Q A where
  key : Q → K
  guard : Q → A
  limit : Nat
  keySize : K → Nat
  keySize_key : ∀ q, keySize (key q) = size q

/-- The table, with a count of the lookups that found a guard. -/
structure Table (A K : Type) where
  entries : Dict K (Entry A) := []
  guardsRead : Nat := 0

namespace Memo

variable {Q A K : Type} [DecidableEq K] (memo : Memo Q A K)

/-- A found entry is handed out as it is. -/
def found (table : Table A K) : Entry A → A × Table A K
  | .pending guard => (guard, { table with guardsRead := table.guardsRead + 1 })
  | .settled answer => (answer, table)

/-- The table is emptied when it has grown too large. -/
def trimmed (table : Table A K) : Table A K :=
  if memo.limit < table.entries.length then { table with entries := [] } else table

/-- An entry is filed. -/
def file (q : Q) (entry : Entry A) (table : Table A K) : Table A K :=
  { table with entries := Dict.set (memo.key q) entry table.entries }

/-- The answers to the questions below a size, behind the table. -/
def recallBelow : (n : Nat) → (q : Q) → memo.size q < n → Table A K → A × Table A K
  | n + 1, q, below, table =>
    match Dict.get (memo.key q) table.entries with
    | some entry => found table entry
    | none =>
      match memo.base q with
      | some answer => (answer, memo.trimmed table)
      | none =>
        let r := Ask.run
          (fun r (smaller : memo.size r < memo.size q) =>
            recallBelow n r (Nat.lt_of_lt_of_le smaller (Nat.le_of_lt_succ below)))
          (memo.body q) (memo.smaller q) (memo.file q (.pending (memo.guard q)) (memo.trimmed table))
        (r.1, memo.file q (.settled r.1) r.2)

/-- A question put to the table. -/
def consult (q : Q) (table : Table A K) : A × Table A K :=
  memo.recallBelow (memo.size q + 1) q (Nat.lt_succ_self _) table

/-- The table after questions that were put one after the other. -/
def recallAll (qs : List Q) (table : Table A K) : Table A K := qs.foldl (fun table q => (memo.consult q table).2) table

/-- A program whose questions are put to the table. -/
def perform {α : Type} : Ask Q A α → Table A K → α × Table A K
  | .ret value, table => (value, table)
  | .ask question next, table =>
    let r := memo.consult question table
    perform (next r.1) r.2

section Soundness

variable {memo : Memo Q A K} {Good Occurs : Q → Prop} {m n : Nat} {t u v : Table A K}

/-- Among the questions that occur, a good one is told by its key, and both kinds only ask for their own. -/
structure Separates (memo : Memo Q A K) (Good Occurs : Q → Prop) : Prop where
  good : ∀ q, Good q → (memo.body q).Asks Good
  occurs : ∀ q, Occurs q → (memo.body q).Asks Occurs
  told : ∀ q g, Occurs q → Good g → memo.key q = memo.key g → q = g

/-- The entries below a size hold answers, and those of good questions the right ones. -/
def Settled (memo : Memo Q A K) (Good : Q → Prop) (n : Nat) (t : Table A K) : Prop :=
  ∀ k e, Dict.get k t.entries = some e → memo.keySize k < n →
    ∃ a, e = .settled a ∧ ∀ g, Good g → memo.key g = k → a = memo.answer g

/-- Entries from a size on stay or are dropped, and no guard is read. -/
def Untouched (memo : Memo Q A K) (n : Nat) (t u : Table A K) : Prop :=
  u.guardsRead = t.guardsRead ∧
    ∀ k, n ≤ memo.keySize k → Dict.get k u.entries = none ∨ Dict.get k u.entries = Dict.get k t.entries

theorem Settled.mono (settled : memo.Settled Good n t) (le : m ≤ n) : memo.Settled Good m t :=
  fun k e found below => settled k e found (below.trans_le le)

theorem Untouched.refl (n : Nat) (t : Table A K) : memo.Untouched n t t := ⟨rfl, fun _ _ => .inr rfl⟩

theorem Untouched.mono (untouched : memo.Untouched m t u) (le : m ≤ n) : memo.Untouched n t u :=
  ⟨untouched.1, fun k above => untouched.2 k (le.trans above)⟩

theorem Untouched.trans (first : memo.Untouched n t u) (second : memo.Untouched n u v) : memo.Untouched n t v := by
  refine ⟨second.1.trans first.1, fun k above => ?_⟩
  rcases second.2 k above with gone | same
  · exact .inl gone
  · rw [same]
    exact first.2 k above

/-- What was settled stays settled where the larger entries are untouched. -/
theorem Settled.extend (settled : memo.Settled Good n t) (untouched : memo.Untouched m t u)
    (small : memo.Settled Good m u) : memo.Settled Good n u := by
  intro k e found below
  by_cases inside : memo.keySize k < m
  · exact small k e found inside
  · rcases untouched.2 k (not_lt.mp inside) with gone | same
    · rw [gone] at found
      cases found
    · exact settled k e (same ▸ found) below

theorem trimmed_untouched (memo : Memo Q A K) (n : Nat) (t : Table A K) : memo.Untouched n t (memo.trimmed t) := by
  unfold trimmed
  split
  · exact ⟨rfl, fun _ _ => .inl rfl⟩
  · exact .refl n t

theorem trimmed_settled (settled : memo.Settled Good n t) : memo.Settled Good n (memo.trimmed t) := by
  unfold trimmed
  split
  · intro k e found
    cases found
  · exact settled

theorem get_file_of_ne {q : Q} {entry : Entry A} {k : K} (ne : k ≠ memo.key q) :
    Dict.get k (memo.file q entry t).entries = Dict.get k t.entries := Dict.get_set_of_ne _ _ ne

theorem get_file_self {q : Q} {entry : Entry A} : Dict.get (memo.key q) (memo.file q entry t).entries = some entry :=
  Dict.get_set_self _ _ _

/-- What one question behind the table does: the entries up to its size are settled again, the larger ones are
untouched, and a good question gets its answer. -/
def Served (memo : Memo Q A K) (Good : Q → Prop) (q : Q) (t : Table A K) (r : A × Table A K) : Prop :=
  memo.Settled Good (memo.size q + 1) r.2 ∧ memo.Untouched (memo.size q + 1) t r.2 ∧ (Good q → r.1 = memo.answer q)

/-- A program whose questions are served. -/
theorem run_served {α : Type} {call : (r : Q) → memo.size r < n → Table A K → A × Table A K}
    (served : ∀ r below t, Occurs r → memo.Settled Good (memo.size r + 1) t → memo.Served Good r t (call r below t))
    (p : Ask Q A α) (asks : p.Asks fun r => memo.size r < n) (occurs : p.Asks Occurs)
    (settled : memo.Settled Good n t) :
    memo.Settled Good n (p.run call asks t).2 ∧ memo.Untouched n t (p.run call asks t).2 ∧
      (p.Asks Good → (p.run call asks t).1 = p.eval memo.answer) := by
  induction p generalizing t with
  | ret => exact ⟨settled, .refl n t, fun _ => rfl⟩
  | ask question next ih =>
    obtain ⟨below, later⟩ := asks
    obtain ⟨occurs, laterOccur⟩ := occurs
    obtain ⟨small, untouched, right⟩ := served question below t occurs (settled.mono below)
    have again := settled.extend untouched small
    obtain ⟨settledAfter, untouchedAfter, answers⟩ :=
      ih (call question below t).1 (later _) (laterOccur _) again
    refine ⟨settledAfter, (untouched.mono below).trans untouchedAfter, fun good => ?_⟩
    have answered := answers (good.2 _)
    simp only [Ask.eval]
    rw [← right good.1]
    exact answered

/-- Every question that occurs is served. -/
theorem recallBelow_served (separates : memo.Separates Good Occurs) (n : Nat) (q : Q)
    (below : memo.size q < n) (occurs : Occurs q) (settled : memo.Settled Good (memo.size q + 1) t) :
    memo.Served Good q t (memo.recallBelow n q below t) := by
  induction n generalizing q t with
  | zero => omega
  | succ n ih =>
    have own : memo.keySize (memo.key q) < memo.size q + 1 := by
      rw [memo.keySize_key]
      omega
    unfold recallBelow
    split
    · rename_i entry known
      obtain ⟨a, rfl, right⟩ := settled _ _ known own
      exact ⟨settled, .refl _ t, fun good => right q good rfl⟩
    · split
      · rename_i answer based
        refine ⟨trimmed_settled settled, trimmed_untouched memo _ t, fun _ => ?_⟩
        have equation := memo.answer_eq q
        rw [based] at equation
        exact equation.symm
      · rename_i notBased
        simp only
        generalize guarded : memo.file q (.pending (memo.guard q)) (memo.trimmed t) = g
        have apart : ∀ k, memo.keySize k ≠ memo.size q → k ≠ memo.key q := by
          rintro k other rfl
          exact other (memo.keySize_key q)
        have settledG : memo.Settled Good (memo.size q) g := by
          intro k e found small
          rw [← guarded, get_file_of_ne (apart k small.ne)] at found
          exact trimmed_settled settled k e found (small.trans (Nat.lt_succ_self _))
        obtain ⟨settledR, untouchedR, right⟩ :=
          run_served (fun r smaller u occurs settled => ih r _ occurs settled) (memo.body q) (memo.smaller q)
            (separates.occurs q occurs) settledG
        generalize Ask.run _ (memo.body q) _ g = r at settledR untouchedR right
        have kept : ∀ k, memo.size q ≤ memo.keySize k → k ≠ memo.key q →
            Dict.get k r.2.entries = none ∨ Dict.get k r.2.entries = Dict.get k t.entries := by
          intro k above other
          rcases untouchedR.2 k above with gone | same
          · exact .inl gone
          · rw [same, ← guarded, get_file_of_ne other]
            exact (trimmed_untouched memo 0 t).2 k (Nat.zero_le _)
        have answered : Good q → r.1 = memo.answer q := by
          intro good
          have equation := memo.answer_eq q
          rw [notBased, Option.getD_none] at equation
          rw [right (separates.good q good), equation]
        refine ⟨?_, ⟨?_, ?_⟩, answered⟩
        · intro k e found small
          by_cases here : k = memo.key q
          · subst here
            rw [get_file_self] at found
            cases found
            refine ⟨r.1, rfl, fun h good same => ?_⟩
            obtain rfl := separates.told q h occurs good same.symm
            exact answered good
          · rw [get_file_of_ne here] at found
            by_cases smaller : memo.keySize k < memo.size q
            · exact settledR k e found smaller
            · rcases kept k (not_lt.mp smaller) here with gone | same
              · rw [gone] at found
                cases found
              · exact settled k e (same ▸ found) small
        · have guards : g.guardsRead = t.guardsRead := by
            rw [← guarded]
            exact (trimmed_untouched memo 0 t).1
          exact untouchedR.1.trans guards
        · intro k above
          have other := apart k (by omega)
          rw [get_file_of_ne other]
          exact kept k (by omega) other

/-- The table between the calls: every entry is an answer, and those of good questions are right. -/
def Sound (memo : Memo Q A K) (Good : Q → Prop) (t : Table A K) : Prop := ∀ n, memo.Settled Good n t

theorem sound_empty : memo.Sound Good ({} : Table A K) := by
  intro n k e found
  cases found

section

variable (separates : memo.Separates Good Occurs)
include separates

/-- One call keeps the table sound, reads no guard, and answers a good question. -/
theorem recall_sound {q : Q} (occurs : Occurs q) (sound : memo.Sound Good t) :
    memo.Sound Good (memo.consult q t).2 ∧ (memo.consult q t).2.guardsRead = t.guardsRead ∧
      (Good q → (memo.consult q t).1 = memo.answer q) := by
  obtain ⟨small, untouched, right⟩ :=
      recallBelow_served separates _ q (Nat.lt_succ_self _) occurs (sound (memo.size q + 1))
  exact ⟨fun n => (sound n).extend untouched small, untouched.1, right⟩

/-- Any number of calls keeps the table sound, and reads no guard. -/
theorem recallAll_sound {qs : List Q} (occurs : ∀ q ∈ qs, Occurs q) (sound : memo.Sound Good t) :
    memo.Sound Good (memo.recallAll qs t) ∧ (memo.recallAll qs t).guardsRead = t.guardsRead := by
  induction qs generalizing t with
  | nil => exact ⟨sound, rfl⟩
  | cons q qs ih =>
    obtain ⟨soundOne, guards, _⟩ := recall_sound separates (occurs q List.mem_cons_self) sound
    obtain ⟨soundAll, guardsAll⟩ := ih (fun r mem => occurs r (List.mem_cons_of_mem _ mem)) soundOne
    exact ⟨soundAll, guardsAll.trans guards⟩

/-- After any calls a good question gets its answer, if the questions of all calls occur. -/
theorem recall_eq_answer {qs : List Q} (occurs : ∀ q ∈ qs, Occurs q) {q : Q} (own : Occurs q)
    (good : Good q) : (memo.consult q (memo.recallAll qs {})).1 = memo.answer q :=
  (recall_sound separates own (recallAll_sound separates occurs sound_empty).1).2.2 good

/-- A program of good questions gets its answers from a sound table. -/
theorem perform_sound {α : Type} {p : Ask Q A α} (occurs : p.Asks Occurs) (good : p.Asks Good)
    (sound : memo.Sound Good t) : (memo.perform p t).1 = p.eval memo.answer := by
  induction p generalizing t with
  | ret => rfl
  | ask question next ih =>
    obtain ⟨again, -, answered⟩ := recall_sound separates occurs.1 sound
    rw [perform, ih _ (occurs.2 _) (good.2 _) again, answered good.1]
    rfl

/-- After any calls a program gets the answers to its questions, if these are good and those of all calls occur. -/
theorem perform_eq_eval {qs : List Q} (earlier : ∀ q ∈ qs, Occurs q) {α : Type}
    {p : Ask Q A α} (occurs : p.Asks Occurs) (good : p.Asks Good) :
    (memo.perform p (memo.recallAll qs {})).1 = p.eval memo.answer :=
  perform_sound separates occurs good (recallAll_sound separates earlier sound_empty).1

end

/-- No call ever reads a guard. -/
theorem guardsRead_eq_zero (memo : Memo Q A K) (qs : List Q) : (memo.recallAll qs {}).guardsRead = 0 := by
  have separates : memo.Separates (fun _ => False) fun _ => True :=
    ⟨fun _ none_ => none_.elim, fun q _ => (memo.smaller q).mono fun _ _ => trivial, fun _ _ _ none_ => none_.elim⟩
  exact (recallAll_sound separates (fun _ _ => trivial) sound_empty).2

end Soundness

end Memo

end AdvanceTrading
