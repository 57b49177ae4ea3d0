import Mathlib.Data.List.Basic

/-!
# Recursive descent

A parser takes tokens from the front of a list and answers or fails. `Leads`
follows a parser with an automaton that reads the tokens it takes: from a state,
every success ends in a state with the property. Its rules go by the parser's
shape, so what a grammar's parsers keep of the automaton is proved one parser at
a time. Nothing here knows what the tokens are.
-/

namespace AdvanceTrading

/-- A parser of tokens `τ` with errors `ε`. -/
abbrev Descent (τ ε α : Type) := StateT (List τ) (Except ε) α

namespace Descent

variable {τ ε α β σ : Type}

/-- The next token, which stays; `last` at the end. -/
def look (last : τ) : Descent τ ε τ := fun toks => .ok (toks.headD last, toks)

/-- Fail. -/
def fail (e : ε) : Descent τ ε α := fun _ => .error e

/-- Take the next token where it is wanted. -/
def accept (wanted : τ → Option β) : Descent τ ε (Option β)
  | [] => .ok (none, [])
  | t :: rest =>
      match wanted t with
      | some b => .ok (some b, rest)
      | none => .ok (none, t :: rest)

/-- Take the next two tokens where they are wanted. -/
def acceptTwo (wanted : τ → τ → Option β) : Descent τ ε (Option β)
  | t :: u :: rest =>
      match wanted t u with
      | some b => .ok (some b, rest)
      | none => .ok (none, t :: u :: rest)
  | toks => .ok (none, toks)

/-- One turn of a loop, and what is left of it. -/
def turn (next : Descent τ ε (Option β)) (body : α → β → Descent τ ε α) (loop : α → Descent τ ε α)
    (a : α) : Descent τ ε α := do
  match ← next with
  | none => pure a
  | some b => loop (← body a b)

/-- At most `n` turns of a loop. -/
def turns (next : Descent τ ε (Option β)) (body : α → β → Descent τ ε α) : Nat → α → Descent τ ε α
  | 0, a => pure a
  | n + 1, a => turn next body (turns next body n) a

/-- While there is a next, go through the body. Each turn takes a token, so there are no more turns than tokens. -/
def whileSome (next : Descent τ ε (Option β)) (body : α → β → Descent τ ε α) (a : α) : Descent τ ε α :=
  fun toks => turns next body toks.length a toks

/-! ## What a parser leads to -/

variable {p : Descent τ ε α} {body : α → β → Descent τ ε α} {next : Descent τ ε (Option β)} {a : α}

section

variable (step : σ → τ → σ)

/-- From `s`, every success ends with the property, of the answer and the automaton. -/
def Leads (p : Descent τ ε α) (s : σ) (Q : α → σ → Prop) : Prop :=
  ∀ toks a rest, p toks = .ok (a, rest) → ∃ used, toks = used ++ rest ∧ Q a (used.foldl step s)

variable {step} {s : σ} {Q : α → σ → Prop}

theorem leads_pure (holds : Q a s) : Leads step (pure a : Descent τ ε α) s Q := by
  rintro toks _ _ ⟨⟩
  exact ⟨[], rfl, holds⟩

theorem leads_fail {e : ε} : Leads step (fail e : Descent τ ε α) s Q := by
  intro toks a rest failed
  cases failed

theorem leads_look {last : τ} {Q : τ → σ → Prop} (holds : ∀ t, Q t s) : Leads step (look last : Descent τ ε τ) s Q := by
  rintro toks _ _ ⟨⟩
  exact ⟨[], rfl, holds _⟩

theorem leads_accept {wanted : τ → Option β} {Q : Option β → σ → Prop} (stays : Q none s)
    (takes : ∀ t b, wanted t = some b → Q (some b) (step s t)) : Leads step (accept wanted : Descent τ ε _) s Q := by
  intro toks a rest ran
  cases toks with
  | nil =>
    cases ran
    exact ⟨[], rfl, stays⟩
  | cons t toks =>
    cases want : wanted t with
    | none =>
      simp only [accept, want] at ran
      cases ran
      exact ⟨[], rfl, stays⟩
    | some b =>
      simp only [accept, want] at ran
      cases ran
      exact ⟨[t], rfl, takes t b want⟩

theorem leads_acceptTwo {wanted : τ → τ → Option β} {Q : Option β → σ → Prop} (stays : Q none s)
    (takes : ∀ t u b, wanted t u = some b → Q (some b) (step (step s t) u)) :
    Leads step (acceptTwo wanted : Descent τ ε _) s Q := by
  intro toks a rest ran
  match toks with
  | [] =>
    cases ran
    exact ⟨[], rfl, stays⟩
  | [t] =>
    cases ran
    exact ⟨[], rfl, stays⟩
  | t :: u :: toks =>
    cases want : wanted t u with
    | none =>
      simp only [acceptTwo, want] at ran
      cases ran
      exact ⟨[], rfl, stays⟩
    | some b =>
      simp only [acceptTwo, want] at ran
      cases ran
      exact ⟨[t, u], rfl, takes t u b want⟩

theorem leads_bind {f : α → Descent τ ε β} {Q : β → σ → Prop}
    (leads : Leads step p s fun a s' => Leads step (f a) s' Q) : Leads step (p >>= f) s Q := by
  intro toks b rest ran
  cases first : p toks with
  | error e =>
    simp only [bind, StateT.bind, Except.bind, first] at ran
    cases ran
  | ok answer =>
    obtain ⟨a, middle⟩ := answer
    simp only [bind, StateT.bind, Except.bind, first] at ran
    obtain ⟨used, rfl, after⟩ := leads toks a middle first
    obtain ⟨more, rfl, holds⟩ := after middle b rest ran
    exact ⟨used ++ more, by rw [List.append_assoc], by rwa [List.foldl_append]⟩

theorem Leads.imp {R : α → σ → Prop} (leads : Leads step p s R) (weaker : ∀ a s', R a s' → Q a s') :
    Leads step p s Q := by
  intro toks a rest ran
  obtain ⟨used, split, holds⟩ := leads toks a rest ran
  exact ⟨used, split, weaker a _ holds⟩

section

variable {I : α → σ → Prop} (holds : I a s) (through : ∀ a s, I a s → Leads step next s fun b s' =>
  match b with | none => I a s' | some b => Leads step (body a b) s' I)
include holds through

theorem leads_turns (n : Nat) : Leads step (turns next body n a) s I := by
  induction n generalizing a s with
  | zero => exact leads_pure holds
  | succ n ih =>
    refine leads_bind ((through a s holds).imp ?_)
    intro b s' after
    cases b with
    | none => exact leads_pure after
    | some b => exact leads_bind (Leads.imp after fun a' s'' kept => ih kept)

/-- A loop keeps what a turn keeps. -/
theorem leads_whileSome : Leads step (whileSome next body a) s I :=
  fun toks => leads_turns holds through toks.length toks

end

end

/-! ## A loop is its first turn and the loop -/

/-- Something is answered only with a token taken, and nothing at the end. -/
structure Takes (next : Descent τ ε (Option β)) : Prop where
  atEnd : next [] = .ok (none, [])
  takes : ∀ toks b rest, next toks = .ok (some b, rest) → rest.length < toks.length

theorem takes_accept (wanted : τ → Option β) : Takes (accept wanted : Descent τ ε _) where
  atEnd := rfl
  takes := by
    intro toks b rest ran
    cases toks with
    | nil => cases ran
    | cons t toks =>
      cases want : wanted t with
      | none =>
        simp only [accept, want] at ran
        cases ran
      | some b =>
        simp only [accept, want] at ran
        cases ran
        exact Nat.lt_succ_self _

/-- A parser that leads anywhere leaves no more tokens than there were. -/
theorem Leads.length_le {step : σ → τ → σ} {s : σ} {Q : α → σ → Prop} (leads : Leads step p s Q)
    {toks rest : List τ} (ran : p toks = .ok (a, rest)) : rest.length ≤ toks.length := by
  obtain ⟨used, rfl, -⟩ := leads toks a rest ran
  rw [List.length_append]
  omega

variable {next : Descent τ ε (Option β)} {body : α → β → Descent τ ε α}

/-- Two ways to go on that agree on the tokens left make the same turn. -/
theorem turn_congr (takes : Takes next)
    (keeps : ∀ a b toks a' rest, body a b toks = .ok (a', rest) → rest.length ≤ toks.length)
    {loop loop' : α → Descent τ ε α} {toks : List τ}
    (same : ∀ a rest, rest.length < toks.length → loop a rest = loop' a rest) (a : α) :
    turn next body loop a toks = turn next body loop' a toks := by
  simp only [turn, bind, StateT.bind, Except.bind]
  cases first : next toks with
  | error e => rfl
  | ok answer =>
    obtain ⟨b, rest⟩ := answer
    cases b with
    | none => rfl
    | some b =>
      have fewer := takes.takes toks b rest first
      simp only [StateT.bind, bind, Except.bind]
      cases through : body a b rest with
      | error e => rfl
      | ok answer =>
        have kept := keeps a b rest answer.1 answer.2 through
        exact same answer.1 answer.2 (by omega)

theorem turns_nil (takes : Takes next) (n : Nat) (a : α) : turns next body n a [] = .ok (a, []) := by
  cases n with
  | zero => rfl
  | succ n =>
    -- nothing is next at the end
    simp only [turns, turn, bind, StateT.bind, Except.bind, takes.atEnd]
    rfl

/-- Turns beyond the number of tokens change nothing. -/
theorem turns_enough (takes : Takes next)
    (keeps : ∀ a b toks a' rest, body a b toks = .ok (a', rest) → rest.length ≤ toks.length)
    {n m : Nat} {toks : List τ} (a : α) (enough : toks.length ≤ n) (enough' : toks.length ≤ m) :
    turns next body n a toks = turns next body m a toks := by
  induction n generalizing m a toks with
  | zero =>
    obtain rfl : toks = [] := List.eq_nil_of_length_eq_zero (by omega)
    rw [turns_nil takes, turns_nil takes]
  | succ n ih =>
    cases m with
    | zero =>
      obtain rfl : toks = [] := List.eq_nil_of_length_eq_zero (by omega)
      rw [turns_nil takes, turns_nil takes]
    | succ m =>
      apply turn_congr takes keeps
      intro a rest fewer
      exact ih a (by omega) (by omega)

/-- The loop is a `while`. -/
theorem whileSome_eq (takes : Takes next)
    (keeps : ∀ a b toks a' rest, body a b toks = .ok (a', rest) → rest.length ≤ toks.length) (a : α) :
    whileSome next body a = turn next body (whileSome next body) a := by
  funext toks
  cases toks with
  | nil =>
    simp only [whileSome, turn, bind, StateT.bind, Except.bind, takes.atEnd]
    rfl
  | cons t toks =>
    apply turn_congr takes keeps
    intro a rest fewer
    simp only [List.length_cons] at fewer
    exact turns_enough takes keeps a (by omega) (Nat.le_refl _)

end Descent

end AdvanceTrading
