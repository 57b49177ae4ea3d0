import Mathlib.Tactic.Basic

/-!
# Two runs of computations that may raise

Two computations on states of their own, started side by side: `Paired` says that
they raise the same, or both return and the results and states are related. Of one
computation alone `Returns` says what holds if it returns. The rules follow the
computations: one for each way they are put together.
-/

namespace AdvanceTrading

universe u

variable {σ τ ε α β γ δ : Type u}

variable {f : α → StateT σ (Except ε) γ} {a : α}

/-- A computation that goes on from where another one returned. -/
theorem bind_of_ok {m : StateT σ (Except ε) α} {s s' : σ} (returned : m s = .ok (a, s')) :
    (m >>= f) s = f a s' := by
  show (m s >>= fun p => f p.1 p.2) = f a s'
  rw [returned]
  rfl

/-- If the computation returns, `post` holds of the result and of the state left. -/
def Returns (m : StateT σ (Except ε) α) (s : σ) (post : α → σ → Prop) : Prop :=
  ∀ a s', m s = .ok (a, s') → post a s'

namespace Returns

variable {m : StateT σ (Except ε) α} {s : σ} {post post' : α → σ → Prop}

theorem ret (holds : post a s) : Returns (pure a : StateT σ (Except ε) α) s post := by
  rintro _ _ ⟨⟩
  exact holds

theorem raise (e : ε) : Returns (throw e : StateT σ (Except ε) α) s post := fun _ _ returned => nomatch returned

theorem mono (returns : Returns m s post) (weaker : ∀ a s', post a s' → post' a s') : Returns m s post' :=
  fun a s' returned => weaker a s' (returns a s' returned)

/-- One after the other: the second part runs from the state the first one leaves. -/
theorem bind {last : γ → σ → Prop} (first : Returns m s post)
    (next : ∀ a s', post a s' → Returns (f a) s' last) : Returns (m >>= f) s last := by
  intro c s'' returned
  change (m s >>= fun p => f p.1 p.2) = .ok (c, s'') at returned
  cases ran : m s with
  | error e =>
    rw [ran] at returned
    exact nomatch returned
  | ok p =>
    rw [ran] at returned
    exact next p.1 p.2 (first p.1 p.2 ran) c s'' returned

theorem read {post : σ → σ → Prop} (holds : post s s) : Returns (get : StateT σ (Except ε) σ) s post := by
  rintro _ _ ⟨⟩
  exact holds

theorem write {t : σ} {post : PUnit → σ → Prop} (holds : post ⟨⟩ t) :
    Returns (set t : StateT σ (Except ε) PUnit) s post := by
  rintro _ _ ⟨⟩
  exact holds

/-- A part that reads no state. -/
theorem lift {x : Except ε α} (holds : ∀ a, x = .ok a → post a s) :
    Returns (liftM x : StateT σ (Except ε) α) s post := by
  cases x with
  | error e => exact fun _ _ returned => nomatch returned
  | ok a =>
    rintro _ _ ⟨⟩
    exact holds a rfl

end Returns

/-- Both raise the same, or both return and `post` relates what they leave. -/
def Paired (m : StateT σ (Except ε) α) (n : StateT τ (Except ε) β) (s : σ) (t : τ)
    (post : α → β → σ → τ → Prop) : Prop :=
  (∃ e, m s = .error e ∧ n t = .error e)
    ∨ ∃ a b s' t', m s = .ok (a, s') ∧ n t = .ok (b, t') ∧ post a b s' t'

namespace Paired

variable {m : StateT σ (Except ε) α} {n : StateT τ (Except ε) β} {s : σ} {t : τ}
  {post post' : α → β → σ → τ → Prop}

theorem ret {b : β} (holds : post a b s t) :
    Paired (pure a : StateT σ (Except ε) α) (pure b : StateT τ (Except ε) β) s t post :=
  Or.inr ⟨a, b, s, t, rfl, rfl, holds⟩

theorem raise (e : ε) :
    Paired (throw e : StateT σ (Except ε) α) (throw e : StateT τ (Except ε) β) s t post :=
  Or.inl ⟨e, rfl, rfl⟩

/-- A computation beside itself. -/
theorem self {post : α → σ → Prop} (returns : Returns m s post) :
    Paired m m s s fun a b s' t' => (a = b ∧ s' = t') ∧ post a s' := by
  cases ran : m s with
  | error e => exact Or.inl ⟨e, ran, ran⟩
  | ok p => exact Or.inr ⟨p.1, p.1, p.2, p.2, ran, ran, ⟨rfl, rfl⟩, returns p.1 p.2 ran⟩

theorem mono (paired : Paired m n s t post)
    (weaker : ∀ a b s' t', post a b s' t' → post' a b s' t') : Paired m n s t post' := by
  rcases paired with ⟨e, left, right⟩ | ⟨a, b, s', t', left, right, holds⟩
  · exact Or.inl ⟨e, left, right⟩
  · exact Or.inr ⟨a, b, s', t', left, right, weaker a b s' t' holds⟩

/-- One after the other: the second parts run from the states the first ones leave. -/
theorem bind {g : β → StateT τ (Except ε) δ} {last : γ → δ → σ → τ → Prop}
    (first : Paired m n s t post)
    (next : ∀ a b s' t', post a b s' t' → Paired (f a) (g b) s' t' last) :
    Paired (m >>= f) (n >>= g) s t last := by
  rcases first with ⟨e, left, right⟩ | ⟨a, b, s', t', left, right, holds⟩
  · refine Or.inl ⟨e, ?_, ?_⟩
    · show (m s >>= fun p => f p.1 p.2) = .error e
      rw [left]
      rfl
    · show (n t >>= fun p => g p.1 p.2) = .error e
      rw [right]
      rfl
  · rcases next a b s' t' holds with ⟨e, left', right'⟩ | ⟨c, d, s'', t'', left', right', holds⟩
    · exact Or.inl ⟨e, (bind_of_ok left).trans left', (bind_of_ok right).trans right'⟩
    · exact Or.inr
        ⟨c, d, s'', t'', (bind_of_ok left).trans left', (bind_of_ok right).trans right', holds⟩

theorem read : Paired (get : StateT σ (Except ε) σ) (get : StateT τ (Except ε) τ) s t
    fun a b s' t' => (a = s ∧ b = t) ∧ s' = s ∧ t' = t :=
  Or.inr ⟨s, t, s, t, rfl, rfl, ⟨rfl, rfl⟩, rfl, rfl⟩

theorem write {s' : σ} {t' : τ} : Paired (set s' : StateT σ (Except ε) PUnit)
    (set t' : StateT τ (Except ε) PUnit) s t fun _ _ s'' t'' => s'' = s' ∧ t'' = t' :=
  Or.inr ⟨⟨⟩, ⟨⟩, s', t', rfl, rfl, rfl, rfl⟩

/-- A part that reads no state, on both sides. -/
theorem lift {x : Except ε α} {y : Except ε β} (related : α → β → Prop)
    (same : (∃ e, x = .error e ∧ y = .error e) ∨ ∃ a b, x = .ok a ∧ y = .ok b ∧ related a b) :
    Paired (liftM x : StateT σ (Except ε) α) (liftM y : StateT τ (Except ε) β) s t
      fun a b s' t' => related a b ∧ s' = s ∧ t' = t := by
  rcases same with ⟨e, rfl, rfl⟩ | ⟨a, b, rfl, rfl, holds⟩
  · exact Or.inl ⟨e, rfl, rfl⟩
  · exact Or.inr ⟨a, b, s, t, rfl, rfl, holds, rfl, rfl⟩

end Paired

end AdvanceTrading
