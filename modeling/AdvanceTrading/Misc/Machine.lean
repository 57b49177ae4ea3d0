import Mathlib.Data.Option.Basic

/-!
# Machines with labelled steps

A `Machine` is a partial step function over states and labels. A label carries
everything the environment decides (who moves, the clock, an outside answer),
so one label list is one interleaving. `run` executes a label list, `Meets`
says that every step of it is taken under a condition, and `run_invariant` is
the induction that turns a step lemma into a run lemma. Nothing here knows
what the states and labels are.
-/

namespace AdvanceTrading

/-- A partial labelled step function; `none` is a label that cannot be taken. -/
structure Machine (σ : Type*) (ε : Type*) where
  step : σ → ε → Option σ

namespace Machine

variable {σ ε : Type*}

/-- Execute the labels in order, stopping at one that cannot be taken. -/
def run (m : Machine σ ε) : σ → List ε → Option σ
  | s, [] => some s
  | s, e :: es => (m.step s e).bind fun t => run m t es

/-- Every step of the run from `s` is taken in a state that meets `cond`. -/
def Meets (m : Machine σ ε) (cond : σ → ε → Prop) : σ → List ε → Prop
  | _, [] => True
  | s, e :: es => cond s e ∧ ∀ t, m.step s e = some t → Meets m cond t es

variable (m : Machine σ ε)

@[simp] theorem run_nil (s : σ) : m.run s [] = some s := rfl

theorem run_cons (s : σ) (e : ε) (es : List ε) :
    m.run s (e :: es) = (m.step s e).bind fun t => m.run t es := rfl

/-- Split a run after its first labels. -/
theorem run_append (s : σ) (es fs : List ε) :
    m.run s (es ++ fs) = (m.run s es).bind fun t => m.run t fs := by
  induction es generalizing s with
  | nil => rfl
  | cons e es ih =>
    rw [List.cons_append, run_cons, run_cons]
    cases m.step s e with
    | none => rfl
    | some t => exact ih t

theorem meets_true (s : σ) (es : List ε) : m.Meets (fun _ _ => True) s es := by
  induction es generalizing s with
  | nil => trivial
  | cons e es ih => exact ⟨trivial, fun t _ => ih t⟩

variable {es : List ε} {s t : σ}

/-- A property that every step under `cond` preserves holds after every run
whose steps all meet `cond`. -/
theorem run_invariant {cond : σ → ε → Prop} {P : σ → Prop}
    (preserves : ∀ s e t, P s → cond s e → m.step s e = some t → P t) (start : P s)
    (meets : m.Meets cond s es) (ran : m.run s es = some t) : P t := by
  induction es generalizing s with
  | nil => exact Option.some.inj ran ▸ start
  | cons e es ih =>
    rw [run_cons] at ran
    obtain ⟨next, stepped, rest⟩ := Option.bind_eq_some_iff.mp ran
    exact ih (preserves s e next start meets.1 stepped) (meets.2 next stepped) rest

/-- The unconditional form: every step preserves the property. -/
theorem run_invariant_all {P : σ → Prop} (preserves : ∀ s e t, P s → m.step s e = some t → P t)
    (start : P s) (ran : m.run s es = some t) : P t :=
  m.run_invariant (fun s e t hs _ => preserves s e t hs) start (m.meets_true s es) ran

/-- A reflexive and transitive relation that every step under `cond` makes holds along every run
whose steps all meet `cond`. -/
theorem run_relates {cond : σ → ε → Prop} {P : σ → Prop} {R : σ → σ → Prop} (refl : ∀ s, R s s)
    (trans : ∀ s t u, R s t → R t u → R s u)
    (preserves : ∀ s e t, P s → cond s e → m.step s e = some t → P t ∧ R s t) (start : P s)
    (meets : m.Meets cond s es) (ran : m.run s es = some t) : R s t := by
  induction es generalizing s with
  | nil => exact Option.some.inj ran ▸ refl s
  | cons e es ih =>
    rw [run_cons] at ran
    obtain ⟨next, stepped, rest⟩ := Option.bind_eq_some_iff.mp ran
    obtain ⟨inv, related⟩ := preserves s e next start meets.1 stepped
    exact trans s next t related (ih inv (meets.2 next stepped) rest)

/-- A run meets what holds of each of its events after those before it. -/
theorem meets_of_splits {cond : σ → ε → Prop}
    (each : ∀ earlier e rest t, es = earlier ++ e :: rest → m.run s earlier = some t → cond t e) :
    m.Meets cond s es := by
  induction es generalizing s with
  | nil => trivial
  | cons e es ih =>
    refine ⟨each [] e es _ rfl rfl, ?_⟩
    intro t stepped
    apply ih
    intro earlier e' rest u split ran
    apply each (e :: earlier) e' rest u
    · rw [split, List.cons_append]
    · rw [run_cons, stepped]
      exact ran

/-- A run that meets a condition meets a weaker one. -/
theorem meets_imp {cond cond' : σ → ε → Prop} (weaker : ∀ s e, cond' s e → cond s e)
    (meets : m.Meets cond' s es) : m.Meets cond s es := by
  induction es generalizing s with
  | nil => trivial
  | cons e es ih => exact ⟨weaker s e meets.1, fun t stepped => ih (meets.2 t stepped)⟩

/-- A run that meets two conditions meets both at once. -/
theorem meets_and {cond cond' : σ → ε → Prop} (meets : m.Meets cond s es)
    (meets' : m.Meets cond' s es) : m.Meets (fun s e => cond s e ∧ cond' s e) s es := by
  induction es generalizing s with
  | nil => trivial
  | cons e es ih =>
    exact ⟨⟨meets.1, meets'.1⟩, fun t stepped => ih (meets.2 t stepped) (meets'.2 t stepped)⟩

/-- Where each step taken under one condition keeps what makes that condition decide another, a run
meets the one exactly when it meets the other. -/
theorem meets_iff {cond good : σ → ε → Prop} {P : σ → Prop}
    (decides : ∀ s e t, P s → m.step s e = some t → (good s e ↔ cond s e))
    (preserves : ∀ s e t, P s → cond s e → m.step s e = some t → P t) (start : P s)
    (ran : m.run s es = some t) : m.Meets good s es ↔ m.Meets cond s es := by
  induction es generalizing s with
  | nil => exact Iff.rfl
  | cons e es ih =>
    rw [run_cons] at ran
    obtain ⟨next, stepped, rest⟩ := Option.bind_eq_some_iff.mp ran
    have here := decides s e next start stepped
    constructor
    · rintro ⟨isGood, later⟩
      have meets := here.mp isGood
      refine ⟨meets, fun u reached => ?_⟩
      cases stepped.symm.trans reached
      exact (ih (preserves s e next start meets stepped) rest).mp (later next stepped)
    · rintro ⟨meets, later⟩
      refine ⟨here.mpr meets, fun u reached => ?_⟩
      cases stepped.symm.trans reached
      exact (ih (preserves s e next start meets stepped) rest).mpr (later next stepped)

/-- What a run meets holds of each of its events, in the state it is taken in. -/
theorem meets_at {cond : σ → ε → Prop} {rest : List ε} {e : ε}
    (meets : m.Meets cond s (es ++ e :: rest)) (ran : m.run s es = some t) : cond t e := by
  induction es generalizing s with
  | nil => exact Option.some.inj ran ▸ meets.1
  | cons first es ih =>
    rw [run_cons] at ran
    obtain ⟨next, stepped, later⟩ := Option.bind_eq_some_iff.mp ran
    exact ih (meets.2 next stepped) later

/-- What a run meets, its first events meet. -/
theorem meets_left {cond : σ → ε → Prop} {fs : List ε} (meets : m.Meets cond s (es ++ fs)) :
    m.Meets cond s es := by
  induction es generalizing s with
  | nil => trivial
  | cons e es ih => exact ⟨meets.1, fun t stepped => ih (meets.2 t stepped)⟩

/-- `Meets` of a run on given labels can be decided. -/
instance decidableMeets {cond : σ → ε → Prop} [∀ s e, Decidable (cond s e)] :
    ∀ s es, Decidable (m.Meets cond s es)
  | _, [] => isTrue trivial
  | s, e :: es =>
      match stepped : m.step s e with
      | none => decidable_of_iff (cond s e) (by simp [Meets, stepped])
      | some t =>
          have : Decidable (m.Meets cond t es) := decidableMeets t es
          decidable_of_iff (cond s e ∧ m.Meets cond t es) (by simp [Meets, stepped])

end Machine

end AdvanceTrading
