import Mathlib.Tactic.Common

/-! # Interruptible actions — a small program logic

    An action reads and changes a state and either returns a value or STOPS with
    an error, and it leaves a state either way.  What a stopped action leaves
    behind matters as much as what a finished one does: a device that loses
    power in the middle of a write has a state too.

    `Spec P x Q C` says that from a state satisfying `P` the action `x` returns
    into `Q` or stops in `C`.  The rules below compose such facts along
    sequencing and counted loops (`Spec.bind`, `Spec.forRange`), and along runs
    that repeat an action until it gets through (`Spec.attempts`). -/

namespace ActionLogic

universe u

variable {σ ε α β : Type} {ρ : Type u}

/-- An action on the state `σ`: it returns a value or stops with an error, and
    leaves a state either way. -/
def Act (σ ε α : Type) : Type := σ → Except ε α × σ

/-- Return a value, changing nothing. -/
def Act.ret (a : α) : Act σ ε α := fun s => (.ok a, s)

/-- Read a value off the state. -/
def Act.read (f : σ → α) : Act σ ε α := fun s => (.ok (f s), s)

/-- Run `x`, and `f` on its value unless `x` stopped. -/
def Act.andThen (x : Act σ ε α) (f : α → Act σ ε β) : Act σ ε β := fun s =>
  match x s with
  | (.ok a, s') => f a s'
  | (.error e, s') => (.error e, s')

/-- Return or stop as a computed result says, changing nothing. -/
def Act.lift (r : Except ε α) : Act σ ε α := fun s => (r, s)

/-- Rename the errors of an action. -/
def Act.mapErr {ε' : Type} (f : ε → ε') (x : Act σ ε α) : Act σ ε' α := fun s =>
  match x s with
  | (.ok a, s') => (.ok a, s')
  | (.error e, s') => (.error (f e), s')

instance : Monad (Act σ ε) where
  pure := Act.ret
  bind := Act.andThen

/-- Run `body i` for `i = start, ..., start + n - 1`, stopping with the first
    stop. -/
def forCount (body : Nat → Act σ ε Unit) (start : Nat) : Nat → Act σ ε Unit
  | 0 => pure ()
  | n + 1 => do
      body start
      forCount body (start + 1) n

/-- The loop `for i in start..stop`. -/
def forRange (body : Nat → Act σ ε Unit) (start stop : Nat) : Act σ ε Unit :=
  forCount body start (stop - start)

/-- From `P`, the action returns into `Q` or stops in `C`. -/
def Spec (P : σ → Prop) (x : Act σ ε α) (Q : α → σ → Prop)
    (C : ε → σ → Prop) : Prop :=
  ∀ s, P s →
    (∀ a s', x s = (.ok a, s') → Q a s') ∧
    (∀ e s', x s = (.error e, s') → C e s')

/-- The result of an action that returns, put together. -/
theorem returned {x : Except ε α × σ} {a : α} (h : x.1 = .ok a) :
    x = (.ok a, x.2) :=
  Prod.ext h rfl

theorem bind_run (x : Act σ ε α) (f : α → Act σ ε β) (s : σ) :
    (x >>= f) s = match x s with
      | (.ok a, s') => f a s'
      | (.error e, s') => (.error e, s') := rfl

/-- Run on from an action that returned. -/
theorem bind_ok {x : Act σ ε α} {f : α → Act σ ε β} {s s' : σ} {a : α}
    (h : x s = (.ok a, s')) : (x >>= f) s = f a s' := by
  rw [bind_run, h]

/-- ... or from one that stopped. -/
theorem bind_error {x : Act σ ε α} {f : α → Act σ ε β} {s s' : σ} {e : ε}
    (h : x s = (.error e, s')) : (x >>= f) s = (.error e, s') := by
  rw [bind_run, h]

/-- Renaming errors changes neither the state nor a returned value. -/
theorem mapErr_run {ε' : Type} (f : ε → ε') (x : Act σ ε α) (s : σ) :
    x.mapErr f s = ((x s).1.mapError f, (x s).2) := by
  rw [Act.mapErr]
  rcases x s with ⟨_ | _, _⟩ <;> rfl

/-! ## Rules -/

/-- An action that only gives a value leaves what held before. -/
theorem Spec.gives {P : σ → Prop} {x : Act σ ε α} {f : σ → α} {Q : α → σ → Prop}
    {C : ε → σ → Prop} (hx : ∀ s, x s = (.ok (f s), s)) (h : ∀ s, P s → Q (f s) s) :
    Spec P x Q C := by
  intro s hs
  constructor
  · intro b s' hb
    obtain ⟨h1, h2⟩ := Prod.mk.inj ((hx s).symm.trans hb)
    rw [← Except.ok.inj h1, ← h2]
    exact h s hs
  · intro e s' he
    exact nomatch (Prod.mk.inj ((hx s).symm.trans he)).1

theorem Spec.ret {P : σ → Prop} {a : α} {Q : α → σ → Prop}
    {C : ε → σ → Prop} (h : ∀ s, P s → Q a s) :
    Spec P (pure a : Act σ ε α) Q C := Spec.gives (fun _ => rfl) h

theorem Spec.read {P : σ → Prop} {f : σ → α} {Q : α → σ → Prop}
    {C : ε → σ → Prop} (h : ∀ s, P s → Q (f s) s) :
    Spec P (Act.read f : Act σ ε α) Q C := Spec.gives (fun _ => rfl) h

/-- **SEQUENCING**: the middle condition carries the first action's value; both
    actions stop into the same `C`. -/
theorem Spec.bind {P : σ → Prop} {x : Act σ ε α} {f : α → Act σ ε β}
    {M : α → σ → Prop} {Q : β → σ → Prop} {C : ε → σ → Prop}
    (hx : Spec P x M C) (hf : ∀ a, Spec (M a) (f a) Q C) :
    Spec P (x >>= f) Q C := by
  intro s hs
  obtain ⟨hok, herr⟩ := hx s hs
  rw [bind_run]
  rcases hxs : x s with ⟨r, s'⟩
  cases r with
  | ok a => exact hf a s' (hok a s' hxs)
  | error e =>
      constructor
      · intro b t hb
        exact nomatch (Prod.mk.inj hb).1
      · intro e' t he
        obtain ⟨h1, h2⟩ := Prod.mk.inj he
        rw [← Except.error.inj h1, ← h2]
        exact herr e s' hxs

/-- Weaken what is known before, strengthen nothing after. -/
theorem Spec.weaken {P P' : σ → Prop} {x : Act σ ε α} {Q Q' : α → σ → Prop}
    {C C' : ε → σ → Prop} (h : Spec P x Q C) (hP : ∀ s, P' s → P s)
    (hQ : ∀ a s, Q a s → Q' a s) (hC : ∀ e s, C e s → C' e s) :
    Spec P' x Q' C' := by
  intro s hs
  obtain ⟨hok, herr⟩ := h s (hP s hs)
  exact ⟨fun a s' ha => hQ a s' (hok a s' ha),
    fun e s' he => hC e s' (herr e s' he)⟩

/-- Two facts about one action, put together. -/
theorem Spec.both {P P' : σ → Prop} {x : Act σ ε α} {Q Q' : α → σ → Prop}
    {C C' : ε → σ → Prop} (h : Spec P x Q C) (h' : Spec P' x Q' C') :
    Spec (fun s => P s ∧ P' s) x (fun a s => Q a s ∧ Q' a s)
      (fun e s => C e s ∧ C' e s) := by
  rintro s ⟨hs, hs'⟩
  obtain ⟨hok, herr⟩ := h s hs
  obtain ⟨hok', herr'⟩ := h' s hs'
  exact ⟨fun a t hrun => ⟨hok a t hrun, hok' a t hrun⟩,
    fun e t hrun => ⟨herr e t hrun, herr' e t hrun⟩⟩

/-- Renamed errors stop into what the errors stopped into. -/
theorem Spec.mapErr {ε' : Type} {P : σ → Prop} {x : Act σ ε α} {f : ε → ε'}
    {Q : α → σ → Prop} {C : ε → σ → Prop} {C' : ε' → σ → Prop} (hx : Spec P x Q C)
    (hC : ∀ e s, C e s → C' (f e) s) : Spec P (x.mapErr f) Q C' := by
  intro s hs
  obtain ⟨hok, herr⟩ := hx s hs
  rw [Act.mapErr]
  rcases hxs : x s with ⟨r, s'⟩
  cases r with
  | ok a =>
      constructor
      · intro b t hb
        obtain ⟨h1, h2⟩ := Prod.mk.inj hb
        rw [← Except.ok.inj h1, ← h2]
        exact hok a s' hxs
      · intro e t he
        exact nomatch (Prod.mk.inj he).1
  | error e =>
      constructor
      · intro b t hb
        exact nomatch (Prod.mk.inj hb).1
      · intro e' t he
        obtain ⟨h1, h2⟩ := Prod.mk.inj he
        rw [← Except.error.inj h1, ← h2]
        exact hC e s' (herr e s' hxs)

private theorem Spec.forCount {body : Nat → Act σ ε Unit} {I : Nat → σ → Prop}
    {C : ε → σ → Prop} {stop : Nat}
    (hbody : ∀ i, i < stop → Spec (I i) (body i) (fun _ => I (i + 1)) C) :
    ∀ n start, start + n = stop →
      Spec (I start) (forCount body start n) (fun _ => I stop) C := by
  intro n
  induction n with
  | zero =>
      intro start hstop
      refine Spec.ret ?_
      intro s hs
      rw [← hstop]
      exact hs
  | succ n ih =>
      intro start hstop
      exact Spec.bind (hbody start (by omega))
        (fun _ => ih (start + 1) (by omega))

/-- **LOOP RULE**: an invariant indexed by the loop counter, kept by every
    iteration, holds at the end of the loop; every stop is a stop of the body. -/
theorem Spec.forRange {body : Nat → Act σ ε Unit} {I : Nat → σ → Prop}
    {C : ε → σ → Prop} {start stop : Nat} (hle : start ≤ stop)
    (hbody : ∀ i, i < stop → Spec (I i) (body i) (fun _ => I (i + 1)) C) :
    Spec (I start) (forRange body start stop) (fun _ => I stop) C :=
  Spec.forCount hbody (stop - start) start (by omega)

/-! ## Repeated attempts -/

/-- The state after a list of attempts at `x`, each under its own plan `ρ` (when
    and how it is interrupted), whatever each of them returned. -/
def attempts (x : ρ → Act σ ε α) (s : σ) (plans : List ρ) : σ :=
  plans.foldl (fun t p => (x p t).2) s

/-- **RECOVERY RULE**: an action that, under every plan, keeps `I` whether it
    returns or stops, keeps it over any number of attempts; the attempt that
    returns establishes `Q`. -/
theorem Spec.attempts {x : ρ → Act σ ε α} {I : σ → Prop} {Q : α → σ → Prop}
    (h : ∀ p, Spec I (x p) (fun a s => I s ∧ Q a s) (fun _ => I)) :
    ∀ (plans : List ρ) (s : σ), I s →
      I (attempts x s plans) ∧
      ∀ p a s', x p (attempts x s plans) = (.ok a, s') → I s' ∧ Q a s' := by
  intro plans
  induction plans with
  | nil =>
      intro s hs
      exact ⟨hs, fun p a s' hp => (h p s hs).1 a s' hp⟩
  | cons p rest ih =>
      intro s hs
      refine ih (x p s).2 ?_
      obtain ⟨hok, herr⟩ := h p s hs
      rcases hrun : x p s with ⟨r, s'⟩
      cases r with
      | ok a => exact (hok a s' hrun).1
      | error e => exact herr e s' hrun

end ActionLogic
