import Mathlib.Data.List.Basic
import Mathlib.Data.List.Induction

/-! # Runs of an event machine

    A machine takes one event after another.  `run` is the state it ends in;
    `Always` says that every event meets a property in the state it finds, so a
    statement about every moment of a run is an `Always`, and is proved from one
    about a single step and an invariant. -/

namespace EventRun

universe u v

variable {σ : Type u} {ε : Type v}

/-- The state after `events`. -/
def run (step : σ → ε → σ) (s : σ) (events : List ε) : σ := events.foldl step s

/-- Every event of the run meets `P` in the state it finds. -/
def Always (step : σ → ε → σ) (P : σ → ε → Prop) : σ → List ε → Prop
  | _, [] => True
  | s, e :: events => P s e ∧ Always step P (step s e) events

variable {step : σ → ε → σ} {P Q : σ → ε → Prop} {I : σ → Prop} {A : ε → Prop}

/-- **INVARIANT RULE**: what every allowed step keeps, every run of allowed events
    keeps. -/
theorem run_keeps (hstep : ∀ s e, A e → I s → I (step s e)) :
    ∀ (events : List ε) (s : σ), (∀ e ∈ events, A e) → I s →
      I (run step s events) := by
  intro events
  induction events with
  | nil => exact fun _ _ hs => hs
  | cons e events ih =>
      intro s hall hs
      refine ih (step s e) (fun e' he' => hall e' (List.mem_cons_of_mem e he')) ?_
      exact hstep s e (hall e List.mem_cons_self) hs

/-- What holds of every allowed event in every state holds along every run. -/
theorem always_of_forall (h : ∀ s e, A e → P s e) :
    ∀ (events : List ε) (s : σ), (∀ e ∈ events, A e) → Always step P s events := by
  intro events
  induction events with
  | nil => exact fun _ _ => trivial
  | cons e events ih =>
      intro s hall
      refine ⟨h s e (hall e List.mem_cons_self), ih (step s e) ?_⟩
      exact fun e' he' => hall e' (List.mem_cons_of_mem e he')

/-- What an invariant gives of every event holds along every run. -/
theorem always_of_inv (hstep : ∀ s e, A e → I s → I (step s e))
    (h : ∀ s e, A e → I s → P s e) :
    ∀ (events : List ε) (s : σ), (∀ e ∈ events, A e) → I s →
      Always step P s events := by
  intro events
  induction events with
  | nil => exact fun _ _ _ => trivial
  | cons e events ih =>
      intro s hall hs
      have he := hall e List.mem_cons_self
      refine ⟨h s e he hs, ih (step s e) ?_ (hstep s e he hs)⟩
      exact fun e' he' => hall e' (List.mem_cons_of_mem e he')

/-- **TRANSFER RULE**: two properties that agree wherever an invariant holds hold
    along the same runs, if the invariant is kept where they hold. -/
theorem always_congr_while (hstep : ∀ s e, A e → I s → P s e → I (step s e))
    (hiff : ∀ s e, A e → I s → (P s e ↔ Q s e)) :
    ∀ (events : List ε) (s : σ), (∀ e ∈ events, A e) → I s →
      (Always step P s events ↔ Always step Q s events) := by
  intro events
  induction events with
  | nil => exact fun _ _ _ => Iff.rfl
  | cons e events ih =>
      intro s hall hs
      have he := hall e List.mem_cons_self
      refine (and_congr_right fun hP => ?_).trans (and_congr_left' (hiff s e he hs))
      exact ih (step s e) (fun e' he' => hall e' (List.mem_cons_of_mem e he'))
        (hstep s e he hs hP)

/-- ... in particular if every step keeps it. -/
theorem always_congr (hstep : ∀ s e, A e → I s → I (step s e))
    (hiff : ∀ s e, A e → I s → (P s e ↔ Q s e)) :
    ∀ (events : List ε) (s : σ), (∀ e ∈ events, A e) → I s →
      (Always step P s events ↔ Always step Q s events) :=
  always_congr_while (fun s e he hs _ => hstep s e he hs) hiff

/-- What an invariant gives of every event holds along a run, if the events are such
    that they keep it. -/
theorem always_of_while (hstep : ∀ s e, I s → P s e → I (step s e))
    (h : ∀ s e, I s → P s e → Q s e) :
    ∀ (events : List ε) (s : σ), I s → Always step P s events →
      Always step Q s events := by
  intro events
  induction events with
  | nil => exact fun _ _ _ => trivial
  | cons e events ih =>
      intro s hs hall
      obtain ⟨hP, hrest⟩ := hall
      exact ⟨h s e hs hP, ih (step s e) (hstep s e hs hP) hrest⟩

/-- ... and holds where the run ends. -/
theorem run_keeps_while (hstep : ∀ s e, A e → I s → P s e → I (step s e)) :
    ∀ (events : List ε) (s : σ), (∀ e ∈ events, A e) → I s → Always step P s events →
      I (run step s events) := by
  intro events
  induction events with
  | nil => exact fun _ _ hs _ => hs
  | cons e events ih =>
      intro s hall hs hP
      refine ih (step s e) (fun e' he' => hall e' (List.mem_cons_of_mem e he')) ?_ hP.2
      exact hstep s e (hall e List.mem_cons_self) hs hP.1

/-- What is asked of an event alone is asked of all of them. -/
theorem always_event_iff {A : ε → Prop} : ∀ (events : List ε) (s : σ),
    Always step (fun _ e => A e) s events ↔ ∀ e ∈ events, A e := by
  intro events
  induction events with
  | nil => exact fun _ => iff_of_true trivial fun _ h => absurd h List.not_mem_nil
  | cons e events ih =>
      intro s
      rw [List.forall_mem_cons]
      exact and_congr_right' (ih (step s e))

/-- Along a run, said at its prefixes. -/
theorem always_iff :
    ∀ (events : List ε) (s : σ), Always step P s events ↔
      ∀ before e after, events = before ++ e :: after →
        P (run step s before) e := by
  intro events
  induction events with
  | nil =>
      intro s
      refine iff_of_true trivial ?_
      intro before e after h
      exact absurd h (by simp)
  | cons first events ih =>
      intro s
      constructor
      · rintro ⟨hfirst, hrest⟩ before e after h
        cases before with
        | nil =>
            obtain ⟨rfl, rfl⟩ := List.cons.inj h
            exact hfirst
        | cons b before =>
            obtain ⟨rfl, htail⟩ := List.cons.inj h
            exact (ih _).mp hrest before e after htail
      · intro h
        refine ⟨h [] first events rfl, (ih _).mpr ?_⟩
        intro before e after htail
        exact h (first :: before) e after (by rw [htail]; rfl)

theorem run_snoc (s : σ) (events : List ε) (e : ε) :
    run step s (events ++ [e]) = step (run step s events) e :=
  List.foldl_append ..

theorem run_append (s : σ) (earlier later : List ε) :
    run step s (earlier ++ later) = run step (run step s earlier) later :=
  List.foldl_append ..

/-! ## Runs of allowed events -/

section Reach

variable [∀ s e, Decidable (P s e)]

/-- The state after `events`, if each of them meets `P` in the state it finds. -/
def reach (step : σ → ε → σ) (P : σ → ε → Prop) [∀ s e, Decidable (P s e)] :
    σ → List ε → Option σ
  | s, [] => some s
  | s, e :: events => if P s e then reach step P (step s e) events else none

theorem reach_eq_some_iff {s' : σ} : ∀ (events : List ε) (s : σ),
    reach step P s events = some s' ↔ Always step P s events ∧ run step s events = s' := by
  intro events
  induction events with
  | nil =>
      intro s
      rw [reach, Option.some.injEq]
      exact (and_iff_right trivial).symm
  | cons e events ih =>
      intro s
      rw [reach]
      by_cases he : P s e
      · rw [if_pos he, ih, Always, and_iff_right he]
        exact Iff.rfl
      · rw [if_neg he]
        exact iff_of_false (fun h => nomatch h) (fun h => he h.1.1)

/-- Where a run of allowed events leads. -/
theorem run_eq_of_reach {s s' : σ} {events : List ε}
    (h : reach step P s events = some s') : run step s events = s' :=
  ((reach_eq_some_iff events s).mp h).2

end Reach

/-! ## The last write -/

section LastWrite

universe w

variable {β : Type w}

/-- The last event of the run that writes has written `v`, and `after` is what came
    after it. -/
def LastWrite (step : σ → ε → σ) (write : σ → ε → Option β) (s : σ) (events : List ε)
    (v : β) (after : List ε) : Prop :=
  ∃ before e, events = before ++ e :: after ∧
    write (run step s before) e = some v ∧
    Always step (fun s e => write s e = none) (run step s (before ++ [e])) after

theorem always_snoc (s : σ) (events : List ε) (e : ε) :
    Always step P s (events ++ [e]) ↔
      Always step P s events ∧ P (run step s events) e := by
  induction events generalizing s with
  | nil => exact ⟨fun h => ⟨trivial, h.1⟩, fun h => ⟨h.2, trivial⟩⟩
  | cons first events ih => exact (and_congr_right' (ih _)).trans and_assoc.symm

variable {write : σ → ε → Option β} {s : σ} {events : List ε} {e : ε} {v : β}
  {after : List ε}

/-- The last write of a longer run: its last event, or else the last write
    before that. -/
theorem lastWrite_snoc_iff : LastWrite step write s (events ++ [e]) v after ↔
    (after = [] ∧ write (run step s events) e = some v) ∨
      ∃ earlier, after = earlier ++ [e] ∧ write (run step s events) e = none ∧
        LastWrite step write s events v earlier := by
  constructor
  · rintro ⟨before, w, hsplit, hwrite, hquiet⟩
    induction after using List.reverseRecOn with
    | nil =>
        obtain ⟨rfl, hlast⟩ := List.append_inj' hsplit rfl
        obtain rfl := List.singleton_inj.mp hlast
        exact .inl ⟨rfl, hwrite⟩
    | append_singleton earlier last _ =>
        rw [← List.cons_append, ← List.append_assoc] at hsplit
        obtain ⟨rfl, hlast⟩ := List.append_inj' hsplit rfl
        obtain rfl := List.singleton_inj.mp hlast
        obtain ⟨hearlier, hnone⟩ := (always_snoc _ _ _).mp hquiet
        rw [← run_append, List.append_assoc] at hnone
        exact .inr ⟨earlier, rfl, hnone, before, w, rfl, hwrite, hearlier⟩
  · rintro (⟨rfl, hwrite⟩ | ⟨earlier, rfl, hnone, before, w, rfl, hwrite, hquiet⟩)
    · exact ⟨events, e, rfl, hwrite, trivial⟩
    · refine ⟨before, w, List.append_assoc .., hwrite, (always_snoc _ _ _).mpr ?_⟩
      rw [← run_append, List.append_assoc]
      exact ⟨hquiet, hnone⟩

/-- **CELL RULE**: a cell that starts empty, and that writes and nothing else
    change, holds what was written last. -/
theorem cell_eq_some_iff (cell : σ → Option β)
    (hwrite : ∀ s e v, write s e = some v → cell (step s e) = some v)
    (hkeep : ∀ s e, write s e = none → cell (step s e) = cell s)
    (hs : cell s = none) (events : List ε) (v : β) :
    cell (run step s events) = some v ↔
      ∃ after, LastWrite step write s events v after := by
  induction events using List.reverseRecOn with
  | nil =>
      refine iff_of_false (fun h => nomatch hs.symm.trans h) ?_
      rintro ⟨after, before, e, h, -⟩
      exact absurd h (by simp)
  | append_singleton events e ih =>
      rw [run_snoc]
      simp only [lastWrite_snoc_iff]
      cases hw : write (run step s events) e with
      | none =>
          rw [hkeep _ _ hw, ih]
          constructor
          · rintro ⟨earlier, h⟩
            exact ⟨_, .inr ⟨earlier, rfl, rfl, h⟩⟩
          · rintro ⟨after, ⟨-, h⟩ | ⟨earlier, -, -, h⟩⟩
            · exact nomatch h
            · exact ⟨earlier, h⟩
      | some v' =>
          rw [hwrite _ _ _ hw]
          constructor
          · intro h
            exact ⟨[], .inl ⟨rfl, h⟩⟩
          · rintro ⟨after, ⟨-, h⟩ | ⟨earlier, -, h, -⟩⟩
            · exact h
            · exact nomatch h

end LastWrite

/-! ## Since an event -/

section Since

/-- An event of the run has met `Q`, and every event since then has met `P`. -/
def Since (step : σ → ε → σ) (P Q : σ → ε → Prop) (s : σ) (events : List ε) : Prop :=
  ∃ before e after, events = before ++ e :: after ∧ Q (run step s before) e ∧
    Always step P (run step s (before ++ [e])) after

variable {s : σ} {events : List ε} {e : ε}

theorem since_snoc_iff : Since step P Q s (events ++ [e]) ↔
    Q (run step s events) e ∨ Since step P Q s events ∧ P (run step s events) e := by
  constructor
  · rintro ⟨before, q, after, hsplit, hq, hafter⟩
    induction after using List.reverseRecOn with
    | nil =>
        obtain ⟨rfl, hlast⟩ := List.append_inj' hsplit rfl
        obtain rfl := List.singleton_inj.mp hlast
        exact .inl hq
    | append_singleton earlier last _ =>
        rw [← List.cons_append, ← List.append_assoc] at hsplit
        obtain ⟨rfl, hlast⟩ := List.append_inj' hsplit rfl
        obtain rfl := List.singleton_inj.mp hlast
        obtain ⟨hearlier, hp⟩ := (always_snoc _ _ _).mp hafter
        rw [← run_append, List.append_assoc] at hp
        exact .inr ⟨⟨before, q, earlier, rfl, hq, hearlier⟩, hp⟩
  · rintro (hq | ⟨⟨before, q, after, rfl, hq, hafter⟩, hp⟩)
    · exact ⟨events, e, [], rfl, hq, trivial⟩
    · refine ⟨before, q, after ++ [e], List.append_assoc .., hq, ?_⟩
      refine (always_snoc _ _ _).mpr ⟨hafter, ?_⟩
      rw [← run_append, List.append_assoc]
      exact hp

/-- **FLAG RULE**: a flag that is down at the start, that the events of `Q` raise and
    that no other raises, and that the events of `P` and no others leave up, is up as
    long as `P` has held since `Q`. -/
theorem flag_iff_since (flag : σ → Prop)
    (hstep : ∀ s e, flag (step s e) ↔ Q s e ∨ flag s ∧ P s e) (hs : ¬ flag s)
    (events : List ε) : flag (run step s events) ↔ Since step P Q s events := by
  induction events using List.reverseRecOn with
  | nil =>
      refine iff_of_false hs ?_
      rintro ⟨before, e, after, h, -⟩
      exact absurd h (by simp)
  | append_singleton events e ih => rw [run_snoc, hstep, ih, since_snoc_iff]

end Since

/-! ## What the events give -/

section Outputs

universe w z

variable {β : Type w} {γ : Type z} {out : σ → ε → Option β}

/-- What the events of a run give, in order, each in the state it finds. -/
def outputs (step : σ → ε → σ) (out : σ → ε → Option β) : σ → List ε → List β
  | _, [] => []
  | s, e :: events => (out s e).toList ++ outputs step out (step s e) events

/-- **ACCUMULATOR RULE**: a cell that takes what an event gives, and that nothing else
    changes, has taken all that the run gave. -/
theorem cell_eq_foldl (cell : σ → γ) (take : γ → β → γ)
    (htake : ∀ s e b, out s e = some b → cell (step s e) = take (cell s) b)
    (hkeep : ∀ s e, out s e = none → cell (step s e) = cell s) :
    ∀ (events : List ε) (s : σ),
      cell (run step s events) = (outputs step out s events).foldl take (cell s) := by
  intro events
  induction events with
  | nil => exact fun _ => rfl
  | cons e events ih =>
      intro s
      show cell (run step (step s e) events) = _
      rw [ih, outputs, List.foldl_append]
      cases hout : out s e with
      | none =>
          rw [hkeep s e hout]
          rfl
      | some b =>
          rw [htake s e b hout]
          rfl

end Outputs

/-! ## Counting along a run -/

variable [∀ s e, Decidable (P s e)]

/-- How many events, counted back from the last without a gap, met `P` in the
    state they found; `n` such events came before the first. -/
def streakFrom (step : σ → ε → σ) (P : σ → ε → Prop) [∀ s e, Decidable (P s e)] :
    Nat → σ → List ε → Nat
  | n, _, [] => n
  | n, s, e :: events =>
      streakFrom step P (if P s e then n + 1 else 0) (step s e) events

/-- The length of the unbroken row of events that meet `P`, up to the last. -/
def streak (step : σ → ε → σ) (P : σ → ε → Prop) [∀ s e, Decidable (P s e)] :
    σ → List ε → Nat := streakFrom step P 0

/-- How many events of the run meet `P` in the state they find. -/
def tally (step : σ → ε → σ) (P : σ → ε → Prop) [∀ s e, Decidable (P s e)] :
    σ → List ε → Nat
  | _, [] => 0
  | s, e :: events => (if P s e then 1 else 0) + tally step P (step s e) events

theorem streakFrom_snoc (e : ε) :
    ∀ (events : List ε) (n : Nat) (s : σ),
      streakFrom step P n s (events ++ [e])
        = if P (run step s events) e then streakFrom step P n s events + 1 else 0 := by
  intro events
  induction events with
  | nil => exact fun _ _ => rfl
  | cons first events ih => exact fun _ s => ih _ (step s first)

/-- One more event makes the row longer or ends it. -/
theorem streak_snoc (s : σ) (events : List ε) (e : ε) :
    streak step P s (events ++ [e])
      = if P (run step s events) e then streak step P s events + 1 else 0 :=
  streakFrom_snoc e events 0 s

/-- A row reaches back over as many events as it is long. -/
theorem met_of_lt_streak {s : σ} {before : List ε} {e : ε} (last : List ε)
    (h : last.length < streak step P s (before ++ e :: last)) :
    P (run step s before) e := by
  induction last using List.reverseRecOn with
  | nil =>
      rw [streak_snoc] at h
      by_contra hne
      rw [if_neg hne] at h
      exact absurd h (Nat.lt_irrefl 0)
  | append_singleton last x ih =>
      have hassoc : before ++ e :: (last ++ [x]) = before ++ e :: last ++ [x] := by
        rw [List.append_assoc, List.cons_append]
      rw [hassoc, streak_snoc, List.length_append, List.length_singleton] at h
      refine ih ?_
      split at h
      · exact Nat.lt_of_succ_lt_succ h
      · exact absurd h (Nat.not_lt_zero _)

end EventRun
