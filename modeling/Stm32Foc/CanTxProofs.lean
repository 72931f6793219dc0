import Mathlib.Algebra.Group.Nat.Defs
import Mathlib.Tactic.Set
import Stm32Foc.CanTx
import Stm32Foc.PeriodicDeadline

/-! # Reports keep their schedule

    What a run of `can_tx_task` sends.  Each slot is a periodic deadline, served by the
    passes of the loop; the passes that serve one kind are `hits` of its deadline,
    whatever the other slots do.  A pass that serves a kind sends a frame of it where there
    is one.  The one reading of the arbitrator a pass takes is
    taken wherever a message of the pass uses it. -/

namespace CanTxProofs

open FieldOriented Modes CanTx PeriodicDeadline

variable {K C F : Type} [Zero K]

/-- The task after some passes: its slots, the time of the last pass, and the services of
    its slots. -/
structure Task (F : Type) where
  slots : List Slot
  last : Nat
  log : List (Attempt F)

namespace Task

/-- The task at its start; `ready` is when it comes to its loop. -/
def begin (start : Periodic → Nat) (ready : Nat) : Task F := ⟨slotsFrom start, ready, []⟩

/-- The next turn of the loop. -/
def step (encode : Message K → Option F) (s : Task F) (p : Pass K C) : Task F :=
  let (slots, attempts) := turn encode s.slots p
  ⟨slots, p.now, s.log ++ attempts⟩

/-- The services of one kind of message, in order. -/
def logOf (s : Task F) (kind : Periodic) : List (Attempt F) :=
  s.log.filter (·.kind = kind)

/-- The services of it that sent a frame. -/
def sentOf (s : Task F) (kind : Periodic) : List (Attempt F) :=
  (s.logOf kind).filter (·.frame.isSome)

/-- The clock does not run back, and the sleep is over. -/
def Wakes (s : Task F) (p : Pass K C) : Prop :=
  s.last ≤ p.now ∧ ∀ next ∈ wakeUp s.slots, next ≤ p.now

/-- The pass comes within `slack` of the end of the sleep, or of the pass before it. -/
def WakesWithin (slack : Nat) (s : Task F) (p : Pass K C) : Prop :=
  ∀ next ∈ wakeUp s.slots, p.now ≤ max next s.last + slack

instance (s : Task F) (p : Pass K C) : Decidable (s.Wakes p) :=
  inferInstanceAs (Decidable (_ ∧ _))

instance (slack : Nat) (s : Task F) (p : Pass K C) : Decidable (s.WakesWithin slack p) :=
  inferInstanceAs (Decidable (∀ next ∈ wakeUp s.slots, p.now ≤ max next s.last + slack))

/-- The slot of the kind is not due any more. -/
def CaughtUp (s : Task F) (kind : Periodic) : Prop :=
  ∀ slot ∈ s.slots, slot.kind = kind → s.last < slot.nextDue

instance (s : Task F) (kind : Periodic) : Decidable (s.CaughtUp kind) :=
  inferInstanceAs (Decidable (∀ slot ∈ s.slots, slot.kind = kind → s.last < slot.nextDue))

end Task

/-! ## One pass -/

/-- The slot after a pass at `now`. -/
def passed (now : Nat) (slot : Slot) : Slot := if slot.isDue now then slot.moveOn else slot

variable (encode : Message K → Option F)

/-- What a pass that serves one kind does: the frame it sends, if any, is of the readings
    of that pass. -/
def report (kind : Periodic) (p : Pass K C) : Attempt F :=
  ⟨kind, p.now, frame encode kind p.arbitrator (p.view kind)⟩

theorem serve_slots (p : Pass K C) (rotor : RotorReadings K) (slots : List Slot) :
    (serve encode p rotor slots).1 = slots.map (passed p.now) := by
  induction slots with
  | nil => rfl
  | cons slot slots ih =>
      rw [List.map_cons, ← ih, passed]
      cases hdue : slot.isDue p.now <;> simp [serve, hdue]

theorem serve_attempts (p : Pass K C) (rotor : RotorReadings K) (slots : List Slot) :
    (serve encode p rotor slots).2 = (slots.filter (·.isDue p.now)).map fun slot =>
      ⟨slot.kind, p.now, frame encode slot.kind rotor (p.view slot.kind)⟩ := by
  induction slots with
  | nil => rfl
  | cons slot slots ih =>
      rw [List.filter_cons]
      cases hdue : slot.isDue p.now <;> simp [serve, hdue, ih]

/-- A message that does not need the arbitrator is the same without it. -/
theorem message_congr {kind : Periodic} (h : kind.needsRotorFeedback = false)
    (rotor rotor' : RotorReadings K) (view : View K C) :
    message kind rotor view = message kind rotor' view := by
  cases kind with
  | encoderReading => exact absurd h (by decide)
  | rotorEstimates => exact absurd h (by decide)
  | captureDump => rfl
  | fault => rfl
  | heartbeat => rfl
  | motorCurrents => rfl

/-- **READ ON DEMAND**: what a pass sends is what it would send, had it always read the
    arbitrator. -/
theorem frame_rotorReadings (p : Pass K C) {slots : List Slot} {slot : Slot}
    (hmem : slot ∈ slots) (hdue : slot.isDue p.now) (view : View K C) :
    frame encode slot.kind (p.rotorReadings slots) view
      = frame encode slot.kind p.arbitrator view := by
  cases hneeds : slot.kind.needsRotorFeedback with
  | true =>
      have hany : (slots.any fun s => s.isDue p.now && s.kind.needsRotorFeedback) := by
        refine List.any_eq_true.mpr ⟨slot, hmem, ?_⟩
        rw [hdue, hneeds]
        rfl
      rw [Pass.rotorReadings, if_pos hany]
  | false => exact congrArg (·.bind encode) (message_congr hneeds _ _ view)

theorem turn_attempts (slots : List Slot) (p : Pass K C) :
    (turn encode slots p).2
      = (slots.filter (·.isDue p.now)).map fun slot => report encode slot.kind p := by
  rw [turn, serve_attempts]
  refine List.map_congr_left fun slot hslot => ?_
  obtain ⟨hmem, hdue⟩ := List.mem_filter.mp hslot
  rw [frame_rotorReadings encode p hmem hdue]
  rfl

/-! ## The slots as deadlines -/

/-- The slots, by their due times. -/
def slotsAt (due : Periodic → Nat) : List Slot :=
  Periodic.all.map fun kind => ⟨kind, due kind, kind.periodUs⟩

theorem mem_slotsAt {due : Periodic → Nat} {slot : Slot} :
    slot ∈ slotsAt due ↔ slot = ⟨slot.kind, due slot.kind, slot.kind.periodUs⟩ := by
  constructor
  · intro h
    obtain ⟨kind, -, rfl⟩ := List.mem_map.mp h
    rfl
  · intro h
    rw [h]
    refine List.mem_map.mpr ⟨slot.kind, ?_, rfl⟩
    cases slot.kind <;> decide

theorem passed_mk (now : Nat) (kind : Periodic) (due : Nat) :
    passed now ⟨kind, due, kind.periodUs⟩
      = ⟨kind, advance kind.periodUs due now, kind.periodUs⟩ := by
  rcases le_or_gt due now with h | h
  · have hdue : Slot.isDue ⟨kind, due, kind.periodUs⟩ now = true := decide_eq_true h
    rw [advance_of_due h, passed, if_pos hdue]
    rfl
  · have hdue : ¬Slot.isDue ⟨kind, due, kind.periodUs⟩ now = true :=
      fun hdue => absurd (of_decide_eq_true hdue) (not_le.mpr h)
    rw [advance_of_lt h, passed, if_neg hdue]

theorem turn_slots (due : Periodic → Nat) (p : Pass K C) :
    (turn encode (slotsAt due) p).1
      = slotsAt fun kind => advance kind.periodUs (due kind) p.now := by
  rw [turn, serve_slots, slotsAt, slotsAt, List.map_map]
  exact List.map_congr_left fun kind _ => passed_mk p.now kind (due kind)

theorem step_slots {s : Task F} {due : Periodic → Nat} (hs : s.slots = slotsAt due)
    (p : Pass K C) :
    (s.step encode p).slots
      = slotsAt fun kind => advance kind.periodUs (due kind) p.now := by
  show (turn encode s.slots p).1 = _
  rw [hs]
  exact turn_slots encode due p

/-- A pass serves each kind once if its deadline has come, and not otherwise. -/
theorem turn_logOf (due : Periodic → Nat) (p : Pass K C) (kind : Periodic) :
    (turn encode (slotsAt due) p).2.filter (·.kind = kind)
      = if due kind ≤ p.now then [report encode kind p] else [] := by
  have hkinds : (Periodic.all.filter fun k =>
      decide (k = kind) && Slot.isDue ⟨k, due k, k.periodUs⟩ p.now)
        = if due kind ≤ p.now then [kind] else [] := by
    by_cases h : due kind ≤ p.now <;> cases kind <;>
      simp [Periodic.all, Slot.isDue, h]
  have hfilter : (slotsAt due).filter (fun slot => slot.kind = kind && slot.isDue p.now)
      = if due kind ≤ p.now then [⟨kind, due kind, kind.periodUs⟩] else [] := by
    rw [slotsAt, List.filter_map]
    refine (congrArg (List.map _) hkinds).trans ?_
    split <;> rfl
  rw [turn_attempts, List.filter_map, List.filter_filter]
  refine (congrArg (List.map _) hfilter).trans ?_
  split <;> rfl

/-! ## A run -/

/-- The run so far kept `due` and has served what `hits` names. -/
theorem run_slots (passes : List (Pass K C)) :
    ∀ (s : Task F) (due : Periodic → Nat), s.slots = slotsAt due →
      (EventRun.run (Task.step encode) s passes).slots
        = slotsAt fun kind => dueAfter (·.now) kind.periodUs (due kind) passes := by
  induction passes with
  | nil => exact fun _ _ h => h
  | cons p passes ih =>
      intro s due h
      exact ih (s.step encode p) _ (step_slots encode h p)

theorem run_logOf (passes : List (Pass K C)) (kind : Periodic) :
    ∀ (s : Task F) (due : Periodic → Nat), s.slots = slotsAt due →
      (EventRun.run (Task.step encode) s passes).logOf kind
        = s.logOf kind
          ++ (hits (·.now) kind.periodUs (due kind) passes).map (report encode kind) := by
  induction passes with
  | nil => exact fun s _ _ => (List.append_nil _).symm
  | cons p passes ih =>
      intro s due h
      have hstep : (s.step encode p).logOf kind
          = s.logOf kind ++ if due kind ≤ p.now then [report encode kind p] else [] := by
        show (s.log ++ (turn encode s.slots p).2).filter _ = _
        rw [List.filter_append, h, turn_logOf]
        rfl
      refine (ih (s.step encode p) _ (step_slots encode h p)).trans ?_
      rw [hstep, List.append_assoc]
      rcases le_or_gt (due kind) p.now with hdue | hdue
      · rw [if_pos hdue, advance_of_due hdue, hits_of_due hdue]
        rfl
      · rw [if_neg (not_le.mpr hdue), advance_of_lt hdue, hits_of_lt hdue]
        rfl

theorem run_last (passes : List (Pass K C)) :
    ∀ s : Task F, (EventRun.run (Task.step encode) s passes).last
      = lastOf (·.now) s.last passes := by
  induction passes with
  | nil => exact fun _ => rfl
  | cons p passes ih => exact fun s => (ih (s.step encode p)).trans (lastOf_cons ..).symm

theorem ordered_of_wakes (passes : List (Pass K C)) :
    ∀ s : Task F, EventRun.Always (Task.step encode) Task.Wakes s passes →
      Ordered (·.now) s.last passes := by
  induction passes with
  | nil => exact fun _ _ => trivial
  | cons p passes ih => exact fun s h => ⟨h.1.1, ih (s.step encode p) h.2⟩

/-- The sleep ends with the first deadline. -/
theorem wakeUp_slotsAt (due : Periodic → Nat) :
    ∃ next ∈ wakeUp (slotsAt due), (∃ kind, next = due kind) ∧ ∀ kind, next ≤ due kind := by
  have hne : (slotsAt due).map (·.nextDue) ≠ [] := List.cons_ne_nil _ _
  obtain ⟨next, hnext⟩ := Option.isSome_iff_exists.mp (List.isSome_min?_of_ne_nil hne)
  obtain ⟨hmem, hle⟩ := List.min?_eq_some_iff.mp hnext
  refine ⟨next, hnext, ?_, fun kind => hle _ ?_⟩
  · obtain ⟨slot, hslot, rfl⟩ := List.mem_map.mp hmem
    exact ⟨slot.kind, congrArg Slot.nextDue (mem_slotsAt.mp hslot)⟩
  · exact List.mem_map.mpr ⟨⟨kind, due kind, kind.periodUs⟩, mem_slotsAt.mpr rfl, rfl⟩

/-- A turn of the loop serves at least one kind. -/
theorem step_log_length {s : Task F} {due : Periodic → Nat} (hs : s.slots = slotsAt due)
    {p : Pass K C} (hwake : s.Wakes p) :
    s.log.length < (s.step encode p).log.length := by
  obtain ⟨next, hnext, ⟨kind, rfl⟩, -⟩ := wakeUp_slotsAt due
  have hdue : due kind ≤ p.now := hwake.2 _ (hs ▸ hnext)
  have hlog := turn_logOf encode due p kind
  rw [if_pos hdue] at hlog
  have hlen := List.length_filter_le (·.kind = kind) (turn encode (slotsAt due) p).2
  show _ < (s.log ++ (turn encode s.slots p).2).length
  rw [hlog] at hlen
  rw [List.length_append, hs]
  exact Nat.lt_add_of_pos_right hlen

/-- Every pass of a run serves something. -/
theorem always_serves (passes : List (Pass K C)) {s : Task F} {due : Periodic → Nat}
    (hs : s.slots = slotsAt due)
    (hwake : EventRun.Always (Task.step encode) Task.Wakes s passes) :
    EventRun.Always (Task.step encode)
      (fun s p => s.log.length < (s.step encode p).log.length) s passes :=
  EventRun.always_of_while (I := fun s => ∃ due, s.slots = slotsAt due)
    (fun _ p hslots _ => ⟨_, step_slots encode hslots.choose_spec p⟩)
    (fun _ _ hslots hwakes => step_log_length encode hslots.choose_spec hwakes) passes s
    ⟨due, hs⟩ hwake

/-! ## The schedule -/

theorem periodUs_pos (kind : Periodic) : 0 < kind.periodUs := by cases kind <;> decide

theorem begin_slots (start : Periodic → Nat) (ready : Nat) :
    (Task.begin start ready : Task F).slots
      = slotsAt fun kind => start kind + kind.periodUs := rfl

/-- **ON SCHEDULE**: whenever the task wakes, it serves something; a kind is served by
    different passes, the `j`-th no sooner than `j + 1` periods after the start; there are
    no more of them than whole periods have passed, and that many once the kind has caught
    up; and what is sent is what these passes have to send of what their locks show. -/
theorem run_onSchedule (start : Periodic → Nat) (ready : Nat) (passes : List (Pass K C))
    (hwake : EventRun.Always (Task.step encode) Task.Wakes (Task.begin start ready) passes) :
    let task := EventRun.run (Task.step encode) (Task.begin start ready) passes
    EventRun.Always (Task.step encode)
        (fun s p => s.log.length < (s.step encode p).log.length)
        (Task.begin start ready) passes ∧
      ∀ kind, ∃ served : List (Pass K C), served.Sublist passes ∧
        task.logOf kind = served.map (report encode kind) ∧
        task.sentOf kind
          = (served.map (report encode kind)).filter (·.frame.isSome) ∧
        (∀ j (h : j < served.length),
          start kind + (j + 1) * kind.periodUs ≤ served[j].now) ∧
        served.length ≤ (task.last - start kind) / kind.periodUs ∧
        (task.CaughtUp kind →
          served.length = (task.last - start kind) / kind.periodUs) := by
  intro task
  have hslots := begin_slots (F := F) start ready
  refine ⟨always_serves encode passes hslots hwake, fun kind => ?_⟩
  have hordered := ordered_of_wakes encode passes _ hwake
  have hlast : task.last = lastOf (·.now) ready passes := run_last encode passes _
  have hlog := run_logOf encode passes kind (Task.begin start ready) _ hslots
  rw [hlast]
  refine ⟨_, hits_sublist passes _, hlog, congrArg (List.filter _) hlog, fun j h => ?_,
    hits_length_le (periodUs_pos kind) hordered, fun hcaught => ?_⟩
  · exact start_le_hits passes (start kind) j h
  · refine hits_length_eq (periodUs_pos kind) hordered ?_
    refine hlast ▸ hcaught ⟨kind, _, kind.periodUs⟩ ?_ rfl
    rw [run_slots encode passes _ _ hslots]
    exact mem_slotsAt.mpr rfl

/-- A pass that finds the drive idle and without readings. -/
def idlePass (now : Nat) : Pass Int Unit where
  now := now
  arbitrator := ⟨none, none, none⟩
  view := fun _ => ⟨⟨⟨0, 0⟩, ⟨0, 0⟩⟩, .idle .freshSto, ⟨none, none⟩, none⟩

/-- Three turns of the loop, the second late for both messages it sends. -/
def threeTurns : Task (Message Int) :=
  EventRun.run (Task.step some) (Task.begin (fun _ => 0) 0)
    [idlePass 400, idlePass 1010, idlePass 1200]

theorem run_onSchedule_threeTurns :
    ∃ served : List (Pass Int Unit),
      threeTurns.sentOf .motorCurrents
          = (served.map (report some .motorCurrents)).filter (·.frame.isSome) ∧
        served.length = (threeTurns.last - 0) / 400 := by
  have h := run_onSchedule some (fun _ => 0) 0 [idlePass 400, idlePass 1010, idlePass 1200]
    ⟨by decide, by decide, by decide, trivial⟩
  obtain ⟨served, -, -, hsent, -, -, hlen⟩ := h.2 .motorCurrents
  exact ⟨served, hsent, hlen (by decide)⟩

theorem prompt_of_wakesWithin {slack : Nat} (kind : Periodic) (passes : List (Pass K C)) :
    ∀ (s : Task F) (due : Periodic → Nat), s.slots = slotsAt due →
      EventRun.Always (Task.step encode) (Task.WakesWithin slack) s passes →
      Prompt (·.now) kind.periodUs slack s.last (due kind) passes := by
  induction passes with
  | nil => exact fun _ _ _ _ => trivial
  | cons p passes ih =>
      intro s due hs h
      obtain ⟨next, hnext, -, hle⟩ := wakeUp_slotsAt due
      have hnow := h.1 next (hs ▸ hnext)
      refine ⟨hnow.trans (Nat.add_le_add_right (max_le_max_right _ (hle kind)) _), ?_⟩
      exact ih (s.step encode p) _ (step_slots encode hs p) h.2

/-- A kind that has something to send at every pass is sent whenever it is served. -/
theorem sentOf_eq_logOf (passes : List (Pass K C)) (kind : Periodic) {s : Task F}
    {due : Periodic → Nat} (hs : s.slots = slotsAt due) (hempty : s.log = [])
    (hframe : ∀ p ∈ passes, (report encode kind p).frame.isSome) :
    (EventRun.run (Task.step encode) s passes).sentOf kind
      = (EventRun.run (Task.step encode) s passes).logOf kind := by
  have hnone : s.logOf kind = [] := by
    rw [Task.logOf, hempty]
    rfl
  rw [Task.sentOf, run_logOf encode passes kind s due hs, hnone, List.nil_append,
    List.filter_eq_self]
  intro attempt hmem
  obtain ⟨p, hp, rfl⟩ := List.mem_map.mp hmem
  exact hframe p ((hits_sublist passes _).subset hp)

/-- **ON TIME**: a kind that always has something to send, and whose period is longer than
    the task is ever late in waking, is sent once in every period, each time within that
    lateness of its due time, however far behind the other kinds are. -/
theorem run_onTime (start : Periodic → Nat) (ready : Nat) (passes : List (Pass K C))
    (kind : Periodic) (slack : Nat) (hslack : slack < kind.periodUs)
    (hready : ready < start kind + kind.periodUs)
    (hframe : ∀ p ∈ passes, (report encode kind p).frame.isSome)
    (hwake : EventRun.Always (Task.step encode) Task.Wakes (Task.begin start ready) passes)
    (hprompt : EventRun.Always (Task.step encode) (Task.WakesWithin slack)
      (Task.begin start ready) passes) :
    let task := EventRun.run (Task.step encode) (Task.begin start ready) passes
    (task.sentOf kind).length = (task.last - start kind) / kind.periodUs ∧
      ∀ j (h : j < (task.sentOf kind).length),
        start kind + (j + 1) * kind.periodUs ≤ (task.sentOf kind)[j].now ∧
          (task.sentOf kind)[j].now ≤ start kind + (j + 1) * kind.periodUs + slack := by
  intro task
  have hslots := begin_slots (F := F) start ready
  have hordered := ordered_of_wakes encode passes _ hwake
  have hpasses := prompt_of_wakesWithin encode kind passes _ _ hslots hprompt
  have hlast : task.last = lastOf (·.now) ready passes := run_last encode passes _
  have hlog : task.logOf kind = (hits (·.now) kind.periodUs (start kind + kind.periodUs)
      passes).map (report encode kind) := run_logOf encode passes kind _ _ hslots
  have hsent : task.sentOf kind = task.logOf kind :=
    sentOf_eq_logOf encode passes kind hslots rfl hframe
  rw [hlast, hsent, hlog]
  refine ⟨?_, fun j h => ?_⟩
  · rw [List.length_map]
    exact hits_length_eq (periodUs_pos kind) hordered
      (lastOf_lt_dueAfter hslack passes ready _ hready hpasses)
  · rw [List.length_map] at h
    rw [List.getElem_map]
    exact ⟨start_le_hits passes (start kind) j h,
      hits_le_start_of_prompt hslack passes ready (start kind) hready hpasses j h⟩

theorem run_onTime_threeTurns :
    (threeTurns.sentOf .motorCurrents).length = 3 ∧
      ∀ j (h : j < (threeTurns.sentOf .motorCurrents).length),
        0 + (j + 1) * 400 ≤ (threeTurns.sentOf .motorCurrents)[j].now ∧
          (threeTurns.sentOf .motorCurrents)[j].now ≤ 0 + (j + 1) * 400 + 210 :=
  run_onTime some (fun _ => 0) 0 [idlePass 400, idlePass 1010, idlePass 1200]
    .motorCurrents 210 (by decide) (by decide) (by decide)
    ⟨by decide, by decide, by decide, trivial⟩ ⟨by decide, by decide, by decide, trivial⟩

end CanTxProofs
