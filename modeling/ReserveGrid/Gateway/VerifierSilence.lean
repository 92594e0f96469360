import ReserveGrid.Gateway.VerifierIo

/-!
# Silence of the verifier

What the clocks of the loop decide: a verifier is dropped as silent only past the
deadline, a write is failed as stalled only when no byte was taken for as long, and
a verifier that is gone is found out within a bounded time, wherever the loop stands.
-/

namespace ReserveGrid.Gateway

open Support Protocol

namespace IoLoop

section

variable {lib : JsonLib} {s t : IoLoop} {event : IoEvent}

/-! ## Silence -/

/-- What the clocks of the loop say of each other. -/
structure Clocked (s : IoLoop) : Prop where
  heard : s.lastHeard = s.heardAt + s.excused
  heard_le : s.lastHeard ≤ s.now
  since_le : ∀ msg since, s.pc = .writing msg since → s.lastHeard ≤ since ∧ since ≤ s.now
  tick_le : s.nextTick ≤ s.now + s.interval
  silent : s.pc = .ended .silent → s.readDeadline < s.now - s.lastHeard

theorem clocked_of_calm (heard : s.lastHeard = s.heardAt + s.excused)
    (heard_le : s.lastHeard ≤ s.now) (tick_le : s.nextTick ≤ s.now + s.interval)
    (hcalm : s.pc.isCalm = true) : s.Clocked where
  heard := heard
  heard_le := heard_le
  since_le msg since hpc := by
    rw [hpc] at hcalm
    cases hcalm
  tick_le := tick_le
  silent hpc := by
    rw [hpc] at hcalm
    cases hcalm

theorem clocked_start (interval now : ℕ) (policyLoaded : Bool) :
    (start interval now policyLoaded).Clocked :=
  clocked_of_calm rfl (Nat.le_refl now) (Nat.le_add_right now interval) rfl

theorem Clocked.onLine (h : s.Clocked) (hpc : s.pc = .selecting) (bytes : Bytes) :
    (s.onLine lib bytes).Clocked := by
  rcases s.onLine_cases lib bytes with ⟨m, -, hline⟩ | ⟨-, hline⟩
  · rw [hline]
    exact clocked_of_calm rfl (Nat.le_refl _) h.tick_le (by simp [hpc, IoPc.isCalm])
  · rw [hline, hpc]
    split
    · exact clocked_of_calm rfl (Nat.le_refl _) h.tick_le rfl
    · exact clocked_of_calm rfl (Nat.le_refl _) h.tick_le rfl

theorem Clocked.onTick (h : s.Clocked) (htick : s.nextTick ≤ s.now) : s.onTick.Clocked := by
  rw [IoLoop.onTick]
  split
  · rename_i hsilent
    split
    · refine ⟨h.heard, h.heard_le, ?_, h.tick_le, fun _ => hsilent⟩
      intro msg since heq
      cases heq
    · exact clocked_of_calm h.heard h.heard_le (Nat.le_add_right _ _) rfl
  · refine ⟨h.heard, h.heard_le, ?_, ?_, by simp⟩
    · intro msg since heq
      cases heq
      exact ⟨h.heard_le, Nat.le_refl _⟩
    · exact Nat.add_le_add_right htick s.interval

theorem Clocked.onPoll {msg : VerifierOutbound} {since : ℕ} (h : s.Clocked)
    (hpc : s.pc = .writing msg since) (result : WritePoll) :
    (s.onPoll msg since result).Clocked := by
  obtain ⟨hheard, hsince⟩ := h.since_le msg since hpc
  rcases result with _ | _ | _ | _
  · exact ⟨h.heard, h.heard_le, h.since_le, h.tick_le, h.silent⟩
  · rcases msg with template | _
    · -- the verifier was last heard before the write, so that nothing is cut off
      have hmin : min (s.lastHeard + (s.now - since)) s.now =
          s.lastHeard + (s.now - since) := Nat.min_eq_left (by omega)
      refine clocked_of_calm ?_ ?_ h.tick_le rfl
      · change min (s.lastHeard + (s.now - since)) s.now =
          s.heardAt + (s.excused + (s.now - since))
        rw [hmin, h.heard, Nat.add_assoc]
      · exact Nat.min_le_right _ _
    · exact clocked_of_calm h.heard h.heard_le h.tick_le rfl
  · rw [IoLoop.onPoll]
    split
    · exact clocked_of_calm h.heard h.heard_le h.tick_le rfl
    · exact ⟨h.heard, h.heard_le, h.since_le, h.tick_le, h.silent⟩
  · exact clocked_of_calm h.heard h.heard_le h.tick_le rfl

theorem Clocked.step (h : s.Clocked) (hstep : step lib s event = some t) : t.Clocked := by
  rcases step_cases hstep with ⟨d, -, hlive, rfl⟩ | ⟨bytes, -, hpc, rfl⟩ |
    ⟨why, hsilent, -, -, -, hpc, rfl⟩ | ⟨msg, -, hpc, rfl⟩ | ⟨-, hpc, htick, rfl⟩ |
    ⟨wake, -, hpc, -, rfl⟩ | ⟨msg, since, result, -, hpc, rfl⟩
  · refine ⟨h.heard, Nat.le_add_right_of_le h.heard_le, ?_, ?_, ?_⟩
    · intro msg since hpc
      obtain ⟨hheard, hsince⟩ := h.since_le msg since hpc
      exact ⟨hheard, Nat.le_add_right_of_le hsince⟩
    · have htick := h.tick_le
      dsimp only
      omega
    · intro hpc
      exact absurd hpc (hlive _)
  · exact h.onLine hpc bytes
  · refine clocked_of_calm (s := s.endWith why) h.heard h.heard_le h.tick_le ?_
    rcases why with _ | _ | _ | _ | _ | _
    case silent => exact absurd rfl hsilent
    all_goals rfl
  · refine ⟨h.heard, h.heard_le, ?_, h.tick_le, by simp⟩
    intro msg' since heq
    cases heq
    exact ⟨h.heard_le, Nat.le_refl _⟩
  · exact h.onTick htick
  · exact clocked_of_calm h.heard h.heard_le h.tick_le rfl
  · exact h.onPoll hpc result

theorem clocked_of_run {interval now : ℕ} {policyLoaded : Bool} {events : List IoEvent}
    (hrun : run (step lib) (start interval now policyLoaded) events = some s) :
    s.Clocked :=
  invariant_of_run (fun _ _ _ h hstep => Clocked.step h hstep)
    (clocked_start interval now policyLoaded) hrun

/-! ## Stuck writes -/

/-- How long was waited. -/
def waited (events : List IoEvent) : ℕ :=
  (events.map fun
    | .wait d => d
    | _ => 0).sum

/-- Nothing but time and polls of a writer that takes no bytes. -/
def IsStuck (event : IoEvent) : Prop := event = .poll .pending ∨ ∃ d, event = .wait d

/-- The last events, since the guard of a write was armed with a deadline. -/
def StuckUntil (deadline : ℕ) (events : List IoEvent) (s : IoLoop) : Prop :=
  ∃ before stuck, events = before ++ stuck ∧ (∀ e ∈ stuck, IsStuck e) ∧
    s.now + s.writer.stall = deadline + waited stuck

theorem StuckUntil.append {deadline : ℕ} {events : List IoEvent}
    (h : s.StuckUntil deadline events) (hevent : IsStuck event)
    (hnow : t.now = s.now + waited [event]) (hstall : t.writer.stall = s.writer.stall) :
    t.StuckUntil deadline (events ++ [event]) := by
  obtain ⟨before, stuck, hevents, hstuck, hwaited⟩ := h
  refine ⟨before, stuck ++ [event], by rw [hevents, List.append_assoc], ?_, ?_⟩
  · intro e he
    rcases List.mem_append.mp he with he | he
    · exact hstuck e he
    · rw [List.mem_singleton.mp he]
      exact hevent
  · have hsum : waited (stuck ++ [event]) = waited stuck + waited [event] := by
      simp [waited]
    rw [hnow, hstall, hsum]
    omega

/-- The guard of a write is armed while the write is stuck, and only then. -/
structure Guarded (events : List IoEvent) (s : IoLoop) : Prop where
  stall : s.writer.stall = readDeadlineBeats * s.interval
  calm : s.pc = .selecting ∨ (∃ wake, s.pc = .sleeping wake) → s.writer.blocked = none
  stuck : (∃ msg since, s.pc = .writing msg since) ∨ s.pc = .ended .writeStalled →
    ∀ deadline, s.writer.blocked = some deadline → s.StuckUntil deadline events
  due : s.pc = .ended .writeStalled → ∃ deadline, s.writer.blocked = some deadline ∧
    deadline ≤ s.now

/-- No guard is armed. -/
theorem guarded_of_none {events : List IoEvent}
    (stall : s.writer.stall = readDeadlineBeats * s.interval)
    (hblocked : s.writer.blocked = none) (hpc : s.pc ≠ .ended .writeStalled) :
    s.Guarded events where
  stall := stall
  calm _ := hblocked
  stuck _ deadline hsome := by
    rw [hblocked] at hsome
    cases hsome
  due heq := absurd heq hpc

theorem Guarded.onPoll {msg : VerifierOutbound} {since : ℕ} {events : List IoEvent}
    (h : s.Guarded events) (hpc : s.pc = .writing msg since) (result : WritePoll) :
    (s.onPoll msg since result).Guarded (events ++ [.poll result]) := by
  rcases result with _ | _ | _ | _
  · refine guarded_of_none h.stall rfl ?_
    change s.pc ≠ _
    rw [hpc]
    simp
  · rcases msg with template | _
    · exact guarded_of_none h.stall rfl (by simp [IoLoop.onPoll])
    · exact guarded_of_none h.stall rfl (by simp [IoLoop.onPoll])
  · have harmed : StuckUntil (s.writer.blocked.getD (s.now + s.writer.stall))
        (events ++ [.poll .pending]) s := by
      rcases hblocked : s.writer.blocked with _ | deadline
      · exact ⟨events, [.poll .pending], rfl, by simp [IsStuck], rfl⟩
      · exact (h.stuck (.inl ⟨msg, since, hpc⟩) deadline hblocked).append (.inl rfl) rfl rfl
    rw [IoLoop.onPoll]
    split
    · rename_i hdue
      refine ⟨h.stall, ?_, ?_, ?_⟩
      · rintro (heq | ⟨wake, heq⟩)
        · cases heq
        · cases heq
      · intro _ deadline heq
        cases heq
        exact harmed
      · intro _
        exact ⟨_, rfl, of_decide_eq_true hdue⟩
    · refine ⟨h.stall, ?_, ?_, ?_⟩
      · intro hcalm
        change s.pc = .selecting ∨ (∃ wake, s.pc = .sleeping wake) at hcalm
        rw [hpc] at hcalm
        rcases hcalm with heq | ⟨wake, heq⟩
        · cases heq
        · cases heq
      · intro _ deadline heq
        cases heq
        exact harmed
      · intro heq
        cases hpc.symm.trans heq
  · refine ⟨h.stall, ?_, ?_, by simp [IoLoop.onPoll]⟩
    · rintro (heq | ⟨wake, heq⟩)
      · cases heq
      · cases heq
    · rintro (⟨msg', since', heq⟩ | heq)
      · cases heq
      · cases heq

theorem Guarded.step {events : List IoEvent} (h : s.Guarded events)
    (hstep : step lib s event = some t) : t.Guarded (events ++ [event]) := by
  rcases step_cases hstep with ⟨d, rfl, hlive, rfl⟩ | ⟨bytes, rfl, hpc, rfl⟩ |
    ⟨why, -, hstalled, -, -, hpc, rfl⟩ | ⟨msg, rfl, hpc, rfl⟩ | ⟨rfl, hpc, -, rfl⟩ |
    ⟨wake, rfl, hpc, -, rfl⟩ | ⟨msg, since, result, rfl, hpc, rfl⟩
  · refine ⟨h.stall, h.calm, ?_, fun heq => absurd heq (hlive _)⟩
    intro hwriting deadline hblocked
    exact (h.stuck hwriting deadline hblocked).append (.inr ⟨d, rfl⟩) rfl rfl
  · have hblocked := h.calm (.inl hpc)
    rcases s.onLine_cases lib bytes with ⟨m, -, hline⟩ | ⟨-, hline⟩
    · rw [hline]
      exact guarded_of_none h.stall hblocked (by simp [hpc])
    · rw [hline, hpc]
      split
      · exact guarded_of_none h.stall hblocked (by simp)
      · exact guarded_of_none h.stall hblocked (by simp)
  · exact guarded_of_none h.stall (h.calm (.inl hpc))
      fun heq => hstalled (IoPc.ended.inj heq)
  · exact guarded_of_none h.stall (h.calm (.inl hpc)) (by simp)
  · have hblocked := h.calm (.inl hpc)
    rw [IoLoop.onTick]
    split
    · split
      · exact guarded_of_none h.stall hblocked (by simp)
      · exact guarded_of_none h.stall hblocked (by simp)
    · exact guarded_of_none h.stall hblocked (by simp)
  · exact guarded_of_none h.stall (h.calm (.inr ⟨wake, hpc⟩)) (by simp)
  · exact h.onPoll hpc result

theorem start_interval_of_run {interval now : ℕ} {policyLoaded : Bool}
    {events : List IoEvent}
    (hrun : run (step lib) (start interval now policyLoaded) events = some s) :
    s.interval = interval := by
  have hkeep : ∀ (s : IoLoop) (event : IoEvent) (t : IoLoop), s.interval = interval →
      step lib s event = some t → t.interval = interval := by
    intro s event t h hstep
    rcases step_cases hstep with ⟨d, -, -, rfl⟩ | ⟨bytes, -, -, rfl⟩ |
      ⟨why, -, -, -, -, -, rfl⟩ | ⟨msg, -, -, rfl⟩ | ⟨-, -, -, rfl⟩ | ⟨wake, -, -, -, rfl⟩ |
      ⟨msg, since, result, -, hpc, rfl⟩
    · exact h
    · rcases s.onLine_cases lib bytes with ⟨m, -, hline⟩ | ⟨-, hline⟩
      · rw [hline]
        exact h
      · rw [hline]
        exact h
    · exact h
    · exact h
    · exact s.onTick_keeps.interval.trans h
    · exact h
    · exact (onPoll_keeps hpc result).interval.trans h
  exact invariant_of_run hkeep rfl hrun

/-- The connection is dropped as silent only when the verifier has sent nothing for
more than three intervals, the time blocked in writes of proposals not counted, and
as stalled only when a write was polled for three intervals in a row and no byte
was taken. -/
theorem io_loop_drops (lib : JsonLib) (interval now : ℕ) (policyLoaded : Bool)
    (events : List IoEvent) (s : IoLoop)
    (hrun : run (step lib) (start interval now policyLoaded) events = some s) :
    (s.pc = .ended .silent → s.heardAt + s.excused + 3 * interval < s.now) ∧
      (s.pc = .ended .writeStalled → ∃ before stuck, events = before ++ stuck ∧
        (∀ e ∈ stuck, IsStuck e) ∧ 3 * interval ≤ waited stuck) := by
  have hinterval := start_interval_of_run hrun
  have hclocked := clocked_of_run hrun
  have hguarded : s.Guarded ([] ++ events) :=
    history_of_run (fun _ _ _ _ h hstep => Guarded.step h hstep)
      (guarded_of_none rfl rfl fun heq => by cases heq) hrun
  constructor
  · intro hsilent
    have hdeadline := hclocked.silent hsilent
    have hheard := hclocked.heard
    rw [readDeadline, readDeadlineBeats, hinterval] at hdeadline
    omega
  · intro hstalled
    obtain ⟨deadline, hblocked, hdue⟩ := hguarded.due hstalled
    obtain ⟨before, stuck, hevents, hstuck, hwaited⟩ :=
      hguarded.stuck (.inr hstalled) deadline hblocked
    have hstall := hguarded.stall
    rw [readDeadlineBeats, hinterval] at hstall
    exact ⟨before, stuck, hevents, hstuck, by omega⟩

/-! ## A verifier that is gone -/

/-- The verifier sends nothing, and takes no bytes but those that go out at once.
Timers fire when they are due. -/
def Dark (s : IoLoop) : IoEvent → Prop
  | .line _ => False
  | .poll .accepted | .poll .finished => s.writer.blocked = none
  | .wait d =>
      match s.pc with
      | .selecting => s.now + d ≤ s.nextTick
      | .sleeping wake => s.now + d ≤ wake
      | .writing _ _ => s.now + d ≤ s.writer.blocked.getD s.now
      | .ended _ => True
  | _ => True

/-- The time until which the loop is at its select after it heard the verifier for
the last time. -/
def lastSelect (s : IoLoop) (heard : ℕ) : ℕ :=
  heard + 4 * s.interval + if s.rechecking then recheckSleep else 0

theorem lastSelect_le (s : IoLoop) (heard : ℕ) :
    s.lastSelect heard ≤ heard + 4 * s.interval + recheckSleep := by
  rw [lastSelect]
  split
  · exact Nat.le_refl _
  · omega

/-- Where time stands in a loop that heard the verifier for the last time. A write
that is stuck may take three intervals more. -/
def InTime (heard : ℕ) (s : IoLoop) : Prop :=
  match s.pc, s.writer.blocked with
  | .selecting, none => s.now ≤ s.lastSelect heard ∧ s.nextTick ≤ s.lastSelect heard
  | .sleeping wake, none => s.rechecking = true ∧ s.now ≤ wake ∧
      wake ≤ s.lastSelect heard ∧ s.nextTick ≤ s.lastSelect heard
  | .writing _ since, none => s.now = since ∧ s.now ≤ s.lastSelect heard ∧
      s.nextTick ≤ s.lastSelect heard
  | .writing _ _, some deadline => s.now ≤ deadline ∧
      deadline ≤ heard + 7 * s.interval + recheckSleep
  | .ended _, _ => s.now ≤ heard + 7 * s.interval + recheckSleep
  | _, some _ => False

structure Darkened (heard : ℕ) (s : IoLoop) : Prop where
  stall : s.writer.stall = 3 * s.interval
  lastHeard : s.lastHeard = heard
  heard_le : heard ≤ s.now
  inTime : s.InTime heard

theorem Darkened.selecting {heard : ℕ} (h : s.Darkened heard) (hpc : s.pc = .selecting) :
    s.writer.blocked = none ∧ s.now ≤ s.lastSelect heard ∧
      s.nextTick ≤ s.lastSelect heard := by
  have htime := h.inTime
  rw [InTime, hpc] at htime
  rcases hblocked : s.writer.blocked with _ | deadline
  · rw [hblocked] at htime
    exact ⟨rfl, htime⟩
  · rw [hblocked] at htime
    cases htime

theorem Darkened.endWith {heard : ℕ} (h : s.Darkened heard) (why : IoEnd)
    (hnow : s.now ≤ heard + 7 * s.interval + recheckSleep) :
    (s.endWith why).Darkened heard :=
  ⟨h.stall, h.lastHeard, h.heard_le, hnow⟩

theorem Darkened.onTick {heard : ℕ} (h : s.Darkened heard) (hpc : s.pc = .selecting)
    (htick : s.nextTick ≤ s.now) : s.onTick.Darkened heard := by
  obtain ⟨hblocked, hnow, hnext⟩ := h.selecting hpc
  have hle := s.lastSelect_le heard
  have hlast := h.lastHeard
  rw [IoLoop.onTick]
  split
  · split
    · exact h.endWith .silent (by omega)
    · rename_i hrechecking
      refine ⟨h.stall, h.lastHeard, h.heard_le, ?_⟩
      simp only [InTime, hblocked]
      rw [lastSelect, if_neg hrechecking] at hnow
      simp only [lastSelect, if_true, true_and]
      omega
  · rename_i hheard
    rw [readDeadline, readDeadlineBeats, hlast] at hheard
    have hheard_le := h.heard_le
    refine ⟨h.stall, h.lastHeard, h.heard_le, ?_⟩
    simp only [InTime, hblocked, lastSelect, true_and]
    simp only [Bool.false_eq_true, if_false]
    omega

theorem Darkened.onPoll {heard : ℕ} {msg : VerifierOutbound} {since : ℕ}
    {result : WritePoll} (h : s.Darkened heard) (hpc : s.pc = .writing msg since)
    (hdark : s.Dark (.poll result)) : (s.onPoll msg since result).Darkened heard := by
  have htime := h.inTime
  have hle := s.lastSelect_le heard
  have hstall := h.stall
  rw [InTime, hpc] at htime
  rcases result with _ | _ | _ | _
  · change s.writer.blocked = none at hdark
    rw [hdark] at htime
    refine ⟨h.stall, h.lastHeard, h.heard_le, ?_⟩
    simp only [IoLoop.onPoll, InTime, StallGuard.moved, hpc]
    exact htime
  · change s.writer.blocked = none at hdark
    rw [hdark] at htime
    obtain ⟨hsince, hnow, hnext⟩ := htime
    have hkeep : min (s.lastHeard + (s.now - since)) s.now = heard := by
      have hheard := h.heard_le
      rw [h.lastHeard, hsince, Nat.sub_self, Nat.add_zero]
      exact Nat.min_eq_left (by omega)
    rcases msg with template | _
    · exact ⟨h.stall, hkeep, h.heard_le, hnow, hnext⟩
    · exact ⟨h.stall, h.lastHeard, h.heard_le, hnow, hnext⟩
  · rw [IoLoop.onPoll]
    have harmed : s.now ≤ heard + 7 * s.interval + recheckSleep ∧
        s.now ≤ s.writer.blocked.getD (s.now + s.writer.stall) ∧
        s.writer.blocked.getD (s.now + s.writer.stall) ≤
          heard + 7 * s.interval + recheckSleep := by
      rcases hblocked : s.writer.blocked with _ | deadline
      · rw [hblocked] at htime
        dsimp only [Option.getD_none] at htime ⊢
        omega
      · rw [hblocked] at htime
        dsimp only [Option.getD_some] at htime ⊢
        omega
    split
    · exact ⟨h.stall, h.lastHeard, h.heard_le, harmed.1⟩
    · refine ⟨h.stall, h.lastHeard, h.heard_le, ?_⟩
      simp only [InTime, hpc, StallGuard.pollStalled]
      exact harmed.2
  · apply h.endWith
    rcases hblocked : s.writer.blocked with _ | deadline
    · rw [hblocked] at htime
      dsimp only at htime
      omega
    · rw [hblocked] at htime
      dsimp only at htime
      omega

theorem Darkened.wait {heard d : ℕ} (h : s.Darkened heard)
    (hlive : ∀ why, s.pc ≠ .ended why) (hdark : s.Dark (.wait d)) :
    ({ s with now := s.now + d } : IoLoop).Darkened heard := by
  have htime := h.inTime
  refine ⟨h.stall, h.lastHeard, Nat.le_add_right_of_le h.heard_le, ?_⟩
  rcases hpc : s.pc with _ | ⟨msg, since⟩ | wake | why
  · obtain ⟨hblocked, -, hnext⟩ := h.selecting hpc
    simp only [Dark, hpc] at hdark
    simp only [InTime, hblocked]
    exact ⟨hdark.trans hnext, hnext⟩
  · rw [InTime, hpc] at htime
    simp only [Dark, hpc] at hdark
    rcases hblocked : s.writer.blocked with _ | deadline
    · rw [hblocked] at htime hdark
      obtain ⟨hsince, hnow, hnext⟩ := htime
      dsimp only [Option.getD_none] at hdark
      simp only [InTime, hblocked]
      exact ⟨by omega, by exact hdark.trans hnow, hnext⟩
    · rw [hblocked] at htime hdark
      simp only [InTime, hblocked]
      exact ⟨hdark, htime.2⟩
  · rw [InTime, hpc] at htime
    simp only [Dark, hpc] at hdark
    rcases hblocked : s.writer.blocked with _ | deadline
    · rw [hblocked] at htime
      obtain ⟨hrechecking, -, hwake, hnext⟩ := htime
      simp only [InTime, hblocked]
      exact ⟨hrechecking, hdark, hwake, hnext⟩
    · rw [hblocked] at htime
      exact absurd htime id
  · exact absurd hpc (hlive why)

theorem Darkened.step {heard : ℕ} (h : s.Darkened heard) (hdark : s.Dark event)
    (hstep : step lib s event = some t) : t.Darkened heard := by
  rcases step_cases hstep with ⟨d, rfl, hlive, rfl⟩ | ⟨bytes, rfl, hpc, rfl⟩ |
    ⟨why, -, -, -, -, hpc, rfl⟩ | ⟨msg, rfl, hpc, rfl⟩ | ⟨rfl, hpc, htick, rfl⟩ |
    ⟨wake, rfl, hpc, hwake, rfl⟩ | ⟨msg, since, result, rfl, hpc, rfl⟩
  · exact h.wait hlive hdark
  · exact absurd hdark id
  · have hle := s.lastSelect_le heard
    have hnow := (h.selecting hpc).2.1
    exact h.endWith why (by omega)
  · obtain ⟨hblocked, hnow, hnext⟩ := h.selecting hpc
    refine ⟨h.stall, h.lastHeard, h.heard_le, ?_⟩
    simp only [InTime, hblocked, true_and]
    exact ⟨hnow, hnext⟩
  · exact h.onTick hpc htick
  · have htime := h.inTime
    rw [InTime, hpc] at htime
    refine ⟨h.stall, h.lastHeard, h.heard_le, ?_⟩
    rcases hblocked : s.writer.blocked with _ | deadline
    · rw [hblocked] at htime
      obtain ⟨-, hnow, hwake, hnext⟩ := htime
      simp only [InTime, hblocked]
      exact ⟨hnow.trans hwake, hnext⟩
    · rw [hblocked] at htime
      exact absurd htime id
  · exact h.onPoll hpc hdark

/-- The loop can end without hearing the verifier again, for its silence or for a
write that is stuck. -/
def CanEnd (lib : JsonLib) (s : IoLoop) : Prop :=
  ∃ events t, Along (step lib) Dark s events ∧ run (step lib) s events = some t ∧
    (t.pc = .ended .silent ∨ t.pc = .ended .writeStalled)

theorem CanEnd.of_step (event : IoEvent) (hdark : s.Dark event) (hstep : step lib s event = some t)
    (h : t.CanEnd lib) : s.CanEnd lib := by
  obtain ⟨events, u, halong, hrun, hpc⟩ := h
  exact ⟨event :: events, u, .cons hdark hstep halong,
    run_cons_eq_some.mpr ⟨t, hstep, hrun⟩, hpc⟩

theorem canEnd_of_ended (hpc : s.pc = .ended .silent ∨ s.pc = .ended .writeStalled) :
    s.CanEnd lib :=
  ⟨[], s, trivial, rfl, hpc⟩

theorem step_tick (hpc : s.pc = .selecting) (htick : s.nextTick ≤ s.now) :
    step lib s .tick = some s.onTick := by
  rw [step.eq_def, hpc]
  exact if_pos htick

theorem step_wait (d : ℕ) (hlive : ∀ why, s.pc ≠ .ended why) :
    step lib s (.wait d) = some { s with now := s.now + d } := by
  rw [step.eq_def]
  rcases hpc : s.pc with _ | ⟨msg, since⟩ | wake | why
  · rfl
  · rfl
  · rfl
  · exact absurd hpc (hlive why)

theorem step_poll {msg : VerifierOutbound} {since : ℕ} (hpc : s.pc = .writing msg since)
    (result : WritePoll) : step lib s (.poll result) = some (s.onPoll msg since result) := by
  rw [step.eq_def, hpc]

/-- A tick that finds the verifier silent for the second time ends the loop. -/
theorem canEnd_of_recheck (hpc : s.pc = .selecting) (htick : s.nextTick ≤ s.now)
    (hsilent : s.readDeadline < s.now - s.lastHeard) (hrechecking : s.rechecking = true) :
    s.CanEnd lib := by
  apply CanEnd.of_step .tick trivial (step_tick hpc htick)
  rw [onTick, if_pos hsilent, if_pos hrechecking]
  exact canEnd_of_ended (.inl rfl)

/-- A tick that finds the verifier silent is followed by another. -/
theorem canEnd_of_silent (hpc : s.pc = .selecting) (htick : s.nextTick ≤ s.now)
    (hsilent : s.readDeadline < s.now - s.lastHeard) : s.CanEnd lib := by
  by_cases hrechecking : s.rechecking = true
  · exact canEnd_of_recheck hpc htick hsilent hrechecking
  · apply CanEnd.of_step .tick trivial (step_tick hpc htick)
    rw [onTick, if_pos hsilent, if_neg hrechecking]
    refine CanEnd.of_step (.wait recheckSleep) ?_
      (step_wait recheckSleep fun why heq => by cases heq) ?_
    · exact Nat.le_refl _
    · apply CanEnd.of_step .wake trivial
      · rw [step.eq_def]
        exact if_pos (Nat.le_refl _)
      · refine canEnd_of_recheck rfl (Nat.le_add_right _ _) ?_ rfl
        change s.readDeadline < s.now + recheckSleep - s.lastHeard
        omega

/-- The loop after a heartbeat that went out at once. -/
def beat (s : IoLoop) : IoLoop :=
  { s with
    pc := .selecting
    rechecking := false
    nextTick := s.nextTick + s.interval
    writer := s.writer.moved
    sent := s.sent ++ [.heartbeat] }

/-- A tick that does not find the verifier silent sends a heartbeat. -/
theorem canEnd_of_beat (hpc : s.pc = .selecting) (hblocked : s.writer.blocked = none)
    (htick : s.nextTick ≤ s.now) (hheard : ¬ s.readDeadline < s.now - s.lastHeard)
    (h : s.beat.CanEnd lib) : s.CanEnd lib := by
  apply CanEnd.of_step .tick trivial (step_tick hpc htick)
  rw [onTick, if_neg hheard]
  refine CanEnd.of_step (.poll .finished) hblocked ?_ h
  rfl

theorem Darkened.beat {heard : ℕ} (h : s.Darkened heard) (htick : s.nextTick ≤ s.now)
    (hheard : ¬ s.readDeadline < s.now - s.lastHeard) : s.beat.Darkened heard := by
  have hlast := h.lastHeard
  have hheard_le := h.heard_le
  rw [readDeadline, readDeadlineBeats] at hheard
  refine ⟨h.stall, h.lastHeard, h.heard_le, ?_⟩
  simp only [InTime, IoLoop.beat, StallGuard.moved, lastSelect, Bool.false_eq_true,
    if_false]
  omega

/-- Ticks go on until one finds the verifier silent. -/
theorem Darkened.canEnd {heard : ℕ} (hinterval : 0 < s.interval) (h : s.Darkened heard)
    (hpc : s.pc = .selecting) : s.CanEnd lib := by
  generalize hleft : heard + 5 * s.interval + recheckSleep - s.nextTick = left
  induction left using Nat.strong_induction_on generalizing s with
  | _ left ih =>
    have hdue : ∀ u : IoLoop, u.Darkened heard → u.pc = .selecting →
        u.interval = s.interval → u.nextTick = s.nextTick → u.nextTick ≤ u.now →
        u.CanEnd lib := by
      intro u hu hpcu hintervalu hnextu htick
      obtain ⟨hblocked, -, hnext⟩ := hu.selecting hpcu
      have hle := u.lastSelect_le heard
      by_cases hsilent : u.readDeadline < u.now - u.lastHeard
      · exact canEnd_of_silent hpcu htick hsilent
      · apply canEnd_of_beat hpcu hblocked htick hsilent
        refine ih _ ?_ (s := u.beat) (hintervalu ▸ hinterval) (hu.beat htick hsilent) rfl rfl
        simp only [IoLoop.beat]
        omega
    by_cases htick : s.nextTick ≤ s.now
    · exact hdue s h hpc rfl rfl htick
    · -- time passes until the tick is due
      have hlive : ∀ why, s.pc ≠ .ended why := by
        intro why heq
        cases hpc.symm.trans heq
      have hdark : s.Dark (.wait (s.nextTick - s.now)) := by
        simp only [Dark, hpc]
        omega
      apply CanEnd.of_step _ hdark (step_wait (s.nextTick - s.now) hlive)
      apply hdue _ (h.wait hlive hdark) hpc rfl rfl
      dsimp only
      omega

theorem InTime.le {heard : ℕ} (h : s.InTime heard) :
    s.now ≤ heard + 7 * s.interval + recheckSleep := by
  have hle := s.lastSelect_le heard
  rw [InTime] at h
  split at h
  · omega
  · omega
  · omega
  · omega
  · exact h
  · exact absurd h id

/-- The loop can end wherever it stands. -/
theorem Darkened.canEnd_anywhere {heard : ℕ} (hinterval : 0 < s.interval)
    (h : s.Darkened heard) (hlive : ∀ why, s.pc ≠ .ended why) : s.CanEnd lib := by
  rcases hpc : s.pc with _ | ⟨msg, since⟩ | wake | why
  · exact h.canEnd hinterval hpc
  · rcases hblocked : s.writer.blocked with _ | deadline
    · -- the message goes out at once
      have hfinished : IoLoop.step lib s (.poll .finished) =
          some (s.onPoll msg since .finished) :=
        step_poll hpc .finished
      have hnext : (s.onPoll msg since .finished).Darkened heard := h.onPoll hpc hblocked
      refine CanEnd.of_step (.poll .finished) hblocked hfinished (hnext.canEnd ?_ ?_)
      · rcases msg with template | _
        · exact hinterval
        · exact hinterval
      · rcases msg with template | _
        · rfl
        · rfl
    · -- the write is stuck until its guard fails it
      have htime := h.inTime
      rw [InTime, hpc, hblocked] at htime
      have hdark : s.Dark (.wait (deadline - s.now)) := by
        simp only [Dark, hpc, hblocked, Option.getD_some]
        omega
      refine CanEnd.of_step _ hdark (step_wait (deadline - s.now) hlive) ?_
      have hwriting : ({ s with now := s.now + (deadline - s.now) } : IoLoop).pc =
          .writing msg since := hpc
      refine CanEnd.of_step (.poll .pending) trivial (step_poll hwriting .pending) ?_
      have hdue : deadline ≤ s.now + (deadline - s.now) := by omega
      rw [IoLoop.onPoll]
      simp only [StallGuard.pollStalled, hblocked, Option.getD_some, hdue, decide_true,
        if_true]
      exact canEnd_of_ended (.inr rfl)
  · have htime := h.inTime
    have hdark : s.Dark (.wait (wake - s.now)) := by
      rcases hblocked : s.writer.blocked with _ | deadline
      · rw [InTime, hpc, hblocked] at htime
        simp only [Dark, hpc]
        omega
      · rw [InTime, hpc, hblocked] at htime
        exact absurd htime id
    have hwait := h.wait hlive hdark
    have hwake : IoLoop.step lib { s with now := s.now + (wake - s.now) } .wake =
        some { s with now := s.now + (wake - s.now), pc := .selecting } := by
      rw [step.eq_def]
      dsimp only
      rw [hpc]
      dsimp only
      rw [if_pos (by omega)]
    have hquiet : ({ s with now := s.now + (wake - s.now) } : IoLoop).Dark .wake := trivial
    have hnext := hwait.step hquiet hwake
    exact CanEnd.of_step _ hdark (step_wait (wake - s.now) hlive)
      (CanEnd.of_step .wake trivial hwake (hnext.canEnd hinterval rfl))
  · exact absurd hpc (hlive why)

/-- A verifier that is gone is found out: from the moment it was heard for the last
time the loop ends within seven intervals and the sleep of the recheck, three of them
in a write that is stuck, it is at its select for four at most, and until it has ended
it can. -/
theorem io_loop_detects (lib : JsonLib) (interval now : ℕ) (policyLoaded : Bool)
    (before events : List IoEvent) (s t : IoLoop) (hinterval : 0 < interval)
    (hbefore : run (step lib) (start interval now policyLoaded) before = some s)
    (hselecting : s.pc = .selecting) (hheard : s.lastHeard = s.now)
    (hrun : run (step lib) s events = some t) (hdark : Along (step lib) Dark s events) :
    t.now ≤ s.now + 7 * interval + recheckSleep ∧
      (t.pc = .selecting → t.now ≤ s.now + 4 * interval + recheckSleep) ∧
      ((∀ why, t.pc ≠ .ended why) → t.CanEnd lib) := by
  have hinterval_s := start_interval_of_run hbefore
  have hinterval_t : t.interval = interval := by
    have hboth : run (step lib) (start interval now policyLoaded) (before ++ events) =
        some t := by
      rw [run_append, hbefore]
      exact hrun
    exact start_interval_of_run hboth
  have hguarded : s.Guarded ([] ++ before) :=
    history_of_run (fun _ _ _ _ h hstep => Guarded.step h hstep)
      (guarded_of_none rfl rfl fun heq => by cases heq) hbefore
  have hblocked := hguarded.calm (.inl hselecting)
  have hstart : s.Darkened s.now := by
    refine ⟨hguarded.stall, hheard, Nat.le_refl _, ?_⟩
    have htick := (clocked_of_run hbefore).tick_le
    simp only [InTime, hselecting, hblocked, lastSelect]
    omega
  have hend : t.Darkened s.now :=
    invariant_of_along (fun _ _ _ h hC hstep => Darkened.step h hC hstep) hstart hdark hrun
  refine ⟨?_, ?_, hend.canEnd_anywhere (hinterval_t ▸ hinterval)⟩
  · rw [← hinterval_t]
    exact hend.inTime.le
  · intro hpc
    rw [← hinterval_t]
    exact (hend.selecting hpc).2.1.trans (t.lastSelect_le s.now)

end

/-! ## A silent verifier -/

section

/-- A heartbeat goes out, no answer comes, and the connection is dropped. -/
def silentEvents : List IoEvent :=
  [.tick, .poll .finished, .wait 40, .tick, .wait recheckSleep, .wake, .tick]

theorem io_loop_drops_silent :
    ∃ s, run (step CompactJson.lib) (start 10 0 false) silentEvents = some s ∧
      s.heardAt + s.excused + 3 * 10 < s.now :=
  ⟨_, rfl, (io_loop_drops CompactJson.lib 10 0 false silentEvents _ rfl).1 rfl⟩

/-- The verifier is gone from the beginning, and the third heartbeat is due. -/
def darkEvents : List IoEvent :=
  [.tick, .poll .finished, .wait 10, .tick, .poll .finished, .wait 10]

theorem io_loop_detects_dark :
    ∃ t, run (step CompactJson.lib) (start 10 0 false) darkEvents = some t ∧
      t.now ≤ 0 + 7 * 10 + recheckSleep ∧ t.CanEnd CompactJson.lib := by
  have hdark : Along (step CompactJson.lib) Dark (start 10 0 false) darkEvents := by
    refine .cons trivial rfl (.cons ?_ rfl (.cons ?_ rfl (.cons trivial rfl
      (.cons ?_ rfl (.cons ?_ rfl trivial)))))
    · rfl
    · exact Nat.le_refl 10
    · rfl
    · exact Nat.le_refl 20
  have hdetects := io_loop_detects CompactJson.lib 10 0 false [] darkEvents
    (start 10 0 false) _ (by decide) rfl rfl rfl rfl hdark
  refine ⟨_, rfl, hdetects.1, hdetects.2.2 ?_⟩
  intro why heq
  cases heq

end

end IoLoop

end ReserveGrid.Gateway
