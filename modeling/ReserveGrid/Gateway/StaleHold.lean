import ReserveGrid.Gateway.PendingStore

/-!
# The stale hold

A rejected change of previous hash starts the stale hold, at the end of which
the gateway stops. Further rejections do not extend it. It ends early when a
verdict accepts a pending template, whatever the previous hash of that template.
-/

namespace ReserveGrid.Gateway

open Support Protocol

namespace MainLoop

/-- The event is a verdict that accepts a pending template. -/
def Accepts (s : MainLoop) : LoopEvent → Prop
  | .verdict v => v.accepted = true ∧ v.id ∈ s.pendingTemplates
  | _ => False

/-- The turn does not end in degraded mode. -/
def StaysEnforcing (cfg : GatewayConfig) (s : MainLoop) (label : Clock × LoopEvent) :
    Prop :=
  ∀ t, s.next cfg label = some t → t.degraded = false

instance (s : MainLoop) (event : LoopEvent) : Decidable (s.Accepts event) :=
  match event with
  | .verdict v =>
      inferInstanceAs (Decidable (v.accepted = true ∧ v.id ∈ s.pendingTemplates))
  | .template _ | .heartbeatAck | .verdictLagged | .sweep | .staleHold |
      .upstreamCheck | .degradeCheck | .shutdown => isFalse nofun

instance (cfg : GatewayConfig) (s : MainLoop) (label : Clock × LoopEvent) :
    Decidable (s.StaysEnforcing cfg label) :=
  inferInstanceAs (Decidable (∀ t ∈ s.next cfg label, t.degraded = false))

variable {cfg : GatewayConfig} {clock : Clock} {s : MainLoop}

theorem onTemplate_deadline (template : TemplateResponse) :
    (s.onTemplate cfg clock template).1.staleHoldDeadline = s.staleHoldDeadline := by
  unfold onTemplate
  dsimp only
  split
  · rfl
  · split
    · rfl
    · rfl

/-- A verdict on a pending template clears the hold when it accepts, and starts
it only when it does not run. -/
theorem applyVerdict_deadline (cfg : GatewayConfig) (clock : Clock) {d : ℕ}
    (hdeadline : s.staleHoldDeadline = some d) (v : TemplateVerdict) :
    (s.applyVerdict cfg clock v).1.staleHoldDeadline =
      if s.Accepts (.verdict v) then none else some d := by
  unfold applyVerdict
  cases hlookup : s.pendingTemplates.lookup v.id with
  | none =>
      have hmem : v.id ∉ s.pendingTemplates := AList.lookup_eq_none.mp hlookup
      have hnot : ¬ s.Accepts (.verdict v) := fun h => hmem h.2
      rw [if_neg hnot]
      exact hdeadline
  | some pt =>
      have hmem : v.id ∈ s.pendingTemplates :=
        AList.lookup_isSome.mp (by rw [hlookup]; rfl)
      dsimp only
      by_cases haccepted : v.accepted = true
      · have haccepts : s.Accepts (.verdict v) := ⟨haccepted, hmem⟩
        rw [if_pos haccepted, if_pos haccepts]
        rfl
      · have hnot : ¬ s.Accepts (.verdict v) := fun h => haccepted h.1
        have hruns : ¬ (s.staleHoldDeadline.isNone &&
            isPrevhashChange pt.template s.feed.activePrevHash) = true := by
          simp [hdeadline]
        rw [if_neg haccepted, if_neg hnot]
        unfold holdStale
        rw [if_neg hruns]
        exact hdeadline

theorem onVerdict_deadline {d : ℕ} (hmode : cfg.mode.enforcesVerdicts = true)
    (hdegraded : s.degraded = false) (hdeadline : s.staleHoldDeadline = some d)
    (v : TemplateVerdict) :
    (s.onVerdict cfg clock v).1.staleHoldDeadline =
      if s.Accepts (.verdict v) then none else some d := by
  have hresumed : (s.degraded && s.degradeTrigger == some .verdictStarved) = false := by
    rw [hdegraded, Bool.false_and]
  have happlied := applyVerdict_deadline cfg clock hdeadline v
  unfold onVerdict
  simp only [hresumed, hmode, if_true, Bool.false_eq_true, if_false]
  exact happlied

/-- A hold that runs is cleared by a turn that accepts a pending template, and
by no other turn of a loop that is not degraded. -/
theorem deadline_of_turn {event : LoopEvent} {s' : MainLoop} {out : Output} {d : ℕ}
    (hmode : cfg.mode.enforcesVerdicts = true) (hdegraded : s.degraded = false)
    (hdeadline : s.staleHoldDeadline = some d)
    (hturn : s.turn cfg clock event = some (s', out))
    (hdegraded' : s'.degraded = false) :
    s'.staleHoldDeadline = if s.Accepts event then none else some d := by
  have hkept : ∀ event, ¬ s.Accepts event →
      s.staleHoldDeadline = if s.Accepts event then none else some d := by
    intro event hnot
    rw [if_neg hnot]
    exact hdeadline
  cases turnOf_of_turn hturn with
  | template template =>
      exact (onTemplate_deadline template).trans (hkept (.template template) nofun)
  | verdict v => exact onVerdict_deadline hmode hdegraded hdeadline v
  | heartbeatAck =>
      unfold onHeartbeatAck
      simp only [hdegraded, Bool.false_and, Bool.false_eq_true, if_false]
      exact hkept .heartbeatAck nofun
  | degradeCheck =>
      rw [onDegradeCheck_eq_self hdegraded']
      exact hkept .degradeCheck nofun
  | sweep =>
      unfold sweepStalePendingTemplates
      dsimp only
      split
      · exact hkept .sweep nofun
      · exact hkept .sweep nofun
  | verdictLagged => exact hkept .verdictLagged nofun
  | holdDrops hdue hon =>
      rw [hdegraded] at hon
      cases hon
  | holdStops hdue hoff => exact hkept .staleHold nofun
  | upstreamCheck stopped => exact hkept .upstreamCheck nofun
  | shutdown => exact hkept .shutdown nofun

/-- The hold fires at its deadline, and the loop stops. -/
theorem stopped_of_staleHold {s' : MainLoop} {out : Output} {d : ℕ}
    (hdegraded : s.degraded = false) (hdeadline : s.staleHoldDeadline = some d)
    (hturn : s.turn cfg clock .staleHold = some (s', out)) :
    d ≤ clock.now ∧ s'.stopped = true := by
  cases turnOf_of_turn hturn with
  | holdDrops hdue hon =>
      rw [hdegraded] at hon
      cases hon
  | holdStops hdue hoff =>
      rw [hdeadline] at hdue
      exact ⟨by simpa using hdue, rfl⟩

/-- What a run without a degrade starts from, it ends with. -/
theorem degraded_of_run {t : MainLoop} {labels : List (Clock × LoopEvent)}
    (hdegraded : s.degraded = false)
    (hsteady : Along (next cfg) (StaysEnforcing cfg) s labels)
    (hrun : run (next cfg) s labels = some t) :
    t.degraded = false :=
  invariant_of_along (I := fun s => s.degraded = false)
    (fun _ _ t _ hstays hstep => hstays t hstep) hdegraded hsteady hrun

/-- In every run of an inline loop without a degrade, a hold that was started
runs on unchanged while no verdict accepts a pending template. A turn clears it
if it accepts one, and only then; or the hold fires, at its deadline, and the
loop stops. -/
theorem staleHold_of_run (cfg : GatewayConfig) (hmode : cfg.mode.enforcesVerdicts = true)
    (now : ℕ) (jobTable : JobTable) (before after : List (Clock × LoopEvent))
    (s t : MainLoop) (d : ℕ)
    (hbefore : run (next cfg) (initial now jobTable) before = some s)
    (hafter : run (next cfg) s after = some t)
    (hsteady : Along (next cfg) (StaysEnforcing cfg) (initial now jobTable)
      (before ++ after))
    (hdeadline : s.staleHoldDeadline = some d)
    (hnone : Along (next cfg) (fun s label => ¬ s.Accepts label.2) s after) :
    t.staleHoldDeadline = some d ∧
    ∀ label u, t.next cfg label = some u → u.degraded = false →
      u.staleHoldDeadline = (if t.Accepts label.2 then none else some d) ∧
      (label.2 = .staleHold → d ≤ label.1.now ∧ u.stopped = true) := by
  obtain ⟨hsteady, hsteady'⟩ := hsteady.append hbefore
  have hs : s.degraded = false := degraded_of_run rfl hsteady hbefore
  have ht : t.degraded = false := degraded_of_run hs hsteady' hafter
  have hkept : t.staleHoldDeadline = some d := by
    have hinv : t.degraded = false ∧ t.staleHoldDeadline = some d := by
      refine invariant_of_along
        (I := fun s => s.degraded = false ∧ s.staleHoldDeadline = some d) ?_
        ⟨hs, hdeadline⟩ (hsteady'.and hnone) hafter
      rintro s label t ⟨hs, hd⟩ ⟨hstays, hnot⟩ hstep
      have ht : t.degraded = false := hstays t hstep
      obtain ⟨⟨t, out⟩, hturn, rfl⟩ := Option.map_eq_some_iff.mp hstep
      have hafter := deadline_of_turn hmode hs hd hturn ht
      rw [if_neg hnot] at hafter
      exact ⟨ht, hafter⟩
    exact hinv.2
  refine ⟨hkept, ?_⟩
  intro label u hstep hu
  obtain ⟨⟨u, out⟩, hturn, rfl⟩ := Option.map_eq_some_iff.mp hstep
  refine ⟨deadline_of_turn hmode ht hkept hturn hu, ?_⟩
  rintro hevent
  rw [hevent] at hturn
  exact stopped_of_staleHold ht hkept hturn

/-! ## A hold cleared on the old tip -/

def reject (id : UInt64) : LoopEvent :=
  .verdict { version := protocolVersion, id, accepted := false }

/-- A job on one block; then a second template on it and a first on the next,
which is rejected. -/
def rejectedRun : List (Clock × LoopEvent) :=
  JobHistory.everySecond [JobHistory.templateOn 1 1 JobHistory.firstHash,
    JobHistory.accept 1, JobHistory.templateOn 2 1 JobHistory.firstHash,
    JobHistory.templateOn 3 2 JobHistory.nextHash, reject 3]

/-- One more template on the next block, rejected as well. -/
def secondRejection : List (Clock × LoopEvent) :=
  [(VerdictSystem.atSecond 5, JobHistory.templateOn 4 2 JobHistory.nextHash),
    (VerdictSystem.atSecond 6, reject 4)]

theorem staleHold_secondRejection :
    ∃ s t, run (next VerdictSystem.inlineConfig)
        (initial 0 { retentionMs := 300000, maxEntries := 1000 }) rejectedRun = some s ∧
      s.staleHoldDeadline = some (9 * 10 ^ 9) ∧
      run (next VerdictSystem.inlineConfig) s secondRejection = some t ∧
      t.staleHoldDeadline = some (9 * 10 ^ 9) := by
  have hfacts : (run (next VerdictSystem.inlineConfig)
      (initial 0 { retentionMs := 300000, maxEntries := 1000 }) rejectedRun).map
        (fun s => (s.staleHoldDeadline,
          (run (next VerdictSystem.inlineConfig) s secondRejection).isSome,
          decide (Along (next VerdictSystem.inlineConfig)
            (fun s label => ¬ s.Accepts label.2) s secondRejection))) =
      some (some (9 * 10 ^ 9), true, true) := by
    decide +kernel
  obtain ⟨s, hrun, hs⟩ := Option.map_eq_some_iff.mp hfacts
  rw [Prod.mk.injEq, Prod.mk.injEq, Option.isSome_iff_exists] at hs
  obtain ⟨hdeadline, ⟨t, hafter⟩, hnone⟩ := hs
  have hkept := staleHold_of_run _ rfl 0 _ rejectedRun secondRejection s t _ hrun hafter
    (by decide +kernel) hdeadline (of_decide_eq_true hnone)
  exact ⟨s, t, hrun, hdeadline, hafter, hkept.1⟩

/-- A hold for the next block ends when a template on the active block is
accepted. -/
theorem cleared_on_active_rejectedRun :
    ∃ s t out, run (next VerdictSystem.inlineConfig)
        (initial 0 { retentionMs := 300000, maxEntries := 1000 }) rejectedRun = some s ∧
      s.staleHoldDeadline = some (9 * 10 ^ 9) ∧
      s.turn VerdictSystem.inlineConfig (VerdictSystem.atSecond 5)
        (JobHistory.accept 2) = some (t, out) ∧
      t.staleHoldDeadline = none ∧ t.stopped = false ∧
      out.issued.map (fun j => some j.job.prevHash) = [s.feed.activePrevHash] := by
  have hfacts : (run (next VerdictSystem.inlineConfig)
      (initial 0 { retentionMs := 300000, maxEntries := 1000 }) rejectedRun).map
        (fun s => (s.staleHoldDeadline,
          (s.turn VerdictSystem.inlineConfig (VerdictSystem.atSecond 5)
            (JobHistory.accept 2)).map fun result =>
              (result.1.staleHoldDeadline, result.1.stopped,
                decide (result.2.issued.map (fun j => some j.job.prevHash) =
                  [s.feed.activePrevHash])))) =
      some (some (9 * 10 ^ 9), some (none, false, true)) := by
    decide +kernel
  obtain ⟨s, hrun, hs⟩ := Option.map_eq_some_iff.mp hfacts
  rw [Prod.mk.injEq] at hs
  obtain ⟨⟨t, out⟩, hturn, hresult⟩ := Option.map_eq_some_iff.mp hs.2
  rw [Prod.mk.injEq, Prod.mk.injEq] at hresult
  exact ⟨s, t, out, hrun, hs.1, hturn, hresult.1, hresult.2.1,
    of_decide_eq_true hresult.2.2⟩

end MainLoop

end ReserveGrid.Gateway
