import ReserveGrid.Gateway.PendingStore

/-!
# The starvation clock

The clock keeps one instant. It is not cleared when a sweep or a recovery takes
the last pending template away; reads look at the pending set first, and the
next template that is stored sets it anew. So whenever a template waits, the
clock counts from the last verdict or from the time the set was last filled,
whichever came later.
-/

namespace ReserveGrid.Gateway

open Support Protocol

/-! ## What a turn does to the clock -/

def LoopEvent.isVerdict : LoopEvent → Bool
  | .verdict _ => true
  | _ => false

namespace MainLoop

/-- The turns of the loop, as the starvation clock sees them. -/
inductive ClockTurn (clock : Clock) (s s' : MainLoop) : LoopEvent → Prop
  | enqueues {template} (hfilled : s'.pendingEmpty = false)
      (hclock : s'.verdictStarved =
        s.verdictStarved.onEnqueue s.pendingEmpty clock.now) :
      ClockTurn clock s s' (.template template)
  | answers {v} (hfewer : s.pendingEmpty = true → s'.pendingEmpty = true)
      (hclock : s'.verdictStarved = .onVerdict s'.pendingEmpty clock.now) :
      ClockTurn clock s s' (.verdict v)
  | keeps {event} (hevent : event.isVerdict = false)
      (hempty : s'.pendingEmpty = s.pendingEmpty)
      (horder : s'.pendingOrder = s.pendingOrder)
      (hclock : s'.verdictStarved = s.verdictStarved) : ClockTurn clock s s' event
  | takes {event} (hevent : event.isVerdict = false)
      (hfewer : s.pendingEmpty = true → s'.pendingEmpty = true)
      (hdrained : s'.pendingEmpty = true → s'.pendingOrder = [])
      (hclock : s'.pendingEmpty = false → s'.verdictStarved = s.verdictStarved) :
      ClockTurn clock s s' event

variable {cfg : GatewayConfig} {clock : Clock} {s s' : MainLoop} {out : Output}

theorem pendingEmpty_iff (s : MainLoop) :
    s.pendingEmpty = true ↔ ∀ id, id ∉ s.pendingTemplates := by
  rw [pendingEmpty, List.isEmpty_iff]
  exact List.eq_nil_iff_forall_not_mem

theorem pendingEmpty_of_subset
    (h : ∀ id ∈ s'.pendingTemplates, id ∈ s.pendingTemplates) :
    s.pendingEmpty = true → s'.pendingEmpty = true := by
  rw [pendingEmpty_iff, pendingEmpty_iff]
  exact fun hnone id hid => hnone id (h id hid)

/-- What is not empty was not, where nothing was added. -/
theorem pendingEmpty_eq_false
    (hfewer : s.pendingEmpty = true → s'.pendingEmpty = true)
    (hfull : s'.pendingEmpty = false) : s.pendingEmpty = false := by
  rw [← Bool.not_eq_true]
  intro hempty
  rw [hfewer hempty] at hfull
  cases hfull

theorem onTemplate_clockTurn (template : TemplateResponse) :
    ClockTurn clock s (s.onTemplate cfg clock template).1 (.template template) := by
  unfold onTemplate
  dsimp only
  by_cases hseen : (s.dedupCache.isDuplicate template.sourceInstanceId
      template.templateId).1 = true
  · rw [if_pos hseen]
    exact .keeps rfl rfl rfl rfl
  · rw [if_neg hseen]
    by_cases hwaits : (cfg.mode.enforcesVerdicts && !s.degraded) = true
    · rw [if_pos hwaits]
      refine .enqueues ?_ rfl
      rw [← Bool.not_eq_true, pendingEmpty_iff]
      exact fun hnone => hnone template.templateId
        ((AList.mem_insert _).mpr (Or.inl rfl))
    · rw [if_neg hwaits]
      exact .keeps rfl rfl rfl rfl

theorem onVerdict_clockTurn (v : TemplateVerdict) :
    ClockTurn clock s (s.onVerdict cfg clock v).1 (.verdict v) := by
  refine .answers (pendingEmpty_of_subset fun id hid => ?_) rfl
  have hturn := @onVerdict_storeTurn cfg clock s v
  generalize hstore : (s.onVerdict cfg clock v).1.store = p at hturn
  have htemplates : (s.onVerdict cfg clock v).1.pendingTemplates = p.templates := by
    rw [← hstore]
    rfl
  rw [htemplates] at hid
  cases hturn with
  | same htemplate hsweep => exact hid
  | answers hdegraded hmem => exact (AList.mem_erase.mp hid).2
  | resumes => exact hid
  | clears hevent => exact absurd hid (AList.notMem_empty id)

theorem onHeartbeatAck_clockTurn :
    ClockTurn clock s (s.onHeartbeatAck clock).1 .heartbeatAck := by
  unfold onHeartbeatAck
  dsimp only
  split
  · exact .takes rfl (fun _ => rfl) (fun _ => rfl) nofun
  · exact .keeps rfl rfl rfl rfl

theorem sweep_verdictStarved (maxAge now : ℕ) (s : MainLoop) :
    (s.sweepStalePendingTemplates maxAge now).verdictStarved = s.verdictStarved := by
  unfold sweepStalePendingTemplates
  dsimp only
  split
  · rfl
  · rfl

theorem sweep_clockTurn :
    ClockTurn clock s
      (s.sweepStalePendingTemplates (millis cfg.maxTemplateAgeMs) clock.now) .sweep := by
  have hclock := sweep_verdictStarved (millis cfg.maxTemplateAgeMs) clock.now s
  have hturn := @sweepStalePendingTemplates_storeTurn cfg clock s
  generalize s.sweepStalePendingTemplates (millis cfg.maxTemplateAgeMs) clock.now = s'
    at hclock hturn ⊢
  generalize hstore : s'.store = p at hturn
  have htemplates : s'.pendingTemplates = p.templates := congrArg PendingStore.templates hstore
  have horder : s'.pendingOrder = p.order := congrArg PendingStore.order hstore
  cases hturn with
  | same htemplate hsweep =>
      refine .keeps rfl ?_ horder hclock
      rw [pendingEmpty, htemplates]
      rfl
  | sweeps hexpired =>
      refine .takes rfl (pendingEmpty_of_subset fun id hid => ?_) ?_ fun _ => hclock
      · rw [htemplates] at hid
        exact HashMap.mem_of_mem_retain hid
      · intro hdrained
        rw [pendingEmpty_iff, htemplates] at hdrained
        rw [horder]
        apply List.filter_eq_nil_iff.mpr
        intro id _
        simpa using hdrained id
  | clears hevent => rcases hevent with hevent | hevent <;> cases hevent

theorem onDegradeCheck_clockTurn :
    ClockTurn clock s (s.onDegradeCheck cfg clock).1 .degradeCheck := by
  unfold onDegradeCheck
  dsimp only
  split
  · refine .takes rfl (fun _ => rfl) (fun _ => ?_) nofun
    exact congrArg PendingStore.order (flushPending_store clock s.pendingOrder { s with
      degradeTrigger := _
      degraded := true
      degradedSince := some clock.now
      unenforcedJobs := 0
      pendingOrder := [] })
  · exact .keeps rfl rfl rfl rfl

/-- Every turn is one of the turns of the clock. -/
theorem clockTurn_of_next {label : Clock × LoopEvent}
    (hnext : s.next cfg label = some s') : ClockTurn label.1 s s' label.2 := by
  obtain ⟨⟨t, out⟩, hturn, rfl⟩ := Option.map_eq_some_iff.mp hnext
  obtain ⟨clock, event⟩ := label
  cases turnOf_of_turn hturn with
  | template template => exact onTemplate_clockTurn template
  | verdict v => exact onVerdict_clockTurn v
  | heartbeatAck => exact onHeartbeatAck_clockTurn
  | degradeCheck => exact onDegradeCheck_clockTurn
  | sweep => exact sweep_clockTurn
  | verdictLagged => exact .keeps rfl rfl rfl rfl
  | holdDrops hdue hdegraded => exact .keeps rfl rfl rfl rfl
  | holdStops hdue hdegraded => exact .keeps rfl rfl rfl rfl
  | upstreamCheck stopped => exact .keeps rfl rfl rfl rfl
  | shutdown => exact .keeps rfl rfl rfl rfl

end MainLoop

/-! ## The history of the clock -/

/-- The loop with the time of the last verdict, and the last time the pending
set went from empty to non-empty. -/
structure ClockHistory where
  loop : MainLoop
  lastVerdict : Option ℕ := none
  lastFilled : Option ℕ := none

namespace ClockHistory

def initial (now : ℕ) (jobTable : JobTable) : ClockHistory where
  loop := .initial now jobTable

def step (cfg : GatewayConfig) (h : ClockHistory) (label : Clock × LoopEvent) :
    Option ClockHistory :=
  (h.loop.next cfg label).map fun loop =>
    { loop
      lastVerdict := if label.2.isVerdict then some label.1.now else h.lastVerdict
      lastFilled :=
        if h.loop.pendingEmpty && !loop.pendingEmpty then some label.1.now
        else h.lastFilled }

/-- While a template waits, the clock stands at the later of the two times;
otherwise a read finds an empty queue or no time. Every waiting template is in
the queue. -/
structure Anchored (latest : ℕ) (h : ClockHistory) : Prop where
  listed : h.loop.store.Holds
  filled : h.loop.pendingEmpty = false → ∃ filled, h.lastFilled = some filled ∧
    filled ≤ latest ∧
    h.loop.verdictStarved.anchor = some (max filled (h.lastVerdict.getD filled))
  drained : h.loop.pendingEmpty = true →
    h.loop.pendingOrder = [] ∨ h.loop.verdictStarved.anchor = none
  verdict_le : ∀ verdict, h.lastVerdict = some verdict → verdict ≤ latest

variable {cfg : GatewayConfig} {h t : ClockHistory} {label : Clock × LoopEvent}
  {latest : ℕ}

theorem anchored_initial (now : ℕ) (jobTable : JobTable) :
    Anchored 0 (initial now jobTable) where
  listed := ⟨nofun, Nat.zero_le _, nofun⟩
  filled := nofun
  drained := fun _ => Or.inl rfl
  verdict_le := nofun

/-- The later of two times, the second of which may be missing. -/
theorem max_getD_of_le {time : ℕ} {verdict : Option ℕ}
    (hle : ∀ v, verdict = some v → v ≤ time) : max time (verdict.getD time) = time := by
  cases verdict with
  | none => exact max_self time
  | some v => exact max_eq_left (hle v rfl)

theorem Anchored.mono {later : ℕ} (hs : h.Anchored latest) (hle : latest ≤ later) :
    h.Anchored later where
  listed := hs.listed
  filled := fun hfull => by
    obtain ⟨filled, hfilled, hbefore, hanchor⟩ := hs.filled hfull
    exact ⟨filled, hfilled, hbefore.trans hle, hanchor⟩
  drained := hs.drained
  verdict_le := fun verdict hverdict => (hs.verdict_le verdict hverdict).trans hle

/-- A template is stored. -/
theorem Anchored.enqueue {now : ℕ} {loop : MainLoop} (hs : h.Anchored now)
    (hlisted : loop.store.Holds) (hfilled : loop.pendingEmpty = false)
    (hclock : loop.verdictStarved =
      h.loop.verdictStarved.onEnqueue h.loop.pendingEmpty now) :
    Anchored now
      { loop
        lastVerdict := h.lastVerdict
        lastFilled :=
          if h.loop.pendingEmpty && !loop.pendingEmpty then some now
          else h.lastFilled } where
  listed := hlisted
  filled := fun _ => by
    dsimp only
    by_cases hempty : h.loop.pendingEmpty = true
    · refine ⟨now, by simp [hempty, hfilled], le_rfl, ?_⟩
      rw [hclock, max_getD_of_le hs.verdict_le]
      simp [StarvationClock.onEnqueue, hempty]
    · rw [Bool.not_eq_true] at hempty
      obtain ⟨filled, hlast, hbefore, hanchor⟩ := hs.filled hempty
      refine ⟨filled, by simp [hempty, hlast], hbefore, ?_⟩
      rw [hclock, ← hanchor]
      simp [StarvationClock.onEnqueue, hempty, hanchor]
  drained := fun hempty => by
    dsimp only at hempty
    rw [hfilled] at hempty
    cases hempty
  verdict_le := hs.verdict_le

/-- A verdict arrives. -/
theorem Anchored.answer {now : ℕ} {loop : MainLoop} (hs : h.Anchored now)
    (hlisted : loop.store.Holds)
    (hfewer : h.loop.pendingEmpty = true → loop.pendingEmpty = true)
    (hclock : loop.verdictStarved = .onVerdict loop.pendingEmpty now) :
    Anchored now
      { loop
        lastVerdict := some now
        lastFilled :=
          if h.loop.pendingEmpty && !loop.pendingEmpty then some now
          else h.lastFilled } where
  listed := hlisted
  filled := fun hfull => by
    dsimp only at hfull ⊢
    have hbefore := MainLoop.pendingEmpty_eq_false hfewer hfull
    obtain ⟨filled, hlast, hle, -⟩ := hs.filled hbefore
    refine ⟨filled, by simp [hbefore, hlast], hle, ?_⟩
    simp [hclock, StarvationClock.onVerdict, hfull, hle]
  drained := fun hempty => by
    dsimp only at hempty ⊢
    right
    simp [hclock, StarvationClock.onVerdict, hempty]
  verdict_le := fun verdict hverdict => by
    cases hverdict
    exact le_rfl

/-- A turn that stores no template and brings no verdict. -/
theorem Anchored.other {now : ℕ} {loop : MainLoop} (hs : h.Anchored now)
    (hlisted : loop.store.Holds)
    (hfewer : h.loop.pendingEmpty = true → loop.pendingEmpty = true)
    (hclock : loop.pendingEmpty = false →
      loop.verdictStarved = h.loop.verdictStarved)
    (hdrained : loop.pendingEmpty = true →
      loop.pendingOrder = [] ∨ loop.verdictStarved.anchor = none) :
    Anchored now
      { loop
        lastVerdict := h.lastVerdict
        lastFilled :=
          if h.loop.pendingEmpty && !loop.pendingEmpty then some now
          else h.lastFilled } where
  listed := hlisted
  filled := fun hfull => by
    dsimp only at hfull ⊢
    have hbefore := MainLoop.pendingEmpty_eq_false hfewer hfull
    obtain ⟨filled, hlast, hle, hanchor⟩ := hs.filled hbefore
    exact ⟨filled, by simp [hbefore, hlast], hle, by rw [hclock hfull, hanchor]⟩
  drained := hdrained
  verdict_le := hs.verdict_le

theorem Anchored.step (hs : h.Anchored latest) (hstep : h.step cfg label = some t)
    (hlater : latest ≤ label.1.now) : t.Anchored label.1.now := by
  have hs := hs.mono hlater
  obtain ⟨loop, hnext, rfl⟩ := Option.map_eq_some_iff.mp hstep
  have hlisted : loop.store.Holds := by
    obtain ⟨⟨loop', out⟩, hturn, rfl⟩ := Option.map_eq_some_iff.mp hnext
    exact hs.listed.storeTurn (MainLoop.storeTurn_of_turn hturn)
  have hturn := MainLoop.clockTurn_of_next hnext
  obtain ⟨clock, event⟩ := label
  cases hturn with
  | enqueues hfilled hclock => exact hs.enqueue hlisted hfilled hclock
  | answers hfewer hclock => exact hs.answer hlisted hfewer hclock
  | keeps hevent hempty horder hclock =>
      dsimp only at hevent ⊢
      rw [hevent]
      refine hs.other hlisted (fun h => hempty.trans h) (fun _ => hclock) fun hnone => ?_
      rw [horder, hclock]
      exact hs.drained (hempty.symm.trans hnone)
  | takes hevent hfewer hdrained hclock =>
      dsimp only at hevent ⊢
      rw [hevent]
      exact hs.other hlisted hfewer hclock fun hnone => Or.inl (hdrained hnone)

theorem Anchored.run {labels : List (Clock × LoopEvent)} (hs : h.Anchored latest)
    (hrun : Support.run (ClockHistory.step cfg) h labels = some t)
    (htimes : (latest :: labels.map (·.1.now)).Pairwise (· ≤ ·)) :
    ∃ last, t.Anchored last := by
  induction labels generalizing h latest with
  | nil =>
      cases hrun
      exact ⟨latest, hs⟩
  | cons label labels ih =>
      obtain ⟨u, hstep, hrest⟩ := run_cons_eq_some.mp hrun
      rw [List.map_cons, List.pairwise_cons] at htimes
      exact ih (hs.step hstep (htimes.1 _ List.mem_cons_self)) hrest htimes.2

/-- What a read of the clock finds. -/
theorem Anchored.elapsed (hs : h.Anchored latest) (now : ℕ) :
    h.loop.verdictStarved.elapsedWhileOutstanding h.loop.pendingOrder.isEmpty now =
      if h.loop.pendingEmpty then none
      else h.lastFilled.map fun filled => now - max filled (h.lastVerdict.getD filled) := by
  by_cases hempty : h.loop.pendingEmpty = true
  · rw [if_pos hempty]
    rcases hs.drained hempty with horder | hanchor
    · simp [StarvationClock.elapsedWhileOutstanding, horder]
    · simp [StarvationClock.elapsedWhileOutstanding, hanchor]
  · rw [if_neg hempty]
    have hfull : h.loop.pendingEmpty = false := by simpa using hempty
    obtain ⟨filled, hlast, -, hanchor⟩ := hs.filled hfull
    have horder : h.loop.pendingOrder ≠ [] := by
      intro hnil
      apply hempty
      rw [MainLoop.pendingEmpty_iff]
      intro id hid
      have hmem : id ∈ h.loop.pendingOrder := hs.listed.listed id hid
      rw [hnil] at hmem
      cases hmem
    simp [StarvationClock.elapsedWhileOutstanding, horder, hanchor, hlast]

/-- Over any run at times that do not go back, a read of the clock finds a time
exactly while a template waits, and then the time since the later of the last
verdict and the last moment at which the pending set was filled. -/
theorem elapsedWhileOutstanding_of_run (cfg : GatewayConfig) (start : ℕ)
    (jobTable : JobTable) (labels : List (Clock × LoopEvent)) (h : ClockHistory)
    (hrun : run (step cfg) (initial start jobTable) labels = some h)
    (htimes : (labels.map (·.1.now)).Pairwise (· ≤ ·)) (now : ℕ) :
    ((h.loop.verdictStarved.elapsedWhileOutstanding
        h.loop.pendingOrder.isEmpty now).isSome ↔ h.loop.pendingEmpty = false) ∧
    ∀ elapsed, h.loop.verdictStarved.elapsedWhileOutstanding
        h.loop.pendingOrder.isEmpty now = some elapsed →
      ∃ filled, h.lastFilled = some filled ∧
        elapsed = now - max filled (h.lastVerdict.getD filled) := by
  have hall : (0 :: labels.map (·.1.now)).Pairwise (· ≤ ·) :=
    List.pairwise_cons.mpr ⟨fun _ _ => Nat.zero_le _, htimes⟩
  obtain ⟨latest, hs⟩ := (anchored_initial start jobTable).run hrun hall
  rw [hs.elapsed now]
  cases hempty : h.loop.pendingEmpty with
  | true => simp
  | false =>
      obtain ⟨filled, hlast, -, -⟩ := hs.filled hempty
      simp [hlast, eq_comm]

/-- A sweep takes the only template, and another one is stored ten seconds
later. -/
def sweptRun : List (Clock × LoopEvent) :=
  [(VerdictSystem.atSecond 0, JobHistory.templateOn 1 1 JobHistory.firstHash),
    (VerdictSystem.atSecond 40, .sweep),
    (VerdictSystem.atSecond 50, JobHistory.templateOn 2 1 JobHistory.firstHash)]

theorem elapsedWhileOutstanding_sweptRun :
    ∃ h, run (step VerdictSystem.inlineConfig)
        (initial 0 { retentionMs := 300000, maxEntries := 1000 }) sweptRun = some h ∧
      ∀ elapsed, h.loop.verdictStarved.elapsedWhileOutstanding
          h.loop.pendingOrder.isEmpty (55 * 10 ^ 9) = some elapsed →
        elapsed = 5 * 10 ^ 9 := by
  have htimes : (run (step VerdictSystem.inlineConfig)
      (initial 0 { retentionMs := 300000, maxEntries := 1000 }) sweptRun).map
        (fun h => (h.lastFilled, h.lastVerdict)) = some (some (50 * 10 ^ 9), none) := by
    decide +kernel
  obtain ⟨h, hrun, hh⟩ := Option.map_eq_some_iff.mp htimes
  refine ⟨h, hrun, fun elapsed helapsed => ?_⟩
  obtain ⟨filled, hfilled, rfl⟩ := (elapsedWhileOutstanding_of_run
    VerdictSystem.inlineConfig 0 _ sweptRun h hrun (by decide) _).2 elapsed helapsed
  rw [Prod.mk.injEq, hfilled, Option.some.injEq] at hh
  rw [hh.1, hh.2]
  decide

end ClockHistory

end ReserveGrid.Gateway
