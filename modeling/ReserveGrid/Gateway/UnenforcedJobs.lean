import ReserveGrid.Gateway.PendingStore
import ReserveGrid.Support.Result

/-!
# The count of unenforced jobs

While the gateway is degraded it makes jobs without verdicts, and the event of
its recovery reports how many. The counter goes up beside each broadcast,
whether or not a job comes of it. So the report is exact when every template
broadcast without a verdict becomes a job: its fields parse and job ids are left.
-/

namespace ReserveGrid.Gateway

open Support Protocol

/-! ## When a broadcast makes a job -/

/-- The fields that a job needs parse. -/
def TemplateResponse.parses (template : TemplateResponse) : Bool :=
  (displayHexToWireBytes template.prevHash).isOk &&
    (parseMerklePath template.merklePath).isSome &&
    (hexDecode template.coinbaseTxPrefix).isOk &&
    (hexDecode template.coinbaseTxSuffix).isOk

theorem jobFromTemplate_of_parses (clock : Clock) (jobId : UInt32)
    (active : Option Bytes32) {template : TemplateResponse}
    (hparses : template.parses = true) :
    ∃ job, jobFromTemplate clock jobId active template = some job := by
  simp only [TemplateResponse.parses, Bool.and_eq_true, Result.isOk_iff,
    Option.isSome_iff_exists] at hparses
  obtain ⟨⟨⟨⟨prevHash, hprev⟩, merklePath, hpath⟩, coinbasePrefix, hprefix⟩,
    coinbaseSuffix, hsuffix⟩ := hparses
  unfold jobFromTemplate
  rw [hprev, hpath, hprefix, hsuffix]
  exact ⟨_, rfl⟩

/-- A template that parses becomes a job while job ids are left. -/
theorem broadcastJobFromTemplate_of_parses (clock : Clock) {template : TemplateResponse}
    (feed : JobFeed) (hparses : template.parses = true)
    (hleft : 0 < feed.jobAlloc.left) :
    ∃ job, (broadcastJobFromTemplate clock template feed).2 = some job ∧
      (broadcastJobFromTemplate clock template feed).1.jobAlloc.left + 1 =
        feed.jobAlloc.left := by
  obtain ⟨jobId, jobAlloc, halloc, hnext⟩ := Counter.allocate_of_left hleft
  obtain ⟨job, hjob⟩ :=
    jobFromTemplate_of_parses clock jobId feed.activePrevHash hparses
  unfold broadcastJobFromTemplate prepareJob
  rw [halloc]
  dsimp only
  rw [hjob]
  exact ⟨job, rfl, hnext⟩

namespace MainLoop

variable {cfg : GatewayConfig} {clock : Clock} {s : MainLoop}

/-- The loop once the flush has released one pending template. -/
def flushed (clock : Clock) (id : UInt64) (pt : PendingTemplate) (s : MainLoop) :
    MainLoop :=
  { (s.broadcast clock pt.template).1 with
    pendingTemplates := s.pendingTemplates.erase id
    unenforcedJobs := s.unenforcedJobs + 1 }

theorem flushPending_cons {id : UInt64} {pt : PendingTemplate}
    (order : List UInt64) (hlookup : s.pendingTemplates.lookup id = some pt) :
    flushPending clock (id :: order) s =
      ((flushPending clock order (s.flushed clock id pt)).1,
        (s.broadcast clock pt.template).2 ++
          (flushPending clock order (s.flushed clock id pt)).2) := by
  rw [flushPending, hlookup]
  rfl

/-- The flush counts the jobs it makes, when every pending template parses and
job ids are left for all of them. -/
theorem flushPending_counts (clock : Clock) (order : List UInt64) (s : MainLoop)
    (hparses : ∀ id pt, s.pendingTemplates.lookup id = some pt →
      pt.template.parses = true)
    (hleft : s.pendingTemplates.keys.length ≤ s.feed.jobAlloc.left) :
    (flushPending clock order s).1.unenforcedJobs =
      s.unenforcedJobs + UInt64.ofNat (flushPending clock order s).2.length ∧
    (flushPending clock order s).1.feed.jobAlloc.left +
      (flushPending clock order s).2.length = s.feed.jobAlloc.left := by
  induction order generalizing s with
  | nil => exact ⟨(UInt64.add_zero _).symm, rfl⟩
  | cons id order ih =>
      cases hlookup : s.pendingTemplates.lookup id with
      | none =>
          rw [flushPending, hlookup]
          exact ih s hparses hleft
      | some pt =>
          have hmem : id ∈ s.pendingTemplates.keys :=
            AList.mem_keys.mp (AList.lookup_isSome.mp (by rw [hlookup]; rfl))
          have herase : (s.pendingTemplates.erase id).keys.length + 1 =
              s.pendingTemplates.keys.length := by
            rw [AList.keys_erase, List.length_erase_of_mem hmem]
            have hpos := List.length_pos_of_mem hmem
            omega
          obtain ⟨job, hjob, hnext⟩ := broadcastJobFromTemplate_of_parses clock
            s.feed (hparses id pt hlookup) (by omega)
          have hone : (s.broadcast clock pt.template).2 = [⟨pt.template, job⟩] := by
            rw [broadcast, hjob]
            rfl
          have hids : (s.flushed clock id pt).feed.jobAlloc.left + 1 =
              s.feed.jobAlloc.left := hnext
          obtain ⟨hcount, hrest⟩ := ih (s.flushed clock id pt)
            (fun id' pt' h => hparses id' pt' (HashMap.lookup_of_lookup_erase h))
            (by
              change (s.pendingTemplates.erase id).keys.length ≤ _
              omega)
          rw [flushPending_cons order hlookup, hone, List.singleton_append,
            List.length_cons]
          refine ⟨?_, ?_⟩
          · rw [hcount, UInt64.ofNat_add, UInt64.add_comm (UInt64.ofNat _),
              ← UInt64.add_assoc]
            rfl
          · dsimp only
            omega

/-! ## What a turn counts and reports -/

/-- The turns of the loop, as the count of unenforced jobs sees them. -/
inductive CountTurn (cfg : GatewayConfig) (clock : Clock) (s : MainLoop) :
    LoopEvent → MainLoop → Output → Prop
  | enforces {event s' out} (hdegraded : s.degraded = false)
      (hdegraded' : s'.degraded = false) (htransitions : out.transitions = []) :
      CountTurn cfg clock s event s' out
  | degrades {s' out start flushed} (hdegrades : s.degrades cfg clock = true)
      (hpending : start.pendingTemplates = s.pendingTemplates)
      (hfeed : start.feed = s.feed) (hzero : start.unenforcedJobs = 0)
      (hflush : flushPending clock s.pendingOrder start = flushed)
      (hdegraded' : s'.degraded = true)
      (hcount : s'.unenforcedJobs = flushed.1.unenforcedJobs)
      (hfeed' : s'.feed = flushed.1.feed) (hissued : out.issued = flushed.2)
      (htransitions : ∃ ev, out.transitions = [ev] ∧ ev.direction = .degraded) :
      CountTurn cfg clock s .degradeCheck s' out
  | broadcasts {template s' out} (hdegraded : s.degraded = true)
      (hdegraded' : s'.degraded = true) (hnew : s.isNew template = true)
      (hcount : s'.unenforcedJobs = s.unenforcedJobs + 1)
      (hfeed : s'.feed = (s.broadcast clock template).1.feed)
      (hissued : out.issued = (s.broadcast clock template).2)
      (htransitions : out.transitions = []) :
      CountTurn cfg clock s (.template template) s' out
  | stays {event s' out} (hdegraded : s.degraded = true)
      (hdegraded' : s'.degraded = true)
      (hcount : s'.unenforcedJobs = s.unenforcedJobs) (hfeed : s'.feed = s.feed)
      (hissued : out.issued = []) (htransitions : out.transitions = []) :
      CountTurn cfg clock s event s' out
  | recovers {event s' out} (hdegraded : s.degraded = true)
      (hdegraded' : s'.degraded = false)
      (hevent : (∀ template, event ≠ .template template) ∧ event ≠ .degradeCheck)
      (htransitions : ∃ ev, out.transitions = [ev] ∧ ev.direction = .recovered ∧
        ev.unenforcedJobs = s.unenforcedJobs) :
      CountTurn cfg clock s event s' out

theorem onTemplate_countTurn (template : TemplateResponse) :
    s.CountTurn cfg clock (.template template) (s.onTemplate cfg clock template).1
      (s.onTemplate cfg clock template).2 := by
  unfold onTemplate
  dsimp only
  by_cases hseen : (s.dedupCache.isDuplicate template.sourceInstanceId
      template.templateId).1 = true
  · rw [if_pos hseen]
    cases hdegraded : s.degraded with
    | true => exact .stays hdegraded rfl rfl rfl rfl rfl
    | false => exact .enforces hdegraded rfl rfl
  · rw [if_neg hseen]
    cases hdegraded : s.degraded with
    | true =>
        have hnew : s.isNew template = true := by simpa [isNew] using hseen
        rw [Bool.not_true, Bool.and_false, if_neg Bool.false_ne_true, if_pos rfl]
        exact .broadcasts hdegraded rfl hnew rfl rfl rfl rfl
    | false =>
        split
        · exact .enforces hdegraded rfl rfl
        · exact .enforces hdegraded rfl rfl

theorem resume_countTurn {s' : MainLoop} {out : Output} {event : LoopEvent}
    (hdegraded : s.degraded = true) (hdegraded' : s'.degraded = false)
    (hevent : (∀ template, event ≠ .template template) ∧ event ≠ .degradeCheck)
    (htransitions : out.transitions = [(s.resume clock).2]) :
    s.CountTurn cfg clock event s' out :=
  .recovers hdegraded hdegraded' hevent ⟨(s.resume clock).2, htransitions, rfl, rfl⟩

/-- A verdict that is about no pending template. -/
theorem applyVerdict_of_empty (hempty : s.pendingTemplates = ∅) (v : TemplateVerdict) :
    s.applyVerdict cfg clock v = (s, []) := by
  unfold applyVerdict
  rw [hempty, AList.lookup_empty]

/-- A verdict leaves the mode as it finds it once degraded mode is left. -/
theorem applyVerdict_degraded (v : TemplateVerdict) (s : MainLoop) :
    (s.applyVerdict cfg clock v).1.degraded = s.degraded := by
  rcases applyVerdict_store cfg clock v s with hstore | ⟨-, hstore⟩
  · exact congrArg PendingStore.degraded hstore
  · exact congrArg PendingStore.degraded hstore

theorem onVerdict_countTurn (hs : s.store.Holds) (v : TemplateVerdict) :
    s.CountTurn cfg clock (.verdict v) (s.onVerdict cfg clock v).1
      (s.onVerdict cfg clock v).2 := by
  unfold onVerdict
  dsimp only
  cases hdegraded : s.degraded with
  | false =>
      rw [Bool.false_and, if_neg Bool.false_ne_true]
      split
      · refine .enforces hdegraded ?_ rfl
        exact (applyVerdict_degraded v s).trans hdegraded
      · exact .enforces hdegraded hdegraded rfl
  | true =>
      have hempty : s.pendingTemplates = ∅ := (hs.degraded hdegraded).1
      rw [Bool.true_and]
      by_cases hstarved : (s.degradeTrigger == some .verdictStarved) = true
      · rw [if_pos hstarved]
        split
        · refine resume_countTurn hdegraded ?_ ⟨nofun, nofun⟩ rfl
          exact applyVerdict_degraded v (s.resume clock).1
        · exact resume_countTurn hdegraded rfl ⟨nofun, nofun⟩ rfl
      · rw [if_neg hstarved]
        split
        · rw [applyVerdict_of_empty hempty]
          exact .stays hdegraded hdegraded rfl rfl rfl rfl
        · exact .stays hdegraded hdegraded rfl rfl rfl rfl

theorem onHeartbeatAck_countTurn :
    s.CountTurn cfg clock .heartbeatAck (s.onHeartbeatAck clock).1
      (s.onHeartbeatAck clock).2 := by
  unfold onHeartbeatAck
  dsimp only
  cases hdegraded : s.degraded with
  | false =>
      rw [Bool.false_and, if_neg Bool.false_ne_true]
      exact .enforces hdegraded rfl rfl
  | true =>
      split
      · exact resume_countTurn hdegraded rfl ⟨nofun, nofun⟩ rfl
      · exact .stays hdegraded rfl rfl rfl rfl rfl

theorem onDegradeCheck_countTurn :
    s.CountTurn cfg clock .degradeCheck (s.onDegradeCheck cfg clock).1
      (s.onDegradeCheck cfg clock).2 := by
  by_cases hdegrades : s.degrades cfg clock = true
  · have hfires := hdegrades
    unfold degrades at hfires
    unfold onDegradeCheck
    dsimp only
    rw [if_pos hfires]
    refine .degrades hdegrades ?_ ?_ ?_ rfl ?_ rfl rfl rfl ⟨_, rfl, rfl⟩
    · rfl
    · rfl
    · rfl
    · exact flushPending_degraded clock s.pendingOrder _
  · have hnot := hdegrades
    unfold degrades at hnot
    unfold onDegradeCheck
    dsimp only
    rw [if_neg hnot]
    cases hdegraded : s.degraded with
    | true => exact .stays hdegraded hdegraded rfl rfl rfl rfl
    | false => exact .enforces hdegraded hdegraded rfl

/-- A turn that makes no job and leaves the mode and the count. -/
theorem countTurn_of_same {event : LoopEvent} {s' : MainLoop}
    (hdegraded : s'.degraded = s.degraded)
    (hcount : s'.unenforcedJobs = s.unenforcedJobs) (hfeed : s'.feed = s.feed) :
    s.CountTurn cfg clock event s' {} := by
  cases hbefore : s.degraded with
  | true => exact .stays hbefore (hdegraded.trans hbefore) hcount hfeed rfl rfl
  | false => exact .enforces hbefore (hdegraded.trans hbefore) rfl

theorem countTurn_of_turn {event : LoopEvent} {s' : MainLoop} {out : Output}
    (hs : s.store.Holds) (hturn : s.turn cfg clock event = some (s', out)) :
    s.CountTurn cfg clock event s' out := by
  cases turnOf_of_turn hturn with
  | template template => exact onTemplate_countTurn template
  | verdict v => exact onVerdict_countTurn hs v
  | heartbeatAck => exact onHeartbeatAck_countTurn
  | degradeCheck => exact onDegradeCheck_countTurn
  | sweep =>
      unfold sweepStalePendingTemplates
      dsimp only
      split
      · exact countTurn_of_same rfl rfl rfl
      · exact countTurn_of_same rfl rfl rfl
  | verdictLagged => exact countTurn_of_same rfl rfl rfl
  | holdDrops hdue hdegraded => exact countTurn_of_same rfl rfl rfl
  | holdStops hdue hdegraded => exact countTurn_of_same rfl rfl rfl
  | upstreamCheck stopped => exact countTurn_of_same rfl rfl rfl
  | shutdown => exact countTurn_of_same rfl rfl rfl

end MainLoop

/-! ## Every report -/

/-- The loop with the number of jobs made without a verdict since it last
degraded, and for each recovery the number it reported beside that number. -/
structure AuditHistory where
  loop : MainLoop
  unverified : ℕ := 0
  reports : List (UInt64 × ℕ) := []

namespace AuditHistory

def initial (now : ℕ) (jobTable : JobTable) : AuditHistory where
  loop := .initial now jobTable

/-- The jobs without a verdict after a turn. Degrading starts the number anew,
with the jobs of the flush. -/
def unverifiedAfter (event : LoopEvent) (out : Output) (s : AuditHistory) : ℕ :=
  match event with
  | .template _ =>
      if s.loop.degraded then s.unverified + out.issued.length else s.unverified
  | .degradeCheck =>
      if out.transitions.isEmpty then s.unverified else out.issued.length
  | _ => s.unverified

def afterTurn (event : LoopEvent) (result : MainLoop × Output) (s : AuditHistory) :
    AuditHistory where
  loop := result.1
  unverified := s.unverifiedAfter event result.2
  reports := s.reports ++
    (result.2.transitions.filter (·.direction = .recovered)).map fun ev =>
      (ev.unenforcedJobs, s.unverified)

def step (cfg : GatewayConfig) (s : AuditHistory) (label : Clock × LoopEvent) :
    Option AuditHistory :=
  (s.loop.turn cfg label.1 label.2).map fun result => s.afterTurn label.2 result

/-- Every template that is broadcast without a verdict in the next turn parses,
and job ids are left for them. -/
def Makes (cfg : GatewayConfig) (s : AuditHistory) : Clock × LoopEvent → Prop
  | (_, .template template) =>
      s.loop.degraded = true → s.loop.isNew template = true →
        template.parses = true ∧ 0 < s.loop.feed.jobAlloc.left
  | (clock, .degradeCheck) =>
      s.loop.degrades cfg clock = true →
        (∀ e ∈ s.loop.pendingTemplates.entries, e.2.template.parses = true) ∧
          s.loop.pendingTemplates.keys.length ≤ s.loop.feed.jobAlloc.left
  | _ => True

instance (cfg : GatewayConfig) (s : AuditHistory) :
    (label : Clock × LoopEvent) → Decidable (s.Makes cfg label)
  | (_, .template template) =>
      inferInstanceAs (Decidable
        (s.loop.degraded = true → s.loop.isNew template = true →
          template.parses = true ∧ 0 < s.loop.feed.jobAlloc.left))
  | (clock, .degradeCheck) =>
      inferInstanceAs (Decidable
        (s.loop.degrades cfg clock = true →
          (∀ e ∈ s.loop.pendingTemplates.entries, e.2.template.parses = true) ∧
            s.loop.pendingTemplates.keys.length ≤ s.loop.feed.jobAlloc.left))
  | (_, .verdict _) | (_, .heartbeatAck) | (_, .verdictLagged) | (_, .sweep)
  | (_, .staleHold) | (_, .upstreamCheck) | (_, .shutdown) => isTrue trivial

/-- The reports are exact, and so is the count while the loop is degraded. Each
job took an id, so the count does not wrap around. -/
structure Exact (s : AuditHistory) : Prop where
  holds : s.loop.store.Holds
  count : s.loop.degraded = true → s.loop.unenforcedJobs.toNat = s.unverified ∧
    s.unverified + s.loop.feed.jobAlloc.left ≤ 0xffffffff
  reports : ∀ p ∈ s.reports, p.1.toNat = p.2

theorem left_le (c : Counter) : c.left ≤ 0xffffffff := by
  unfold Counter.left
  split
  · exact Nat.zero_le _
  · exact Nat.sub_le _ _

variable {cfg : GatewayConfig} {clock : Clock} {s : AuditHistory} {loop : MainLoop}
  {out : Output} {event : LoopEvent}

theorem reports_of_none (htransitions : out.transitions = []) :
    (s.afterTurn event (loop, out)).reports = s.reports := by
  rw [afterTurn, htransitions]
  exact List.append_nil _

/-- Degrading counts the jobs of the flush. -/
theorem counts_of_flush {start : MainLoop} {flushed : MainLoop × List Issued}
    (hmakes : s.Makes cfg (clock, .degradeCheck))
    (hdegrades : s.loop.degrades cfg clock = true)
    (hpending : start.pendingTemplates = s.loop.pendingTemplates)
    (hfeed : start.feed = s.loop.feed) (hzero : start.unenforcedJobs = 0)
    (hflush : MainLoop.flushPending clock s.loop.pendingOrder start = flushed) :
    flushed.1.unenforcedJobs.toNat = flushed.2.length ∧
      flushed.2.length + flushed.1.feed.jobAlloc.left ≤ 0xffffffff := by
  obtain ⟨hparses, hleft⟩ := hmakes hdegrades
  obtain ⟨hexact, hids⟩ := MainLoop.flushPending_counts clock s.loop.pendingOrder start
    (by
      intro id pt h
      rw [hpending] at h
      exact hparses ⟨id, pt⟩ (AList.mem_lookup_iff.mp h))
    (by
      rw [hpending, hfeed]
      exact hleft)
  rw [hflush, hzero, UInt64.zero_add] at hexact
  rw [hflush, hfeed] at hids
  have hbound := left_le s.loop.feed.jobAlloc
  refine ⟨?_, by omega⟩
  rw [hexact, UInt64.toNat_ofNat']
  exact Nat.mod_eq_of_lt (by omega)

/-- A broadcast without a verdict counts one job. -/
theorem Exact.counts_of_broadcast {template : TemplateResponse} (hs : s.Exact)
    (hmakes : s.Makes cfg (clock, .template template))
    (hdegraded : s.loop.degraded = true) (hnew : s.loop.isNew template = true) :
    (s.loop.broadcast clock template).2.length = 1 ∧
      (s.loop.unenforcedJobs + 1).toNat = s.unverified + 1 ∧
      s.unverified + 1 +
        (s.loop.broadcast clock template).1.feed.jobAlloc.left ≤ 0xffffffff := by
  obtain ⟨hexact, hbound⟩ := hs.count hdegraded
  obtain ⟨hparses, hleft⟩ := hmakes hdegraded hnew
  obtain ⟨job, hjob, hids⟩ := broadcastJobFromTemplate_of_parses clock _ hparses hleft
  refine ⟨?_, ?_, ?_⟩
  · rw [MainLoop.broadcast, hjob]
    rfl
  · rw [UInt64.toNat_add, hexact]
    exact Nat.mod_eq_of_lt (by
      change s.unverified + 1 < _
      omega)
  · change _ + (broadcastJobFromTemplate clock template
      s.loop.feed).1.jobAlloc.left ≤ _
    omega

theorem Exact.turn (hs : s.Exact) (hholds : loop.store.Holds)
    (hturn : s.loop.CountTurn cfg clock event loop out)
    (hmakes : s.Makes cfg (clock, event)) :
    (s.afterTurn event (loop, out)).Exact := by
  cases hturn with
  | enforces hdegraded hdegraded' htransitions =>
      refine ⟨hholds, ?_, ?_⟩
      · intro htrue
        cases hdegraded'.symm.trans htrue
      · rw [reports_of_none htransitions]
        exact hs.reports
  | @degrades _ _ start flushed hdegrades hpending hfeed hzero hflush hdegraded' hcount hfeed'
      hissued htransitions =>
      obtain ⟨ev, hev, hdirection⟩ := htransitions
      have hunverified : (s.afterTurn .degradeCheck (loop, out)).unverified =
          flushed.2.length := by
        rw [afterTurn, unverifiedAfter, hev, hissued]
        rfl
      refine ⟨hholds, ?_, ?_⟩
      · intro _
        rw [hunverified]
        change loop.unenforcedJobs.toNat = _ ∧ _ + loop.feed.jobAlloc.left ≤ _
        rw [hcount, hfeed']
        exact counts_of_flush hmakes hdegrades hpending hfeed hzero hflush
      · rw [afterTurn, hev]
        simpa [hdirection] using hs.reports
  | @broadcasts template _ _ hdegraded hdegraded' hnew hcount hfeed hissued htransitions =>
      obtain ⟨hone, hcounts⟩ := hs.counts_of_broadcast hmakes hdegraded hnew
      have hunverified : (s.afterTurn (.template template) (loop, out)).unverified =
          s.unverified + 1 := by
        rw [afterTurn, unverifiedAfter, hdegraded, hissued, hone]
        rfl
      refine ⟨hholds, ?_, ?_⟩
      · intro _
        rw [hunverified]
        change loop.unenforcedJobs.toNat = _ ∧ _ + loop.feed.jobAlloc.left ≤ _
        rw [hcount, hfeed]
        exact hcounts
      · rw [reports_of_none htransitions]
        exact hs.reports
  | stays hdegraded hdegraded' hcount hfeed hissued htransitions =>
      have hunverified : (s.afterTurn event (loop, out)).unverified = s.unverified := by
        cases event with
        | template template =>
            rw [afterTurn, unverifiedAfter, hissued, hdegraded]
            rfl
        | degradeCheck =>
            rw [afterTurn, unverifiedAfter, htransitions]
            rfl
        | _ => rfl
      refine ⟨hholds, ?_, ?_⟩
      · intro _
        rw [hunverified]
        change loop.unenforcedJobs.toNat = _ ∧ _ + loop.feed.jobAlloc.left ≤ _
        rw [hcount, hfeed]
        exact hs.count hdegraded
      · rw [reports_of_none htransitions]
        exact hs.reports
  | recovers hdegraded hdegraded' hevent htransitions =>
      obtain ⟨ev, hev, hdirection, hcount⟩ := htransitions
      refine ⟨hholds, ?_, ?_⟩
      · intro htrue
        cases hdegraded'.symm.trans htrue
      · intro p hp
        rw [afterTurn, hev] at hp
        rcases List.mem_append.mp hp with hp | hp
        · exact hs.reports p hp
        · have hp : p = (ev.unenforcedJobs, s.unverified) := by
            simpa [hdirection] using hp
          rw [hp, hcount]
          exact (hs.count hdegraded).1

/-- In every run in which the templates broadcast without verdicts become jobs,
each recovery reports the number of jobs made without a verdict since the loop
degraded. -/
theorem reports_of_run (cfg : GatewayConfig) (now : ℕ) (jobTable : JobTable)
    (labels : List (Clock × LoopEvent)) (s : AuditHistory)
    (hmakes : Along (step cfg) (Makes cfg) (initial now jobTable) labels)
    (hrun : run (step cfg) (initial now jobTable) labels = some s) :
    ∀ p ∈ s.reports, p.1.toNat = p.2 := by
  have hinit : (initial now jobTable).Exact :=
    ⟨⟨nofun, Nat.zero_le _, nofun⟩, nofun, nofun⟩
  have hs : s.Exact := by
    refine invariant_of_along ?_ hinit hmakes hrun
    intro s label t hs hmakes hstep
    obtain ⟨⟨loop, out⟩, hturn, rfl⟩ := Option.map_eq_some_iff.mp hstep
    exact hs.turn (hs.holds.storeTurn (MainLoop.storeTurn_of_turn hturn))
      (MainLoop.countTurn_of_turn hs.holds hturn) hmakes
  exact hs.reports

/-- The gateway degrades and recovers by a heartbeat, then degrades for want of
verdicts and recovers by one. -/
def twoRecoveriesRun : List (Clock × LoopEvent) :=
  [(VerdictSystem.atSecond 1, JobHistory.templateOn 1 1 JobHistory.firstHash),
    (VerdictSystem.atSecond 20, .degradeCheck),
    (VerdictSystem.atSecond 21, JobHistory.templateOn 2 1 JobHistory.firstHash),
    (VerdictSystem.atSecond 22, .heartbeatAck),
    (VerdictSystem.atSecond 23, JobHistory.templateOn 3 1 JobHistory.firstHash),
    (VerdictSystem.atSecond 33, .heartbeatAck),
    (VerdictSystem.atSecond 34, .degradeCheck),
    (VerdictSystem.atSecond 35, JobHistory.accept 9)]

theorem reports_twoRecoveriesRun :
    ∃ s, run (step degradingConfig)
        (initial 0 { retentionMs := 300000, maxEntries := 1000 }) twoRecoveriesRun =
        some s ∧
      s.reports.map (·.1) = [2, 1] ∧ ∀ p ∈ s.reports, p.1.toNat = p.2 := by
  have hreports : (run (step degradingConfig)
      (initial 0 { retentionMs := 300000, maxEntries := 1000 }) twoRecoveriesRun).map
        (fun s => s.reports.map (·.1)) = some [2, 1] := by
    decide +kernel
  obtain ⟨s, hrun, hs⟩ := Option.map_eq_some_iff.mp hreports
  exact ⟨s, hrun, hs, reports_of_run _ _ _ _ s (by decide +kernel) hrun⟩

/-- A template with a bad merkle path arrives while the gateway is degraded. -/
def badPathRun : List (Clock × LoopEvent) :=
  [(VerdictSystem.atSecond 20, .degradeCheck),
    (VerdictSystem.atSecond 21,
      .template { TemplateResponse.regtest with merklePath := ["00"] }),
    (VerdictSystem.atSecond 22, .heartbeatAck)]

/-- A template that became no job is reported as one. -/
theorem reports_badPathRun :
    ∃ s, run (step degradingConfig)
        (initial 0 { retentionMs := 300000, maxEntries := 1000 }) badPathRun = some s ∧
      s.reports = [(1, 0)] ∧ ¬ ∀ p ∈ s.reports, p.1.toNat = p.2 := by
  have hreports : (run (step degradingConfig)
      (initial 0 { retentionMs := 300000, maxEntries := 1000 }) badPathRun).map
        (·.reports) = some [(1, 0)] := by
    decide +kernel
  obtain ⟨s, hrun, hs⟩ := Option.map_eq_some_iff.mp hreports
  refine ⟨s, hrun, hs, ?_⟩
  rw [hs]
  decide

end AuditHistory

end ReserveGrid.Gateway
