import ReserveGrid.Gateway.Jobs
import ReserveGrid.Protocol

/-!
# The main loop

The gateway's event loop between the template poller and the verifier. In
inline mode a template waits for its verdict before a job is made of it; in
observe mode, and while inline enforcement is degraded, jobs are made at once.
Each arm of the loop is a function of the loop's state and the clock.
-/

namespace ReserveGrid.Gateway

open Support Protocol

/-! ## Configuration and state -/

inductive GatewayMode where
  | inline
  | observe
  | shadow
  deriving DecidableEq, Repr

/-- Whether job distribution waits for verdicts. -/
def GatewayMode.enforcesVerdicts : GatewayMode → Bool
  | .inline => true
  | .observe | .shadow => false

inductive UpstreamFailurePolicy where
  | failClosed
  | failOpen
  deriving DecidableEq, Repr

/-- The settings the main loop reads. -/
structure GatewayConfig where
  mode : GatewayMode
  gatewayInstanceId : String
  maxTemplateAgeMs : UInt64
  prevhashStaleHoldMs : UInt64
  upstreamStaleMaxMs : UInt64
  upstreamFailurePolicy : UpstreamFailurePolicy
  autoDegrade : Bool
  autoDegradeAfterMs : UInt64

/-- Why the gateway degraded, which decides how it recovers. -/
inductive DegradeTrigger where
  | heartbeatStale
  | verdictStarved
  deriving DecidableEq, Repr

/-- A template that waits for its verdict. -/
structure PendingTemplate where
  template : TemplateResponse
  receivedAt : ℕ
  deriving DecidableEq

/-- Time without a verdict while proposals are outstanding. -/
structure StarvationClock where
  anchor : Option ℕ := none
  deriving DecidableEq

namespace StarvationClock

def onEnqueue (pendingWasEmpty : Bool) (now : ℕ) (c : StarvationClock) :
    StarvationClock :=
  if pendingWasEmpty || c.anchor.isNone then ⟨some now⟩ else c

def onVerdict (pendingNowEmpty : Bool) (now : ℕ) : StarvationClock :=
  if pendingNowEmpty then ⟨none⟩ else ⟨some now⟩

def elapsedWhileOutstanding (pendingEmpty : Bool) (now : ℕ)
    (c : StarvationClock) : Option ℕ :=
  if pendingEmpty then none else c.anchor.map (now - ·)

end StarvationClock

inductive Direction where
  | degraded
  | recovered
  deriving DecidableEq, Repr

/-- The record of entering or leaving degraded mode. -/
structure ModeTransitionEvent where
  direction : Direction
  timestampMs : UInt64
  degradedDurationMs : UInt64
  unenforcedJobs : UInt64
  deriving DecidableEq

/-- A job put in the job table, with the template it was made of. -/
structure Issued where
  template : TemplateResponse
  job : JobRecord
  deriving DecidableEq

/-- What one turn of the loop does outside it. -/
structure Output where
  propose : Option TemplatePropose := none
  issued : List Issued := []
  transitions : List ModeTransitionEvent := []

structure MainLoop where
  dedupCache : TemplateDedupCache := { maxEntries := 256 }
  pendingTemplates : HashMap UInt64 PendingTemplate := ∅
  pendingOrder : List UInt64 := []
  feed : JobFeed
  lastTemplateReceived : ℕ
  staleHoldDeadline : Option ℕ := none
  degraded : Bool := false
  degradedSince : Option ℕ := none
  unenforcedJobs : UInt64 := 0
  lastVerifierAck : ℕ
  verdictStarved : StarvationClock := {}
  degradeTrigger : Option DegradeTrigger := none
  stopped : Bool := false

namespace MainLoop

/-- The loop as it starts at the given time, with an empty job table. -/
def initial (now : ℕ) (jobTable : JobTable) : MainLoop where
  feed := { jobTable }
  lastTemplateReceived := now
  lastVerifierAck := now

def pendingEmpty (s : MainLoop) : Bool := s.pendingTemplates.keys.isEmpty

/-- Make a job of the template, in the loop's own job state. -/
def broadcast (clock : Clock) (template : TemplateResponse) (s : MainLoop) :
    MainLoop × List Issued :=
  let made := broadcastJobFromTemplate clock template s.feed
  ({ s with feed := made.1 }, (made.2.map (Issued.mk template)).toList)

end MainLoop

/-! ## The template arm -/

/-- The proposal of a template. It names the template by its id alone. -/
def buildTemplatePropose (template : TemplateResponse)
    (gatewayInstanceId : String) : TemplatePropose where
  version := protocolVersion
  id := template.templateId
  blockHeight := template.blockHeight
  prevHash := template.prevHash
  coinbaseValue := template.coinbaseValue
  txCount := template.txCount
  totalFees := template.totalFees
  observedWeight := template.observedWeight
  createdAtUnixMs := some (template.curtime.toUInt64 * 1000)
  totalSigops := template.totalSigops
  coinbaseSigops := template.coinbaseSigops
  templateWeight := template.templateWeight
  gatewayInstanceId := some gatewayInstanceId
  rawBlockHex := template.rawBlockHex

/-- Evict pending templates, oldest first, until fewer than two are left. An
evicted id is released from the dedup cache under the source of the template
that arrives. -/
def evictPending (source : String) :
    List UInt64 → HashMap UInt64 PendingTemplate → TemplateDedupCache →
      List UInt64 × HashMap UInt64 PendingTemplate × TemplateDedupCache
  | [], pending, cache => ([], pending, cache)
  | oldestId :: order, pending, cache =>
      if pending.keys.length < 2 then (oldestId :: order, pending, cache)
      else if oldestId ∈ pending then
        evictPending source order (pending.erase oldestId)
          (cache.remove source oldestId)
      else evictPending source order pending cache

namespace MainLoop

/-- Store a template until its verdict arrives. -/
def storePending (now : ℕ) (template : TemplateResponse) (s : MainLoop) :
    MainLoop :=
  let kept := evictPending template.sourceInstanceId s.pendingOrder
    s.pendingTemplates s.dedupCache
  { s with
    pendingOrder := kept.1 ++ [template.templateId]
    pendingTemplates :=
      kept.2.1.insert template.templateId ⟨template, now⟩
    dedupCache := kept.2.2
    verdictStarved := s.verdictStarved.onEnqueue s.pendingEmpty now }

def onTemplate (cfg : GatewayConfig) (clock : Clock)
    (template : TemplateResponse) (s : MainLoop) : MainLoop × Output :=
  let seen :=
    s.dedupCache.isDuplicate template.sourceInstanceId template.templateId
  let s := { s with lastTemplateReceived := clock.now, dedupCache := seen.2 }
  if seen.1 then (s, {})
  else
    let propose := some (buildTemplatePropose template cfg.gatewayInstanceId)
    if cfg.mode.enforcesVerdicts && !s.degraded then
      (s.storePending clock.now template, { propose })
    else
      let made := s.broadcast clock template
      let unenforcedJobs :=
        if s.degraded then s.unenforcedJobs + 1 else s.unenforcedJobs
      ({ made.1 with unenforcedJobs }, { propose, issued := made.2 })

/-! ## The verdict arm -/

/-- Whether a template brings a previous hash other than the active one. A hash
that does not parse counts as a change. -/
def isPrevhashChange (template : TemplateResponse) (active : Option Bytes32) :
    Bool :=
  match active with
  | none => true
  | some activeHash =>
      match displayHexToWireBytes template.prevHash with
      | .ok wire => wire ≠ activeHash
      | .error _ => true

/-- Leave degraded mode. -/
def resume (clock : Clock) (s : MainLoop) : MainLoop × ModeTransitionEvent :=
  let elapsedMs := (s.degradedSince.map (clock.now - ·)).getD 0 / 10 ^ 6
  ({ s with
     degraded := false
     degradedSince := none
     unenforcedJobs := 0
     degradeTrigger := none },
   { direction := .recovered
     timestampMs := clock.unixMs
     degradedDurationMs := UInt64.ofNat (min elapsedMs (2 ^ 64 - 1))
     unenforcedJobs := s.unenforcedJobs })

/-- Start the hold after a rejected change of previous hash. A hold that runs
is not extended. -/
def holdStale (cfg : GatewayConfig) (clock : Clock)
    (template : TemplateResponse) (s : MainLoop) : MainLoop :=
  if s.staleHoldDeadline.isNone &&
      isPrevhashChange template s.feed.activePrevHash then
    { s with
      staleHoldDeadline := some (clock.now + millis cfg.prevhashStaleHoldMs) }
  else s

/-- Apply a verdict to the pending template of its id, if there is one. -/
def applyVerdict (cfg : GatewayConfig) (clock : Clock) (v : TemplateVerdict)
    (s : MainLoop) : MainLoop × List Issued :=
  match s.pendingTemplates.lookup v.id with
  | none => (s, [])
  | some pending =>
      let s := { s with
        pendingTemplates := s.pendingTemplates.erase v.id
        pendingOrder := s.pendingOrder.filter (· ≠ v.id) }
      if v.accepted then
        broadcast clock pending.template { s with staleHoldDeadline := none }
      else (s.holdStale cfg clock pending.template, [])

def onVerdict (cfg : GatewayConfig) (clock : Clock) (v : TemplateVerdict)
    (s : MainLoop) : MainLoop × Output :=
  let resumed :=
    if s.degraded && s.degradeTrigger == some .verdictStarved then
      ((s.resume clock).1, [(s.resume clock).2])
    else (s, [])
  let applied :=
    if cfg.mode.enforcesVerdicts then resumed.1.applyVerdict cfg clock v
    else (resumed.1, [])
  ({ applied.1 with
     verdictStarved := .onVerdict applied.1.pendingEmpty clock.now },
   { issued := applied.2, transitions := resumed.2 })

/-- A heartbeat proves that the link lives, not that verdicts are served. -/
def heartbeatRecoveryAllowed (trigger : Option DegradeTrigger) : Bool :=
  trigger ≠ some .verdictStarved

def onHeartbeatAck (clock : Clock) (s : MainLoop) : MainLoop × Output :=
  let s := { s with lastVerifierAck := clock.now }
  if s.degraded && heartbeatRecoveryAllowed s.degradeTrigger then
    let resumed := s.resume clock
    ({ resumed.1 with
       staleHoldDeadline := none
       pendingTemplates := ∅
       pendingOrder := [] }, { transitions := [resumed.2] })
  else (s, {})

/-! ## Timers -/

/-- Evict the pending templates older than `maxAge` and release them from the
dedup cache, so that the next poll can propose them again. -/
def sweepStalePendingTemplates (maxAge now : ℕ) (s : MainLoop) : MainLoop :=
  let swept := s.pendingTemplates.entries.filter fun e =>
    maxAge < now - e.2.receivedAt
  let kept := s.pendingTemplates.retain fun _ pt => now - pt.receivedAt ≤ maxAge
  if swept.isEmpty then { s with pendingTemplates := kept }
  else
    { s with
      pendingTemplates := kept
      pendingOrder := s.pendingOrder.filter (· ∈ kept)
      dedupCache := swept.foldl (fun cache e =>
        cache.remove e.2.template.sourceInstanceId e.1) s.dedupCache }

/-- The hold ran out: a loop that enforces verdicts stops. -/
def onStaleHold (s : MainLoop) : MainLoop :=
  if s.degraded then { s with staleHoldDeadline := none }
  else { s with stopped := true }

def onUpstreamCheck (cfg : GatewayConfig) (now : ℕ) (s : MainLoop) :
    MainLoop :=
  if millis cfg.upstreamStaleMaxMs < now - s.lastTemplateReceived then
    match cfg.upstreamFailurePolicy with
    | .failClosed => { s with stopped := true }
    | .failOpen => s
  else s

def degradeTriggerFor (heartbeatAge : ℕ) (oldestPendingAge : Option ℕ)
    (verdictStarvedElapsed : Option ℕ) (threshold : ℕ) :
    Option DegradeTrigger :=
  if threshold < heartbeatAge then some .heartbeatStale
  else if oldestPendingAge.any (threshold < ·) ||
      verdictStarvedElapsed.any (threshold < ·) then some .verdictStarved
  else none

/-- Make jobs of the pending templates, in the given order, without verdicts. -/
def flushPending (clock : Clock) :
    List UInt64 → MainLoop → MainLoop × List Issued
  | [], s => (s, [])
  | id :: order, s =>
      match s.pendingTemplates.lookup id with
      | none => flushPending clock order s
      | some pt =>
          let made := broadcast clock pt.template
            { s with pendingTemplates := s.pendingTemplates.erase id }
          let rest := flushPending clock order
            { made.1 with unenforcedJobs := made.1.unenforcedJobs + 1 }
          (rest.1, made.2 ++ rest.2)

def onDegradeCheck (cfg : GatewayConfig) (clock : Clock) (s : MainLoop) :
    MainLoop × Output :=
  let oldestPendingAge := (s.pendingOrder.head?.bind
    s.pendingTemplates.lookup).map (clock.now - ·.receivedAt)
  let starvedElapsed := s.verdictStarved.elapsedWhileOutstanding
    s.pendingOrder.isEmpty clock.now
  let trigger := degradeTriggerFor (clock.now - s.lastVerifierAck)
    oldestPendingAge starvedElapsed (millis cfg.autoDegradeAfterMs)
  if cfg.autoDegrade && cfg.mode.enforcesVerdicts && !s.degraded &&
      trigger.isSome then
    let flushed := flushPending clock s.pendingOrder { s with
      degradeTrigger := trigger
      degraded := true
      degradedSince := some clock.now
      unenforcedJobs := 0
      pendingOrder := [] }
    ({ flushed.1 with
       pendingTemplates := ∅
       staleHoldDeadline := none
       verdictStarved := {} },
     { issued := flushed.2
       transitions := [{
         direction := .degraded
         timestampMs := clock.unixMs
         degradedDurationMs := 0
         unenforcedJobs := flushed.1.unenforcedJobs }] })
  else (s, {})

end MainLoop

/-! ## The loop -/

/-- The arms of the loop. The arms of the share accounting share no state with
these; a failure there ends the loop, as does a closed channel. -/
inductive LoopEvent where
  | template (template : TemplateResponse)
  | verdict (v : TemplateVerdict)
  | heartbeatAck
  | verdictLagged
  | sweep
  | staleHold
  | upstreamCheck
  | degradeCheck
  | shutdown

/-- One turn of the loop. A stopped loop takes none, and the stale hold fires
only at its deadline. -/
def MainLoop.turn (cfg : GatewayConfig) (clock : Clock) (s : MainLoop)
    (event : LoopEvent) : Option (MainLoop × Output) :=
  if s.stopped then none
  else match event with
    | .template template => some (s.onTemplate cfg clock template)
    | .verdict v => some (s.onVerdict cfg clock v)
    | .heartbeatAck => some (s.onHeartbeatAck clock)
    | .verdictLagged => some (s, {})
    | .sweep =>
        some (s.sweepStalePendingTemplates (millis cfg.maxTemplateAgeMs)
          clock.now, {})
    | .staleHold =>
        if s.staleHoldDeadline.any (· ≤ clock.now) then some (s.onStaleHold, {})
        else none
    | .upstreamCheck => some (s.onUpstreamCheck cfg clock.now, {})
    | .degradeCheck => some (s.onDegradeCheck cfg clock)
    | .shutdown => some ({ s with stopped := true }, {})

/-- What a turn of each arm comes to. The last four may stop the loop and do
nothing else, unless a degraded loop drops its hold. -/
inductive MainLoop.TurnOf (cfg : GatewayConfig) (clock : Clock) (s : MainLoop) :
    LoopEvent → MainLoop → Output → Prop
  | template (template : TemplateResponse) : TurnOf cfg clock s (.template template)
      (s.onTemplate cfg clock template).1 (s.onTemplate cfg clock template).2
  | verdict (v : TemplateVerdict) : TurnOf cfg clock s (.verdict v)
      (s.onVerdict cfg clock v).1 (s.onVerdict cfg clock v).2
  | heartbeatAck : TurnOf cfg clock s .heartbeatAck
      (s.onHeartbeatAck clock).1 (s.onHeartbeatAck clock).2
  | degradeCheck : TurnOf cfg clock s .degradeCheck
      (s.onDegradeCheck cfg clock).1 (s.onDegradeCheck cfg clock).2
  | sweep : TurnOf cfg clock s .sweep
      (s.sweepStalePendingTemplates (millis cfg.maxTemplateAgeMs) clock.now) {}
  | verdictLagged : TurnOf cfg clock s .verdictLagged s {}
  | holdDrops (hdue : s.staleHoldDeadline.any (· ≤ clock.now) = true)
      (hdegraded : s.degraded = true) :
      TurnOf cfg clock s .staleHold { s with staleHoldDeadline := none } {}
  | holdStops (hdue : s.staleHoldDeadline.any (· ≤ clock.now) = true)
      (hdegraded : s.degraded = false) :
      TurnOf cfg clock s .staleHold { s with stopped := true } {}
  | upstreamCheck (stopped : Bool) :
      TurnOf cfg clock s .upstreamCheck { s with stopped } {}
  | shutdown : TurnOf cfg clock s .shutdown { s with stopped := true } {}

theorem MainLoop.onUpstreamCheck_eq (cfg : GatewayConfig) (now : ℕ) (s : MainLoop) :
    ∃ stopped, s.onUpstreamCheck cfg now = { s with stopped } := by
  unfold onUpstreamCheck
  split
  · split
    · exact ⟨true, rfl⟩
    · exact ⟨s.stopped, rfl⟩
  · exact ⟨s.stopped, rfl⟩

/-- Every turn is one of these. -/
theorem MainLoop.turnOf_of_turn {cfg : GatewayConfig} {clock : Clock}
    {s s' : MainLoop} {event : LoopEvent} {out : Output}
    (hturn : s.turn cfg clock event = some (s', out)) :
    s.TurnOf cfg clock event s' out := by
  unfold turn at hturn
  split at hturn
  · cases hturn
  · cases event with
    | template template =>
        have h : s.TurnOf cfg clock (.template template) _ _ := .template template
        rwa [Option.some.inj hturn] at h
    | verdict v =>
        have h : s.TurnOf cfg clock (.verdict v) _ _ := .verdict v
        rwa [Option.some.inj hturn] at h
    | heartbeatAck =>
        have h : s.TurnOf cfg clock .heartbeatAck _ _ := .heartbeatAck
        rwa [Option.some.inj hturn] at h
    | degradeCheck =>
        have h : s.TurnOf cfg clock .degradeCheck _ _ := .degradeCheck
        rwa [Option.some.inj hturn] at h
    | sweep =>
        cases hturn
        exact .sweep
    | verdictLagged =>
        cases hturn
        exact .verdictLagged
    | staleHold =>
        by_cases hdue : s.staleHoldDeadline.any (· ≤ clock.now) = true
        · dsimp only at hturn
          rw [if_pos hdue, onStaleHold] at hturn
          by_cases hdegraded : s.degraded = true
          · rw [if_pos hdegraded] at hturn
            cases hturn
            exact .holdDrops hdue hdegraded
          · rw [if_neg hdegraded] at hturn
            cases hturn
            exact .holdStops hdue (by simpa using hdegraded)
        · dsimp only at hturn
          rw [if_neg hdue] at hturn
          cases hturn
    | upstreamCheck =>
        obtain ⟨stopped, hstopped⟩ := onUpstreamCheck_eq cfg clock.now s
        dsimp only at hturn
        rw [hstopped] at hturn
        cases hturn
        exact .upstreamCheck stopped
    | shutdown =>
        cases hturn
        exact .shutdown

/-! ## What an enforcing loop can do -/

/-- A turn that makes no job and stores no template. -/
structure MainLoop.Quiet (s s' : MainLoop) (out : Output) : Prop where
  pending : ∀ id pt, s'.pendingTemplates.lookup id = some pt →
    s.pendingTemplates.lookup id = some pt
  feed : s'.feed = s.feed
  propose : out.propose = none
  issued : out.issued = []

/-- The turns of an inline loop that is not degraded: a template is stored when
it is proposed, and a job is made of the pending template that has the id of an
accepted verdict. -/
inductive MainLoop.Enforcing (cfg : GatewayConfig) (clock : Clock)
    (s : MainLoop) : LoopEvent → MainLoop → Output → Prop
  | quiet {event s' out} (h : s.Quiet s' out) :
      Enforcing cfg clock s event s' out
  | stores {template s' out}
      (hnew : (s.dedupCache.isDuplicate template.sourceInstanceId
        template.templateId).1 = false)
      (hpending : ∀ id pt, s'.pendingTemplates.lookup id = some pt →
        (id = template.templateId ∧ pt.template = template) ∨
          (id ≠ template.templateId ∧ s.pendingTemplates.lookup id = some pt))
      (hfeed : s'.feed = s.feed)
      (hpropose : out.propose =
        some (buildTemplatePropose template cfg.gatewayInstanceId))
      (hissued : out.issued = []) :
      Enforcing cfg clock s (.template template) s' out
  | issues {v pt s' out} (haccepted : v.accepted = true)
      (hlookup : s.pendingTemplates.lookup v.id = some pt)
      (hpending : ∀ id pt, s'.pendingTemplates.lookup id = some pt →
        s.pendingTemplates.lookup id = some pt)
      (hfeed : s'.feed =
        (broadcastJobFromTemplate clock pt.template s.feed).1)
      (hpropose : out.propose = none)
      (hissued : out.issued = ((broadcastJobFromTemplate clock pt.template
        s.feed).2.map (Issued.mk pt.template)).toList) :
      Enforcing cfg clock s (.verdict v) s' out

/-- Eviction only takes pending templates away. -/
theorem lookup_of_lookup_evictPending {source : String} {order : List UInt64}
    {pending : HashMap UInt64 PendingTemplate} {cache : TemplateDedupCache}
    {id : UInt64} {pt : PendingTemplate}
    (h : (evictPending source order pending cache).2.1.lookup id = some pt) :
    pending.lookup id = some pt := by
  induction order generalizing pending cache with
  | nil => exact h
  | cons oldestId order ih =>
      unfold evictPending at h
      split at h
      · exact h
      · split at h
        · exact HashMap.lookup_of_lookup_erase (ih h)
        · exact ih h

namespace MainLoop

variable {cfg : GatewayConfig} {clock : Clock} {s : MainLoop}

theorem Quiet.refl (s : MainLoop) : s.Quiet s {} where
  pending _ _ h := h
  feed := rfl
  propose := rfl
  issued := rfl

theorem onTemplate_enforcing (hmode : cfg.mode.enforcesVerdicts = true)
    (hdegraded : s.degraded = false) (template : TemplateResponse) :
    s.Enforcing cfg clock (.template template)
      (s.onTemplate cfg clock template).1 (s.onTemplate cfg clock template).2 := by
  unfold onTemplate
  dsimp only
  by_cases hseen : (s.dedupCache.isDuplicate template.sourceInstanceId
      template.templateId).1 = true
  · rw [if_pos hseen]
    exact .quiet ⟨fun _ _ h => h, rfl, rfl, rfl⟩
  · rw [if_neg hseen, hmode, hdegraded]
    refine .stores (by simpa using hseen) ?_ rfl rfl rfl
    intro id pt h
    by_cases hid : id = template.templateId
    · subst hid
      change AList.lookup _ (AList.insert _ _ _) = _ at h
      rw [AList.lookup_insert, Option.some.injEq] at h
      exact Or.inl ⟨rfl, by rw [← h]⟩
    · change AList.lookup _ (AList.insert _ _ _) = _ at h
      rw [AList.lookup_insert_ne hid] at h
      exact Or.inr ⟨hid, lookup_of_lookup_evictPending h⟩

theorem holdStale_quiet (cfg : GatewayConfig) (clock : Clock)
    (template : TemplateResponse) (s : MainLoop) :
    s.Quiet (s.holdStale cfg clock template) {} := by
  unfold holdStale
  split
  · exact ⟨fun _ _ h => h, rfl, rfl, rfl⟩
  · exact Quiet.refl s

theorem onVerdict_enforcing (hmode : cfg.mode.enforcesVerdicts = true)
    (hdegraded : s.degraded = false) (v : TemplateVerdict) :
    s.Enforcing cfg clock (.verdict v) (s.onVerdict cfg clock v).1
      (s.onVerdict cfg clock v).2 := by
  have hresumed : (s.degraded && s.degradeTrigger == some .verdictStarved) =
      false := by
    rw [hdegraded, Bool.false_and]
  unfold onVerdict applyVerdict
  simp only [hresumed, hmode, if_true, Bool.false_eq_true, if_false]
  cases hlookup : s.pendingTemplates.lookup v.id with
  | none => exact .quiet ⟨fun _ _ h => h, rfl, rfl, rfl⟩
  | some pt =>
      dsimp only
      by_cases haccepted : v.accepted = true
      · rw [if_pos haccepted]
        exact .issues haccepted hlookup
          (fun _ _ h => HashMap.lookup_of_lookup_erase h) rfl rfl rfl
      · rw [if_neg haccepted]
        have hhold := holdStale_quiet cfg clock pt.template
          { s with
            pendingTemplates := s.pendingTemplates.erase v.id
            pendingOrder := s.pendingOrder.filter (· ≠ v.id) }
        exact .quiet ⟨fun id pt h =>
          HashMap.lookup_of_lookup_erase (hhold.pending id pt h), hhold.feed, rfl,
          rfl⟩

theorem onHeartbeatAck_quiet (hdegraded : s.degraded = false) :
    s.Quiet (s.onHeartbeatAck clock).1 (s.onHeartbeatAck clock).2 := by
  unfold onHeartbeatAck
  simp only [hdegraded, Bool.false_and, Bool.false_eq_true, if_false]
  exact ⟨fun _ _ h => h, rfl, rfl, rfl⟩

theorem sweepStalePendingTemplates_quiet (maxAge now : ℕ) (s : MainLoop) :
    s.Quiet (s.sweepStalePendingTemplates maxAge now) {} := by
  unfold sweepStalePendingTemplates
  dsimp only
  split
  · exact ⟨fun _ _ h => HashMap.lookup_of_lookup_retain h, rfl, rfl, rfl⟩
  · exact ⟨fun _ _ h => HashMap.lookup_of_lookup_retain h, rfl, rfl, rfl⟩

theorem flushPending_degraded (clock : Clock) (order : List UInt64)
    (s : MainLoop) :
    (flushPending clock order s).1.degraded = s.degraded := by
  induction order generalizing s with
  | nil => rfl
  | cons id order ih =>
      unfold flushPending
      split
      · exact ih s
      · exact ih _

/-- A degrade check that does not degrade does nothing. -/
theorem onDegradeCheck_eq_self
    (hdegraded : (s.onDegradeCheck cfg clock).1.degraded = false) :
    s.onDegradeCheck cfg clock = (s, {}) := by
  unfold onDegradeCheck at hdegraded ⊢
  dsimp only at hdegraded ⊢
  split at hdegraded
  · rw [flushPending_degraded] at hdegraded
    cases hdegraded
  · rename_i hfires
    rw [if_neg hfires]

theorem onDegradeCheck_quiet
    (hdegraded : (s.onDegradeCheck cfg clock).1.degraded = false) :
    s.Quiet (s.onDegradeCheck cfg clock).1 (s.onDegradeCheck cfg clock).2 := by
  rw [onDegradeCheck_eq_self hdegraded]
  exact Quiet.refl s

/-- A turn that is not quiet is one of four. -/
theorem turn_cases {event : LoopEvent} {s' : MainLoop} {out : Output}
    (hturn : s.turn cfg clock event = some (s', out)) :
    s.Quiet s' out ∨
    (∃ template, event = .template template ∧
      s.onTemplate cfg clock template = (s', out)) ∨
    (∃ v, event = .verdict v ∧ s.onVerdict cfg clock v = (s', out)) ∨
    (event = .heartbeatAck ∧ s.onHeartbeatAck clock = (s', out)) ∨
    (event = .degradeCheck ∧ s.onDegradeCheck cfg clock = (s', out)) := by
  cases turnOf_of_turn hturn with
  | template template => exact Or.inr (Or.inl ⟨template, rfl, rfl⟩)
  | verdict v => exact Or.inr (Or.inr (Or.inl ⟨v, rfl, rfl⟩))
  | heartbeatAck => exact Or.inr (Or.inr (Or.inr (Or.inl ⟨rfl, rfl⟩)))
  | degradeCheck => exact Or.inr (Or.inr (Or.inr (Or.inr ⟨rfl, rfl⟩)))
  | sweep => exact Or.inl (sweepStalePendingTemplates_quiet _ _ s)
  | verdictLagged => exact Or.inl (Quiet.refl s)
  | holdDrops hdue hdegraded => exact Or.inl ⟨fun _ _ h => h, rfl, rfl, rfl⟩
  | holdStops hdue hdegraded => exact Or.inl ⟨fun _ _ h => h, rfl, rfl, rfl⟩
  | upstreamCheck stopped => exact Or.inl ⟨fun _ _ h => h, rfl, rfl, rfl⟩
  | shutdown => exact Or.inl ⟨fun _ _ h => h, rfl, rfl, rfl⟩

/-- Every turn of an inline loop that is not degraded before it or after it. -/
theorem enforcing_of_turn {event : LoopEvent} {s' : MainLoop} {out : Output}
    (hmode : cfg.mode.enforcesVerdicts = true) (hdegraded : s.degraded = false)
    (hturn : s.turn cfg clock event = some (s', out))
    (hdegraded' : s'.degraded = false) :
    s.Enforcing cfg clock event s' out := by
  rcases turn_cases hturn with hquiet | ⟨template, rfl, h⟩ | ⟨v, rfl, h⟩ | ⟨rfl, h⟩ |
    ⟨rfl, h⟩
  · exact .quiet hquiet
  · have henforcing : s.Enforcing cfg clock (.template template) _ _ :=
      onTemplate_enforcing hmode hdegraded template
    rwa [h] at henforcing
  · have henforcing : s.Enforcing cfg clock (.verdict v) _ _ :=
      onVerdict_enforcing hmode hdegraded v
    rwa [h] at henforcing
  · have hack : s.Quiet (s.onHeartbeatAck clock).1 _ := onHeartbeatAck_quiet hdegraded
    rw [h] at hack
    exact .quiet hack
  · have hcheck : (s.onDegradeCheck cfg clock).1.degraded = false → _ :=
      onDegradeCheck_quiet
    rw [h] at hcheck
    exact .quiet (hcheck hdegraded')

end MainLoop

end ReserveGrid.Gateway
