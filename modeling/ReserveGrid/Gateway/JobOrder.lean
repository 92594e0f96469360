import Mathlib.Data.List.Pairwise
import ReserveGrid.Gateway.Verdicts
import ReserveGrid.Support.Forward

/-!
# The order of jobs

The main loop makes a job of a pending template when its verdict arrives,
whatever it has made jobs of since the template arrived. So the jobs follow the
order of the verdicts. They go through the heights and previous hashes of the
template source as the source does, without going back, when templates on
different blocks are released in the order in which they arrived.
-/

namespace ReserveGrid.Gateway

open Support Protocol

/-! ## What a turn can do -/

namespace MainLoop

/-- The check that ends in degraded mode. -/
def degrades (cfg : GatewayConfig) (clock : Clock) (s : MainLoop) : Bool :=
  cfg.autoDegrade && cfg.mode.enforcesVerdicts && !s.degraded &&
    (degradeTriggerFor (clock.now - s.lastVerifierAck)
      ((s.pendingOrder.head?.bind s.pendingTemplates.lookup).map
        (clock.now - ·.receivedAt))
      (s.verdictStarved.elapsedWhileOutstanding s.pendingOrder.isEmpty clock.now)
      (millis cfg.autoDegradeAfterMs)).isSome

/-- Whether the loop makes templates wait for their verdicts. -/
def waits (cfg : GatewayConfig) (s : MainLoop) : Bool :=
  cfg.mode.enforcesVerdicts && !s.degraded

/-- The jobs are of the given pending templates, in their order. -/
def Releases (s : MainLoop) (ids : List UInt64) (issued : List Issued) : Prop :=
  (issued.map (·.template.templateId)).Sublist ids ∧
    ∀ j ∈ issued, j.job.ComesFrom j.template ∧
      ∃ id pt, s.pendingTemplates.lookup id = some pt ∧ pt.template = j.template

/-- The turns of the loop, degraded or not. -/
inductive Turns (cfg : GatewayConfig) (clock : Clock) (s : MainLoop) :
    LoopEvent → MainLoop → Output → Prop
  | quiet {event s' out} (h : s.Quiet s' out) : Turns cfg clock s event s' out
  | stores {template s' out} (hwaits : s.waits cfg = true)
      (hpending : ∀ id pt, s'.pendingTemplates.lookup id = some pt →
        (id = template.templateId ∧ pt.template = template) ∨
          (id ≠ template.templateId ∧ s.pendingTemplates.lookup id = some pt))
      (hpropose : out.propose.isSome = true) (hissued : out.issued = []) :
      Turns cfg clock s (.template template) s' out
  | passes {template s' out} (hwaits : s.waits cfg = false)
      (hpending : s'.pendingTemplates = s.pendingTemplates)
      (hpropose : out.propose.isSome = true)
      (hissued : ∀ j ∈ out.issued, j.job.ComesFrom template) :
      Turns cfg clock s (.template template) s' out
  | releases {v s' out} (haccepted : v.accepted = true)
      (hmem : v.id ∈ s.pendingTemplates)
      (hpending : ∀ id pt, s'.pendingTemplates.lookup id = some pt →
        s.pendingTemplates.lookup id = some pt)
      (hissued : s.Releases [v.id] out.issued) :
      Turns cfg clock s (.verdict v) s' out
  | flushes {s' out} (hdegrades : s.degrades cfg clock = true)
      (hpending : s'.pendingTemplates = ∅)
      (hissued : s.Releases (s.pendingOrder.filter (· ∈ s.pendingTemplates))
        out.issued) :
      Turns cfg clock s .degradeCheck s' out

/-- Pending templates are kept under their ids. -/
def Keyed (s : MainLoop) : Prop :=
  ∀ id pt, s.pendingTemplates.lookup id = some pt → pt.template.templateId = id

variable {cfg : GatewayConfig} {clock : Clock} {s : MainLoop}

theorem broadcast_issued (clock : Clock) (template : TemplateResponse) (s : MainLoop) :
    (∀ j ∈ (s.broadcast clock template).2,
      j.template = template ∧ j.job.ComesFrom template) ∧
    (s.broadcast clock template).2.length ≤ 1 := by
  unfold broadcast broadcastJobFromTemplate
  rcases prepareJob_cases clock template s.feed with
    ⟨issued, jobAlloc, -, hmade⟩ | ⟨job, jobAlloc, -, hfrom, -, hmade⟩
  · rw [hmade]
    refine ⟨?_, Nat.zero_le _⟩
    intro j hj
    cases hj
  · rw [hmade]
    refine ⟨?_, Nat.le_refl _⟩
    intro j hj
    rw [List.mem_singleton.mp hj]
    exact ⟨rfl, hfrom⟩

/-- The job of one pending template. -/
theorem releases_broadcast {id : UInt64} {pt : PendingTemplate} (clock : Clock)
    (loop : MainLoop) (hkeyed : s.Keyed)
    (hlookup : s.pendingTemplates.lookup id = some pt) :
    s.Releases [id] (loop.broadcast clock pt.template).2 := by
  obtain ⟨hjobs, hlength⟩ := broadcast_issued clock pt.template loop
  refine ⟨?_, ?_⟩
  · cases hmade : (loop.broadcast clock pt.template).2 with
    | nil => exact List.nil_sublist _
    | cons j rest =>
        rw [hmade] at hjobs hlength
        have hnil : rest = [] := List.eq_nil_of_length_eq_zero (by
          rw [List.length_cons] at hlength
          omega)
        have hid : j.template.templateId = id := by
          rw [(hjobs j List.mem_cons_self).1]
          exact hkeyed id pt hlookup
        rw [hnil, List.map_singleton, hid]
  · intro j hj
    obtain ⟨htemplate, hfrom⟩ := hjobs j hj
    rw [htemplate]
    exact ⟨hfrom, id, pt, hlookup, rfl⟩

theorem Releases.append {ids ids' : List UInt64} {issued issued' : List Issued}
    (h : s.Releases ids issued) (h' : s.Releases ids' issued') :
    s.Releases (ids ++ ids') (issued ++ issued') := by
  refine ⟨?_, ?_⟩
  · rw [List.map_append]
    exact h.1.append h'.1
  · intro j hj
    rcases List.mem_append.mp hj with hj | hj
    · exact h.2 j hj
    · exact h'.2 j hj

/-- The flush releases pending templates in the order it is given. -/
theorem releases_flushPending {order : List UInt64} {loop : MainLoop}
    (hkeyed : s.Keyed)
    (hpending : ∀ id pt, loop.pendingTemplates.lookup id = some pt →
      s.pendingTemplates.lookup id = some pt) :
    s.Releases (order.filter (· ∈ s.pendingTemplates))
      (flushPending clock order loop).2 := by
  induction order generalizing loop with
  | nil => exact ⟨List.nil_sublist _, fun j hj => by cases hj⟩
  | cons id order ih =>
      unfold flushPending
      cases hlookup : loop.pendingTemplates.lookup id with
      | none =>
          obtain ⟨hsub, hjobs⟩ := ih hpending
          refine ⟨hsub.trans ?_, hjobs⟩
          exact (List.sublist_cons_self id order).filter _
      | some pt =>
          have hmem : id ∈ s.pendingTemplates :=
            AList.lookup_isSome.mp (by rw [hpending id pt hlookup]; rfl)
          have hfirst := releases_broadcast clock
            { loop with pendingTemplates := loop.pendingTemplates.erase id } hkeyed
            (hpending id pt hlookup)
          rw [List.filter_cons_of_pos (by simpa using hmem)]
          refine hfirst.append (ih ?_)
          intro id' pt' h
          exact hpending id' pt' (HashMap.lookup_of_lookup_erase h)

theorem onTemplate_turns (template : TemplateResponse) :
    s.Turns cfg clock (.template template) (s.onTemplate cfg clock template).1
      (s.onTemplate cfg clock template).2 := by
  by_cases hwaits : s.waits cfg = true
  · have hmode : cfg.mode.enforcesVerdicts = true ∧ s.degraded = false := by
      simpa [waits] using hwaits
    have henforcing : s.Enforcing cfg clock (.template template) _ _ :=
      onTemplate_enforcing hmode.1 hmode.2 template
    generalize s.onTemplate cfg clock template = result at henforcing ⊢
    cases henforcing with
    | quiet h => exact .quiet h
    | stores _ hpending _ hpropose hissued =>
        exact .stores hwaits hpending (by rw [hpropose]; rfl) hissued
  · unfold onTemplate
    dsimp only
    by_cases hseen : (s.dedupCache.isDuplicate template.sourceInstanceId
        template.templateId).1 = true
    · rw [if_pos hseen]
      exact .quiet ⟨fun _ _ h => h, rfl, rfl, rfl⟩
    · have hnot : ¬ (cfg.mode.enforcesVerdicts && !s.degraded) = true := hwaits
      rw [if_neg hseen, if_neg hnot]
      refine .passes (by simpa using hwaits) rfl rfl ?_
      intro j hj
      exact ((broadcast_issued clock template _).1 j hj).2

theorem applyVerdict_turns (hkeyed : s.Keyed) (v : TemplateVerdict) (loop : MainLoop)
    (hpending : loop.pendingTemplates = s.pendingTemplates)
    (hfeed : loop.feed = s.feed) {s' : MainLoop} {out : Output}
    (hafter : s'.pendingTemplates =
      (loop.applyVerdict cfg clock v).1.pendingTemplates ∧
      s'.feed = (loop.applyVerdict cfg clock v).1.feed)
    (hpropose : out.propose = none)
    (hissued : out.issued = (loop.applyVerdict cfg clock v).2) :
    s.Turns cfg clock (.verdict v) s' out := by
  unfold applyVerdict at hafter hissued
  rw [hpending] at hafter hissued
  cases hlookup : s.pendingTemplates.lookup v.id with
  | none =>
      rw [hlookup] at hafter hissued
      refine .quiet ⟨?_, hafter.2.trans hfeed, hpropose, hissued⟩
      intro id pt h
      rw [hafter.1, hpending] at h
      exact h
  | some pt =>
      rw [hlookup] at hafter hissued
      dsimp only at hafter hissued
      by_cases haccepted : v.accepted = true
      · rw [if_pos haccepted] at hafter hissued
        refine .releases haccepted
          (AList.lookup_isSome.mp (by rw [hlookup]; rfl)) ?_ ?_
        · intro id pt' h
          rw [hafter.1] at h
          exact HashMap.lookup_of_lookup_erase h
        · rw [hissued]
          exact releases_broadcast clock _ hkeyed hlookup
      · rw [if_neg haccepted] at hafter hissued
        have hhold := holdStale_quiet cfg clock pt.template
          { loop with
            pendingTemplates := s.pendingTemplates.erase v.id
            pendingOrder := loop.pendingOrder.filter (· ≠ v.id) }
        refine .quiet ⟨?_, ?_, hpropose, hissued⟩
        · intro id pt' h
          rw [hafter.1] at h
          exact HashMap.lookup_of_lookup_erase (hhold.pending id pt' h)
        · rw [hafter.2, hhold.feed]
          exact hfeed

theorem onVerdict_turns (hkeyed : s.Keyed) (v : TemplateVerdict) :
    s.Turns cfg clock (.verdict v) (s.onVerdict cfg clock v).1
      (s.onVerdict cfg clock v).2 := by
  unfold onVerdict
  dsimp only
  by_cases hresumed : (s.degraded && s.degradeTrigger == some .verdictStarved) = true
  · rw [if_pos hresumed]
    by_cases hmode : cfg.mode.enforcesVerdicts = true
    · rw [if_pos hmode]
      exact applyVerdict_turns hkeyed v (s.resume clock).1 rfl rfl ⟨rfl, rfl⟩ rfl rfl
    · rw [if_neg hmode]
      exact .quiet ⟨fun _ _ h => h, rfl, rfl, rfl⟩
  · rw [if_neg hresumed]
    by_cases hmode : cfg.mode.enforcesVerdicts = true
    · rw [if_pos hmode]
      exact applyVerdict_turns hkeyed v s rfl rfl ⟨rfl, rfl⟩ rfl rfl
    · rw [if_neg hmode]
      exact .quiet ⟨fun _ _ h => h, rfl, rfl, rfl⟩

theorem onHeartbeatAck_turns :
    s.Turns cfg clock .heartbeatAck (s.onHeartbeatAck clock).1
      (s.onHeartbeatAck clock).2 := by
  unfold onHeartbeatAck
  dsimp only
  split
  · refine .quiet ⟨?_, rfl, rfl, rfl⟩
    intro id pt h
    rw [AList.lookup_empty] at h
    cases h
  · exact .quiet ⟨fun _ _ h => h, rfl, rfl, rfl⟩

theorem onDegradeCheck_turns (hkeyed : s.Keyed) :
    s.Turns cfg clock .degradeCheck (s.onDegradeCheck cfg clock).1
      (s.onDegradeCheck cfg clock).2 := by
  unfold onDegradeCheck
  dsimp only
  split
  · rename_i hdegrades
    refine .flushes hdegrades rfl ?_
    exact releases_flushPending hkeyed fun _ _ h => h
  · exact .quiet (Quiet.refl s)

theorem turns_of_turn {event : LoopEvent} {s' : MainLoop} {out : Output}
    (hkeyed : s.Keyed) (hturn : s.turn cfg clock event = some (s', out)) :
    s.Turns cfg clock event s' out := by
  rcases turn_cases hturn with hquiet | ⟨template, rfl, h⟩ | ⟨v, rfl, h⟩ | ⟨rfl, h⟩ |
    ⟨rfl, h⟩
  · exact .quiet hquiet
  · have hturns : s.Turns cfg clock (.template template) _ _ :=
      onTemplate_turns template
    rwa [h] at hturns
  · have hturns : s.Turns cfg clock (.verdict v) _ _ := onVerdict_turns hkeyed v
    rwa [h] at hturns
  · have hturns : s.Turns cfg clock .heartbeatAck _ _ := onHeartbeatAck_turns
    rwa [h] at hturns
  · have hturns : s.Turns cfg clock .degradeCheck _ _ := onDegradeCheck_turns hkeyed
    rwa [h] at hturns

end MainLoop

/-! ## The order of arrival -/

def TemplateResponse.height (template : TemplateResponse) : ℕ :=
  template.blockHeight.toNat

/-- The block that the template builds on, when its hash parses. -/
def TemplateResponse.tip (template : TemplateResponse) : Option Bytes32 :=
  (displayHexToWireBytes template.prevHash).toOption

/-- The loop with the new templates in the order of their arrival, the place in
it of the last template stored under each id, and the jobs made, each with the
place of its template. -/
structure JobHistory where
  loop : MainLoop
  arrived : List TemplateResponse := []
  place : UInt64 → ℕ := fun _ => 0
  sent : List (ℕ × JobRecord) := []

namespace JobHistory

def initial (now : ℕ) (retentionMs : UInt64) (maxEntries : ℕ) : JobHistory where
  loop := .initial now { retentionMs, maxEntries }

/-- The history after a template that was proposed. -/
def arrive (cfg : GatewayConfig) (template : TemplateResponse)
    (result : MainLoop × Output) (s : JobHistory) : JobHistory where
  loop := result.1
  arrived := s.arrived ++ [template]
  place :=
    if s.loop.waits cfg then
      Function.update s.place template.templateId s.arrived.length
    else s.place
  sent := s.sent ++ result.2.issued.map fun j => (s.arrived.length, j.job)

/-- The history after a turn that released pending templates. -/
def release (result : MainLoop × Output) (s : JobHistory) : JobHistory :=
  { s with
    loop := result.1
    sent := s.sent ++
      result.2.issued.map fun j => (s.place j.template.templateId, j.job) }

def afterTurn (cfg : GatewayConfig) (event : LoopEvent) (result : MainLoop × Output)
    (s : JobHistory) : JobHistory :=
  match event with
  | .template template =>
      if result.2.propose.isSome then s.arrive cfg template result
      else { s with loop := result.1 }
  | _ => s.release result

/-- A turn of the loop at some time. -/
def step (cfg : GatewayConfig) (s : JobHistory) (label : Clock × LoopEvent) :
    Option JobHistory :=
  (s.loop.turn cfg label.1 label.2).map fun result =>
    s.afterTurn cfg label.2 result

/-- The first template arrived before the second, or they are on one block. -/
abbrev InPlace (arrived : List TemplateResponse) : ℕ → ℕ → Prop :=
  Forward.InPlace TemplateResponse.height TemplateResponse.tip arrived

/-- The templates of the ids arrived in this order, none of them before one on
another block that a job was made of. Those on one block may be in any order. -/
def MayRelease (ids : List UInt64) (s : JobHistory) : Prop :=
  (s.sent.map (·.1) ++ ids.map s.place).Pairwise (InPlace s.arrived)

/-- Templates go on from one another, and are not released once a job was made
of one that arrived later, on another block: neither when an accepted verdict
arrives nor when the loop degrades. -/
def InOrder (cfg : GatewayConfig) (s : JobHistory) : Clock × LoopEvent → Prop
  | (_, .template template) =>
      Forward.GoesOn TemplateResponse.height TemplateResponse.tip s.arrived
        template
  | (_, .verdict v) =>
      v.accepted = true → v.id ∈ s.loop.pendingTemplates → s.MayRelease [v.id]
  | (clock, .degradeCheck) =>
      s.loop.degrades cfg clock = true →
        s.MayRelease (s.loop.pendingOrder.filter (· ∈ s.loop.pendingTemplates))
  | _ => True

instance (ids : List UInt64) (s : JobHistory) : Decidable (s.MayRelease ids) :=
  inferInstanceAs (Decidable (List.Pairwise _ _))

instance (cfg : GatewayConfig) (s : JobHistory) (label : Clock × LoopEvent) :
    Decidable (s.InOrder cfg label) :=
  match label with
  | (_, .template template) =>
      inferInstanceAs (Decidable (Forward.GoesOn TemplateResponse.height
        TemplateResponse.tip s.arrived template))
  | (_, .verdict v) =>
      inferInstanceAs (Decidable (v.accepted = true →
        v.id ∈ s.loop.pendingTemplates → s.MayRelease [v.id]))
  | (clock, .degradeCheck) =>
      inferInstanceAs (Decidable (s.loop.degrades cfg clock = true → s.MayRelease
        (s.loop.pendingOrder.filter (· ∈ s.loop.pendingTemplates))))
  | (_, .heartbeatAck) | (_, .verdictLagged) | (_, .sweep) | (_, .staleHold) |
      (_, .upstreamCheck) | (_, .shutdown) => isTrue trivial

/-! ## The invariant -/

/-- Pending templates and the templates of jobs are at their places, jobs were
made in the order of the places, and the templates go forward. -/
structure Ordered (s : JobHistory) : Prop where
  keyed : s.loop.Keyed
  pending : ∀ id pt, s.loop.pendingTemplates.lookup id = some pt →
    s.arrived[s.place id]? = some pt.template
  sent : ∀ p ∈ s.sent, ∃ t, s.arrived[p.1]? = some t ∧ p.2.ComesFrom t
  sorted : (s.sent.map (·.1)).Pairwise (InPlace s.arrived)
  forward : Forward TemplateResponse.height TemplateResponse.tip s.arrived

theorem initial_ordered (now : ℕ) (retentionMs : UInt64) (maxEntries : ℕ) :
    (initial now retentionMs maxEntries).Ordered where
  keyed _ _ h := by cases h
  pending _ _ h := by cases h
  sent _ h := by cases h
  sorted := List.Pairwise.nil
  forward := .nil

variable {cfg : GatewayConfig} {clock : Clock} {s : JobHistory} {loop : MainLoop}
  {out : Output} {template : TemplateResponse}

/-- Pending templates are dropped. -/
theorem Ordered.quiet (hs : s.Ordered)
    (hpending : ∀ id pt, loop.pendingTemplates.lookup id = some pt →
      s.loop.pendingTemplates.lookup id = some pt) :
    ({ s with loop } : JobHistory).Ordered where
  keyed id pt h := hs.keyed id pt (hpending id pt h)
  pending id pt h := hs.pending id pt (hpending id pt h)
  sent := hs.sent
  sorted := hs.sorted
  forward := hs.forward

/-- Pending templates are released. -/
theorem Ordered.release (hs : s.Ordered) {ids : List UInt64}
    (hpending : ∀ id pt, loop.pendingTemplates.lookup id = some pt →
      s.loop.pendingTemplates.lookup id = some pt)
    (hissued : s.loop.Releases ids out.issued) (hmay : s.MayRelease ids) :
    (s.release (loop, out)).Ordered where
  keyed id pt h := hs.keyed id pt (hpending id pt h)
  pending id pt h := hs.pending id pt (hpending id pt h)
  sent := by
    intro p hp
    rcases List.mem_append.mp hp with hp | hp
    · exact hs.sent p hp
    · obtain ⟨j, hj, rfl⟩ := List.mem_map.mp hp
      obtain ⟨hfrom, id, pt, hlookup, htemplate⟩ := hissued.2 j hj
      refine ⟨j.template, ?_, hfrom⟩
      dsimp only
      rw [← htemplate, hs.keyed id pt hlookup]
      exact hs.pending id pt hlookup
  sorted := by
    have hplaces : (out.issued.map fun j =>
        (s.place j.template.templateId, j.job)).map (·.1) =
        (out.issued.map (·.template.templateId)).map s.place := by
      rw [List.map_map, List.map_map]
      rfl
    rw [JobHistory.release, List.map_append, hplaces]
    exact hmay.sublist ((hissued.1.map s.place).append_left _)
  forward := hs.forward

/-- What is at its place stays there when another template arrives. -/
theorem getElem?_append_of_eq {arrived : List TemplateResponse} {n : ℕ}
    {t : TemplateResponse} (h : arrived[n]? = some t) (template : TemplateResponse) :
    (arrived ++ [template])[n]? = some t := by
  obtain ⟨hn, -⟩ := List.getElem?_eq_some_iff.mp h
  rw [List.getElem?_append_left hn, h]

/-- A template arrives. It is pending now, or jobs are made of it. -/
theorem Ordered.arrive (hs : s.Ordered)
    (hnext : Forward.GoesOn TemplateResponse.height TemplateResponse.tip
      s.arrived template)
    (hpending : ∀ id pt, loop.pendingTemplates.lookup id = some pt →
      (s.loop.waits cfg = true ∧ id = template.templateId ∧
        pt.template = template) ∨
      ((s.loop.waits cfg = true → id ≠ template.templateId) ∧
        s.loop.pendingTemplates.lookup id = some pt))
    (hissued : ∀ j ∈ out.issued, j.job.ComesFrom template) :
    (s.arrive cfg template (loop, out)).Ordered where
  keyed := by
    intro id pt h
    rcases hpending id pt h with ⟨-, rfl, htemplate⟩ | ⟨-, hold⟩
    · rw [htemplate]
    · exact hs.keyed id pt hold
  pending := by
    intro id pt h
    rw [JobHistory.arrive]
    rcases hpending id pt h with ⟨hwaits, rfl, htemplate⟩ | ⟨hne, hold⟩
    · dsimp only
      rw [if_pos hwaits, Function.update_self, htemplate, List.getElem?_concat_length]
    · have hplace : (if s.loop.waits cfg then
          Function.update s.place template.templateId s.arrived.length
          else s.place) id = s.place id := by
        by_cases hwaits : s.loop.waits cfg = true
        · rw [if_pos hwaits, Function.update_of_ne (hne hwaits)]
        · rw [if_neg hwaits]
      dsimp only
      rw [hplace]
      exact getElem?_append_of_eq (hs.pending id pt hold) template
  sent := by
    intro p hp
    rcases List.mem_append.mp hp with hp | hp
    · obtain ⟨t, ht, hfrom⟩ := hs.sent p hp
      exact ⟨t, getElem?_append_of_eq ht template, hfrom⟩
    · obtain ⟨j, hj, rfl⟩ := List.mem_map.mp hp
      exact ⟨template, List.getElem?_concat_length, hissued j hj⟩
  sorted := by
    rw [JobHistory.arrive, List.map_append, List.map_map]
    -- every place of a job is one that a template has already
    have hlt : ∀ m ∈ s.sent.map (·.1), m < s.arrived.length := by
      intro m hm
      obtain ⟨p, hp, rfl⟩ := List.mem_map.mp hm
      obtain ⟨t, ht, -⟩ := hs.sent p hp
      exact (List.getElem?_eq_some_iff.mp ht).1
    refine List.pairwise_append.mpr ⟨?_, ?_, ?_⟩
    · refine hs.sorted.imp_of_mem ?_
      intro m n hm hn hplace
      exact hplace.append (hlt m hm) (hlt n hn) template
    · exact List.pairwise_map.mpr
        (List.pairwise_of_forall fun _ _ => Or.inl (Nat.le_refl _))
    · intro m hm n hn
      obtain ⟨j, -, rfl⟩ := List.mem_map.mp hn
      exact Or.inl (Nat.le_of_lt (hlt m hm))
  forward := hs.forward.append hnext

theorem afterTurn_of_quiet (event : LoopEvent) (hpropose : out.propose = none)
    (hissued : out.issued = []) :
    s.afterTurn cfg event (loop, out) = { s with loop } := by
  cases event with
  | template template => simp [afterTurn, hpropose]
  | _ => simp [afterTurn, JobHistory.release, hissued]

theorem Ordered.turn (hs : s.Ordered) {event : LoopEvent}
    (hturns : s.loop.Turns cfg clock event loop out)
    (hcond : s.InOrder cfg (clock, event)) :
    (s.afterTurn cfg event (loop, out)).Ordered := by
  cases hturns with
  | quiet h =>
      rw [afterTurn_of_quiet event h.propose h.issued]
      exact hs.quiet h.pending
  | stores hwaits hpending hpropose hissued =>
      rw [afterTurn, if_pos hpropose]
      refine hs.arrive hcond ?_ ?_
      · intro id pt h
        rcases hpending id pt h with hnew | ⟨hne, hold⟩
        · exact Or.inl ⟨hwaits, hnew⟩
        · exact Or.inr ⟨fun _ => hne, hold⟩
      · intro j hj
        rw [hissued] at hj
        cases hj
  | passes hwaits hpending hpropose hissued =>
      rw [afterTurn, if_pos hpropose]
      refine hs.arrive hcond ?_ hissued
      intro id pt h
      rw [hpending] at h
      refine Or.inr ⟨?_, h⟩
      intro htrue
      rw [hwaits] at htrue
      cases htrue
  | releases haccepted hmem hpending hissued =>
      exact hs.release hpending hissued (hcond haccepted hmem)
  | flushes hdegrades hpending hissued =>
      refine hs.release ?_ hissued (hcond hdegrades)
      intro id pt h
      rw [hpending, AList.lookup_empty] at h
      cases h

theorem Ordered.step (hs : s.Ordered) {label : Clock × LoopEvent} {t : JobHistory}
    (hcond : s.InOrder cfg label) (h : s.step cfg label = some t) :
    t.Ordered := by
  obtain ⟨⟨loop, out⟩, hturn, rfl⟩ := Option.map_eq_some_iff.mp h
  exact hs.turn (MainLoop.turns_of_turn hs.keyed hturn) hcond

/-! ## Every run -/

/-- The jobs made so far, in order. -/
def jobs (s : JobHistory) : List JobRecord := s.sent.map (·.2)

/-- The heights of the jobs do not fall, and no previous hash comes back once
another job replaced it. -/
def NeverBack (jobs : List JobRecord) : Prop :=
  Forward (fun job => job.blockHeight.toNat) JobRecord.prevHash jobs

/-- In every run in which the templates go on from one another, and those on
different blocks are released in the order of their arrival, the jobs never go
back. -/
theorem neverBack_of_inOrder (cfg : GatewayConfig) (now : ℕ) (retentionMs : UInt64)
    (maxEntries : ℕ) (labels : List (Clock × LoopEvent)) (s : JobHistory)
    (hcond : Along (step cfg) (InOrder cfg) (initial now retentionMs maxEntries)
      labels)
    (hrun : run (step cfg) (initial now retentionMs maxEntries) labels = some s) :
    NeverBack s.jobs := by
  have hs : s.Ordered :=
    invariant_of_along (fun _ _ _ hs hcond hstep => hs.step hcond hstep)
      (initial_ordered now retentionMs maxEntries) hcond hrun
  refine hs.forward.of_picks (Option.some_injective Bytes32) hs.sorted ?_
  intro p hp
  obtain ⟨t, ht, hfrom⟩ := hs.sent p hp
  refine ⟨t, ht, ?_, ?_⟩
  · rw [hfrom.blockHeight]
    rfl
  · rw [TemplateResponse.tip, hfrom.prevHash]
    rfl

/-! ## Verdicts out of order -/

/-- A template of the source on some block. -/
def templateOn (templateId : UInt64) (blockHeight : UInt32) (prevHash : String) :
    LoopEvent :=
  .template { TemplateResponse.regtest with templateId, blockHeight, prevHash }

def accept (id : UInt64) : LoopEvent :=
  .verdict { version := protocolVersion, id, accepted := true }

def firstHash : String := TemplateResponse.regtest.prevHash

def nextHash : String :=
  "1111111111111111111111111111111111111111111111111111111111111111"

/-- A turn each second. -/
def everySecond (events : List LoopEvent) : List (Clock × LoopEvent) :=
  events.mapIdx fun i event => (VerdictSystem.atSecond i, event)

/-- Two templates on one block, whose verdicts arrive the other way round, and
one on the next. -/
def promptRun : List (Clock × LoopEvent) :=
  everySecond [templateOn 1 1 firstHash, templateOn 2 1 firstHash, accept 2,
    templateOn 3 2 nextHash, accept 1, accept 3]

/-- Two templates on one block and one on the next, whose verdict arrives before
that of the second. -/
def lateRun : List (Clock × LoopEvent) :=
  everySecond [templateOn 1 1 firstHash, accept 1, templateOn 2 1 firstHash,
    templateOn 3 2 nextHash, accept 3, accept 2]

/-- The source goes to another block of the same height and back. -/
def returnRun : List (Clock × LoopEvent) :=
  everySecond [templateOn 1 1 firstHash, accept 1, templateOn 2 1 nextHash, accept 2,
    templateOn 3 1 firstHash, accept 3]

theorem neverBack_promptRun :
    ∃ s, run (step VerdictSystem.inlineConfig) (initial 0 300000 1000) promptRun =
        some s ∧
      s.sent.map (fun p => (p.1, p.2.blockHeight)) = [(1, 1), (0, 1), (2, 2)] ∧
      NeverBack s.jobs := by
  have hsent : (run (step VerdictSystem.inlineConfig) (initial 0 300000 1000)
      promptRun).map (fun s => s.sent.map fun p => (p.1, p.2.blockHeight)) =
      some [(1, 1), (0, 1), (2, 2)] := by
    decide +kernel
  obtain ⟨s, hrun, hs⟩ := Option.map_eq_some_iff.mp hsent
  exact ⟨s, hrun, hs, neverBack_of_inOrder _ _ _ _ _ s (by decide +kernel) hrun⟩

/-- What went into a run and what came out of it: the heights of the templates,
and the heights and previous hashes of the jobs. -/
def inAndOut (s : JobHistory) : List UInt32 × List UInt32 × List Bytes32 :=
  (s.arrived.map (·.blockHeight), s.jobs.map (·.blockHeight),
    s.jobs.map (·.prevHash))

/-- The hash as jobs have it. -/
def wireHash (hash : String) : Bytes32 :=
  (displayHexToWireBytes hash).toOption.getD (Bytes32.fill 0)

theorem not_neverBack_of_prevHash {jobs : List JobRecord} {a b : Bytes32}
    (hne : b ≠ a) (h : jobs.map (·.prevHash) = [a, b, a]) :
    ¬ NeverBack jobs := by
  intro hback
  have hget : ∀ (i : ℕ) (hash : Bytes32), [a, b, a][i]? = some hash →
      ∃ job, jobs[i]? = some job ∧ job.prevHash = hash := by
    intro i hash hi
    rw [← h, List.getElem?_map] at hi
    exact Option.map_eq_some_iff.mp hi
  obtain ⟨x, hx, hxa⟩ := hget 0 a rfl
  obtain ⟨y, hy, hyb⟩ := hget 1 b rfl
  obtain ⟨z, hz, hza⟩ := hget 2 a rfl
  have hsame := hback.tips 0 1 2 x y z (by decide) (by decide) hx hy hz
    (hxa.trans hza.symm)
  exact hne (by rw [← hyb, hsame, hxa])

/-- The jobs go back when the verdict of a template arrives after a job was made
of one on the next block, and also, whatever the order, when the source itself
does. -/
theorem not_neverBack_lateRun_returnRun :
    (∃ s, run (step VerdictSystem.inlineConfig) (initial 0 300000 1000) lateRun =
        some s ∧
      s.inAndOut = ([1, 1, 2], [1, 2, 1],
        [wireHash firstHash, wireHash nextHash, wireHash firstHash]) ∧
      ¬ NeverBack s.jobs) ∧
    ∃ s, run (step VerdictSystem.inlineConfig) (initial 0 300000 1000) returnRun =
        some s ∧
      s.inAndOut = ([1, 1, 1], [1, 1, 1],
        [wireHash firstHash, wireHash nextHash, wireHash firstHash]) ∧
      ¬ NeverBack s.jobs := by
  have hne : wireHash nextHash ≠ wireHash firstHash := by
    decide +kernel
  have hlate : (run (step VerdictSystem.inlineConfig) (initial 0 300000 1000)
      lateRun).map inAndOut = some ([1, 1, 2], [1, 2, 1],
        [wireHash firstHash, wireHash nextHash, wireHash firstHash]) := by
    decide +kernel
  have hreturn : (run (step VerdictSystem.inlineConfig) (initial 0 300000 1000)
      returnRun).map inAndOut = some ([1, 1, 1], [1, 1, 1],
        [wireHash firstHash, wireHash nextHash, wireHash firstHash]) := by
    decide +kernel
  obtain ⟨s, hrun, hs⟩ := Option.map_eq_some_iff.mp hlate
  obtain ⟨s', hrun', hs'⟩ := Option.map_eq_some_iff.mp hreturn
  refine ⟨⟨s, hrun, hs, ?_⟩, s', hrun', hs', ?_⟩
  · exact not_neverBack_of_prevHash hne (congrArg (·.2.2) hs)
  · exact not_neverBack_of_prevHash hne (congrArg (·.2.2) hs')

end JobHistory

end ReserveGrid.Gateway
