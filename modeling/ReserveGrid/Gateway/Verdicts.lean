import ReserveGrid.Gateway.MainLoop
import ReserveGrid.Support.Run

/-!
# Verdict enforcement

The main loop in inline mode together with the messages under way between it
and the verifier. A proposal and the verdict on it name their template by id
alone, and ids recur: they hash the transactions of a template but not its
coinbase, and a restarted template manager starts a new source. Which template
a message is about is tracked beside it; the loop does not see it.

A job is made of an accepted template whenever, at the time a template is
stored, no message under way about another template of the same id can still
release it. Without that condition it is not.
-/

namespace ReserveGrid.Gateway

open Support Protocol

/-- The loop and the messages between it and the verifier, with the history of
verdicts produced and jobs issued. -/
structure VerdictSystem where
  loop : MainLoop
  proposals : List TemplateResponse := []
  verdicts : List (TemplateResponse × TemplateVerdict) := []
  produced : List (TemplateResponse × TemplateVerdict) := []
  issued : List Issued := []

/-- What can happen next. The verifier answers proposals, and messages arrive,
in any order; a lost connection or a lagging receiver loses them. -/
inductive VerdictEvent where
  | turn (clock : Clock) (event : LoopEvent)
  | answer (k : ℕ) (v : TemplateVerdict)
  | loseProposal (k : ℕ)
  | deliver (clock : Clock) (k : ℕ)
  | loseVerdict (k : ℕ)

namespace VerdictSystem

def initial (now : ℕ) (retentionMs : UInt64) (maxEntries : ℕ) :
    VerdictSystem where
  loop := .initial now { retentionMs, maxEntries }

/-- The template proposed in a turn. -/
def proposedIn (event : LoopEvent) (out : Output) : List TemplateResponse :=
  match event with
  | .template template => if out.propose.isSome then [template] else []
  | _ => []

def afterTurn (s : VerdictSystem) (event : LoopEvent)
    (result : MainLoop × Output) : VerdictSystem :=
  { s with
    loop := result.1
    proposals := s.proposals ++ proposedIn event result.2
    issued := s.issued ++ result.2.issued }

/-- The verdict arm runs only when a verdict under way is delivered to it, and
a verdict carries the id of the proposal it answers. -/
def step (cfg : GatewayConfig) (s : VerdictSystem) :
    VerdictEvent → Option VerdictSystem
  | .turn _ (.verdict _) => none
  | .turn clock event => (s.loop.turn cfg clock event).map (s.afterTurn event)
  | .answer k v =>
      match s.proposals[k]? with
      | none => none
      | some template =>
          if v.id = (buildTemplatePropose template cfg.gatewayInstanceId).id then
            some { s with
              proposals := s.proposals.eraseIdx k
              verdicts := s.verdicts ++ [(template, v)]
              produced := s.produced ++ [(template, v)] }
          else none
  | .loseProposal k => some { s with proposals := s.proposals.eraseIdx k }
  | .deliver clock k =>
      match s.verdicts[k]? with
      | none => none
      | some (_, v) => (s.loop.turn cfg clock (.verdict v)).map fun result =>
          { s.afterTurn (.verdict v) result with
            verdicts := s.verdicts.eraseIdx k }
  | .loseVerdict k => some { s with verdicts := s.verdicts.eraseIdx k }

/-- Every job that was put in the job table was made of a template for which an
accepted verdict had been produced, and has that template's identity and
content. -/
structure EnforcesVerdicts (s : VerdictSystem) : Prop where
  issued : ∀ j ∈ s.issued, j.job.ComesFrom j.template ∧
    ∃ v, (j.template, v) ∈ s.produced ∧ v.accepted = true
  table : ∀ id job, s.loop.feed.jobTable.get id = some job →
    ∃ j ∈ s.issued, j.job = job

/-- The event leaves the loop enforcing. -/
def StaysEnforcing (cfg : GatewayConfig) (s : VerdictSystem)
    (event : VerdictEvent) : Prop :=
  ∀ s', s.step cfg event = some s' → s'.loop.degraded = false

/-- A template that arrives and is new to the dedup cache is the only one of
its id that an unanswered proposal or an accepted verdict under way is about. -/
def NoMixup (s : VerdictSystem) : VerdictEvent → Prop
  | .turn _ (.template template) =>
      (s.loop.dedupCache.isDuplicate template.sourceInstanceId
        template.templateId).1 = false →
      (∀ t ∈ s.proposals, t.templateId = template.templateId → t = template) ∧
      ∀ p ∈ s.verdicts, p.2.accepted = true →
        p.1.templateId = template.templateId → p.1 = template
  | _ => True

instance (cfg : GatewayConfig) (s : VerdictSystem) (event : VerdictEvent) :
    Decidable (s.StaysEnforcing cfg event) :=
  inferInstanceAs (Decidable (∀ s', s.step cfg event = some s' →
    s'.loop.degraded = false))

instance (s : VerdictSystem) (event : VerdictEvent) :
    Decidable (s.NoMixup event) := by
  unfold NoMixup
  split <;> infer_instance

/-! ## The invariant -/

/-- Messages under way that can release a pending template are about it. -/
structure Sound (s : VerdictSystem) : Prop where
  enforces : s.EnforcesVerdicts
  degraded : s.loop.degraded = false
  verdictId : ∀ p ∈ s.verdicts, p.2.id = p.1.templateId
  produced : ∀ p ∈ s.verdicts, p ∈ s.produced
  proposals : ∀ id pt, s.loop.pendingTemplates.lookup id = some pt →
    ∀ t ∈ s.proposals, t.templateId = id → t = pt.template
  verdicts : ∀ id pt, s.loop.pendingTemplates.lookup id = some pt →
    ∀ p ∈ s.verdicts, p.2.accepted = true → p.1.templateId = id →
      p.1 = pt.template

theorem initial_sound (now : ℕ) (retentionMs : UInt64) (maxEntries : ℕ) :
    (initial now retentionMs maxEntries).Sound where
  enforces := by
    constructor
    · intro j hj
      cases hj
    · intro id job hget
      cases hget
  degraded := rfl
  verdictId _ h := by cases h
  produced _ h := by cases h
  proposals _ _ h := by cases h
  verdicts _ _ h := by cases h

variable {cfg : GatewayConfig} {s s' : VerdictSystem}

/-- Losing messages keeps the invariant. -/
theorem Sound.lose (hs : s.Sound) {proposals : List TemplateResponse}
    {verdicts : List (TemplateResponse × TemplateVerdict)}
    (hproposals : proposals ⊆ s.proposals) (hverdicts : verdicts ⊆ s.verdicts) :
    ({ s with proposals, verdicts } : VerdictSystem).Sound where
  enforces := ⟨hs.enforces.issued, hs.enforces.table⟩
  degraded := hs.degraded
  verdictId p hp := hs.verdictId p (hverdicts hp)
  produced p hp := hs.produced p (hverdicts hp)
  proposals id pt h t ht := hs.proposals id pt h t (hproposals ht)
  verdicts id pt h p hp := hs.verdicts id pt h p (hverdicts hp)

/-- An answer moves the template from the proposals to the verdicts. -/
theorem Sound.answer (hs : s.Sound) {k : ℕ} {template : TemplateResponse}
    {v : TemplateVerdict} (hk : s.proposals[k]? = some template)
    (hid : v.id = template.templateId) :
    ({ s with
      proposals := s.proposals.eraseIdx k
      verdicts := s.verdicts ++ [(template, v)]
      produced := s.produced ++ [(template, v)] } : VerdictSystem).Sound where
  enforces := by
    refine ⟨?_, hs.enforces.table⟩
    intro j hj
    obtain ⟨hfrom, v', hv', haccepted⟩ := hs.enforces.issued j hj
    exact ⟨hfrom, v', List.mem_append_left _ hv', haccepted⟩
  degraded := hs.degraded
  verdictId := by
    intro p hp
    rcases List.mem_append.mp hp with hp | hp
    · exact hs.verdictId p hp
    · rw [List.mem_singleton.mp hp]
      exact hid
  produced := by
    intro p hp
    rcases List.mem_append.mp hp with hp | hp
    · exact List.mem_append_left _ (hs.produced p hp)
    · exact List.mem_append_right _ hp
  proposals := by
    intro id pt h t ht
    exact hs.proposals id pt h t (List.mem_of_mem_eraseIdx ht)
  verdicts := by
    intro id pt h p hp haccepted hp'
    rcases List.mem_append.mp hp with hp | hp
    · exact hs.verdicts id pt h p hp haccepted hp'
    · rw [List.mem_singleton.mp hp] at hp' ⊢
      exact hs.proposals id pt h template (List.mem_of_getElem? hk) hp'

/-- Making a job of a template with an accepted verdict keeps the history
enforced. -/
theorem EnforcesVerdicts.issue {clock : Clock} {template : TemplateResponse}
    {v : TemplateVerdict} {loop : MainLoop} (hs : s.EnforcesVerdicts)
    (hproduced : (template, v) ∈ s.produced) (haccepted : v.accepted = true)
    (hfeed : loop.feed = (broadcastJobFromTemplate clock template
      s.loop.feed).1) :
    ({ s with
      loop
      issued := s.issued ++ ((broadcastJobFromTemplate clock template
        s.loop.feed).2.map (Issued.mk template)).toList } :
      VerdictSystem).EnforcesVerdicts := by
  rcases prepareJob_cases clock template s.loop.feed with
    ⟨issued, jobAlloc, -, hmade⟩ | ⟨job, jobAlloc, -, hfrom, -, hmade⟩
  · rw [broadcastJobFromTemplate, hmade] at hfeed ⊢
    refine ⟨?_, ?_⟩
    · intro j hj
      rw [Option.map_none, Option.toList_none, List.append_nil] at hj
      exact hs.issued j hj
    · intro id job hget
      rw [Option.map_none, Option.toList_none, List.append_nil]
      exact hs.table id job (by rw [← hget, hfeed])
  · rw [broadcastJobFromTemplate, hmade] at hfeed ⊢
    refine ⟨?_, ?_⟩
    · intro j hj
      rcases List.mem_append.mp hj with hj | hj
      · exact hs.issued j hj
      · rw [List.mem_singleton.mp hj]
        exact ⟨hfrom, v, hproduced, haccepted⟩
    · intro id job' hget
      rw [hfeed] at hget
      rcases JobTable.get_insert hget with ⟨-, rfl⟩ | hold
      · exact ⟨⟨template, job'⟩, List.mem_append_right _ (List.mem_singleton.mpr rfl),
          rfl⟩
      · obtain ⟨j, hj, hjob⟩ := hs.table id job' hold
        exact ⟨j, List.mem_append_left _ hj, hjob⟩

theorem EnforcesVerdicts.quiet {loop : MainLoop} {issued : List Issued}
    (hs : s.EnforcesVerdicts) (hfeed : loop.feed = s.loop.feed)
    (hissued : issued = []) :
    ({ s with loop, issued := s.issued ++ issued } :
      VerdictSystem).EnforcesVerdicts := by
  subst hissued
  refine ⟨?_, ?_⟩
  · intro j hj
    rw [List.append_nil] at hj
    exact hs.issued j hj
  · intro id job hget
    rw [List.append_nil]
    exact hs.table id job (by rw [← hget, hfeed])

theorem proposedIn_of_none {event : LoopEvent} {out : Output}
    (h : out.propose = none) : proposedIn event out = [] := by
  cases event <;> simp [proposedIn, h]

theorem Sound.quiet (hs : s.Sound) {event : LoopEvent} {loop : MainLoop}
    {out : Output} (hquiet : s.loop.Quiet loop out)
    (hdegraded : loop.degraded = false) :
    (s.afterTurn event (loop, out)).Sound where
  enforces := by
    have henforces := hs.enforces.quiet hquiet.feed hquiet.issued
    exact ⟨henforces.issued, henforces.table⟩
  degraded := hdegraded
  verdictId := hs.verdictId
  produced := hs.produced
  proposals := by
    intro id pt h t ht
    rw [afterTurn, proposedIn_of_none hquiet.propose, List.append_nil] at ht
    exact hs.proposals id pt (hquiet.pending id pt h) t ht
  verdicts := by
    intro id pt h
    exact hs.verdicts id pt (hquiet.pending id pt h)

/-- Storing a template that no message about another of its id can release. -/
theorem Sound.store (hs : s.Sound) {template : TemplateResponse}
    {loop : MainLoop} {out : Output}
    (hproposals : ∀ t ∈ s.proposals, t.templateId = template.templateId →
      t = template)
    (hverdicts : ∀ p ∈ s.verdicts, p.2.accepted = true →
      p.1.templateId = template.templateId → p.1 = template)
    (hpending : ∀ id pt, loop.pendingTemplates.lookup id = some pt →
      (id = template.templateId ∧ pt.template = template) ∨
        (id ≠ template.templateId ∧ s.loop.pendingTemplates.lookup id = some pt))
    (hfeed : loop.feed = s.loop.feed) (hissued : out.issued = [])
    (hdegraded : loop.degraded = false)
    (hpropose : out.propose.isSome = true) :
    (s.afterTurn (.template template) (loop, out)).Sound where
  enforces := by
    have henforces := hs.enforces.quiet hfeed hissued
    exact ⟨henforces.issued, henforces.table⟩
  degraded := hdegraded
  verdictId := hs.verdictId
  produced := hs.produced
  proposals := by
    intro id pt h t ht hid
    have hsent : proposedIn (.template template) out = [template] :=
      if_pos hpropose
    rw [afterTurn, hsent, List.mem_append, List.mem_singleton] at ht
    rcases hpending id pt h with ⟨rfl, hpt⟩ | ⟨hne, hold⟩
    · rw [hpt]
      rcases ht with ht | rfl
      · exact hproposals t ht hid
      · rfl
    · rcases ht with ht | rfl
      · exact hs.proposals id pt hold t ht hid
      · exact absurd hid.symm hne
  verdicts := by
    intro id pt h p hp haccepted hid
    rcases hpending id pt h with ⟨rfl, hpt⟩ | ⟨-, hold⟩
    · rw [hpt]
      exact hverdicts p hp haccepted hid
    · exact hs.verdicts id pt hold p hp haccepted hid

/-- A job is made of the template that the delivered verdict is about. -/
theorem Sound.issue (hs : s.Sound) {clock : Clock} {v : TemplateVerdict}
    {template : TemplateResponse} {pt : PendingTemplate} {loop : MainLoop}
    {out : Output} (hmem : (template, v) ∈ s.verdicts)
    (haccepted : v.accepted = true)
    (hlookup : s.loop.pendingTemplates.lookup v.id = some pt)
    (hpending : ∀ id pt, loop.pendingTemplates.lookup id = some pt →
      s.loop.pendingTemplates.lookup id = some pt)
    (hfeed : loop.feed = (broadcastJobFromTemplate clock pt.template
      s.loop.feed).1)
    (hpropose : out.propose = none)
    (hissued : out.issued = ((broadcastJobFromTemplate clock pt.template
      s.loop.feed).2.map (Issued.mk pt.template)).toList)
    (hdegraded : loop.degraded = false) :
    (s.afterTurn (.verdict v) (loop, out)).Sound where
  enforces := by
    have htemplate : template = pt.template :=
      hs.verdicts v.id pt hlookup (template, v) hmem haccepted
        (hs.verdictId (template, v) hmem).symm
    have hproduced : (pt.template, v) ∈ s.produced := by
      rw [← htemplate]
      exact hs.produced (template, v) hmem
    have henforces := hs.enforces.issue hproduced haccepted hfeed
    rw [← hissued] at henforces
    exact ⟨henforces.issued, henforces.table⟩
  degraded := hdegraded
  verdictId := hs.verdictId
  produced := hs.produced
  proposals := by
    intro id pt h t ht
    rw [afterTurn, proposedIn_of_none hpropose, List.append_nil] at ht
    exact hs.proposals id pt (hpending id pt h) t ht
  verdicts := by
    intro id pt h
    exact hs.verdicts id pt (hpending id pt h)

/-- Every turn of the enforcing loop keeps the invariant. -/
theorem Sound.turn (hs : s.Sound) {clock : Clock} {event : LoopEvent}
    {loop : MainLoop} {out : Output}
    (henforcing : s.loop.Enforcing cfg clock event loop out)
    (hdegraded : loop.degraded = false)
    (hmixup : s.NoMixup (.turn clock event))
    (hverdict : ∀ v, event = .verdict v → ∃ template, (template, v) ∈ s.verdicts) :
    (s.afterTurn event (loop, out)).Sound := by
  cases henforcing with
  | quiet hquiet => exact hs.quiet hquiet hdegraded
  | stores hnew hpending hfeed hpropose hissued =>
      obtain ⟨hproposals, hverdicts⟩ := hmixup hnew
      exact hs.store hproposals hverdicts hpending hfeed hissued hdegraded
        (by rw [hpropose]; rfl)
  | issues haccepted hlookup hpending hfeed hpropose hissued =>
      obtain ⟨template, hmem⟩ := hverdict _ rfl
      exact hs.issue hmem haccepted hlookup hpending hfeed hpropose hissued
        hdegraded

theorem Sound.step {event : VerdictEvent}
    (hmode : cfg.mode.enforcesVerdicts = true) (hs : s.Sound)
    (hstays : s.StaysEnforcing cfg event) (hmixup : s.NoMixup event)
    (hstep : s.step cfg event = some s') :
    s'.Sound := by
  have hdegraded := hstays s' hstep
  cases event with
  | turn clock event =>
      have hturn : ∃ result, s.loop.turn cfg clock event = some result ∧
          s.afterTurn event result = s' ∧ ∀ v, event ≠ .verdict v := by
        cases event with
        | verdict v => cases hstep
        | _ =>
            obtain ⟨result, hturn, hafter⟩ := Option.map_eq_some_iff.mp hstep
            exact ⟨result, hturn, hafter, fun _ h => by cases h⟩
      obtain ⟨⟨loop, out⟩, hturn, rfl, hnot⟩ := hturn
      have henforcing :=
        MainLoop.enforcing_of_turn hmode hs.degraded hturn hdegraded
      exact hs.turn henforcing hdegraded hmixup
        (fun v hv => absurd hv (hnot v))
  | answer k v =>
      dsimp only [VerdictSystem.step] at hstep
      split at hstep
      · cases hstep
      · rename_i template hk
        split at hstep
        · rename_i hid
          cases hstep
          exact hs.answer hk hid
        · cases hstep
  | loseProposal k =>
      cases hstep
      exact hs.lose (List.eraseIdx_subset) (List.Subset.refl _)
  | deliver clock k =>
      dsimp only [VerdictSystem.step] at hstep
      split at hstep
      · cases hstep
      · rename_i template v hk
        obtain ⟨⟨loop, out⟩, hturn, rfl⟩ := Option.map_eq_some_iff.mp hstep
        have henforcing :=
          MainLoop.enforcing_of_turn hmode hs.degraded hturn hdegraded
        have hafter := hs.turn henforcing hdegraded trivial
          (fun v' hv' => ⟨template, by cases hv'; exact List.mem_of_getElem? hk⟩)
        exact hafter.lose (List.Subset.refl _) (List.eraseIdx_subset)
  | loseVerdict k =>
      cases hstep
      exact hs.lose (List.Subset.refl _) (List.eraseIdx_subset)

/-- In every run of an inline gateway that never degrades, and in which every
template that is stored is the only one of its id that a message under way can
release, the job table holds only jobs of templates that were accepted. -/
theorem enforcesVerdicts_of_noMixup {cfg : GatewayConfig} {now : ℕ}
    {retentionMs : UInt64} {maxEntries : ℕ} {events : List VerdictEvent}
    {s : VerdictSystem} (hmode : cfg.mode = .inline)
    (halong : Along (step cfg)
      (fun s event => s.StaysEnforcing cfg event ∧ s.NoMixup event)
      (initial now retentionMs maxEntries) events)
    (hrun : run (step cfg) (initial now retentionMs maxEntries) events = some s) :
    s.EnforcesVerdicts := by
  have henforces : cfg.mode.enforcesVerdicts = true := by
    rw [hmode]
    rfl
  have hsound : s.Sound := by
    refine invariant_of_along ?_ (initial_sound now retentionMs maxEntries)
      halong hrun
    intro s event s' hs hcond hstep
    exact hs.step henforces hcond.1 hcond.2 hstep
  exact hsound.enforces

/-! ## A verdict that meets another template -/

/-- An inline gateway, without automatic degradation. -/
def inlineConfig : GatewayConfig where
  mode := .inline
  gatewayInstanceId := "gw-1"
  maxTemplateAgeMs := 30000
  prevhashStaleHoldMs := 5000
  upstreamStaleMaxMs := 30000
  upstreamFailurePolicy := .failClosed
  autoDegrade := false
  autoDegradeAfterMs := 10000

def firstTemplate : TemplateResponse := { TemplateResponse.regtest with templateId := 7 }

/-- The template of the same transactions after the template manager was
restarted with another payout script. -/
def restartedTemplate : TemplateResponse :=
  { firstTemplate with
    coinbaseTxSuffix := "ffffffff0100f2052a01000000015200000000"
    sourceInstanceId := "tm-2" }

/-- A verdict on either template, which have one id. -/
def verdictOf (accepted : Bool) : TemplateVerdict where
  version := protocolVersion
  id := 7
  accepted

def atSecond (n : ℕ) : Clock where
  now := n * 10 ^ 9
  nowUnix := 1700000000
  unixMs := 1700000000000

/-- The first template is accepted. Before the verdict arrives the restarted
template manager's template takes its place, which the verifier rejects. -/
def restartRun : List VerdictEvent :=
  [.turn (atSecond 1) (.template firstTemplate),
    .answer 0 (verdictOf true),
    .turn (atSecond 2) (.template restartedTemplate),
    .deliver (atSecond 3) 0,
    .answer 0 (verdictOf false),
    .deliver (atSecond 4) 0]

/-- What becomes of the run: the sources of the issued jobs, and the verdicts
with the sources they are about. -/
def history (s : VerdictSystem) : List String × List (String × Bool) :=
  (s.issued.map (·.template.sourceInstanceId),
    s.produced.map fun p => (p.1.sourceInstanceId, p.2.accepted))

/-- A rejected template becomes a job, on the verdict of the one it replaced. -/
theorem not_enforcesVerdicts_restartRun :
    ∃ s, run (step inlineConfig) (initial 0 300000 1000) restartRun = some s ∧
      Along (step inlineConfig) (StaysEnforcing inlineConfig)
        (initial 0 300000 1000) restartRun ∧
      ¬ s.EnforcesVerdicts := by
  have hhistory : (run (step inlineConfig) (initial 0 300000 1000)
      restartRun).map history =
        some (["tm-2"], [("tm-1", true), ("tm-2", false)]) := by
    decide +kernel
  obtain ⟨s, hrun, hs⟩ := Option.map_eq_some_iff.mp hhistory
  refine ⟨s, hrun, by decide +kernel, ?_⟩
  intro henforces
  rw [history, Prod.mk.injEq] at hs
  have hissued : "tm-2" ∈ s.issued.map (·.template.sourceInstanceId) := by
    rw [hs.1]
    exact List.mem_singleton.mpr rfl
  obtain ⟨j, hj, hsource⟩ := List.mem_map.mp hissued
  obtain ⟨-, v, hv, haccepted⟩ := henforces.issued j hj
  have hmem := List.mem_map_of_mem
    (f := fun p : TemplateResponse × TemplateVerdict =>
      (p.1.sourceInstanceId, p.2.accepted)) hv
  rw [hs.2, hsource, haccepted] at hmem
  simp at hmem

/-- A template of another id. -/
def otherTemplate : TemplateResponse := { firstTemplate with templateId := 8 }

/-- Two templates are proposed before either is answered. The second is rejected
first, and the template of the restarted template manager, which has the id of the
accepted one, arrives while that rejection is under way. -/
def separateRun : List VerdictEvent :=
  [.turn (atSecond 1) (.template firstTemplate),
    .turn (atSecond 2) (.template otherTemplate),
    .answer 1 { verdictOf false with id := 8 },
    .answer 0 (verdictOf true),
    .deliver (atSecond 3) 1,
    .turn (atSecond 4) (.template restartedTemplate),
    .deliver (atSecond 5) 0,
    .answer 0 (verdictOf true),
    .deliver (atSecond 6) 0]

/-- Both accepted templates of the id become jobs, each on its own verdict. -/
theorem enforcesVerdicts_of_noMixup_separate :
    ∃ s, run (step inlineConfig) (initial 0 300000 1000) separateRun = some s ∧
      history s = (["tm-1", "tm-2"], [("tm-1", false), ("tm-1", true), ("tm-2", true)]) ∧
      s.EnforcesVerdicts := by
  have hhistory : (run (step inlineConfig) (initial 0 300000 1000) separateRun).map
      history =
        some (["tm-1", "tm-2"], [("tm-1", false), ("tm-1", true), ("tm-2", true)]) := by
    decide +kernel
  obtain ⟨s, hrun, hs⟩ := Option.map_eq_some_iff.mp hhistory
  exact ⟨s, hrun, hs, enforcesVerdicts_of_noMixup rfl (by decide +kernel) hrun⟩

end VerdictSystem

end ReserveGrid.Gateway
