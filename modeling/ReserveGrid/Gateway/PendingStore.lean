import ReserveGrid.Gateway.JobOrder

/-!
# The pending store

The templates that wait for their verdicts are kept under their ids, with the
ids in a queue beside them and the dedup cache in front. Five arms of the main
loop work on the three. Degraded mode holds nothing pending. Where no template
is stored whose id is listed already, the queue lists the pending templates,
oldest first.
-/

namespace ReserveGrid.Gateway

open Support Protocol

/-! ## What a turn does to the store -/

/-- The part of the loop's state that decides which templates wait. -/
structure PendingStore where
  templates : HashMap UInt64 PendingTemplate
  order : List UInt64
  cache : TemplateDedupCache
  degraded : Bool

namespace MainLoop

def store (s : MainLoop) : PendingStore where
  templates := s.pendingTemplates
  order := s.pendingOrder
  cache := s.dedupCache
  degraded := s.degraded

/-- The template is new to the dedup cache. -/
def isNew (template : TemplateResponse) (s : MainLoop) : Bool :=
  !(s.dedupCache.isDuplicate template.sourceInstanceId template.templateId).1

/-- The cache once it was asked about the template. -/
def noting (template : TemplateResponse) (s : MainLoop) : TemplateDedupCache :=
  (s.dedupCache.isDuplicate template.sourceInstanceId template.templateId).2

/-- What eviction leaves when the template arrives. -/
def roomFor (template : TemplateResponse) (s : MainLoop) :
    List UInt64 × HashMap UInt64 PendingTemplate × TemplateDedupCache :=
  evictPending template.sourceInstanceId s.pendingOrder s.pendingTemplates
    (s.noting template)

/-- The template is stored until its verdict arrives. -/
def stores (cfg : GatewayConfig) (template : TemplateResponse) (s : MainLoop) :
    Bool :=
  s.isNew template && s.waits cfg

/-- The pending templates that the sweep takes. -/
def expired (cfg : GatewayConfig) (clock : Clock) (s : MainLoop) :
    List ((_ : UInt64) × PendingTemplate) :=
  s.pendingTemplates.entries.filter fun e =>
    millis cfg.maxTemplateAgeMs < clock.now - e.2.receivedAt

/-- The pending templates that the sweep leaves. -/
def unexpired (cfg : GatewayConfig) (clock : Clock) (s : MainLoop) :
    HashMap UInt64 PendingTemplate :=
  s.pendingTemplates.retain fun _ pt =>
    clock.now - pt.receivedAt ≤ millis cfg.maxTemplateAgeMs

/-- The turns of the loop, as the pending store sees them. -/
inductive StoreTurn (cfg : GatewayConfig) (clock : Clock) (s : MainLoop) :
    LoopEvent → PendingStore → Prop
  | same {event} (htemplate : ∀ template, event ≠ .template template)
      (hsweep : event = .sweep → s.expired cfg clock = []) :
      StoreTurn cfg clock s event s.store
  | notes {template} (hstores : s.stores cfg template = false) :
      StoreTurn cfg clock s (.template template)
        { s.store with cache := s.noting template }
  | enqueues {template} (hstores : s.stores cfg template = true) :
      StoreTurn cfg clock s (.template template)
        { s.store with
          templates := (s.roomFor template).2.1.insert template.templateId
            ⟨template, clock.now⟩
          order := (s.roomFor template).1 ++ [template.templateId]
          cache := (s.roomFor template).2.2 }
  | answers {v degraded} (hdegraded : degraded = true → s.degraded = true)
      (hmem : v.id ∈ s.pendingTemplates) :
      StoreTurn cfg clock s (.verdict v)
        { s.store with
          templates := s.pendingTemplates.erase v.id
          order := s.pendingOrder.filter (· ≠ v.id)
          degraded }
  | resumes {v} :
      StoreTurn cfg clock s (.verdict v) { s.store with degraded := false }
  | sweeps (hexpired : s.expired cfg clock ≠ []) :
      StoreTurn cfg clock s .sweep
        { s.store with
          templates := s.unexpired cfg clock
          order := s.pendingOrder.filter (· ∈ s.unexpired cfg clock)
          cache := (s.expired cfg clock).foldl (fun cache e =>
            cache.remove e.2.template.sourceInstanceId e.1) s.dedupCache }
  | clears {event degraded} (hevent : event = .heartbeatAck ∨ event = .degradeCheck) :
      StoreTurn cfg clock s event
        { s.store with templates := ∅, order := [], degraded }

variable {cfg : GatewayConfig} {clock : Clock} {s : MainLoop}

theorem onTemplate_storeTurn (template : TemplateResponse) :
    s.StoreTurn cfg clock (.template template)
      (s.onTemplate cfg clock template).1.store := by
  by_cases hstores : s.stores cfg template = true
  · have hboth : (s.dedupCache.isDuplicate template.sourceInstanceId
        template.templateId).1 = false ∧ s.waits cfg = true := by
      simpa [stores, isNew] using hstores
    have hwaits : (cfg.mode.enforcesVerdicts && !s.degraded) = true := hboth.2
    have hturn : s.StoreTurn cfg clock (.template template) _ := .enqueues hstores
    unfold onTemplate
    dsimp only
    rw [if_neg (by simp [hboth.1]), if_pos hwaits]
    exact hturn
  · have hstores : s.stores cfg template = false := by simpa using hstores
    have hturn : s.StoreTurn cfg clock (.template template) _ := .notes hstores
    unfold onTemplate
    dsimp only
    by_cases hseen : (s.dedupCache.isDuplicate template.sourceInstanceId
        template.templateId).1 = true
    · rw [if_pos hseen]
      exact hturn
    · have hwaits : ¬ (cfg.mode.enforcesVerdicts && !s.degraded) = true := by
        simpa [stores, isNew, hseen, waits] using hstores
      rw [if_neg hseen, if_neg hwaits]
      exact hturn

theorem holdStale_store (cfg : GatewayConfig) (clock : Clock)
    (template : TemplateResponse) (s : MainLoop) :
    (s.holdStale cfg clock template).store = s.store := by
  unfold holdStale
  split
  · rfl
  · rfl

/-- A verdict takes the pending template of its id away, or changes nothing. -/
theorem applyVerdict_store (cfg : GatewayConfig) (clock : Clock) (v : TemplateVerdict)
    (s : MainLoop) :
    ((s.applyVerdict cfg clock v).1.store = s.store) ∨
    (v.id ∈ s.pendingTemplates ∧ (s.applyVerdict cfg clock v).1.store =
      { s.store with
        templates := s.pendingTemplates.erase v.id
        order := s.pendingOrder.filter (· ≠ v.id) }) := by
  unfold applyVerdict
  cases hlookup : s.pendingTemplates.lookup v.id with
  | none => exact Or.inl rfl
  | some pt =>
      have hmem : v.id ∈ s.pendingTemplates :=
        AList.lookup_isSome.mp (by rw [hlookup]; rfl)
      refine Or.inr ⟨hmem, ?_⟩
      dsimp only
      by_cases haccepted : v.accepted = true
      · rw [if_pos haccepted]
        rfl
      · rw [if_neg haccepted, holdStale_store]
        rfl

theorem onVerdict_storeTurn (v : TemplateVerdict) :
    s.StoreTurn cfg clock (.verdict v) (s.onVerdict cfg clock v).1.store := by
  have hsame : s.StoreTurn cfg clock (.verdict v) s.store := .same nofun nofun
  unfold onVerdict
  dsimp only
  by_cases hresumed : (s.degraded && s.degradeTrigger == some .verdictStarved) = true
  · rw [if_pos hresumed]
    by_cases hmode : cfg.mode.enforcesVerdicts = true
    · rw [if_pos hmode]
      change s.StoreTurn cfg clock _ ((s.resume clock).1.applyVerdict cfg clock v).1.store
      rcases applyVerdict_store cfg clock v (s.resume clock).1 with
        hstore | ⟨hmem, hstore⟩
      · rw [hstore]
        exact .resumes
      · rw [hstore]
        exact .answers (fun h => by cases h) hmem
    · rw [if_neg hmode]
      exact .resumes
  · rw [if_neg hresumed]
    by_cases hmode : cfg.mode.enforcesVerdicts = true
    · rw [if_pos hmode]
      change s.StoreTurn cfg clock _ (s.applyVerdict cfg clock v).1.store
      rcases applyVerdict_store cfg clock v s with
        hstore | ⟨hmem, hstore⟩
      · rw [hstore]
        exact hsame
      · rw [hstore]
        exact .answers (fun h => h) hmem
    · rw [if_neg hmode]
      exact hsame

theorem onHeartbeatAck_storeTurn :
    s.StoreTurn cfg clock .heartbeatAck (s.onHeartbeatAck clock).1.store := by
  unfold onHeartbeatAck
  dsimp only
  split
  · exact .clears (Or.inl rfl)
  · exact .same nofun nofun

theorem sweepStalePendingTemplates_storeTurn :
    s.StoreTurn cfg clock .sweep (s.sweepStalePendingTemplates
      (millis cfg.maxTemplateAgeMs) clock.now).store := by
  unfold sweepStalePendingTemplates
  dsimp only
  by_cases hexpired : s.expired cfg clock = []
  · have hempty : (s.expired cfg clock).isEmpty = true := by rw [hexpired]; rfl
    -- no template is too old, so every one is retained
    have hall : s.unexpired cfg clock = s.pendingTemplates := by
      apply AList.ext
      refine List.filter_eq_self.mpr ?_
      intro e he
      have hnot := (List.filter_eq_nil_iff.mp hexpired) e he
      simpa using hnot
    have hsame : s.StoreTurn cfg clock .sweep
        { s.store with templates := s.unexpired cfg clock } := by
      rw [hall]
      exact .same nofun fun _ => hexpired
    unfold expired at hempty
    rw [if_pos hempty]
    exact hsame
  · have hfull : ¬ (s.expired cfg clock).isEmpty = true := by
      simpa using hexpired
    have hsweeps := StoreTurn.sweeps hexpired
    unfold expired at hfull
    rw [if_neg hfull]
    exact hsweeps

/-- The flush only takes pending templates. -/
theorem flushPending_store (clock : Clock) (order : List UInt64) (s : MainLoop) :
    { (flushPending clock order s).1.store with templates := ∅ } =
      { s.store with templates := ∅ } := by
  induction order generalizing s with
  | nil => rfl
  | cons id order ih =>
      unfold flushPending
      cases s.pendingTemplates.lookup id with
      | none => exact ih s
      | some pt => exact ih _

theorem onDegradeCheck_storeTurn :
    s.StoreTurn cfg clock .degradeCheck (s.onDegradeCheck cfg clock).1.store := by
  unfold onDegradeCheck
  dsimp only
  split
  · have hclears : s.StoreTurn cfg clock .degradeCheck
        { s.store with templates := ∅, order := [], degraded := true } :=
      .clears (Or.inr rfl)
    refine cast (congrArg (s.StoreTurn cfg clock .degradeCheck) ?_) hclears
    exact (flushPending_store clock s.pendingOrder { s with
      degradeTrigger := _
      degraded := true
      degradedSince := some clock.now
      unenforcedJobs := 0
      pendingOrder := [] }).symm
  · exact .same nofun nofun

/-- Every turn is one of the turns of the store. -/
theorem storeTurn_of_turn {event : LoopEvent} {s' : MainLoop} {out : Output}
    (hturn : s.turn cfg clock event = some (s', out)) :
    s.StoreTurn cfg clock event s'.store := by
  cases turnOf_of_turn hturn with
  | template template => exact onTemplate_storeTurn template
  | verdict v => exact onVerdict_storeTurn v
  | heartbeatAck => exact onHeartbeatAck_storeTurn
  | degradeCheck => exact onDegradeCheck_storeTurn
  | sweep => exact sweepStalePendingTemplates_storeTurn
  | verdictLagged => exact .same nofun nofun
  | holdDrops hdue hdegraded => exact .same nofun nofun
  | holdStops hdue hdegraded => exact .same nofun nofun
  | upstreamCheck stopped => exact .same nofun nofun
  | shutdown => exact .same nofun nofun

/-- A turn of the loop at some time. -/
def next (cfg : GatewayConfig) (s : MainLoop) (label : Clock × LoopEvent) :
    Option MainLoop :=
  (s.turn cfg label.1 label.2).map (·.1)

end MainLoop

/-! ## Nothing waits in degraded mode -/

/-- Eviction makes room for one template, and what is left is still listed. -/
theorem evictPending_listed (source : String) {order : List UInt64}
    {pending : HashMap UInt64 PendingTemplate} (cache : TemplateDedupCache)
    (hlisted : ∀ id ∈ pending, id ∈ order) :
    (∀ id ∈ (evictPending source order pending cache).2.1,
      id ∈ (evictPending source order pending cache).1) ∧
    (evictPending source order pending cache).2.1.keys.length < 2 := by
  induction order generalizing pending cache with
  | nil =>
      have hnone : pending.keys = [] :=
        List.eq_nil_iff_forall_not_mem.mpr fun id hid => by
          have hmem := hlisted id hid
          cases hmem
      refine ⟨hlisted, ?_⟩
      change pending.keys.length < 2
      rw [hnone]
      exact Nat.zero_lt_two
  | cons oldestId order ih =>
      unfold evictPending
      by_cases hroom : pending.keys.length < 2
      · rw [if_pos hroom]
        exact ⟨hlisted, hroom⟩
      · rw [if_neg hroom]
        by_cases hmem : oldestId ∈ pending
        · rw [if_pos hmem]
          apply ih
          intro id hid
          obtain ⟨hne, hid⟩ := AList.mem_erase.mp hid
          exact (List.mem_cons.mp (hlisted id hid)).resolve_left hne
        · rw [if_neg hmem]
          apply ih
          intro id hid
          refine (List.mem_cons.mp (hlisted id hid)).resolve_left ?_
          rintro rfl
          exact hmem hid

namespace PendingStore

/-- Nothing waits in degraded mode, at most two templates wait, and each that
does is listed. -/
structure Holds (p : PendingStore) : Prop where
  degraded : p.degraded = true → p.templates = ∅ ∧ p.order = []
  bounded : p.templates.keys.length ≤ 2
  listed : ∀ id ∈ p.templates, id ∈ p.order

variable {cfg : GatewayConfig} {clock : Clock} {s : MainLoop} {event : LoopEvent}
  {p : PendingStore}

theorem Holds.storeTurn (hs : s.store.Holds) (hturn : s.StoreTurn cfg clock event p) :
    p.Holds := by
  cases hturn with
  | same htemplate hsweep => exact hs
  | notes hstores => exact ⟨hs.degraded, hs.bounded, hs.listed⟩
  | @enqueues template hstores =>
      have hwaits : s.degraded = false := by
        have hboth : s.isNew template = true ∧
            cfg.mode.enforcesVerdicts = true ∧ s.degraded = false := by
          simpa [MainLoop.stores, MainLoop.waits] using hstores
        exact hboth.2.2
      obtain ⟨hlisted, hroom⟩ := evictPending_listed
        template.sourceInstanceId (s.noting template) hs.listed
      refine ⟨?_, ?_, ?_⟩
      · intro hdegraded
        cases hwaits.symm.trans hdegraded
      · change (AList.insert _ _ _).keys.length ≤ 2
        rw [AList.keys_insert, List.length_cons]
        have herase := List.length_erase_le (a := template.templateId)
          (l := (s.roomFor template).2.1.keys)
        have hless : (s.roomFor template).2.1.keys.length < 2 := hroom
        omega
      · intro id hid
        rcases (AList.mem_insert _).mp hid with rfl | hid
        · exact List.mem_append_right _ (List.mem_singleton_self _)
        · exact List.mem_append_left _ (hlisted id hid)
  | @answers v degraded hdegraded hmem =>
      refine ⟨?_, ?_, ?_⟩
      · -- a degraded loop has no pending template to answer
        intro htrue
        obtain ⟨hnone, -⟩ := hs.degraded (hdegraded htrue)
        rw [show s.pendingTemplates = ∅ from hnone] at hmem
        cases hmem
      · change (AList.erase _ _).keys.length ≤ 2
        rw [AList.keys_erase]
        exact (List.length_erase_le).trans hs.bounded
      · intro id hid
        obtain ⟨hne, hid⟩ := AList.mem_erase.mp hid
        exact List.mem_filter.mpr ⟨hs.listed id hid, by simpa using hne⟩
  | resumes =>
      refine ⟨?_, hs.bounded, hs.listed⟩
      intro hdegraded
      cases hdegraded
  | sweeps hexpired =>
      refine ⟨?_, ?_, ?_⟩
      · intro hdegraded
        obtain ⟨hnone, horder⟩ := hs.degraded hdegraded
        refine absurd ?_ hexpired
        rw [MainLoop.expired, show s.pendingTemplates = ∅ from hnone]
        rfl
      · exact ((HashMap.keys_retain_sublist _ _).length_le).trans hs.bounded
      · intro id hid
        have hbefore : id ∈ s.pendingTemplates := HashMap.mem_of_mem_retain hid
        exact List.mem_filter.mpr ⟨hs.listed id hbefore, by simpa using hid⟩
  | clears hevent =>
      refine ⟨fun _ => ⟨rfl, rfl⟩, Nat.zero_le _, ?_⟩
      intro id hid
      cases hid

end PendingStore

/-- In every run degraded mode holds no pending work, at most two templates
wait, and each of them is in the queue. -/
theorem MainLoop.pending_of_run (cfg : GatewayConfig) (now : ℕ) (jobTable : JobTable)
    (labels : List (Clock × LoopEvent)) (s : MainLoop)
    (hrun : run (MainLoop.next cfg) (.initial now jobTable) labels = some s) :
    (s.degraded = true → s.pendingTemplates = ∅ ∧ s.pendingOrder = []) ∧
    s.pendingTemplates.keys.length ≤ 2 ∧
    ∀ id ∈ s.pendingTemplates, id ∈ s.pendingOrder := by
  have hinit : (MainLoop.initial now jobTable).store.Holds :=
    ⟨nofun, Nat.zero_le _, nofun⟩
  have hs : s.store.Holds := by
    refine invariant_of_run (I := fun s => s.store.Holds) ?_ hinit hrun
    intro s label t hs hstep
    obtain ⟨⟨s', out⟩, hturn, rfl⟩ := Option.map_eq_some_iff.mp hstep
    exact hs.storeTurn (MainLoop.storeTurn_of_turn hturn)
  exact ⟨hs.degraded, hs.bounded, hs.listed⟩

def degradingConfig : GatewayConfig :=
  { VerdictSystem.inlineConfig with autoDegrade := true }

/-- Three templates, the first of which is evicted, and a verifier that does not
answer. -/
def unansweredRun : List (Clock × LoopEvent) :=
  JobHistory.everySecond [JobHistory.templateOn 1 1 JobHistory.firstHash,
    JobHistory.templateOn 2 1 JobHistory.firstHash,
    JobHistory.templateOn 3 1 JobHistory.firstHash] ++
  [(VerdictSystem.atSecond 20, .degradeCheck)]

theorem MainLoop.pending_unansweredRun :
    ∃ s, run (MainLoop.next degradingConfig)
        (.initial 0 { retentionMs := 300000, maxEntries := 1000 }) unansweredRun =
        some s ∧
      s.degraded = true ∧ s.pendingTemplates = ∅ ∧ s.pendingOrder = [] := by
  have hdegraded : (run (MainLoop.next degradingConfig)
      (.initial 0 { retentionMs := 300000, maxEntries := 1000 }) unansweredRun).map
        (·.degraded) = some true := by
    decide +kernel
  obtain ⟨s, hrun, hs⟩ := Option.map_eq_some_iff.mp hdegraded
  exact ⟨s, hrun, hs, (MainLoop.pending_of_run _ _ _ _ s hrun).1 hs⟩

/-! ## The queue and the cache -/

/-- The cache starts over when it is asked about the template. -/
def TemplateDedupCache.startsOver (sourceInstanceId : String) (templateId : UInt64)
    (cache : TemplateDedupCache) : Bool :=
  cache.currentSource ≠ some sourceInstanceId ||
    (!(cache.isDuplicate sourceInstanceId templateId).1 &&
      cache.maxEntries ≤ cache.seen.card)

/-- The key of a template in the dedup cache. -/
def TemplateResponse.key (template : TemplateResponse) : String × UInt64 :=
  (template.sourceInstanceId, template.templateId)

namespace TemplateDedupCache

variable {sourceInstanceId : String} {templateId : UInt64} {cache : TemplateDedupCache}

/-- A cache asked about a template is of that template's source, and holds it. -/
theorem isDuplicate_noted (sourceInstanceId : String) (templateId : UInt64)
    (cache : TemplateDedupCache) :
    (cache.isDuplicate sourceInstanceId templateId).2.currentSource =
      some sourceInstanceId ∧
    (sourceInstanceId, templateId) ∈
      (cache.isDuplicate sourceInstanceId templateId).2.seen := by
  unfold isDuplicate
  by_cases hsource : cache.currentSource = some sourceInstanceId
  · simp only [hsource, ne_eq, not_true_eq_false, if_false]
    split
    · rename_i hmem
      exact ⟨hsource, hmem⟩
    · exact ⟨rfl, Finset.mem_insert_self _ _⟩
  · simp only [hsource, ne_eq, not_false_eq_true, if_true, Finset.notMem_empty,
      if_false]
    exact ⟨trivial, Finset.mem_insert_self _ _⟩

/-- The cache asked holds nothing new but the template, and what it keeps is of
the template's source. -/
theorem mem_of_mem_isDuplicate {key : String × UInt64}
    (hmem : key ∈ (cache.isDuplicate sourceInstanceId templateId).2.seen) :
    key = (sourceInstanceId, templateId) ∨
      (key ∈ cache.seen ∧ cache.currentSource = some sourceInstanceId) := by
  unfold isDuplicate at hmem
  by_cases hsource : cache.currentSource = some sourceInstanceId
  · simp only [hsource, ne_eq, not_true_eq_false, if_false] at hmem
    split at hmem
    · exact Or.inr ⟨hmem, hsource⟩
    · rcases Finset.mem_insert.mp hmem with rfl | hmem
      · exact Or.inl rfl
      · split at hmem
        · cases hmem
        · exact Or.inr ⟨hmem, hsource⟩
  · simp only [hsource, ne_eq, not_false_eq_true, if_true] at hmem
    simp only [Finset.notMem_empty, if_false, ite_self] at hmem
    exact Or.inl (Finset.mem_singleton.mp (by simpa using hmem))

/-- A cache that does not start over keeps what it holds. -/
theorem mem_isDuplicate_of_mem {key : String × UInt64}
    (hkeeps : cache.startsOver sourceInstanceId templateId = false)
    (hmem : key ∈ cache.seen) :
    key ∈ (cache.isDuplicate sourceInstanceId templateId).2.seen := by
  have hsource : cache.currentSource = some sourceInstanceId := by
    by_contra hne
    simp [startsOver, hne] at hkeeps
  unfold startsOver at hkeeps
  unfold isDuplicate at hkeeps ⊢
  simp only [hsource, ne_eq, not_true_eq_false, if_false] at hkeeps ⊢
  by_cases hseen : (sourceInstanceId, templateId) ∈ cache.seen
  · rw [if_pos hseen]
    exact hmem
  · rw [if_neg hseen] at hkeeps ⊢
    have hroom : ¬ cache.maxEntries ≤ cache.seen.card := by simpa using hkeeps
    rw [if_neg hroom]
    exact Finset.mem_insert_of_mem hmem

/-- A template that the cache does not hold is not a duplicate. -/
theorem isDuplicate_of_notMem
    (h : (sourceInstanceId, templateId) ∉ cache.seen) :
    (cache.isDuplicate sourceInstanceId templateId).1 = false := by
  unfold isDuplicate
  by_cases hsource : cache.currentSource = some sourceInstanceId
  · simp [hsource, h]
  · simp [hsource]

end TemplateDedupCache

/-- What eviction does: it takes ids from the front of the queue with their
templates, and releases from the cache what it takes, under one source. -/
structure Evicts (source : String) (order : List UInt64)
    (pending : HashMap UInt64 PendingTemplate) (cache : TemplateDedupCache)
    (taken : List UInt64)
    (kept : List UInt64 × HashMap UInt64 PendingTemplate × TemplateDedupCache) :
    Prop where
  front : order = taken ++ kept.1
  gone : ∀ id ∈ taken, kept.2.1.lookup id = none
  stays : ∀ id ∉ taken, kept.2.1.lookup id = pending.lookup id
  current : kept.2.2.currentSource = cache.currentSource
  seen : ∀ key ∈ kept.2.2.seen, key ∈ cache.seen
  holds : ∀ key ∈ cache.seen, key.2 ∉ taken → key ∈ kept.2.2.seen
  released : ∀ id ∈ pending, id ∉ kept.2.1 → (source, id) ∉ kept.2.2.seen

/-- Nothing is evicted. -/
theorem Evicts.none (source : String) (order : List UInt64)
    (pending : HashMap UInt64 PendingTemplate) (cache : TemplateDedupCache) :
    Evicts source order pending cache [] (order, pending, cache) where
  front := rfl
  gone := nofun
  stays _ _ := rfl
  current := rfl
  seen _ h := h
  holds _ h _ := h
  released _ hmem hnot := absurd hmem hnot

/-- The head of the queue goes first, and the rest of the queue is cut with the
pending set and the cache that it leaves. -/
theorem Evicts.cons {source : String} {oldestId : UInt64}
    {order taken : List UInt64} {pending pending' : HashMap UInt64 PendingTemplate}
    {cache cache' : TemplateDedupCache}
    {kept : List UInt64 × HashMap UInt64 PendingTemplate × TemplateDedupCache}
    (hgone : pending'.lookup oldestId = .none)
    (hstays : ∀ id ≠ oldestId, pending'.lookup id = pending.lookup id)
    (hcurrent : cache'.currentSource = cache.currentSource)
    (hseen : ∀ key ∈ cache'.seen, key ∈ cache.seen)
    (hholds : ∀ key ∈ cache.seen, key.2 ≠ oldestId → key ∈ cache'.seen)
    (hreleased : oldestId ∈ pending → (source, oldestId) ∉ cache'.seen)
    (h : Evicts source order pending' cache' taken kept) :
    Evicts source (oldestId :: order) pending cache (oldestId :: taken) kept := by
  constructor
  · rw [List.cons_append, ← h.front]
  · intro id hid
    by_cases htaken : id ∈ taken
    · exact h.gone id htaken
    · have hid : id = oldestId := (List.mem_cons.mp hid).resolve_right htaken
      rw [h.stays id htaken, hid, hgone]
  · intro id hid
    obtain ⟨hne, htaken⟩ := List.ne_and_not_mem_of_not_mem_cons hid
    rw [h.stays id htaken, hstays id hne]
  · rw [h.current, hcurrent]
  · intro key hkey
    exact hseen key (h.seen key hkey)
  · intro key hkey hnot
    obtain ⟨hne, htaken⟩ := List.ne_and_not_mem_of_not_mem_cons hnot
    exact h.holds key (hholds key hkey hne) htaken
  · intro id hid hnot hkept
    by_cases hold : id = oldestId
    · subst hold
      exact hreleased hid (h.seen _ hkept)
    · have hmem : id ∈ pending' := by
        rwa [← AList.lookup_isSome, hstays id hold, AList.lookup_isSome]
      exact h.released id hmem hnot hkept

/-- The oldest pending template goes first. -/
theorem Evicts.pending {source : String} {oldestId : UInt64}
    {order taken : List UInt64} {pending : HashMap UInt64 PendingTemplate}
    {cache : TemplateDedupCache}
    {kept : List UInt64 × HashMap UInt64 PendingTemplate × TemplateDedupCache}
    (h : Evicts source order (pending.erase oldestId)
      (cache.remove source oldestId) taken kept) :
    Evicts source (oldestId :: order) pending cache (oldestId :: taken) kept := by
  refine Evicts.cons ?_ ?_ ?_ ?_ ?_ ?_ h
  · exact AList.lookup_erase _ _
  · intro id hne
    exact AList.lookup_erase_ne hne
  · rfl
  · intro key hkey
    exact Finset.mem_of_mem_erase hkey
  · intro key hkey hne
    refine Finset.mem_erase.mpr ⟨?_, hkey⟩
    rintro rfl
    exact hne rfl
  · intro _
    exact Finset.notMem_erase _ _

/-- An id that is not pending any more leaves the queue. -/
theorem Evicts.absent {source : String} {oldestId : UInt64}
    {order taken : List UInt64} {pending : HashMap UInt64 PendingTemplate}
    {cache : TemplateDedupCache}
    {kept : List UInt64 × HashMap UInt64 PendingTemplate × TemplateDedupCache}
    (hmem : oldestId ∉ pending)
    (h : Evicts source order pending cache taken kept) :
    Evicts source (oldestId :: order) pending cache (oldestId :: taken) kept :=
  h.cons (AList.lookup_eq_none.mpr hmem) (fun _ _ => rfl) rfl (fun _ hkey => hkey)
    (fun _ hkey _ => hkey) (fun hin => absurd hin hmem)

theorem evicts_evictPending (source : String) (order : List UInt64)
    (pending : HashMap UInt64 PendingTemplate) (cache : TemplateDedupCache) :
    ∃ taken, Evicts source order pending cache taken
      (evictPending source order pending cache) := by
  induction order generalizing pending cache with
  | nil => exact ⟨[], .none source [] pending cache⟩
  | cons oldestId order ih =>
      unfold evictPending
      by_cases hroom : pending.keys.length < 2
      · rw [if_pos hroom]
        exact ⟨[], .none source (oldestId :: order) pending cache⟩
      · rw [if_neg hroom]
        by_cases hmem : oldestId ∈ pending
        · rw [if_pos hmem]
          obtain ⟨taken, h⟩ := ih (pending.erase oldestId)
            (cache.remove source oldestId)
          exact ⟨oldestId :: taken, h.pending⟩
        · rw [if_neg hmem]
          obtain ⟨taken, h⟩ := ih pending cache
          exact ⟨oldestId :: taken, h.absent hmem⟩

/-- The pending templates that eviction takes when the template arrives. -/
def MainLoop.evicted (template : TemplateResponse) (s : MainLoop) :
    List ((_ : UInt64) × PendingTemplate) :=
  s.pendingTemplates.entries.filter fun e => e.1 ∉ (s.roomFor template).2.1

/-- What happened to the store: the templates stored so far, and the place in
that order of the last one stored under each id. Noted are the ids stored since
the cache last started over; gone are the cache keys of the templates that were
evicted or swept and did not arrive again. -/
structure StoreRecord where
  stored : List PendingTemplate := []
  place : UInt64 → ℕ := fun _ => 0
  noted : List UInt64 := []
  gone : List (String × UInt64) := []

namespace StoreRecord

/-- The cache keys of pending templates. -/
def keysOf (entries : List ((_ : UInt64) × PendingTemplate)) :
    List (String × UInt64) :=
  entries.map fun e => e.2.template.key

/-- A template arrives at the cache. -/
def arrive (cache : TemplateDedupCache) (template : TemplateResponse)
    (r : StoreRecord) : StoreRecord :=
  { r with
    noted :=
      if cache.startsOver template.sourceInstanceId template.templateId then []
      else r.noted
    gone := r.gone.filter (· ≠ template.key) }

/-- Pending templates are evicted or swept. -/
def lose (entries : List ((_ : UInt64) × PendingTemplate)) (r : StoreRecord) :
    StoreRecord :=
  { r with gone := keysOf entries ++ r.gone }

/-- A template is stored. -/
def enqueue (pt : PendingTemplate) (r : StoreRecord) : StoreRecord :=
  { r with
    stored := r.stored ++ [pt]
    place := Function.update r.place pt.template.templateId r.stored.length
    noted := pt.template.templateId :: r.noted }

/-- What an event adds to the record of the loop that it finds. -/
def after (cfg : GatewayConfig) (clock : Clock) (loop : MainLoop)
    (event : LoopEvent) (r : StoreRecord) : StoreRecord :=
  match event with
  | .template template =>
      let arrived := r.arrive loop.dedupCache template
      if loop.stores cfg template then
        (arrived.lose (loop.evicted template)).enqueue ⟨template, clock.now⟩
      else arrived
  | .sweep => r.lose (loop.expired cfg clock)
  | _ => r

end StoreRecord

/-- The loop with the record of its store. -/
structure StoreHistory where
  loop : MainLoop
  record : StoreRecord := {}

namespace StoreHistory

def initial (now : ℕ) (jobTable : JobTable) : StoreHistory where
  loop := .initial now jobTable

def step (cfg : GatewayConfig) (s : StoreHistory) (label : Clock × LoopEvent) :
    Option StoreHistory :=
  (s.loop.next cfg label).map fun loop =>
    { loop, record := s.record.after cfg label.1 s.loop label.2 }

/-- No template is stored whose id the queue lists. -/
def NoRepeat (cfg : GatewayConfig) (s : StoreHistory) : Clock × LoopEvent → Prop
  | (_, .template template) =>
      s.loop.stores cfg template = true → template.templateId ∉ s.loop.pendingOrder
  | _ => True

instance (cfg : GatewayConfig) (s : StoreHistory) (label : Clock × LoopEvent) :
    Decidable (s.NoRepeat cfg label) := by
  unfold NoRepeat
  split <;> infer_instance

end StoreHistory

namespace PendingStore

/-- The cache holds templates of its current source, and none that was evicted
or swept and did not arrive again. Templates wait under their own ids. -/
structure Released (p : PendingStore) (r : StoreRecord) : Prop where
  keyed : ∀ id pt, p.templates.lookup id = some pt → pt.template.templateId = id
  source : ∀ key ∈ p.cache.seen, p.cache.currentSource = some key.1
  gone : ∀ key ∈ r.gone, key ∉ p.cache.seen

/-- The queue lists the pending templates, oldest first, and the cache holds
those noted. -/
structure Coupled (p : PendingStore) (r : StoreRecord) : Prop where
  nodup : p.order.Nodup
  listed : ∀ id, id ∈ p.order ↔ id ∈ p.templates
  placed : ∀ id pt, p.templates.lookup id = some pt →
    r.stored[r.place id]? = some pt
  sorted : (p.order.map r.place).Pairwise (· < ·)
  noted : ∀ id pt, p.templates.lookup id = some pt → id ∈ r.noted →
    pt.template.key ∈ p.cache.seen

variable {cfg : GatewayConfig} {clock : Clock} {s : MainLoop} {event : LoopEvent}
  {p : PendingStore} {r : StoreRecord}

/-- A template arrives at the cache. -/
theorem Released.arrive (hs : s.store.Released r) (template : TemplateResponse) :
    Released { s.store with cache := s.noting template }
      (r.arrive s.dedupCache template) where
  keyed := hs.keyed
  source := by
    intro key hkey
    have hnoted := TemplateDedupCache.isDuplicate_noted template.sourceInstanceId
      template.templateId s.dedupCache
    rcases TemplateDedupCache.mem_of_mem_isDuplicate hkey with rfl | ⟨hold, hsource⟩
    · exact hnoted.1
    · have hkeysource : s.dedupCache.currentSource = some key.1 := hs.source key hold
      exact hnoted.1.trans (hsource.symm.trans hkeysource)
  gone := by
    intro key hkey hseen
    obtain ⟨hgone, hne⟩ := List.mem_filter.mp hkey
    rcases TemplateDedupCache.mem_of_mem_isDuplicate hseen with rfl | ⟨hold, -⟩
    · exact of_decide_eq_true hne rfl
    · exact hs.gone key hgone hold

/-- What was evicted for a template is not in the cache. -/
theorem Released.evict (hs : s.store.Released r) (template : TemplateResponse) :
    Released { s.store with
        templates := (s.roomFor template).2.1
        cache := (s.roomFor template).2.2 }
      ((r.arrive s.dedupCache template).lose (s.evicted template)) := by
  have harrived := hs.arrive template
  obtain ⟨taken, hevicts⟩ := evicts_evictPending template.sourceInstanceId
    s.pendingOrder s.pendingTemplates (s.noting template)
  have hsource : (s.noting template).currentSource = some template.sourceInstanceId :=
    (TemplateDedupCache.isDuplicate_noted _ _ _).1
  refine ⟨?_, ?_, ?_⟩
  · intro id pt hlookup
    exact hs.keyed id pt (lookup_of_lookup_evictPending hlookup)
  · intro key hkey
    exact hevicts.current.trans (harrived.source key (hevicts.seen key hkey))
  · intro key hkey hseen
    rcases List.mem_append.mp hkey with hkey | hkey
    · obtain ⟨⟨id, pt⟩, he, rfl⟩ := List.mem_map.mp hkey
      obtain ⟨hentry, hnot⟩ := List.mem_filter.mp he
      have hlookup : s.pendingTemplates.lookup id = some pt :=
        AList.mem_lookup_iff.mpr hentry
      have hid : pt.template.templateId = id := hs.keyed id pt hlookup
      -- a template of another source is not in the cache at all
      have hmine := harrived.source _ (hevicts.seen _ hseen)
      have hkey : (template.sourceInstanceId, id) = pt.template.key :=
        Prod.ext (Option.some.inj (hsource.symm.trans hmine)) hid.symm
      have hfree := hevicts.released id
        (AList.mem_keys.mpr (List.mem_map_of_mem hentry)) (of_decide_eq_true hnot)
      rw [hkey] at hfree
      exact hfree hseen
    · exact harrived.gone key hkey (hevicts.seen key hseen)

/-- Nothing of a released cache is noted anew while templates leave it. -/
theorem Released.mono {q : PendingStore} (hs : p.Released r)
    (htemplates : ∀ id pt, q.templates.lookup id = some pt →
      p.templates.lookup id = some pt)
    (hcache : q.cache = p.cache) :
    q.Released r where
  keyed id pt h := hs.keyed id pt (htemplates id pt h)
  source key hkey := by
    rw [hcache] at hkey ⊢
    exact hs.source key hkey
  gone key hkey := by
    rw [hcache]
    exact hs.gone key hkey

/-- A fold of removals. -/
theorem foldl_remove (entries : List ((_ : UInt64) × PendingTemplate))
    (cache : TemplateDedupCache) :
    (entries.foldl (fun cache e =>
      cache.remove e.2.template.sourceInstanceId e.1) cache).currentSource =
        cache.currentSource ∧
    ∀ key, key ∈ (entries.foldl (fun cache e =>
      cache.remove e.2.template.sourceInstanceId e.1) cache).seen ↔
        key ∈ cache.seen ∧
          ∀ e ∈ entries, key ≠ (e.2.template.sourceInstanceId, e.1) := by
  induction entries generalizing cache with
  | nil => simp
  | cons e entries ih =>
      obtain ⟨hsource, hseen⟩ := ih (cache.remove e.2.template.sourceInstanceId e.1)
      refine ⟨hsource, ?_⟩
      intro key
      rw [List.foldl_cons, hseen key, TemplateDedupCache.remove, Finset.mem_erase,
        List.forall_mem_cons]
      tauto

theorem Released.storeTurn (hs : s.store.Released r)
    (hturn : s.StoreTurn cfg clock event p) :
    p.Released (r.after cfg clock s event) := by
  cases hturn with
  | same htemplate hsweep =>
      cases event with
      | template template => exact absurd rfl (htemplate template)
      | sweep =>
          rw [StoreRecord.after, hsweep rfl]
          exact hs
      | _ => exact hs
  | @notes template hstores =>
      rw [StoreRecord.after, hstores]
      exact hs.arrive template
  | @enqueues template hstores =>
      rw [StoreRecord.after, hstores]
      have hkept := hs.evict template
      refine ⟨?_, hkept.source, hkept.gone⟩
      intro id pt hlookup
      by_cases hid : id = template.templateId
      · subst hid
        rw [AList.lookup_insert, Option.some.injEq] at hlookup
        rw [← hlookup]
      · rw [AList.lookup_insert_ne hid] at hlookup
        exact hkept.keyed id pt hlookup
  | answers hdegraded hmem =>
      exact hs.mono (fun _ _ h => HashMap.lookup_of_lookup_erase h) rfl
  | resumes => exact hs.mono (fun _ _ h => h) rfl
  | sweeps hexpired =>
      obtain ⟨hsource, hseen⟩ := foldl_remove (s.expired cfg clock) s.dedupCache
      refine ⟨?_, ?_, ?_⟩
      · intro id pt hlookup
        exact hs.keyed id pt (HashMap.lookup_of_lookup_retain hlookup)
      · intro key hkey
        exact hsource.trans (hs.source key ((hseen key).mp hkey).1)
      · intro key hkey hmem
        obtain ⟨hold, hnot⟩ := (hseen key).mp hmem
        rcases List.mem_append.mp hkey with hkey | hkey
        · obtain ⟨⟨id, pt⟩, he, rfl⟩ := List.mem_map.mp hkey
          have hlookup : s.pendingTemplates.lookup id = some pt :=
            AList.mem_lookup_iff.mpr (List.mem_of_mem_filter he)
          have hid : pt.template.templateId = id := hs.keyed id pt hlookup
          exact hnot ⟨id, pt⟩ he (Prod.ext rfl hid)
        · exact hs.gone key hkey hold
  | clears hevent =>
      rcases hevent with rfl | rfl
      · exact hs.mono (fun _ _ h => by cases h) rfl
      · exact hs.mono (fun _ _ h => by cases h) rfl

/-- A template arrives at the cache: what it noted it still holds, unless it
starts over. -/
theorem Coupled.arrive (hs : s.store.Coupled r) (template : TemplateResponse) :
    Coupled { s.store with cache := s.noting template }
      (r.arrive s.dedupCache template) where
  nodup := hs.nodup
  listed := hs.listed
  placed := hs.placed
  sorted := hs.sorted
  noted := by
    intro id pt hlookup hnoted
    by_cases hover : s.dedupCache.startsOver template.sourceInstanceId
        template.templateId = true
    · rw [StoreRecord.arrive, hover] at hnoted
      cases hnoted
    · rw [StoreRecord.arrive, if_neg hover] at hnoted
      exact TemplateDedupCache.mem_isDuplicate_of_mem (by simpa using hover)
        (hs.noted id pt hlookup hnoted)

theorem Coupled.lose (hs : p.Coupled r)
    (entries : List ((_ : UInt64) × PendingTemplate)) : p.Coupled (r.lose entries) :=
  ⟨hs.nodup, hs.listed, hs.placed, hs.sorted, hs.noted⟩

/-- Ids leave the queue together with their templates. -/
theorem Coupled.filter {q : PendingStore} (hs : p.Coupled r) (keep : UInt64 → Bool)
    (horder : q.order = p.order.filter keep)
    (hlookup : ∀ id, q.templates.lookup id =
      if keep id then p.templates.lookup id else none)
    (hcache : ∀ id pt, q.templates.lookup id = some pt →
      pt.template.key ∈ p.cache.seen → pt.template.key ∈ q.cache.seen) :
    q.Coupled r := by
  have hbefore : ∀ id pt, q.templates.lookup id = some pt →
      p.templates.lookup id = some pt := by
    intro id pt h
    rw [hlookup] at h
    split at h
    · exact h
    · cases h
  refine ⟨?_, ?_, ?_, ?_, ?_⟩
  · rw [horder]
    exact hs.nodup.filter keep
  · intro id
    rw [horder, List.mem_filter, hs.listed, ← AList.lookup_isSome,
      ← AList.lookup_isSome, hlookup]
    by_cases hkeep : keep id = true
    · simp [hkeep]
    · simp [hkeep]
  · intro id pt h
    exact hs.placed id pt (hbefore id pt h)
  · rw [horder]
    exact hs.sorted.sublist (List.filter_sublist.map _)
  · intro id pt h hnoted
    exact hcache id pt h (hs.noted id pt (hbefore id pt h) hnoted)

/-- A template is stored under an id that is not listed. -/
theorem Coupled.enqueue (hs : p.Coupled r) (pt : PendingTemplate)
    (hfresh : pt.template.templateId ∉ p.order)
    (hseen : pt.template.key ∈ p.cache.seen) :
    Coupled { p with
        templates := p.templates.insert pt.template.templateId pt
        order := p.order ++ [pt.template.templateId] } (r.enqueue pt) := by
  -- the places given so far stay, and lie before the new one
  have hnew : (r.enqueue pt).place pt.template.templateId = r.stored.length :=
    Function.update_self ..
  have hplace : ∀ id, id ≠ pt.template.templateId →
      (r.enqueue pt).place id = r.place id :=
    fun id hne => Function.update_of_ne hne ..
  have hlisted : ∀ id ∈ p.order, (r.enqueue pt).place id = r.place id := by
    intro id hid
    refine hplace id ?_
    rintro rfl
    exact hfresh hid
  refine ⟨?_, ?_, ?_, ?_, ?_⟩
  · refine List.Nodup.append hs.nodup (List.nodup_singleton _) ?_
    intro id hid hnew
    rw [List.mem_singleton.mp hnew] at hid
    exact hfresh hid
  · intro id
    rw [List.mem_append, List.mem_singleton, hs.listed, AList.mem_insert, or_comm]
  · intro id pt' hlookup
    by_cases hid : id = pt.template.templateId
    · subst hid
      rw [AList.lookup_insert, Option.some.injEq] at hlookup
      subst hlookup
      rw [hnew]
      exact List.getElem?_concat_length
    · rw [AList.lookup_insert_ne hid] at hlookup
      have hold := hs.placed id pt' hlookup
      obtain ⟨hlt, -⟩ := List.getElem?_eq_some_iff.mp hold
      rw [hplace id hid]
      exact (List.getElem?_append_left hlt).trans hold
  · rw [List.map_append, List.map_congr_left hlisted]
    refine List.pairwise_append.mpr ⟨hs.sorted, List.pairwise_singleton _ _, ?_⟩
    intro m hm n hn
    obtain ⟨id, hid, rfl⟩ := List.mem_map.mp hm
    obtain ⟨pt', hlookup⟩ := Option.isSome_iff_exists.mp
      (AList.lookup_isSome.mpr ((hs.listed id).mp hid))
    obtain ⟨hlt, -⟩ := List.getElem?_eq_some_iff.mp (hs.placed id pt' hlookup)
    rw [List.map_singleton, List.mem_singleton] at hn
    rw [hn, hnew]
    exact hlt
  · intro id pt' hlookup hnoted
    by_cases hid : id = pt.template.templateId
    · subst hid
      rw [AList.lookup_insert, Option.some.injEq] at hlookup
      rw [← hlookup]
      exact hseen
    · rw [AList.lookup_insert_ne hid] at hlookup
      exact hs.noted id pt' hlookup ((List.mem_cons.mp hnoted).resolve_left hid)

/-- What is evicted leaves the queue with its template. -/
theorem Coupled.evict (hs : s.store.Coupled r) (hreleased : s.store.Released r)
    (template : TemplateResponse) :
    Coupled { s.store with
        templates := (s.roomFor template).2.1
        order := (s.roomFor template).1
        cache := (s.roomFor template).2.2 }
      (r.arrive s.dedupCache template) := by
  obtain ⟨taken, hevicts⟩ := evicts_evictPending template.sourceInstanceId
    s.pendingOrder s.pendingTemplates (s.noting template)
  have hnodup : (taken ++ (s.roomFor template).1).Nodup := by
    have horder : s.pendingOrder.Nodup := hs.nodup
    rwa [hevicts.front] at horder
  refine (hs.arrive template).filter (fun id => id ∉ taken) ?_ ?_ ?_
  · -- the rest of the queue has none of the ids taken
    have htaken : taken.filter (fun id => id ∉ taken) = [] := by simp
    have hrest : (s.roomFor template).1.filter (fun id => id ∉ taken) =
        (s.roomFor template).1 := by
      refine List.filter_eq_self.mpr ?_
      intro id hid
      have hnot : id ∉ taken := fun h => (List.nodup_append.mp hnodup).2.2 id h id hid rfl
      exact decide_eq_true hnot
    change _ = s.pendingOrder.filter _
    rw [hevicts.front, List.filter_append, htaken]
    exact hrest.symm
  · intro id
    by_cases hid : id ∈ taken
    · exact (hevicts.gone id hid).trans (by simp [hid])
    · exact (hevicts.stays id hid).trans (by simp [hid, MainLoop.store])
  · intro id pt hlookup hseen
    have hid : id ∉ taken := by
      intro hmem
      cases (hevicts.gone id hmem).symm.trans hlookup
    have hkey : pt.template.templateId = id :=
      hreleased.keyed id pt (lookup_of_lookup_evictPending hlookup)
    refine hevicts.holds _ hseen ?_
    rwa [TemplateResponse.key, hkey]

theorem Coupled.storeTurn (hs : s.store.Coupled r) (hreleased : s.store.Released r)
    (hturn : s.StoreTurn cfg clock event p)
    (hfresh : ∀ template, event = .template template → s.stores cfg template = true →
      template.templateId ∉ s.pendingOrder) :
    p.Coupled (r.after cfg clock s event) := by
  cases hturn with
  | same htemplate hsweep =>
      cases event with
      | template template => exact absurd rfl (htemplate template)
      | sweep => exact hs.lose _
      | _ => exact hs
  | @notes template hstores =>
      rw [StoreRecord.after, hstores]
      exact hs.arrive template
  | @enqueues template hstores =>
      rw [StoreRecord.after, hstores]
      have hnew : template.templateId ∉ s.pendingOrder := hfresh template rfl hstores
      obtain ⟨taken, hevicts⟩ := evicts_evictPending template.sourceInstanceId
        s.pendingOrder s.pendingTemplates (s.noting template)
      have hfront : s.pendingOrder = taken ++ (s.roomFor template).1 := hevicts.front
      rw [hfront, List.mem_append, not_or] at hnew
      exact ((hs.evict hreleased template).lose _).enqueue ⟨template, clock.now⟩ hnew.2
        (hevicts.holds _ (TemplateDedupCache.isDuplicate_noted _ _ _).2 hnew.1)
  | @answers v degraded hdegraded hmem =>
      refine hs.filter (fun id => id ≠ v.id) rfl ?_ fun _ _ _ h => h
      intro id
      by_cases hid : id = v.id
      · subst hid
        exact (AList.lookup_erase _ _).trans (by simp)
      · exact (AList.lookup_erase_ne hid).trans (by simp [hid, MainLoop.store])
  | resumes => exact ⟨hs.nodup, hs.listed, hs.placed, hs.sorted, hs.noted⟩
  | sweeps hexpired =>
      refine (hs.filter (fun id => id ∈ s.unexpired cfg clock) rfl ?_ ?_).lose _
      · intro id
        by_cases hid : id ∈ s.unexpired cfg clock
        · exact (HashMap.lookup_retain_of_mem hid).trans (by simp [hid, MainLoop.store])
        · exact (AList.lookup_eq_none.mpr hid).trans (by simp [hid])
      · intro id pt hlookup hseen
        refine ((foldl_remove _ _).2 _).mpr ⟨hseen, ?_⟩
        -- a template that is left was not swept
        rintro ⟨id', pt'⟩ he hkey
        obtain ⟨hentry, hold⟩ := List.mem_filter.mp he
        have hlookup' : s.pendingTemplates.lookup id' = some pt' :=
          AList.mem_lookup_iff.mpr hentry
        have hid : pt.template.templateId = id' := congrArg Prod.snd hkey
        have hid' : pt.template.templateId = id :=
          hreleased.keyed id pt (HashMap.lookup_of_lookup_retain hlookup)
        have hlookup : (s.unexpired cfg clock).lookup id = some pt := hlookup
        rw [MainLoop.unexpired, HashMap.lookup_retain, ← hid', hid, hlookup',
          Option.filter_eq_some_iff] at hlookup
        obtain ⟨hsame, hyoung⟩ := hlookup
        cases hsame
        exact absurd (of_decide_eq_true hold) (not_lt.mpr (of_decide_eq_true hyoung))
  | clears hevent =>
      have hcleared : Coupled { s.store with templates := ∅, order := [] } r :=
        hs.filter (fun _ => false) (by simp) (by simp) fun _ _ _ h => h
      rcases hevent with rfl | rfl
      · exact ⟨hcleared.nodup, hcleared.listed, hcleared.placed, hcleared.sorted,
          hcleared.noted⟩
      · exact ⟨hcleared.nodup, hcleared.listed, hcleared.placed, hcleared.sorted,
          hcleared.noted⟩

end PendingStore

namespace StoreHistory

/-- In every run a template that was evicted or swept is out of the dedup cache
until it arrives again. Where no template is stored whose id the queue lists,
the queue lists the pending templates once each, oldest first, and the cache
holds those stored since it last started over. -/
theorem coupled_of_run (cfg : GatewayConfig) (now : ℕ) (jobTable : JobTable)
    (labels : List (Clock × LoopEvent)) (s : StoreHistory)
    (hrun : run (step cfg) (initial now jobTable) labels = some s) :
    (∀ key ∈ s.record.gone, key ∉ s.loop.dedupCache.seen ∧
      (s.loop.dedupCache.isDuplicate key.1 key.2).1 = false) ∧
    (Along (step cfg) (NoRepeat cfg) (initial now jobTable) labels →
      s.loop.pendingOrder.Nodup ∧
      (∀ id, id ∈ s.loop.pendingOrder ↔ id ∈ s.loop.pendingTemplates) ∧
      (∀ id pt, s.loop.pendingTemplates.lookup id = some pt →
        s.record.stored[s.record.place id]? = some pt) ∧
      (s.loop.pendingOrder.map s.record.place).Pairwise (· < ·) ∧
      ∀ id pt, s.loop.pendingTemplates.lookup id = some pt → id ∈ s.record.noted →
        pt.template.key ∈ s.loop.dedupCache.seen) := by
  have hreleased : s.loop.store.Released s.record := by
    refine invariant_of_run (I := fun s => s.loop.store.Released s.record) ?_
      ⟨nofun, nofun, nofun⟩ hrun
    intro s label t hs hstep
    obtain ⟨loop, hnext, rfl⟩ := Option.map_eq_some_iff.mp hstep
    obtain ⟨⟨loop, out⟩, hturn, rfl⟩ := Option.map_eq_some_iff.mp hnext
    exact hs.storeTurn (MainLoop.storeTurn_of_turn hturn)
  refine ⟨?_, ?_⟩
  · intro key hkey
    have hgone := hreleased.gone key hkey
    exact ⟨hgone, TemplateDedupCache.isDuplicate_of_notMem hgone⟩
  · intro halong
    have hinit : (initial now jobTable).loop.store.Released {} ∧
        (initial now jobTable).loop.store.Coupled {} := by
      refine ⟨⟨nofun, nofun, nofun⟩, List.nodup_nil, ?_, nofun, List.Pairwise.nil, nofun⟩
      intro id
      exact ⟨nofun, nofun⟩
    have hs : s.loop.store.Released s.record ∧ s.loop.store.Coupled s.record := by
      refine invariant_of_along
        (I := fun s => s.loop.store.Released s.record ∧ s.loop.store.Coupled s.record) ?_
        hinit halong hrun
      rintro s ⟨clock, event⟩ t ⟨hreleased, hs⟩ hfresh hstep
      obtain ⟨loop, hnext, rfl⟩ := Option.map_eq_some_iff.mp hstep
      obtain ⟨⟨loop, out⟩, hturn, rfl⟩ := Option.map_eq_some_iff.mp hnext
      have hstore := MainLoop.storeTurn_of_turn hturn
      refine ⟨hreleased.storeTurn hstore, hs.storeTurn hreleased hstore ?_⟩
      rintro template rfl
      exact hfresh
    exact ⟨hs.2.nodup, hs.2.listed, hs.2.placed, hs.2.sorted, hs.2.noted⟩

/-- Three templates, the first of which is evicted. -/
def evictionRun : List (Clock × LoopEvent) :=
  JobHistory.everySecond [JobHistory.templateOn 1 1 JobHistory.firstHash,
    JobHistory.templateOn 2 1 JobHistory.firstHash,
    JobHistory.templateOn 3 1 JobHistory.firstHash]

theorem coupled_evictionRun :
    ∃ s, run (step VerdictSystem.inlineConfig)
        (initial 0 { retentionMs := 300000, maxEntries := 1000 }) evictionRun = some s ∧
      s.record.gone = [("tm-1", 1)] ∧ ("tm-1", 1) ∉ s.loop.dedupCache.seen ∧
      s.loop.pendingOrder.Nodup := by
  have hgone : (run (step VerdictSystem.inlineConfig)
      (initial 0 { retentionMs := 300000, maxEntries := 1000 }) evictionRun).map
        (·.record.gone) = some [("tm-1", 1)] := by
    decide +kernel
  obtain ⟨s, hrun, hs⟩ := Option.map_eq_some_iff.mp hgone
  obtain ⟨hreleased, hcoupled⟩ := coupled_of_run _ _ _ _ s hrun
  refine ⟨s, hrun, hs, (hreleased _ ?_).1, (hcoupled (by decide +kernel)).1⟩
  rw [hs]
  exact List.mem_singleton.mpr rfl

/-- A template of one source, then one of another. -/
def twoSourcesRun : List (Clock × LoopEvent) :=
  JobHistory.everySecond [JobHistory.templateOn 1 1 JobHistory.firstHash,
    .template { TemplateResponse.regtest with
      templateId := 2, sourceInstanceId := "tm-2" }]

/-- A change of source resets the cache and leaves the templates of the former
source pending. -/
theorem not_cached_twoSourcesRun :
    ∃ s pt, run (step VerdictSystem.inlineConfig)
        (initial 0 { retentionMs := 300000, maxEntries := 1000 }) twoSourcesRun =
        some s ∧
      s.loop.pendingTemplates.lookup 1 = some pt ∧
      pt.template.key ∉ s.loop.dedupCache.seen := by
  have hlookup : (run (step VerdictSystem.inlineConfig)
      (initial 0 { retentionMs := 300000, maxEntries := 1000 }) twoSourcesRun).map
        (fun s => (s.loop.pendingTemplates.lookup 1).map fun pt =>
          decide (pt.template.key ∉ s.loop.dedupCache.seen)) = some (some true) := by
    decide +kernel
  obtain ⟨s, hrun, hs⟩ := Option.map_eq_some_iff.mp hlookup
  obtain ⟨pt, hpt, hkey⟩ := Option.map_eq_some_iff.mp hs
  exact ⟨s, pt, hrun, hpt, of_decide_eq_true hkey⟩

end StoreHistory

end ReserveGrid.Gateway
