import ReserveGrid.Gateway.Jobs
import ReserveGrid.Support.AgedWindow
import ReserveGrid.Support.SortedMap

/-!
# The job table holds the latest jobs

Jobs are put in the table in the order of their ids and of their creation. Stale
jobs are evicted by age and a full table loses its least id, so that the table
is at any time a window on the jobs put in it: their end, no longer than the
table's capacity. The lookups by recency read that window from its end.
-/

namespace ReserveGrid.Gateway

open Support
open AgedWindow (Event history)

namespace JobTable

/-! ## Lookups by recency -/

/-- The most recently inserted job: the one with the highest id. -/
def latest (table : JobTable) : Option JobRecord :=
  table.jobs.valuesInOrder.getLast?

/-- The most recently inserted job for a previous hash. -/
def latestForPrevhash (prevHash : Bytes32) (table : JobTable) :
    Option JobRecord :=
  table.jobs.valuesInOrder.reverse.find? fun job => job.prevHash = prevHash

/-! ## Runs -/

/-- What happens to the table: a job is put in, or stale jobs are evicted. -/
def apply (table : JobTable) : Event JobRecord → JobTable
  | .put now job => table.insert now job
  | .expire now => table.evictStale now

def run (table : JobTable) (events : List (Event JobRecord)) : JobTable :=
  events.foldl apply table

/-- The table holds the jobs of a window in the order of their ids. -/
structure Holds (retentionMs : UInt64) (maxEntries : ℕ) (table : JobTable)
    (held : List JobRecord) : Prop where
  retentionMs : table.retentionMs = retentionMs
  maxEntries : table.maxEntries = maxEntries
  jobs : HashMap.Lists JobRecord.jobId table.jobs held

variable {retentionMs : UInt64} {maxEntries : ℕ} {table : JobTable}
  {held : List JobRecord}

theorem Holds.evictStale (h : Holds retentionMs maxEntries table held) (now : ℕ) :
    Holds retentionMs maxEntries (table.evictStale now)
      (AgedWindow.expire JobRecord.createdAt (millis retentionMs) now held) where
  retentionMs := h.retentionMs
  maxEntries := h.maxEntries
  jobs := by
    have hjobs := h.jobs.retain fun job =>
      now - job.createdAt < millis table.retentionMs
    rw [h.retentionMs] at hjobs
    rw [JobTable.evictStale, h.retentionMs]
    exact hjobs

theorem Holds.evictOldest (h : Holds retentionMs maxEntries table held) :
    Holds retentionMs maxEntries table.evictOldest
      (AgedWindow.makeRoom maxEntries held) := by
  have hiff : table.maxEntries ≤ table.jobs.keys.length ↔
      maxEntries ≤ held.length := by
    rw [h.maxEntries, h.jobs.length_keys]
  by_cases hfull : maxEntries ≤ held.length
  · rw [JobTable.evictOldest, if_pos (hiff.mpr hfull), AgedWindow.makeRoom,
      if_pos hfull, h.jobs.min?_keys]
    cases held with
    | nil => exact h
    | cons oldest rest => exact ⟨h.retentionMs, h.maxEntries, h.jobs.erase_head⟩
  · rw [JobTable.evictOldest, if_neg (fun hcode => hfull (hiff.mp hcode)),
      AgedWindow.makeRoom, if_neg hfull]
    exact h

/-- An event takes the table from window to window, when the id of a new job is
above those held. -/
theorem Holds.apply (h : Holds retentionMs maxEntries table held)
    {e : Event JobRecord}
    (hnew : ∀ job ∈ e.item, ∀ old ∈ held, old.jobId < job.jobId) :
    Holds retentionMs maxEntries (table.apply e)
      (AgedWindow.step JobRecord.createdAt (millis retentionMs) maxEntries held
        e) := by
  match e, hnew with
  | .put now job, hnew =>
      have hroom := (h.evictStale now).evictOldest
      refine ⟨hroom.retentionMs, hroom.maxEntries, hroom.jobs.insert_last ?_⟩
      intro old hold
      apply hnew job rfl
      apply List.mem_of_mem_filter
      exact AgedWindow.makeRoom_suffix.subset hold
  | .expire now, _ => exact h.evictStale now

theorem Holds.run {past : List JobRecord}
    (h : Holds retentionMs maxEntries table held) (hpast : held.Sublist past)
    {events : List (Event JobRecord)}
    (hids : (past ++ history events).Pairwise fun a b => a.jobId < b.jobId) :
    Holds retentionMs maxEntries (table.run events)
      (AgedWindow.run JobRecord.createdAt (millis retentionMs) maxEntries held
        events) := by
  induction events generalizing table held past with
  | nil => exact h
  | cons e rest ih =>
      rw [AgedWindow.history_cons, ← List.append_assoc] at hids
      refine ih ?_ (AgedWindow.step_sublist hpast e) hids
      apply h.apply
      intro job hjob old hold
      have hbefore := (List.pairwise_append.mp hids).1
      rw [List.pairwise_append] at hbefore
      apply hbefore.2.2 old (hpast.subset hold)
      rw [history, List.filterMap_cons_some hjob]
      exact List.mem_cons_self

/-! ## The gateway's jobs are in order -/

/-- Jobs enter the table in the order of their ids and of their creation. -/
structure InCreationOrder (events : List (Event JobRecord)) : Prop where
  ids : (history events).Pairwise fun a b => a.jobId < b.jobId
  createdAt : (history events).Pairwise fun a b => a.createdAt ≤ b.createdAt

end JobTable

/-- Templates are made jobs in turn. With the feed come the events of its job
table. -/
def broadcastAll (feed : JobFeed) :
    List (Clock × TemplateResponse) → JobFeed × List (Event JobRecord)
  | [] => (feed, [])
  | (clock, template) :: rest =>
      match broadcastJobFromTemplate clock template feed with
      | (next, none) => broadcastAll next rest
      | (next, some job) =>
          let (last, events) := broadcastAll next rest
          (last, .put clock.now job :: events)

theorem jobFromTemplate_createdAt {clock : Clock} {jobId : UInt32}
    {active : Option Bytes32} {template : TemplateResponse} {job : JobRecord}
    (h : jobFromTemplate clock jobId active template = some job) :
    job.createdAt = clock.now := by
  unfold jobFromTemplate at h
  split at h
  · rw [Option.some.injEq] at h
    rw [← h]
  · cases h

theorem prepareJob_createdAt {clock : Clock} {template : TemplateResponse}
    {feed : JobFeed} {job : JobRecord}
    (h : (prepareJob clock template feed).2 = some job) :
    job.createdAt = clock.now := by
  unfold prepareJob at h
  split at h
  · cases h
  · split at h
    · cases h
    · rename_i hjob
      rw [Option.some.injEq] at h
      subst h
      exact jobFromTemplate_createdAt hjob

/-- A job made of a template is created at the time of the clock, and put in the
job table then. -/
theorem broadcastJobFromTemplate_cases (clock : Clock) (template : TemplateResponse)
    (feed : JobFeed) :
    (∃ issued jobAlloc, feed.jobAlloc.allocate = (issued, jobAlloc) ∧
      broadcastJobFromTemplate clock template feed =
        ({ feed with jobAlloc }, none)) ∨
    ∃ job jobAlloc next, feed.jobAlloc.allocate = (some job.jobId, jobAlloc) ∧
      job.createdAt = clock.now ∧
      broadcastJobFromTemplate clock template feed = (next, some job) ∧
      next.jobAlloc = jobAlloc ∧
      next.jobTable = feed.jobTable.insert clock.now job := by
  rw [broadcastJobFromTemplate]
  rcases prepareJob_cases clock template feed with
    ⟨issued, jobAlloc, halloc, hmade⟩ | ⟨job, jobAlloc, halloc, -, -, hmade⟩
  · rw [hmade]
    exact Or.inl ⟨issued, jobAlloc, halloc, rfl⟩
  · have hcreated := prepareJob_createdAt (congrArg Prod.snd hmade)
    rw [hmade]
    exact Or.inr ⟨job, jobAlloc, _, halloc, hcreated, rfl, rfl, rfl⟩

/-- The events are what happens to the job table. -/
theorem broadcastAll_jobTable (feed : JobFeed)
    (labels : List (Clock × TemplateResponse)) :
    (broadcastAll feed labels).1.jobTable =
      feed.jobTable.run (broadcastAll feed labels).2 := by
  induction labels generalizing feed with
  | nil => rfl
  | cons label rest ih =>
      obtain ⟨clock, template⟩ := label
      rcases broadcastJobFromTemplate_cases clock template feed with
        ⟨issued, jobAlloc, -, hmade⟩ |
        ⟨job, jobAlloc, next, -, -, hmade, -, htable⟩
      · simp only [broadcastAll, hmade]
        exact ih _
      · simp only [broadcastAll, hmade]
        rw [ih next, htable]
        rfl

/-- Ids and times of creation go up from those of the jobs made before. -/
theorem broadcastAll_inOrder {feed : JobFeed} {past : List (Event JobRecord)}
    (hpast : JobTable.InCreationOrder past)
    (habove : feed.jobAlloc.Above ((history past).map JobRecord.jobId))
    {labels : List (Clock × TemplateResponse)}
    (hclock : labels.Pairwise fun a b => a.1.now ≤ b.1.now)
    (hlater : ∀ old ∈ history past, ∀ label ∈ labels,
      old.createdAt ≤ label.1.now) :
    JobTable.InCreationOrder (past ++ (broadcastAll feed labels).2) := by
  induction labels generalizing feed past with
  | nil =>
      rw [broadcastAll, List.append_nil]
      exact hpast
  | cons label rest ih =>
      obtain ⟨clock, template⟩ := label
      rw [List.pairwise_cons] at hclock
      have hrest : ∀ old ∈ history past, ∀ label ∈ rest,
          old.createdAt ≤ label.1.now :=
        fun old hold label hlabel =>
          hlater old hold label (List.mem_cons_of_mem _ hlabel)
      rcases broadcastJobFromTemplate_cases clock template feed with
        ⟨issued, jobAlloc, halloc, hmade⟩ |
        ⟨job, jobAlloc, next, halloc, hcreated, hmade, hnext, -⟩
      · simp only [broadcastAll, hmade]
        have hstill := habove.allocate
        rw [halloc] at hstill
        exact ih hpast hstill hclock.2 hrest
      · simp only [broadcastAll, hmade]
        rw [List.append_cons]
        have hhistory : history (past ++ [.put clock.now job]) =
            history past ++ [job] := AgedWindow.history_append _ _
        apply ih _ _ hclock.2
        · intro old hold later hlabel
          rw [hhistory, List.mem_append, List.mem_singleton] at hold
          rcases hold with hold | rfl
          · exact hrest old hold later hlabel
          · rw [hcreated]
            exact hclock.1 later hlabel
        · have hlt := habove.lt_of_allocate halloc
          constructor
          · rw [hhistory, List.pairwise_append]
            refine ⟨hpast.ids, List.pairwise_singleton _ _, ?_⟩
            intro old hold new hnew
            rw [List.mem_singleton.mp hnew]
            exact hlt _ (List.mem_map_of_mem hold)
          · rw [hhistory, List.pairwise_append]
            refine ⟨hpast.createdAt, List.pairwise_singleton _ _, ?_⟩
            intro old hold new hnew
            rw [List.mem_singleton.mp hnew, hcreated]
            exact hlater old hold _ List.mem_cons_self
        · rw [hnext, hhistory]
          intro hlive id hid
          apply habove.allocate_some halloc hlive
          simpa [or_comm] using hid

/-- The jobs of a gateway process are put in the job table in the order of their
ids and of their creation, by a clock that does not go back. -/
theorem broadcastAll_inCreationOrder (jobTable : JobTable)
    {labels : List (Clock × TemplateResponse)}
    (hclock : labels.Pairwise fun a b => a.1.now ≤ b.1.now) :
    JobTable.InCreationOrder (broadcastAll { jobTable } labels).2 := by
  have hempty : JobTable.InCreationOrder [] :=
    ⟨List.Pairwise.nil, List.Pairwise.nil⟩
  apply broadcastAll_inOrder hempty _ hclock
  · intro old hold
    cases hold
  · intro _ id hid
    cases hid

/-! ## The window -/

namespace JobTable

variable {retentionMs : UInt64} {maxEntries : ℕ} {table : JobTable}
  {held : List JobRecord}

/-- A new table after the events. -/
def afterEvents (retentionMs : UInt64) (maxEntries : ℕ)
    (events : List (Event JobRecord)) : JobTable :=
  run { retentionMs, maxEntries } events

theorem holds_afterEvents (retentionMs : UInt64) (maxEntries : ℕ)
    {events : List (Event JobRecord)} (h : InCreationOrder events) :
    Holds retentionMs maxEntries (afterEvents retentionMs maxEntries events)
      (AgedWindow.run JobRecord.createdAt (millis retentionMs) maxEntries []
        events) := by
  have hempty : Holds retentionMs maxEntries { retentionMs, maxEntries } [] :=
    ⟨rfl, rfl, HashMap.Lists.empty JobRecord.jobId⟩
  exact hempty.run (List.Sublist.refl []) h.ids

theorem Holds.get_iff (h : Holds retentionMs maxEntries table held) (id : UInt32)
    (job : JobRecord) :
    table.get id = some job ↔ job ∈ held ∧ job.jobId = id :=
  h.jobs.lookup_iff id job

/-- The last entry is the first found from the end. -/
theorem latest_eq_find? (table : JobTable) :
    table.latest = table.jobs.valuesInOrder.reverse.find? fun _ => true := by
  rw [latest, List.getLast?_eq_head?_reverse]
  match table.jobs.valuesInOrder.reverse with
  | [] => rfl
  | job :: rest => rfl

/-- The table keeps the latest of the jobs put in it. -/
structure KeepsLatest (retentionMs : UInt64) (maxEntries : ℕ)
    (events : List (Event JobRecord)) (table : JobTable) : Prop where
  length_le : table.jobs.keys.length ≤ maxEntries
  held_suffix : ∃ held, held <:+ history events ∧
    ∀ id job, table.get id = some job ↔ job ∈ held ∧ job.jobId = id
  newest : ∀ job ∈ (history events).getLast?, ∀ now,
    (∀ e ∈ events, e.time ≤ now) → now - job.createdAt < millis retentionMs →
      table.get job.jobId = some job
  -- The newest job goes in the first eviction that finds it too old.
  newest_iff : ∀ before now job (times : List ℕ),
    events = before ++ .put now job :: times.map Event.expire →
      (table.get job.jobId = some job ↔
        ∀ t ∈ times, t - job.createdAt < millis retentionMs)
  latest_iff : ∀ job, table.latest = some job ↔
    table.get job.jobId = some job ∧
      ∀ id other, table.get id = some other → id ≤ job.jobId
  latestForPrevhash_iff : ∀ prevHash job,
    table.latestForPrevhash prevHash = some job ↔
      table.get job.jobId = some job ∧ job.prevHash = prevHash ∧
        ∀ id other, table.get id = some other → other.prevHash = prevHash →
          id ≤ job.jobId

/-- The job table is a window on the end of the jobs put in it. -/
theorem keepsLatest_afterEvents (retentionMs : UInt64) {maxEntries : ℕ}
    (hmax : 1 ≤ maxEntries) {events : List (Event JobRecord)}
    (h : InCreationOrder events) :
    KeepsLatest retentionMs maxEntries events
      (afterEvents retentionMs maxEntries events) := by
  have hholds := holds_afterEvents retentionMs maxEntries h
  constructor
  case length_le =>
    have hempty : ([] : List JobRecord).length ≤ maxEntries := Nat.zero_le _
    rw [hholds.jobs.length_keys]
    exact AgedWindow.length_run_le hmax hempty events
  case held_suffix =>
    have hnil : ([] : List JobRecord) <:+ [] := List.suffix_rfl
    exact ⟨_, AgedWindow.run_suffix hnil h.createdAt, hholds.get_iff⟩
  case newest =>
    intro job hlast now htime hyoung
    rw [hholds.get_iff]
    exact ⟨AgedWindow.mem_run_newest hlast htime hyoung, rfl⟩
  case newest_iff =>
    rintro before now job times rfl
    rw [hholds.get_iff, AgedWindow.mem_run_put_iff]
    simp
  case latest_iff =>
    intro job
    rw [latest_eq_find?, hholds.jobs.find?_reverse_values_eq_some]
    simp [get]
  case latestForPrevhash_iff =>
    intro prevHash job
    rw [latestForPrevhash, hholds.jobs.find?_reverse_values_eq_some]
    simp [get]

end JobTable

/-- The template of the small gateway, polled three times at ten seconds'
distance. -/
def threePolls : List (Clock × TemplateResponse) :=
  [(⟨0, 1700000000, 1700000000000⟩, .regtest),
    (⟨10 ^ 10, 1700000010, 1700000010000⟩, .regtest),
    (⟨2 * 10 ^ 10, 1700000020, 1700000020000⟩, .regtest)]

/-- A table for two jobs keeps the last two of three. -/
theorem JobTable.keepsLatest_threePolls :
    let jobTable : JobTable := { retentionMs := 300000, maxEntries := 2 }
    let events := (broadcastAll { jobTable } threePolls).2
    (history events).map JobRecord.jobId = [1, 2, 3] ∧
      KeepsLatest 300000 2 events (afterEvents 300000 2 events) ∧
      ((afterEvents 300000 2 events).latest.map JobRecord.jobId) = some 3 := by
  refine ⟨by decide +kernel, ?_, by decide +kernel⟩
  apply keepsLatest_afterEvents 300000 (by decide)
  apply broadcastAll_inCreationOrder
  decide

end ReserveGrid.Gateway
