import ReserveGrid.Gateway.JobDelivery
import ReserveGrid.Support.Sha256

/-!
# Miners hold the previous hash of their job

Over every run of a session in which a channel is opened only on a job that
carries its previous hash, and no change of previous hash is lost in the
broadcast queue, the last previous hash sent on an open channel is that of the
record of the last job sent on it.
-/

namespace ReserveGrid.Gateway

open Support Bitcoin

namespace Session

/-! ## Statement -/

/-- The last previous hash sent on each open channel is that of the job-table
record of the last job sent on it. -/
def HoldsPrevhash (s : Session) : Prop :=
  s.conn.exit = none → ∀ id ch, s.conn.channels.get id = some ch →
    ∀ j, lastJob ch.channelId s.conn.sent = some j →
      ∃ r ∈ s.records, r.jobId = j ∧
        (∀ r', s.feed.jobTable.get j = some r' → r' = r) ∧
        lastPrevHash ch.channelId s.conn.sent = some r.prevHash

/-- A channel may be opened now: there is no job to start it on, or the latest
job carries its previous hash, and so does the next broadcast the connection
will receive, unless its previous hash is the same. -/
def MayOpen (s : Session) : Prop :=
  ∀ job, s.feed.latestJob = some job →
    ∃ ph, job.prevhashUpdate = some ph ∧
      ∀ r, s.receiver.queue.head? = some r →
        r.activated = true ∨ r.prevHash = ph.prevHash

/-- The oldest broadcast in a full queue may be lost now: the one after it
carries its previous hash, or has the one last sent on every open channel. -/
def MayLose (s : Session) : Prop :=
  s.conn.exit = none → ∀ id ch, s.conn.channels.get id = some ch →
    ∀ r, s.receiver.queue.tail.head? = some r →
      r.activated = true ∨
        lastPrevHash ch.channelId s.conn.sent = some r.prevHash

instance (s : Session) : Decidable s.MayOpen :=
  inferInstanceAs (Decidable (∀ job ∈ s.feed.latestJob,
    ∃ ph ∈ job.prevhashUpdate, ∀ r ∈ s.receiver.queue.head?,
      r.activated = true ∨ r.prevHash = ph.prevHash))

/-- The same, as a check of each open channel in turn. -/
theorem mayLose_iff (s : Session) :
    s.MayLose ↔ (s.conn.exit = none →
      (s.conn.channels.openIds.all fun id =>
        (s.conn.channels.get id).all fun ch =>
          s.receiver.queue.tail.head?.all fun r =>
            r.activated = true ∨
              lastPrevHash ch.channelId s.conn.sent = some r.prevHash) = true) := by
  simp only [List.all_eq_true, Option.all_eq_true, decide_eq_true_eq]
  constructor
  · intro h hexit id _ ch hget
    exact h hexit id ch hget
  · intro h hexit id ch hget
    exact h hexit id (ConnectionChannels.mem_openIds hget) ch hget

instance (s : Session) : Decidable s.MayLose := decidable_of_iff' _ s.mayLose_iff

/-- The condition on each step. -/
def KeepsMinersInformed (s : Session) : SessionEvent → Prop
  | .openStandard .. | .openExtended .. => s.MayOpen
  | .send => s.subscribed = true →
      jobBroadcastCapacity ≤ s.receiver.queue.length → s.MayLose
  | _ => True

instance (s : Session) (event : SessionEvent) :
    Decidable (s.KeepsMinersInformed event) :=
  match event with
  | .openStandard .. | .openExtended .. => inferInstanceAs (Decidable s.MayOpen)
  | .send => inferInstanceAs (Decidable (s.subscribed = true →
      jobBroadcastCapacity ≤ s.receiver.queue.length → s.MayLose))
  | .prepare .. | .publish | .openElsewhere | .connect | .receive .. |
      .submit .. | .close _ | .disconnect _ => isTrue trivial

/-! ## Job ids -/

/-- Job ids are issued once, and the job table holds jobs under their ids. -/
structure Numbered (s : Session) : Prop where
  above : s.feed.jobAlloc.Above (s.records.map (·.jobId))
  nodup : (s.records.map (·.jobId)).Nodup
  table : ∀ id r, s.feed.jobTable.get id = some r → r ∈ s.records ∧ r.jobId = id

theorem Numbered.eq_of_get {s : Session} (h : s.Numbered) {r r' : JobRecord}
    {j : UInt32} (hr : r ∈ s.records) (hj : r.jobId = j)
    (hget : s.feed.jobTable.get j = some r') :
    r' = r := by
  obtain ⟨hr', hj'⟩ := h.table j r' hget
  exact List.inj_on_of_nodup_map h.nodup hr' hr (hj'.trans hj.symm)

/-! ## The invariant -/

/-- The broadcasts that the connection has still to receive, with the one that
the main loop is about to send. -/
def ahead (s : Session) : List JobRecord :=
  s.receiver.queue ++ s.announcing.job?.toList

/-- The broadcast a connection receives next comes first. -/
theorem ahead_of_queue {s : Session} {job : JobRecord}
    {receiver : Receiver JobRecord}
    (hqueue : s.receiver.queue = job :: receiver.queue) :
    s.ahead = job :: (receiver.queue ++ s.announcing.job?.toList) := by
  rw [ahead, hqueue, List.cons_append]

/-- What a channel needs to know of the jobs sent and to come. -/
structure Informed (s : Session) (c : UInt32) : Prop where
  holds : ∀ j, lastJob c s.conn.sent = some j →
    ∃ r ∈ s.records, r.jobId = j ∧ lastPrevHash c s.conn.sent = some r.prevHash
  next : ∀ r, s.ahead.head? = some r →
    r.activated = true ∨ lastPrevHash c s.conn.sent = some r.prevHash
  idle : s.ahead = [] → lastPrevHash c s.conn.sent = s.feed.activePrevHash

/-- A job that brings no change of previous hash has that of the job before. -/
def Refreshes (r r' : JobRecord) : Prop :=
  r'.activated = false → r'.prevHash = r.prevHash

/-- How the latest job stands to the job under way. -/
def LatestFits (s : Session) (r : JobRecord) : Prop :=
  match s.announcing with
  | .inserted job => Refreshes r job
  | _ => s.feed.activePrevHash = some r.prevHash

/-- What holds while there is no latest job: none has been sent. -/
structure NoneLatest (s : Session) : Prop where
  queue : s.receiver.queue = []
  sent : s.conn.exit = none → ∀ c,
    lastJob c s.conn.sent = none ∧ lastPrevHash c s.conn.sent = none
  announcing : match s.announcing with
    | .idle => s.feed.activePrevHash = none
    | .inserted job => job.activated = true
    | .published _ => False

structure Sound (s : Session) : Prop where
  informed : s.conn.exit = none → ∀ id ch, s.conn.channels.get id = some ch →
    s.Informed ch.channelId
  chain : s.ahead.IsChain Refreshes
  active : ∀ r, s.ahead.getLast? = some r → s.feed.activePrevHash = some r.prevHash
  latest : ∀ job, s.feed.latestJob = some job →
    ∃ r ∈ s.records, job = r.broadcast ∧ s.LatestFits r
  noneLatest : s.feed.latestJob = none → s.NoneLatest
  records : ∀ r ∈ s.ahead, r ∈ s.records
  unsubscribed : s.subscribed = false →
    s.receiver.queue = [] ∧ ∀ id, s.conn.channels.get id = none

theorem initial_sound (cfg : HandlerConfig) (htwo : 2 ≤ cfg.extranoncePrefixLen)
    (height : cfg.extranoncePrefixLen ≤ 8) (retentionMs : UInt64)
    (maxEntries : ℕ) :
    (initial cfg htwo height retentionMs maxEntries).Sound where
  informed := by
    intro _ id ch hget
    cases hget
  chain := List.IsChain.nil
  active := by
    intro r hr
    cases hr
  latest := by
    intro job hjob
    cases hjob
  noneLatest _ := ⟨rfl, fun _ _ => ⟨rfl, rfl⟩, rfl⟩
  records := by
    intro r hr
    cases hr
  unsubscribed _ := ⟨rfl, fun _ => rfl⟩

/-! ## Steps of the main loop -/

variable {s : Session}

theorem Informed.transfer {s s' : Session} {c : UInt32} (h : s.Informed c)
    (hrecords : s.records ⊆ s'.records) (hahead : s'.ahead = s.ahead)
    (hactive : s'.feed.activePrevHash = s.feed.activePrevHash)
    (hjob : lastJob c s'.conn.sent = lastJob c s.conn.sent)
    (hprev : lastPrevHash c s'.conn.sent = lastPrevHash c s.conn.sent) :
    s'.Informed c where
  holds := by
    intro j hj
    rw [hjob] at hj
    obtain ⟨r, hr, hid, hhash⟩ := h.holds j hj
    exact ⟨r, hrecords hr, hid, hprev.trans hhash⟩
  next := by
    intro r hr
    rw [hahead] at hr
    rw [hprev]
    exact h.next r hr
  idle := by
    intro hnil
    rw [hahead] at hnil
    rw [hprev, hactive]
    exact h.idle hnil

section

variable {jobAlloc : JobIdAllocator} {jobTable : JobTable} {job : JobRecord}

theorem ahead_of_idle (hidle : s.announcing = .idle) :
    s.ahead = s.receiver.queue := by
  rw [ahead, hidle]
  exact List.append_nil _

theorem ahead_prepared :
    (s.prepared jobAlloc jobTable job).ahead = s.receiver.queue ++ [job] := rfl

/-- A channel that is informed of the jobs so far is so of a new one. -/
theorem Informed.prepare {c : UInt32} (h : s.Informed c)
    (hidle : s.announcing = .idle)
    (hrefresh : job.activated = false →
      s.feed.activePrevHash = some job.prevHash) :
    (s.prepared jobAlloc jobTable job).Informed c := by
  have hahead := ahead_of_idle hidle
  refine ⟨?_, ?_, ?_⟩
  · intro j hj
    obtain ⟨r, hr, hid, hhash⟩ := h.holds j hj
    exact ⟨r, List.mem_append_left _ hr, hid, hhash⟩
  · intro r hr
    rw [ahead_prepared] at hr
    cases hqueue : s.receiver.queue with
    | nil =>
        rw [hqueue] at hr hahead
        cases hr
        by_cases hnew : job.activated = true
        · exact Or.inl hnew
        · right
          rw [Bool.not_eq_true] at hnew
          exact (h.idle hahead).trans (hrefresh hnew)
    | cons x xs =>
        rw [hqueue] at hr hahead
        refine h.next r ?_
        rw [hahead]
        exact hr
  · intro hnil
    rw [ahead_prepared] at hnil
    simp at hnil

/-- Making a job puts it behind the broadcasts under way. -/
theorem Sound.prepare (hs : s.Sound) (hidle : s.announcing = .idle)
    (hactivated : job.activated =
      decide (s.feed.activePrevHash ≠ some job.prevHash)) :
    (s.prepared jobAlloc jobTable job).Sound := by
  have hahead := ahead_of_idle hidle
  have hrefresh : job.activated = false →
      s.feed.activePrevHash = some job.prevHash := by
    intro hfalse
    rw [hactivated] at hfalse
    exact not_not.mp (of_decide_eq_false hfalse)
  have hfollows : ∀ r : JobRecord, s.feed.activePrevHash = some r.prevHash →
      Refreshes r job := by
    intro r hactive hfalse
    rw [hrefresh hfalse, Option.some.injEq] at hactive
    exact hactive
  refine ⟨?_, ?_, ?_, ?_, ?_, ?_, hs.unsubscribed⟩
  · intro hexit id ch hget
    exact (hs.informed hexit id ch hget).prepare hidle hrefresh
  · rw [ahead_prepared, List.isChain_append]
    refine ⟨hahead ▸ hs.chain, List.isChain_singleton _, ?_⟩
    intro x hx y hy
    cases hy
    exact hfollows x (hs.active x (by rw [hahead]; exact hx))
  · intro r hr
    rw [ahead_prepared, List.getLast?_concat, Option.some.injEq] at hr
    rw [← hr]
    rfl
  · intro latest hlatest
    obtain ⟨r, hr, heq, hfits⟩ := hs.latest latest hlatest
    rw [LatestFits, hidle] at hfits
    exact ⟨r, List.mem_append_left _ hr, heq, hfollows r hfits⟩
  · intro hlatest
    have hnone := hs.noneLatest hlatest
    refine ⟨hnone.queue, hnone.sent, ?_⟩
    have hactive := hnone.announcing
    rw [hidle] at hactive
    change s.feed.activePrevHash = none at hactive
    change job.activated = true
    by_contra hfalse
    rw [Bool.not_eq_true] at hfalse
    rw [hrefresh hfalse] at hactive
    cases hactive
  · intro r hr
    rw [ahead_prepared, List.mem_append] at hr
    rcases hr with hr | hr
    · exact List.mem_append_left _ (hs.records r (hahead ▸ hr))
    · exact List.mem_append_right _ hr

end

/-- Steps that neither announce a job nor send one. -/
theorem Sound.of_same {s s' : Session} (hs : s.Sound)
    (hactive : s'.feed.activePrevHash = s.feed.activePrevHash)
    (hlatest : s'.feed.latestJob = s.feed.latestJob)
    (hannouncing : s'.announcing = s.announcing)
    (hqueue : s'.receiver.queue = s.receiver.queue) (hconn : s'.conn = s.conn)
    (hrecords : s'.records = s.records)
    (hsubscribed : s'.subscribed = false → s.subscribed = false) :
    s'.Sound := by
  have hahead : s'.ahead = s.ahead := by
    rw [ahead, ahead, hqueue, hannouncing]
  refine ⟨?_, ?_, ?_, ?_, ?_, ?_, ?_⟩
  · intro hexit id ch hget
    rw [hconn] at hexit hget
    refine (hs.informed hexit id ch hget).transfer ?_ hahead hactive ?_ ?_
    · rw [hrecords]
      exact List.Subset.refl _
    · rw [hconn]
    · rw [hconn]
  · rw [hahead]
    exact hs.chain
  · rw [hahead, hactive]
    exact hs.active
  · intro job hjob
    rw [hlatest] at hjob
    obtain ⟨r, hr, heq, hfits⟩ := hs.latest job hjob
    refine ⟨r, hrecords ▸ hr, heq, ?_⟩
    rw [LatestFits] at hfits ⊢
    rw [hannouncing, hactive]
    exact hfits
  · intro hnone
    rw [hlatest] at hnone
    have hfacts := hs.noneLatest hnone
    refine ⟨hqueue.trans hfacts.queue, ?_, ?_⟩
    · rw [hconn]
      exact hfacts.sent
    · rw [hannouncing, hactive]
      exact hfacts.announcing
  · rw [hahead, hrecords]
    exact hs.records
  · intro hfalse
    rw [hqueue, hconn]
    exact hs.unsubscribed (hsubscribed hfalse)

theorem Sound.publish (hs : s.Sound) {job : JobRecord}
    (hinserted : s.announcing = .inserted job) :
    ({ s with
      feed := s.feed.publish job.broadcast
      announcing := .published job } : Session).Sound := by
  have hahead : ({ s with
      feed := s.feed.publish job.broadcast
      announcing := .published job } : Session).ahead = s.ahead := by
    rw [ahead, ahead, hinserted]
    rfl
  have hmem : job ∈ s.ahead := by
    rw [ahead, hinserted]
    exact List.mem_append_right _ (List.mem_singleton.mpr rfl)
  have hactive : s.feed.activePrevHash = some job.prevHash := by
    refine hs.active job ?_
    rw [ahead, hinserted]
    exact List.getLast?_concat
  refine ⟨?_, hahead ▸ hs.chain, ?_, ?_, ?_, ?_, hs.unsubscribed⟩
  · intro hexit id ch hget
    exact (hs.informed hexit id ch hget).transfer (List.Subset.refl _) hahead rfl
      rfl rfl
  · intro r hr
    rw [hahead] at hr
    exact hs.active r hr
  · intro latest hlatest
    cases hlatest
    exact ⟨job, hs.records job hmem, rfl, hactive⟩
  · intro hlatest
    cases hlatest
  · intro r hr
    rw [hahead] at hr
    exact hs.records r hr

/-- Steps that make no job, and from which on only broadcasts behind the first
ones are still to come. -/
theorem Sound.of_suffix {s s' : Session} (hs : s.Sound) (hfeed : s'.feed = s.feed)
    (hrecords : s'.records = s.records) (hahead : s'.ahead <:+ s.ahead)
    (hfits : ∀ r, s.LatestFits r → s'.LatestFits r)
    (hinformed : s'.conn.exit = none →
      ∀ id ch, s'.conn.channels.get id = some ch → s'.Informed ch.channelId)
    (hnone : s.feed.latestJob = none → s.NoneLatest → s'.NoneLatest)
    (hunsubscribed : s'.subscribed = false →
      s'.receiver.queue = [] ∧ ∀ id, s'.conn.channels.get id = none) :
    s'.Sound := by
  refine ⟨hinformed, hs.chain.suffix hahead, ?_, ?_, ?_, ?_, hunsubscribed⟩
  · intro r hr
    obtain ⟨dropped, hdropped⟩ := hahead
    rw [hfeed]
    refine hs.active r ?_
    rw [← hdropped, List.getLast?_append, hr]
    rfl
  · intro job hjob
    rw [hfeed] at hjob
    obtain ⟨r, hr, heq, hr'⟩ := hs.latest job hjob
    rw [hrecords]
    exact ⟨r, hr, heq, hfits r hr'⟩
  · intro hlatest
    rw [hfeed] at hlatest
    exact hnone hlatest (hs.noneLatest hlatest)
  · intro r hr
    rw [hrecords]
    exact hs.records r (hahead.subset hr)

section

variable {job : JobRecord}

theorem ahead_of_published (hpublished : s.announcing = .published job) :
    s.ahead = s.receiver.queue ++ [job] := by
  rw [ahead, hpublished]
  rfl

theorem LatestFits.of_published {r : JobRecord} (h : s.LatestFits r)
    (hpublished : s.announcing = .published job) :
    s.feed.activePrevHash = some r.prevHash := by
  rw [LatestFits, hpublished] at h
  exact h

theorem NoneLatest.not_published (h : s.NoneLatest)
    (hpublished : s.announcing = .published job) :
    False := by
  have hfalse := h.announcing
  rw [hpublished] at hfalse
  exact hfalse

/-- The broadcast is queued; what is still to come is the same. -/
theorem Sound.send_queued (hs : s.Sound) (hpublished : s.announcing = .published job)
    (hsubscribed : s.subscribed = true) :
    ({ s with
      announcing := .idle
      receiver := { s.receiver with queue := s.receiver.queue ++ [job] } } :
      Session).Sound := by
  have hsame : ({ s with
      announcing := .idle
      receiver := { s.receiver with queue := s.receiver.queue ++ [job] } } :
      Session).ahead = s.ahead := by
    rw [ahead_of_published hpublished]
    exact List.append_nil _
  refine hs.of_suffix rfl rfl (hsame ▸ List.suffix_rfl) ?_ ?_ ?_ ?_
  · intro r hr
    exact hr.of_published hpublished
  · intro hexit id ch hget
    exact (hs.informed hexit id ch hget).transfer (List.Subset.refl _) hsame rfl
      rfl rfl
  · intro _ hnone
    exact (hnone.not_published hpublished).elim
  · intro hfalse
    exact nomatch hsubscribed.symm.trans hfalse

/-- The queue is full: its oldest broadcast is lost. -/
theorem Sound.send_full (hs : s.Sound) (hpublished : s.announcing = .published job)
    (hsubscribed : s.subscribed = true) (hmay : s.MayLose)
    {x y : JobRecord} {queue : List JobRecord}
    (hqueue : s.receiver.queue = x :: y :: queue) :
    ({ s with
      announcing := .idle
      receiver := ⟨s.receiver.queue.tail ++ [job], s.receiver.missed + 1⟩ } :
      Session).Sound := by
  have hrest : ({ s with
      announcing := .idle
      receiver := ⟨s.receiver.queue.tail ++ [job], s.receiver.missed + 1⟩ } :
      Session).ahead = y :: (queue ++ [job]) := by
    rw [ahead, hqueue]
    exact List.append_nil _
  refine hs.of_suffix rfl rfl ?_ ?_ ?_ ?_ ?_
  · rw [hrest, ahead_of_published hpublished, hqueue]
    exact ⟨[x], rfl⟩
  · intro r hr
    exact hr.of_published hpublished
  · intro hexit id ch hget
    refine ⟨(hs.informed hexit id ch hget).holds, ?_, ?_⟩
    · intro r hr
      rw [hrest] at hr
      refine hmay hexit id ch hget r ?_
      rw [hqueue]
      exact hr
    · intro hnil
      rw [hrest] at hnil
      cases hnil
  · intro _ hnone
    exact (hnone.not_published hpublished).elim
  · intro hfalse
    exact nomatch hsubscribed.symm.trans hfalse

/-- Nobody listens: the broadcast is gone, and no channel is open. -/
theorem Sound.send_unheard (hs : s.Sound) (hpublished : s.announcing = .published job)
    (hsubscribed : s.subscribed = false) :
    ({ s with announcing := .idle } : Session).Sound := by
  obtain ⟨hqueue, hclosed⟩ := hs.unsubscribed hsubscribed
  refine hs.of_suffix rfl rfl ?_ ?_ ?_ ?_ ?_
  · rw [ahead, hqueue]
    exact List.nil_suffix
  · intro r hr
    exact hr.of_published hpublished
  · intro _ id ch hget
    change s.conn.channels.get id = some ch at hget
    rw [hclosed id] at hget
    cases hget
  · intro _ hnone
    exact (hnone.not_published hpublished).elim
  · intro _
    exact ⟨hqueue, hclosed⟩

theorem Sound.send (hs : s.Sound) (hpublished : s.announcing = .published job)
    (hlose : s.subscribed = true →
      jobBroadcastCapacity ≤ s.receiver.queue.length → s.MayLose) :
    ({ s with
      announcing := .idle
      receiver :=
        if s.subscribed then s.receiver.send jobBroadcastCapacity job
        else s.receiver } : Session).Sound := by
  by_cases hsubscribed : s.subscribed = true
  · rw [if_pos hsubscribed]
    by_cases hroom : s.receiver.queue.length < jobBroadcastCapacity
    · rw [Receiver.send, if_pos hroom]
      exact hs.send_queued hpublished hsubscribed
    · rw [Receiver.send, if_neg hroom]
      have hfull : jobBroadcastCapacity ≤ s.receiver.queue.length := not_lt.mp hroom
      have hlength : 64 ≤ s.receiver.queue.length := hfull
      match hqueue : s.receiver.queue, hlength with
      | x :: y :: queue, _ =>
          rw [← hqueue]
          exact hs.send_full hpublished hsubscribed (hlose hsubscribed hfull) hqueue
      | [x], hlength => simp at hlength
      | [], hlength => simp at hlength
  · rw [if_neg hsubscribed]
    rw [Bool.not_eq_true] at hsubscribed
    exact hs.send_unheard hpublished hsubscribed

end

/-! ## Steps of the handler -/

/-- A step that sends no job and opens no channel. -/
theorem Sound.withConn (hs : s.Sound) {conn : Connection}
    (hkeeps : s.conn.channels.Keeps conn.channels)
    (hexit : conn.exit = none → s.conn.exit = none)
    (hsent : ∃ frames, conn.sent = s.conn.sent ++ frames ∧
      ∀ f ∈ frames, f.isAnswer = true) :
    ({ s with conn } : Session).Sound := by
  obtain ⟨frames, hframes, hanswer⟩ := hsent
  have hjob : ∀ c, lastJob c conn.sent = lastJob c s.conn.sent := by
    intro c
    rw [hframes]
    exact (misses_of_isAnswer hanswer c).lastJob_eq _
  have hprev : ∀ c, lastPrevHash c conn.sent = lastPrevHash c s.conn.sent := by
    intro c
    rw [hframes]
    exact (misses_of_isAnswer hanswer c).lastPrevHash_eq _
  refine hs.of_suffix rfl rfl List.suffix_rfl (fun _ h => h) ?_ ?_ ?_
  · intro hnone id ch' hget
    obtain ⟨ch, hch, hsame⟩ := hkeeps id ch' hget
    rw [hsame.channelId]
    exact (hs.informed (hexit hnone) id ch hch).transfer (List.Subset.refl _) rfl
      rfl (hjob _) (hprev _)
  · intro _ hnone
    refine ⟨hnone.queue, ?_, hnone.announcing⟩
    intro hrunning c
    obtain ⟨hnojob, hnohash⟩ := hnone.sent (hexit hrunning) c
    exact ⟨(hjob c).trans hnojob, (hprev c).trans hnohash⟩
  · intro hfalse
    obtain ⟨hqueue, hclosed⟩ := hs.unsubscribed hfalse
    refine ⟨hqueue, ?_⟩
    intro id
    by_contra hopen
    obtain ⟨ch', hch'⟩ := Option.ne_none_iff_exists'.mp hopen
    obtain ⟨ch, hch, -⟩ := hkeeps id ch' hch'
    rw [hclosed id] at hch
    cases hch

/-- A channel that was just sent a job with its previous hash. -/
theorem Informed.of_sent {c : UInt32} {r : JobRecord} (hr : r ∈ s.records)
    (hjob : lastJob c s.conn.sent = some r.jobId)
    (hprev : lastPrevHash c s.conn.sent = some r.prevHash)
    (hnext : ∀ r', s.ahead.head? = some r' →
      r'.activated = true ∨ r'.prevHash = r.prevHash)
    (hidle : s.ahead = [] → s.feed.activePrevHash = some r.prevHash) :
    s.Informed c where
  holds := by
    intro j hj
    rw [hjob, Option.some.injEq] at hj
    exact ⟨r, hr, hj, hprev⟩
  next := by
    intro r' hr'
    rw [hprev, Option.some.injEq]
    rcases hnext r' hr' with hactivated | hsame
    · exact Or.inl hactivated
    · exact Or.inr hsame.symm
  idle := by
    intro hnil
    rw [hprev, hidle hnil]

theorem Refreshes.activated_or {r r' : JobRecord} (h : Refreshes r r') :
    r'.activated = true ∨ r'.prevHash = r.prevHash := by
  by_cases hactivated : r'.activated = true
  · exact Or.inl hactivated
  · rw [Bool.not_eq_true] at hactivated
    exact Or.inr (h hactivated)

theorem prevhashUpdate_broadcast (r : JobRecord) :
    (r.activated = true ∧ r.broadcast.prevhashUpdate =
      some ⟨r.prevHash, r.activationMinNtime, r.nbits⟩) ∨
    (r.activated = false ∧ r.broadcast.prevhashUpdate = none) := by
  by_cases hactivated : r.activated = true
  · exact Or.inl ⟨hactivated, if_pos hactivated⟩
  · exact Or.inr ⟨by simpa using hactivated, if_neg hactivated⟩

variable {sha : Bytes → Bytes32} {cfg : HandlerConfig} {clock : Clock}

/-- A broadcast from the front of the queue goes to every open channel. -/
theorem Sound.receiveMessage (hs : s.Sound) (hexit : s.conn.exit = none)
    {job : JobRecord} {receiver : Receiver JobRecord} (order : IterOrder UInt32)
    (hqueue : s.receiver.queue = job :: receiver.queue)
    (hsubscribed : s.subscribed = true) :
    ({ s with
      receiver
      conn := distributeJob sha clock.now job.broadcast
        (order.visit s.conn.channels.openIds) s.conn } : Session).Sound := by
  have hahead := ahead_of_queue hqueue
  have hmem : job ∈ s.records := by
    refine hs.records job ?_
    rw [hahead]
    exact List.mem_cons_self
  refine hs.of_suffix rfl rfl ?_ (fun _ h => h) ?_ ?_ ?_
  · rw [hahead]
    exact List.suffix_cons job _
  · intro hrunning id ch' hget
    obtain ⟨ch, hch, hsame⟩ := distributeJob_keeps _ _ _ _ id ch' hget
    obtain ⟨frames, hsent, hdelivers, hreaches⟩ :=
      distributeJob_delivers _ _ _ hrunning
    have hreach := hreaches id
      (order.mem_visit.mpr (ConnectionChannels.mem_openIds hch)) ch hch
    have hinformed := hs.informed hexit id ch hch
    rw [hsame.channelId]
    refine Informed.of_sent (r := job) hmem ?_ ?_ ?_ ?_
    · change lastJob _ (distributeJob _ _ _ _ _).sent = _
      rw [hsent]
      exact hdelivers.lastJob_eq hreach _
    · change lastPrevHash _ (distributeJob _ _ _ _ _).sent = _
      rw [hsent]
      rcases prevhashUpdate_broadcast job with ⟨-, hupdate⟩ | ⟨hrefresh, hnone⟩
      · exact hdelivers.lastPrevHash_of_some hreach hupdate _
      · -- A refresh follows a job with the same previous hash.
        rw [hdelivers.lastPrevHash_of_none hnone]
        rcases hinformed.next job (by rw [hahead]; rfl) with hactivated | hheld
        · rw [hrefresh] at hactivated
          cases hactivated
        · exact hheld
    · intro r hr
      have hchain := hs.chain
      rw [hahead] at hchain
      exact (hchain.rel_head? hr).activated_or
    · intro hnil
      change receiver.queue ++ s.announcing.job?.toList = [] at hnil
      refine hs.active job ?_
      rw [hahead, hnil]
      rfl
  · intro _ hnone
    have hempty := hnone.queue
    rw [hqueue] at hempty
    cases hempty
  · intro hfalse
    exact nomatch hsubscribed.symm.trans hfalse

/-- What is still to come on a channel that starts on the latest job. -/
theorem Sound.next_of_latest (hs : s.Sound) {r : JobRecord}
    (hfits : s.LatestFits r)
    (hmay : ∀ r', s.receiver.queue.head? = some r' →
      r'.activated = true ∨ r'.prevHash = r.prevHash) :
    (∀ r', s.ahead.head? = some r' →
      r'.activated = true ∨ r'.prevHash = r.prevHash) ∧
    (s.ahead = [] → s.feed.activePrevHash = some r.prevHash) := by
  rw [LatestFits] at hfits
  constructor
  · intro r' hr'
    cases hqueue : s.receiver.queue with
    | cons x xs =>
        refine hmay r' ?_
        rw [ahead, hqueue] at hr'
        rw [hqueue]
        exact hr'
    | nil =>
        have hactive : s.ahead.getLast? = some r' →
            s.feed.activePrevHash = some r'.prevHash := hs.active r'
        rw [ahead, hqueue] at hr' hactive
        cases hannouncing : s.announcing with
        | idle =>
            rw [hannouncing] at hr'
            cases hr'
        | inserted job =>
            rw [hannouncing] at hr' hfits
            cases hr'
            exact Refreshes.activated_or hfits
        | published job =>
            rw [hannouncing] at hr' hfits hactive
            cases hr'
            have hsame := hactive rfl
            rw [hfits, Option.some.injEq] at hsame
            exact Or.inr hsame.symm
  · intro hnil
    rw [ahead, List.append_eq_nil_iff] at hnil
    cases hannouncing : s.announcing with
    | idle =>
        rw [hannouncing] at hfits
        exact hfits
    | inserted job =>
        rw [hannouncing] at hnil
        cases hnil.2
    | published job =>
        rw [hannouncing] at hfits
        exact hfits

/-- With no latest job, a channel has nothing to hold yet. -/
theorem NoneLatest.informed {s : Session} (hnone : s.NoneLatest)
    (hexit : s.conn.exit = none) (c : UInt32) :
    s.Informed c where
  holds := by
    intro j hj
    rw [(hnone.sent hexit c).1] at hj
    cases hj
  next := by
    intro r hr
    have hannouncing := hnone.announcing
    rw [ahead, hnone.queue] at hr
    cases hcase : s.announcing with
    | idle =>
        rw [hcase] at hr
        cases hr
    | inserted job =>
        rw [hcase] at hr hannouncing
        cases hr
        exact Or.inl hannouncing
    | published job =>
        rw [hcase] at hannouncing
        exact hannouncing.elim
  idle := by
    intro hnil
    have hannouncing := hnone.announcing
    rw [ahead, List.append_eq_nil_iff] at hnil
    rw [(hnone.sent hexit c).2]
    cases hcase : s.announcing with
    | idle =>
        rw [hcase] at hannouncing
        exact hannouncing.symm
    | inserted job =>
        rw [hcase] at hnil
        cases hnil.2
    | published job =>
        rw [hcase] at hannouncing
        exact hannouncing.elim

/-- A step of the handler of a connection that listens. -/
theorem Sound.withGateway (hs : s.Sound) (hsubscribed : s.subscribed = true)
    {gs : GatewayState} (hfeed : gs.feed = s.feed)
    (hinformed : gs.conn.exit = none →
      ∀ id ch, gs.conn.channels.get id = some ch →
        ({ s with toGatewayState := gs } : Session).Informed ch.channelId)
    (hsent : s.feed.latestJob = none → gs.conn.exit = none → ∀ c,
      lastJob c gs.conn.sent = none ∧ lastPrevHash c gs.conn.sent = none) :
    ({ s with toGatewayState := gs } : Session).Sound := by
  refine hs.of_suffix hfeed rfl List.suffix_rfl ?_ hinformed ?_ ?_
  · intro r hr
    rw [LatestFits] at hr ⊢
    rw [hfeed]
    exact hr
  · intro hlatest hnone
    refine ⟨hnone.queue, hsent hlatest, ?_⟩
    have hannouncing := hnone.announcing
    rw [← hfeed] at hannouncing
    exact hannouncing
  · intro hfalse
    exact nomatch hsubscribed.symm.trans hfalse

/-- A channel opened while there is no job. -/
theorem Sound.open_none (hs : s.Sound) (hexit : s.conn.exit = none)
    (hsubscribed : s.subscribed = true) (hlatest : s.feed.latestJob = none)
    {gs : GatewayState} {ch : ChannelState} {success : Frame}
    {channels : ConnectionChannels} (hsuccess : success.isAnswer = true)
    (hfeed : gs.feed = s.feed)
    (hconn : gs.conn =
      s.conn.startChannel sha cfg clock none ch success channels) :
    ({ s with toGatewayState := gs } : Session).Sound := by
  have hnone := hs.noneLatest hlatest
  have hsent : ∀ c,
      lastJob c gs.conn.sent = none ∧ lastPrevHash c gs.conn.sent = none := by
    intro c
    have hmisses := misses_of_isAnswer
      (startFrames_isAnswer cfg ch.channelId hsuccess) c
    obtain ⟨hnojob, hnohash⟩ := hnone.sent hexit c
    rw [hconn]
    exact ⟨(hmisses.lastJob_eq _).trans hnojob,
      (hmisses.lastPrevHash_eq _).trans hnohash⟩
  refine hs.withGateway hsubscribed hfeed ?_ (fun _ _ => hsent)
  intro _ id ch' _
  obtain ⟨hnojob, hnohash⟩ := hnone.sent hexit ch'.channelId
  obtain ⟨hnojob', hnohash'⟩ := hsent ch'.channelId
  refine (hnone.informed hexit ch'.channelId).transfer (List.Subset.refl _) rfl
    ?_ (hnojob'.trans hnojob.symm) (hnohash'.trans hnohash.symm)
  rw [hfeed]

/-- A channel opened on the latest job. The other channels hear nothing of
it. -/
theorem Sound.open_some (hs : s.Sound) (hexit : s.conn.exit = none)
    (hsubscribed : s.subscribed = true) {job : JobBroadcast}
    (hlatest : s.feed.latestJob = some job) (hmay : s.MayOpen)
    {gs : GatewayState} {ch : ChannelState} {success : Frame}
    {channels : ConnectionChannels} (hsuccess : success.isAnswer = true)
    (hopen : s.conn.channels.openChannel ch = .ok channels)
    (hfeed : gs.feed = s.feed)
    (hconn : gs.conn =
      s.conn.startChannel sha cfg clock (some job) ch success channels) :
    ({ s with toGatewayState := gs } : Session).Sound := by
  obtain ⟨r, hr, rfl, hrfits⟩ := hs.latest job hlatest
  obtain ⟨ph, hph, hqueue⟩ := hmay r.broadcast hlatest
  have hhash : ph.prevHash = r.prevHash := by
    rcases prevhashUpdate_broadcast r with ⟨-, hupdate⟩ | ⟨-, hnone⟩
    · rw [hph, Option.some.injEq] at hupdate
      rw [hupdate]
    · rw [hph] at hnone
      cases hnone
  rw [hhash] at hqueue
  obtain ⟨hnext, hidle⟩ := hs.next_of_latest hrfits hqueue
  refine hs.withGateway hsubscribed hfeed ?_ ?_
  · intro hrunning id ch' hget
    rw [hconn] at hrunning hget
    obtain ⟨hjob, hprev, hothers⟩ := startChannel_delivers hsuccess hrunning
    by_cases hnew : ch'.channelId = ch.channelId
    · rw [hnew]
      refine Informed.of_sent (r := r) hr ?_ ?_ hnext ?_
      · rw [hconn]
        exact hjob
      · rw [hconn, ← hhash]
        exact hprev ph hph
      · rw [hfeed]
        exact hidle
    · rcases startChannel_channelId hopen hget with hsame | ⟨old, hold, hsame⟩
      · exact absurd hsame hnew
      · have hinformed := hs.informed hexit id old hold
        rw [← hsame] at hinformed
        obtain ⟨hjob', hprev'⟩ := hothers ch'.channelId hnew
        refine hinformed.transfer (List.Subset.refl _) rfl ?_ ?_ ?_
        · rw [hfeed]
        · rw [hconn]
          exact hjob'
        · rw [hconn]
          exact hprev'
  · intro hnone
    rw [hlatest] at hnone
    cases hnone

/-- A connection that has ended owes its channels nothing. -/
theorem Sound.ended (hs : s.Sound) (hsubscribed : s.subscribed = true)
    {gs : GatewayState} (hfeed : gs.feed = s.feed) (hexit : gs.conn.exit ≠ none) :
    ({ s with toGatewayState := gs } : Session).Sound := by
  apply hs.withGateway hsubscribed hfeed
  · intro hrunning
    exact absurd hrunning hexit
  · intro _ hrunning
    exact absurd hrunning hexit

theorem Sound.openWith (hs : s.Sound) (hexit : s.conn.exit = none)
    (hsubscribed : s.subscribed = true) (hmay : s.MayOpen) (requestId : UInt32)
    (build : UInt32 → Bytes → ChannelState) {success : UInt32 → Bytes → Frame}
    (hsuccess : ∀ channelId extranonce,
      (success channelId extranonce).isAnswer = true) :
    ({ s with toGatewayState :=
      s.openWith sha cfg clock requestId build success } : Session).Sound := by
  obtain ⟨hfeed, -, hended | ⟨channelId, extranonce, channels, -, hopen, hconn⟩⟩ :=
    openWith_cases sha cfg clock requestId build success s.toGatewayState
  · exact hs.ended hsubscribed hfeed hended
  · have hanswer := hsuccess channelId extranonce
    cases hlatest : s.feed.latestJob with
    | none =>
        rw [hlatest] at hconn
        exact hs.open_none hexit hsubscribed hlatest hanswer hfeed hconn
    | some job =>
        rw [hlatest] at hconn
        exact hs.open_some hexit hsubscribed hlatest hmay hanswer hopen hfeed hconn

theorem Sound.loopStep (hs : s.Sound) {event : SessionEvent}
    (hcond : s.KeepsMinersInformed event) {t : Session}
    (h : s.loopStep event = some t) :
    t.Sound := by
  rcases loopStep_cases h with ⟨_, _, -, rfl⟩ |
    ⟨_, _, job, jobAlloc, -, hidle, -, -, hactivated, rfl⟩ |
    ⟨job, hinserted, rfl⟩ | ⟨job, rfl, hpublished, rfl⟩ | ⟨_, _, -, rfl⟩
  · exact hs.of_same rfl rfl rfl rfl rfl rfl id
  · exact hs.prepare hidle hactivated
  · exact hs.publish hinserted
  · exact hs.send hpublished hcond
  · exact hs.of_same rfl rfl rfl rfl rfl rfl id

theorem Sound.handlerStep (hs : s.Sound) (hexit : s.conn.exit = none)
    (hsubscribed : s.subscribed = true) {event : SessionEvent}
    (hcond : s.KeepsMinersInformed event) {t : Session}
    (h : s.handlerStep sha cfg event = some t) :
    t.Sound := by
  rcases handlerStep_cases h with ⟨clock, req, rfl, rfl⟩ | ⟨clock, req, rfl, rfl⟩ |
    ⟨n, receiver, hrecv, rfl⟩ | ⟨clock, order, job, receiver, -, hrecv, rfl⟩ |
    ⟨env, submission, -, rfl⟩ | ⟨channelId, -, rfl⟩ | ⟨exit, rfl⟩
  · exact hs.openWith hexit hsubscribed hcond _ _ fun _ _ => rfl
  · rcases handleOpenExtendedChannel_cases sha cfg clock req s.toGatewayState with
      ⟨conn, hended, heq⟩ | ⟨-, heq⟩
    · rw [heq]
      exact hs.ended hsubscribed rfl hended
    · rw [heq]
      exact hs.openWith hexit hsubscribed hcond _ _ fun _ _ => rfl
  · rcases Receiver.recv_cases hrecv with ⟨job, hmessage, -⟩ | ⟨n, -, hqueue⟩
    · cases hmessage
    · exact hs.of_same rfl rfl rfl hqueue rfl rfl id
  · rcases Receiver.recv_cases hrecv with ⟨job', hmessage, hqueue⟩ | ⟨n, hlagged, -⟩
    · cases hmessage
      exact hs.receiveMessage hexit order hqueue hsubscribed
    · cases hlagged
  · have hanswers := handleSubmission_answers sha cfg env submission s
    refine hs.withConn hanswers.channels ?_ hanswers.sent
    rw [hanswers.exit]
    exact id
  · refine hs.withConn (handleCloseChannel_keeps channelId s.conn)
      (fun _ => hexit) ⟨[], ?_, ?_⟩
    · exact (List.append_nil _).symm
    · intro f hf
      cases hf
  · exact hs.ended hsubscribed rfl (Option.some_ne_none _)

/-- Every step that meets the condition keeps the miners informed. -/
theorem Sound.step (hs : s.Sound) {event : SessionEvent}
    (hcond : s.KeepsMinersInformed event) {t : Session}
    (h : s.step sha cfg event = some t) :
    t.Sound := by
  rcases step_cases h with hloop | ⟨-, rfl⟩ | ⟨hsubscribed, hexit, hhandler⟩
  · exact hs.loopStep hcond hloop
  · exact hs.of_same rfl rfl rfl rfl rfl rfl fun h => nomatch h
  · exact hs.handlerStep hexit hsubscribed hcond hhandler

/-! ## Runs -/

theorem initial_numbered (cfg : HandlerConfig)
    (htwo : 2 ≤ cfg.extranoncePrefixLen) (height : cfg.extranoncePrefixLen ≤ 8)
    (retentionMs : UInt64) (maxEntries : ℕ) :
    (initial cfg htwo height retentionMs maxEntries).Numbered where
  above := by
    intro _ id hid
    cases hid
  nodup := List.nodup_nil
  table := by
    intro id r hget
    cases hget

/-- A job is made under an id that no job had. -/
theorem Numbered.prepare (hs : s.Numbered) {job : JobRecord}
    {jobAlloc : JobIdAllocator}
    (halloc : s.feed.jobAlloc.allocate = (some job.jobId, jobAlloc)) (now : ℕ) :
    (s.prepared jobAlloc (s.feed.jobTable.insert now job) job).Numbered where
  above := by
    intro hlive id hid
    refine hs.above.allocate_some halloc hlive id ?_
    rw [prepared, List.map_append, List.mem_append] at hid
    rcases hid with hid | hid
    · exact List.mem_cons_of_mem _ hid
    · rw [List.mem_singleton.mp hid]
      exact List.mem_cons_self
  nodup := by
    rw [prepared, List.map_append]
    refine List.Nodup.append hs.nodup (List.nodup_singleton _) ?_
    intro id hid hnew
    rw [List.mem_singleton.mp hnew] at hid
    exact hs.above.not_mem halloc hid
  table := by
    intro id r hget
    rcases JobTable.get_insert hget with ⟨rfl, rfl⟩ | hold
    · exact ⟨List.mem_append_right _ List.mem_cons_self, rfl⟩
    · obtain ⟨hr, hid⟩ := hs.table id r hold
      exact ⟨List.mem_append_left _ hr, hid⟩

theorem Numbered.withJobAlloc (hs : s.Numbered) {issued : Option UInt32}
    {jobAlloc : JobIdAllocator}
    (halloc : s.feed.jobAlloc.allocate = (issued, jobAlloc)) :
    ({ s with feed := { s.feed with jobAlloc } } : Session).Numbered where
  above := by
    cases issued with
    | none => exact Counter.Above.allocate_none halloc
    | some id =>
        intro hlive id' hid'
        exact hs.above.allocate_some halloc hlive id' (List.mem_cons_of_mem _ hid')
  nodup := hs.nodup
  table := hs.table

theorem Numbered.of_same {s s' : Session} (hs : s.Numbered)
    (halloc : s'.feed.jobAlloc = s.feed.jobAlloc)
    (htable : s'.feed.jobTable = s.feed.jobTable)
    (hrecords : s'.records = s.records) :
    s'.Numbered := by
  refine ⟨?_, ?_, ?_⟩
  · rw [halloc, hrecords]
    exact hs.above
  · rw [hrecords]
    exact hs.nodup
  · rw [htable, hrecords]
    exact hs.table

theorem Numbered.step (hs : s.Numbered) {event : SessionEvent} {t : Session}
    (h : s.step sha cfg event = some t) :
    t.Numbered := by
  rcases step_cases h with hloop | ⟨-, rfl⟩ | ⟨-, -, hhandler⟩
  · rcases loopStep_cases hloop with ⟨issued, jobAlloc, halloc, rfl⟩ |
      ⟨clock, _, job, jobAlloc, -, -, halloc, -, -, rfl⟩ |
      ⟨job, -, rfl⟩ | ⟨job, -, -, rfl⟩ | ⟨_, _, -, rfl⟩
    · exact hs.withJobAlloc halloc
    · exact hs.prepare halloc clock.now
    · exact hs.of_same rfl rfl rfl
    · exact hs.of_same rfl rfl rfl
    · exact hs.of_same rfl rfl rfl
  · exact hs.of_same rfl rfl rfl
  · obtain ⟨hfeed, hrecords⟩ := handlerStep_feed hhandler
    apply hs.of_same
    · rw [hfeed]
    · rw [hfeed]
    · exact hrecords

/-- Jobs are numbered and channels are sound: the previous hash is held. -/
theorem holdsPrevhash_of_sound (hs : s.Sound) (hn : s.Numbered) :
    s.HoldsPrevhash := by
  intro hexit id ch hget j hj
  obtain ⟨r, hr, hid, hhash⟩ := (hs.informed hexit id ch hget).holds j hj
  exact ⟨r, hr, hid, fun r' hr' => hn.eq_of_get hr hid hr', hhash⟩

/-- In every run in which channels are opened only on jobs that carry their
previous hash, and no change of previous hash is lost, every open channel holds
the previous hash of its job. -/
theorem holdsPrevhash_of_keepsMinersInformed (sha : Bytes → Bytes32)
    (cfg : HandlerConfig) (htwo : 2 ≤ cfg.extranoncePrefixLen)
    (height : cfg.extranoncePrefixLen ≤ 8) (retentionMs : UInt64)
    (maxEntries : ℕ) (events : List SessionEvent) (t : Session)
    (hcond : Along (step sha cfg) KeepsMinersInformed
      (initial cfg htwo height retentionMs maxEntries) events)
    (hrun : run (step sha cfg) (initial cfg htwo height retentionMs maxEntries)
      events = some t) :
    t.HoldsPrevhash := by
  have hsound : t.Sound :=
    invariant_of_along (fun _ _ _ hs hcond hstep => hs.step hcond hstep)
      (initial_sound cfg htwo height retentionMs maxEntries) hcond hrun
  have hnumbered : t.Numbered :=
    invariant_of_run (fun _ _ _ hs hstep => hs.step hstep)
      (initial_numbered cfg htwo height retentionMs maxEntries) hrun
  exact holdsPrevhash_of_sound hsound hnumbered

/-! ## A channel opened on a refresh -/

/-- The next template on the same block. -/
def refreshTemplate : TemplateResponse :=
  { TemplateResponse.regtest with templateId := 2, curtime := 1700000030 }

/-- The last job and the last previous hash sent on the first channel, while
the connection and the channel are open. -/
def onFirstChannel (s : Session) :
    Option HandlerExit × Option UInt32 × Option UInt32 × Option Bytes32 :=
  (s.conn.exit, (s.conn.channels.get 1).map (·.channelId),
    lastJob 1 s.conn.sent, lastPrevHash 1 s.conn.sent)

/-- A miner that connects after the block was refreshed is sent the refreshed
job and no previous hash. -/
theorem not_holdsPrevhash_open_on_refresh :
    ∃ s, run (step sha256 (.permissive 4)) fresh
        (announce .regtest ++ announce refreshTemplate ++
          [.connect, .openStandard wallClock ⟨1, "miner"⟩]) = some s ∧
      ¬ s.HoldsPrevhash := by
  have hchannel : (run (step sha256 (.permissive 4)) fresh
      (announce .regtest ++ announce refreshTemplate ++
        [.connect, .openStandard wallClock ⟨1, "miner"⟩])).map onFirstChannel =
      some (none, some 1, some 2, none) := by
    decide +kernel
  obtain ⟨s, hrun, hs⟩ := Option.map_eq_some_iff.mp hchannel
  refine ⟨s, hrun, ?_⟩
  intro hholds
  simp only [onFirstChannel, Prod.mk.injEq] at hs
  obtain ⟨hexit, hopen, hjob, hprev⟩ := hs
  obtain ⟨ch, hget, hid⟩ := Option.map_eq_some_iff.mp hopen
  rw [← hid] at hjob hprev
  obtain ⟨r, -, -, -, hhash⟩ := hholds hexit 1 ch hget 2 hjob
  rw [hprev] at hhash
  cases hhash

/-- A channel opened on the first job, which then receives it once more and the
refresh after it. -/
def informedRun : List SessionEvent :=
  [.connect, .prepare wallClock .regtest, .publish,
    .openStandard wallClock ⟨1, "miner"⟩, .send, .receive wallClock (.stored _)] ++
    announce refreshTemplate ++ [.receive wallClock (.stored _)]

theorem holdsPrevhash_of_keepsMinersInformed_informedRun :
    ∃ s, run (step sha256 (.permissive 4)) fresh informedRun = some s ∧
      lastJob 1 s.conn.sent = some 2 ∧ s.HoldsPrevhash := by
  have hjob : (run (step sha256 (.permissive 4)) fresh informedRun).map
      (fun s => lastJob 1 s.conn.sent) = some (some 2) := by
    decide +kernel
  obtain ⟨s, hrun, hs⟩ := Option.map_eq_some_iff.mp hjob
  exact ⟨s, hrun, hs, holdsPrevhash_of_keepsMinersInformed _ _ _ _ _ _ _ s
    (by decide +kernel) hrun⟩

end Session

end ReserveGrid.Gateway
