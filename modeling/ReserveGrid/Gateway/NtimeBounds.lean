import ReserveGrid.Gateway.JobsOnChannel
import ReserveGrid.Support.Result

/-!
# The time of accepted shares

A channel keeps the least time of the last previous hash sent on it, and a
share's time is checked against that; only a channel that was sent none uses
the time of the share's own job. A refresh of the block advertises a time of
its own, which leaves the channel's alone. Both times are the template's, but
no later than the gateway's clock allows.
-/

namespace ReserveGrid.Gateway

open Support Bitcoin

/-! ## Least times on the wire -/

namespace Frame

/-- The job and the least time of a previous hash that the frame announces on a
channel. -/
def boundOn (channelId : UInt32) : Frame → Option (UInt32 × UInt32)
  | .setNewPrevHash c jobId _ minNtime _ =>
      if c = channelId then some (jobId, minNtime) else none
  | _ => none

/-- The job and the least time that the frame advertises on a channel. -/
def advertisedOn (channelId : UInt32) : Frame → Option (UInt32 × UInt32)
  | .newMiningJob c jobId minNtime .. | .newExtendedMiningJob c jobId minNtime .. =>
      if c = channelId then minNtime.map (jobId, ·) else none
  | .setNewPrevHash c jobId _ minNtime _ =>
      if c = channelId then some (jobId, minNtime) else none
  | _ => none

theorem advertisedOn_of_boundOn {f : Frame} {c : UInt32} {bound : UInt32 × UInt32}
    (h : f.boundOn c = some bound) : f.advertisedOn c = some bound := by
  cases f with
  | setNewPrevHash c' jobId prevHash minNtime nbits => exact h
  | _ => cases h

theorem advertisedOn_of_isAnswer {f : Frame} (h : f.isAnswer = true) (c : UInt32) :
    f.advertisedOn c = none := by
  cases f <;> first | rfl | cases h

theorem boundOn_of_isAnswer {f : Frame} (h : f.isAnswer = true) (c : UInt32) :
    f.boundOn c = none := by
  cases f <;> first | rfl | cases h

end Frame

/-- The job and the least time of the last previous hash sent on a channel. -/
def lastBound (channelId : UInt32) (sent : List Frame) : Option (UInt32 × UInt32) :=
  lastOf (Frame.boundOn channelId) sent

section

variable {sha : Bytes → Bytes32} {cfg : HandlerConfig} {clock : Clock} {now : ℕ}
  {c : UInt32} {sent frames : List Frame} {job : JobBroadcast} {ch : ChannelState}
  {frame : Frame}

theorem lastBound_of_isAnswer (h : ∀ f ∈ frames, f.isAnswer = true) (c : UInt32) :
    lastBound c (sent ++ frames) = lastBound c sent :=
  lastOf_append_none fun f hf => Frame.boundOn_of_isAnswer (h f hf) c

theorem boundOn_jobFrame (h : jobFrame sha job ch = some frame) (c : UInt32) :
    frame.boundOn c = none := by
  unfold jobFrame at h
  split at h
  · cases h
    rfl
  · split at h
    · cases h
      rfl
    · cases h

/-- The frames of a job set the bound of its channel when the job comes with a
previous hash. -/
theorem lastBound_jobFrames (h : jobFrame sha job ch = some frame) (c : UInt32)
    (sent : List Frame) :
    lastBound c (sent ++ frame :: prevhashFrames job ch) =
      if ch.channelId = c then
        (job.prevhashUpdate.map fun ph => (job.jobId, ph.minNtime)).or
          (lastBound c sent)
      else lastBound c sent := by
  have hframe : lastBound c (sent ++ [frame]) = lastBound c sent :=
    lastOf_append_none fun f hf => by
      rw [List.mem_singleton.mp hf]
      exact boundOn_jobFrame h c
  rw [List.append_cons, prevhashFrames]
  cases job.prevhashUpdate with
  | none =>
      dsimp only
      rw [List.append_nil, hframe, Option.map_none, Option.none_or, ite_self]
  | some ph =>
      dsimp only
      by_cases hc : ch.channelId = c
      · rw [if_pos hc]
        refine lastOf_append_const ?_ ⟨_, List.mem_singleton_self _, if_pos hc⟩
        intro f hf bound hbound
        rw [List.mem_singleton.mp hf, Frame.boundOn, if_pos hc] at hbound
        exact (Option.some.inj hbound).symm
      · rw [if_neg hc, ← hframe]
        refine lastOf_append_none ?_
        intro f hf
        rw [List.mem_singleton.mp hf]
        exact if_neg hc

theorem noteJob_activationMinNtime (now : ℕ) (job : JobBroadcast) (ch : ChannelState) :
    (noteJob now job ch).activationMinNtime =
      (job.prevhashUpdate.map (·.minNtime)).or ch.activationMinNtime := by
  unfold noteJob
  cases job.prevhashUpdate with
  | none => rfl
  | some ph => rfl

end

/-! ## The bound of a channel -/

/-- What a channel is fixed to, and its bound, stay. -/
structure ChannelState.Anchored (ch ch' : ChannelState) : Prop where
  same : ch.Same ch'
  bound : ch'.activationMinNtime = ch.activationMinNtime

/-- A channel's bound is the least time of the last previous hash sent on it. -/
structure Connection.Bounded (conn : Connection) : Prop where
  keyed : conn.channels.Keyed
  opened : ∀ c, lastBound c conn.sent ≠ none → c ∈ conn.channels.channels.keys
  bound : ∀ id ch, conn.channels.get id = some ch →
    ch.activationMinNtime = (lastBound id conn.sent).map (·.2)

namespace Connection.Bounded

variable {sha : Bytes → Bytes32} {cfg : HandlerConfig} {clock : Clock} {now : ℕ}
  {job : JobBroadcast} {conn conn' : Connection}

theorem start (cfg : HandlerConfig) : (Connection.start cfg).Bounded where
  keyed := by
    intro id ch hget
    cases hget
  opened _ hne := absurd rfl hne
  bound := by
    intro id ch hget
    cases hget

theorem updates (h : conn.Bounded)
    (hchannels : conn.channels.Updates ChannelState.Anchored conn'.channels)
    (hsent : ∀ c, lastBound c conn'.sent = lastBound c conn.sent) :
    conn'.Bounded := by
  refine ⟨h.keyed.of_keeps (hchannels.mono fun _ _ h => h.same).keeps, ?_, ?_⟩
  · intro c hne
    rw [hsent] at hne
    exact hchannels.keys.1.symm.subset (h.opened c hne)
  · intro id ch' hget
    obtain ⟨ch, hch, hanchored⟩ := hchannels.get (fun ch => ⟨.refl ch, rfl⟩)
      (fun _ _ _ h h' => ⟨h.same.trans h'.same, h'.bound.trans h.bound⟩) hget
    rw [hsent, hanchored.bound]
    exact h.bound id ch hch

/-- A job that comes with a previous hash moves the bound of the channel it is
sent on, and the channel notes it. -/
theorem sendJob (h : conn.Bounded) {ch : ChannelState}
    (hopened : ch.channelId ∈ conn.channels.channels.keys) :
    (sendJob sha now job ch conn).Bounded := by
  have hupdates := sendJob_updates sha now job ch conn
  have hkeyed := h.keyed.of_keeps hupdates.keeps
  cases hframe : jobFrame sha job ch with
  | none =>
      rw [Gateway.sendJob, hframe]
      exact ⟨h.keyed, h.opened, h.bound⟩
  | some frame =>
      rw [Gateway.sendJob, hframe] at hupdates hkeyed ⊢
      refine ⟨hkeyed, ?_, ?_⟩
      · intro c hne
        apply hupdates.keys.1.symm.subset
        dsimp only at hne
        rw [lastBound_jobFrames hframe] at hne
        by_cases hc : ch.channelId = c
        · exact hc ▸ hopened
        · rw [if_neg hc] at hne
          exact h.opened c hne
      · intro id ch' hget
        dsimp only at hget ⊢
        rw [lastBound_jobFrames hframe]
        by_cases hid : id = ch.channelId
        · subst hid
          obtain ⟨old, hold, -⟩ := hupdates.keeps _ _ hget
          rw [ConnectionChannels.get_modify_self hold (noteJob_closed now job old),
            Option.some.injEq] at hget
          rw [if_pos rfl, ← hget, noteJob_activationMinNtime, h.bound _ old hold]
          cases job.prevhashUpdate with
          | none => rfl
          | some ph => rfl
        · rw [ConnectionChannels.get_modify_of_ne hid] at hget
          rw [if_neg (Ne.symm hid)]
          exact h.bound id ch' hget

theorem distributeJob (h : conn.Bounded) (ids : List UInt32) :
    (distributeJob sha now job ids conn).Bounded := by
  induction ids generalizing conn with
  | nil => exact h
  | cons id ids ih =>
      unfold Gateway.distributeJob
      cases hget : conn.channels.get id with
      | none => exact ih h
      | some ch =>
          have hopened : ch.channelId ∈ conn.channels.channels.keys := by
            rw [h.keyed id ch hget]
            exact (List.mem_filter.mp (ConnectionChannels.mem_openIds hget)).1
          have hsend : (Gateway.sendJob sha now job ch conn).Bounded := h.sendJob hopened
          dsimp only
          split
          · exact hsend
          · exact ih hsend

/-- A new channel has no bound, and no frame for it was sent. -/
theorem openChannel (h : conn.Bounded) {ch : ChannelState}
    (hfresh : ch.channelId ∉ conn.channels.channels)
    (hnew : ch.activationMinNtime = none)
    (hopen : conn.channels.openChannel ch = .ok conn'.channels)
    (hsent : ∀ c, lastBound c conn'.sent = lastBound c conn.sent) :
    conn'.Bounded := by
  have hkeys := (ConnectionChannels.keys_openChannel hopen hfresh).1
  refine ⟨?_, ?_, ?_⟩
  · intro id ch' hget
    rcases ConnectionChannels.get_openChannel hopen hget with ⟨hid, rfl⟩ | hold
    · exact hid.symm
    · exact h.keyed id ch' hold
  · intro c hne
    rw [hsent] at hne
    rw [hkeys]
    exact List.mem_cons_of_mem _ (h.opened c hne)
  · intro id ch' hget
    rw [hsent]
    rcases ConnectionChannels.get_openChannel hopen hget with ⟨hid, rfl⟩ | hold
    · have hnone : lastBound id conn.sent = none := by
        by_contra hne
        exact hfresh (hid ▸ h.opened id hne)
      rw [hnew, hnone]
      rfl
    · exact h.bound id ch' hold

theorem startChannel (h : conn.Bounded) (latest : Option JobBroadcast)
    {ch : ChannelState} {success : Frame} (hsuccess : success.isAnswer = true)
    {channels : ConnectionChannels} (hfresh : ch.channelId ∉ conn.channels.channels)
    (hnew : ch.activationMinNtime = none)
    (hopen : conn.channels.openChannel ch = .ok channels) :
    (conn.startChannel sha cfg clock latest ch success channels).Bounded := by
  have hanswer := startFrames_isAnswer cfg ch.channelId hsuccess
  have hopened : ({ conn with
      channels
      steady := true
      sent := conn.sent ++ [success, .setTarget ch.channelId cfg.channelTarget] } :
        Connection).Bounded :=
    h.openChannel hfresh hnew hopen fun c => lastBound_of_isAnswer hanswer c
  have hvardiff : channels.Updates ChannelState.Anchored (if cfg.vardiffEnabled then
      channels.modify ch.channelId fun ch =>
        { ch with vardiff := some (initialVardiff cfg clock.now) }
      else channels) := by
    split
    · exact .modify .refl ch.channelId fun _ => ⟨⟨rfl, rfl, rfl⟩, rfl⟩
    · exact .refl
  have hkeys := (ConnectionChannels.keys_openChannel hopen hfresh).1
  unfold Connection.startChannel
  dsimp only
  cases latest with
  | none => exact hopened.updates hvardiff fun _ => rfl
  | some job =>
      apply Connection.Bounded.sendJob
      · exact hopened.updates hvardiff fun _ => rfl
      · exact hvardiff.keys.1.symm.subset (hkeys ▸ List.mem_cons_self)

end Connection.Bounded

namespace Session

variable {sha : Bytes → Bytes32} {cfg : HandlerConfig} {s t : Session}

theorem bounded_handle (hs : s.conn.Bounded) (hcounted : s.Counted cfg) {clock : Clock}
    (request : OpenRequest)
    (hgateway : request.handle sha cfg clock s.toGatewayState = t.toGatewayState) :
    t.conn.Bounded := by
  obtain ⟨-, ⟨hrefuses, -⟩ | ⟨⟨channelId, -, hopens⟩, -⟩⟩ :=
    handle_outcome sha cfg clock request _ _ hgateway
  · obtain ⟨f, hsent, hanswer, -⟩ := hrefuses.sent
    refine hs.updates ?_ ?_
    · rw [hrefuses.channels]
      exact .refl
    · intro c
      rw [hsent]
      exact lastBound_of_isAnswer (by simpa using hanswer) c
  · obtain ⟨extranonce, channels, hopen, hconn⟩ := hopens.started
    rw [hconn]
    refine hs.startChannel _ (request.success_isAnswer cfg channelId extranonce) ?_ ?_ hopen
    · rw [OpenRequest.channelId_channel]
      exact hcounted.fresh hopens.issued
    · cases request with
      | standard req => rfl
      | extended req => rfl

theorem bounded_step (hs : s.conn.Bounded) (hcounted : s.Counted cfg)
    {event : SessionEvent} (h : s.step sha cfg event = some t) :
    t.conn.Bounded := by
  rcases step_cases h with hloop | ⟨-, rfl⟩ | ⟨-, -, hhandler⟩
  · rw [(loopStep_channelIdAlloc hloop).1]
    exact hs
  · exact hs
  rcases handlerStep_cases hhandler with ⟨clock, req, -, rfl⟩ | ⟨clock, req, -, rfl⟩ |
    ⟨n, receiver, -, rfl⟩ | ⟨clock, order, job, receiver, -, -, rfl⟩ |
    ⟨env, submission, -, rfl⟩ | ⟨channelId, -, rfl⟩ | ⟨exit, rfl⟩
  · exact bounded_handle hs hcounted (.standard req) rfl
  · exact bounded_handle hs hcounted (.extended req) rfl
  · exact hs
  · exact hs.distributeJob _
  · obtain ⟨frames, hsent, hanswer⟩ :=
      (handleSubmission_answers sha cfg env submission s).sent
    refine hs.updates ?_ ?_
    · rw [handleSubmission_eq]
      exact (handleShare_updates _ _ _ _).mono
        fun _ _ h => ⟨h.same, h.activationMinNtime⟩
    · intro c
      dsimp only
      rw [hsent]
      exact lastBound_of_isAnswer hanswer c
  · exact hs.updates (.modify .refl channelId fun _ => ⟨⟨rfl, rfl, rfl⟩, rfl⟩)
      fun _ => rfl
  · exact hs.updates .refl fun _ => rfl

end Session

/-! ## Where the times come from -/

/-- The times that the frame advertises are those of job records. -/
def Frame.TracedTo (records : List JobRecord) (f : Frame) : Prop :=
  ∀ c jobId minNtime, f.advertisedOn c = some (jobId, minNtime) →
    ∃ r ∈ records, r.jobId = jobId ∧ r.activationMinNtime = minNtime

section

variable {sha : Bytes → Bytes32} {job : JobBroadcast} {f : Frame} {c jobId minNtime : UInt32}
  {records : List JobRecord}

theorem advertisedOn_of_isOfJob (h : IsOfJob sha job f)
    (hadvertised : f.advertisedOn c = some (jobId, minNtime)) :
    jobId = job.jobId ∧ (job.minNtime = some minNtime ∨
      ∃ ph, job.prevhashUpdate = some ph ∧ ph.minNtime = minNtime) := by
  obtain ⟨ch, frame, hframe, hf⟩ := h
  have hjob : ∀ {c' : UInt32}, (if c' = c then job.minNtime.map (job.jobId, ·) else none) =
      some (jobId, minNtime) → jobId = job.jobId ∧ job.minNtime = some minNtime := by
    intro c' h
    split at h
    · obtain ⟨m, hm, hpair⟩ := Option.map_eq_some_iff.mp h
      cases hpair
      exact ⟨rfl, hm⟩
    · cases h
  rcases List.mem_cons.mp hf with rfl | hf
  · unfold jobFrame at hframe
    split at hframe
    · cases hframe
      exact (hjob hadvertised).imp_right Or.inl
    · split at hframe
      · cases hframe
        exact (hjob hadvertised).imp_right Or.inl
      · cases hframe
  · unfold prevhashFrames at hf
    split at hf
    · rename_i ph hph
      rw [List.mem_singleton.mp hf, Frame.advertisedOn] at hadvertised
      split at hadvertised
      · cases hadvertised
        exact ⟨rfl, Or.inr ⟨ph, hph, rfl⟩⟩
      · cases hadvertised
    · cases hf

/-- The announcement of a job has one least time, whichever field carries it. -/
theorem tracedTo_of_isOfJob {r : JobRecord} (hr : r ∈ records)
    (h : IsOfJob sha r.broadcast f) : f.TracedTo records := by
  intro c jobId minNtime hadvertised
  obtain ⟨rfl, htime⟩ := advertisedOn_of_isOfJob h hadvertised
  refine ⟨r, hr, rfl, ?_⟩
  rcases htime with hmin | ⟨ph, hph, rfl⟩
  · rw [JobRecord.broadcast] at hmin
    split at hmin
    · cases hmin
    · exact Option.some.inj hmin
  · rw [JobRecord.broadcast] at hph
    split at hph
    · cases hph
      rfl
    · cases hph

theorem tracedTo_of_isAnswer (h : f.isAnswer = true) : f.TracedTo records := by
  intro c jobId minNtime hadvertised
  rw [Frame.advertisedOn_of_isAnswer h] at hadvertised
  cases hadvertised

theorem Frame.TracedTo.mono {records' : List JobRecord} (h : f.TracedTo records)
    (hsub : records ⊆ records') : f.TracedTo records' := by
  intro c jobId minNtime hadvertised
  obtain ⟨r, hr, htraced⟩ := h c jobId minNtime hadvertised
  exact ⟨r, hsub hr, htraced⟩

end

namespace Session

variable {sha : Bytes → Bytes32} {cfg : HandlerConfig} {s t : Session}

/-- Every job under way or sent is that of a record. -/
structure Traced (s : Session) : Prop where
  ahead : ∀ r ∈ s.ahead, r ∈ s.records
  latest : ∀ job, s.feed.latestJob = some job → ∃ r ∈ s.records, job = r.broadcast
  sent : ∀ f ∈ s.conn.sent, f.TracedTo s.records

theorem initial_traced (cfg : HandlerConfig) (htwo : 2 ≤ cfg.extranoncePrefixLen)
    (height : cfg.extranoncePrefixLen ≤ 8) (retentionMs : UInt64)
    (maxEntries : ℕ) :
    (initial cfg htwo height retentionMs maxEntries).Traced where
  ahead _ hr := nomatch hr
  latest _ hjob := nomatch hjob
  sent _ hf := nomatch hf

theorem Traced.of_same (hs : s.Traced) (hahead : t.ahead ⊆ s.ahead)
    (hlatest : t.feed.latestJob = s.feed.latestJob) (hconn : t.conn = s.conn)
    (hrecords : t.records = s.records) : t.Traced where
  ahead := by
    intro r hr
    rw [hrecords]
    exact hs.ahead r (hahead hr)
  latest := by
    rw [hlatest, hrecords]
    exact hs.latest
  sent := by
    rw [hconn, hrecords]
    exact hs.sent

/-- A step of the handler sends answers and jobs that are known. -/
theorem Traced.sends (hs : s.Traced) (hfeed : t.feed = s.feed)
    (hrecords : t.records = s.records) (hahead : t.ahead ⊆ s.ahead)
    {frames : List Frame} (hsent : t.conn.sent = s.conn.sent ++ frames)
    (hframes : ∀ f ∈ frames, f.TracedTo s.records) : t.Traced where
  ahead := by
    intro r hr
    rw [hrecords]
    exact hs.ahead r (hahead hr)
  latest := by
    rw [hfeed, hrecords]
    exact hs.latest
  sent := by
    rw [hsent, hrecords]
    exact List.forall_mem_append.mpr ⟨hs.sent, hframes⟩

theorem Traced.prepare (hs : s.Traced) (hidle : s.announcing = .idle)
    {jobAlloc : JobIdAllocator} {jobTable : JobTable} {job : JobRecord} :
    (s.prepared jobAlloc jobTable job).Traced where
  ahead := by
    intro r hr
    rw [ahead_prepared, List.mem_append] at hr
    rcases hr with hr | hr
    · exact List.mem_append_left _ (hs.ahead r (ahead_of_idle hidle ▸ hr))
    · exact List.mem_append_right _ hr
  latest := by
    intro latest hlatest
    obtain ⟨r, hr, heq⟩ := hs.latest latest hlatest
    exact ⟨r, List.mem_append_left _ hr, heq⟩
  sent f hf := (hs.sent f hf).mono (List.subset_append_left _ _)

theorem Traced.loopStep (hs : s.Traced) {event : SessionEvent}
    (h : s.loopStep event = some t) : t.Traced := by
  rcases loopStep_cases h with ⟨issued, jobAlloc, -, rfl⟩ |
    ⟨clock, template, job, jobAlloc, -, hidle, -, -, -, rfl⟩ |
    ⟨job, hinserted, rfl⟩ | ⟨job, -, hpublished, rfl⟩ | ⟨_, _, -, rfl⟩
  · exact hs.of_same (List.Subset.refl _) rfl rfl rfl
  · exact hs.prepare hidle
  · have hahead : s.ahead = s.receiver.queue ++ [job] := by
      rw [Session.ahead, hinserted]
      rfl
    refine ⟨fun r hr => hs.ahead r (hahead ▸ hr), ?_, hs.sent⟩
    intro latest hlatest
    cases hlatest
    exact ⟨job, hs.ahead job (hahead ▸ List.mem_append_right _ List.mem_cons_self), rfl⟩
  · exact hs.of_same (sublist_send hpublished).subset rfl rfl rfl
  · exact hs.of_same (List.Subset.refl _) rfl rfl rfl

theorem Traced.handle (hs : s.Traced) {clock : Clock} (request : OpenRequest)
    (hgateway : request.handle sha cfg clock s.toGatewayState = t.toGatewayState)
    (hfeed : t.feed = s.feed) (hrecords : t.records = s.records)
    (hahead : t.ahead ⊆ s.ahead) : t.Traced := by
  obtain ⟨-, ⟨hrefuses, -⟩ | ⟨⟨channelId, -, hopens⟩, -⟩⟩ :=
    handle_outcome sha cfg clock request _ _ hgateway
  · obtain ⟨f, hsent, hanswer, -⟩ := hrefuses.sent
    refine hs.sends hfeed hrecords hahead hsent ?_
    intro g hg
    rw [List.mem_singleton.mp hg]
    exact tracedTo_of_isAnswer hanswer
  · obtain ⟨extranonce, channels, -, hconn⟩ := hopens.started
    obtain ⟨frames, hsent, hframes⟩ := startChannel_frames sha cfg clock
      s.feed.latestJob (request.channel cfg clock channelId extranonce)
      (request.success cfg channelId extranonce) channels s.conn
    rw [← hconn] at hsent
    refine hs.sends hfeed hrecords hahead hsent (List.forall_mem_append.mpr ⟨?_, ?_⟩)
    · intro f hf
      exact tracedTo_of_isAnswer
        (startFrames_isAnswer cfg _ (request.success_isAnswer cfg channelId extranonce) f hf)
    · intro f hf
      obtain ⟨job, hlatest, hofjob⟩ := hframes f hf
      obtain ⟨r, hr, rfl⟩ := hs.latest job hlatest
      exact tracedTo_of_isOfJob hr hofjob

theorem Traced.handlerStep (hs : s.Traced) {event : SessionEvent}
    (h : s.handlerStep sha cfg event = some t) : t.Traced := by
  rcases handlerStep_cases h with ⟨clock, req, -, rfl⟩ | ⟨clock, req, -, rfl⟩ |
    ⟨n, receiver, hrecv, rfl⟩ | ⟨clock, order, job, receiver, -, hrecv, rfl⟩ |
    ⟨env, submission, -, rfl⟩ | ⟨channelId, -, rfl⟩ | ⟨exit, rfl⟩
  · exact hs.handle (.standard req) rfl (openWith_cases _ _ _ _ _ _ _).1 rfl
      (List.Subset.refl _)
  · exact hs.handle (.extended req) rfl
      (handleOpenExtendedChannel_feed clock req _) rfl (List.Subset.refl _)
  · rcases Receiver.recv_cases hrecv with ⟨job, hmessage, -⟩ | ⟨n', -, hqueue⟩
    · cases hmessage
    · refine hs.of_same ?_ rfl rfl rfl
      rw [Session.ahead, Session.ahead, hqueue]
      exact List.Subset.refl _
  · rcases Receiver.recv_cases hrecv with ⟨job', hmessage, hqueue⟩ | ⟨n', hlagged, -⟩
    · cases hmessage
      have hahead := ahead_of_queue hqueue
      obtain ⟨frames, hsent, hframes⟩ := distributeJob_frames sha clock.now
        job.broadcast (order.visit s.conn.channels.openIds) s.conn
      refine hs.sends rfl rfl ?_ hsent ?_
      · rw [hahead]
        exact List.subset_cons_self _ _
      · intro f hf
        exact tracedTo_of_isOfJob (hs.ahead job (hahead ▸ List.mem_cons_self))
          (hframes f hf)
    · cases hlagged
  · obtain ⟨frames, hsent, hanswer⟩ :=
      (handleSubmission_answers sha cfg env submission s).sent
    exact hs.sends rfl rfl (List.Subset.refl _) hsent
      fun f hf => tracedTo_of_isAnswer (hanswer f hf)
  · exact hs.sends rfl rfl (List.Subset.refl _) (List.append_nil _).symm (by simp)
  · exact hs.sends rfl rfl (List.Subset.refl _) (List.append_nil _).symm (by simp)

theorem Traced.step (hs : s.Traced) {event : SessionEvent}
    (h : s.step sha cfg event = some t) : t.Traced := by
  rcases step_cases h with hloop | ⟨-, rfl⟩ | ⟨-, -, hhandler⟩
  · exact hs.loopStep hloop
  · exact hs.of_same (List.Subset.refl _) rfl rfl rfl
  · exact hs.handlerStep hhandler

/-! ## Times of records -/

/-- The job was made of a template that arrived in one of the events. -/
def MadeBy (events : List SessionEvent) (r : JobRecord) : Prop :=
  ∃ clock template, .prepare clock template ∈ events ∧
    r.rawMinNtime = template.minNtime ∧
    r.activationMinNtime =
      effectiveMinNtime template.minNtime template.curtime clock.nowUnix 60

theorem loopStep_records {event : SessionEvent} (h : s.loopStep event = some t) :
    t.records = s.records ∨ ∃ clock template jobId job, event = .prepare clock template ∧
      jobFromTemplate clock jobId s.feed.activePrevHash template = some job ∧
      t.records = s.records ++ [job] := by
  unfold loopStep at h
  split at h
  · rename_i clock template
    split at h
    · cases h
      exact Or.inl rfl
    · rename_i feed job _ hprepare
      cases h
      unfold prepareJob at hprepare
      split at hprepare
      · cases hprepare
      · rename_i jobId jobAlloc _
        split at hprepare
        · cases hprepare
        · rename_i job' hjob
          cases hprepare
          exact Or.inr ⟨clock, template, jobId, job, rfl, hjob, rfl⟩
    · cases h
  · split at h
    · cases h
      exact Or.inl rfl
    · cases h
  · split at h
    · cases h
      exact Or.inl rfl
    · cases h
  · split at h
    · cases h
      exact Or.inl rfl
    · cases h
      exact Or.inl rfl
  · cases h

theorem madeBy_step {events : List SessionEvent} (hs : ∀ r ∈ s.records, MadeBy events r)
    {event : SessionEvent} (hevent : event ∈ events)
    (h : s.step sha cfg event = some t) :
    ∀ r ∈ t.records, MadeBy events r := by
  rcases step_cases h with hloop | ⟨-, rfl⟩ | ⟨-, -, hhandler⟩
  · rcases loopStep_records hloop with hsame | ⟨clock, template, jobId, job, rfl, hjob, hmore⟩
    · rw [hsame]
      exact hs
    · rw [hmore]
      refine List.forall_mem_append.mpr ⟨hs, List.forall_mem_singleton.mpr ?_⟩
      unfold jobFromTemplate at hjob
      split at hjob
      · cases hjob
        exact ⟨clock, template, hevent, rfl, rfl⟩
      · cases hjob
  · exact hs
  · rw [(handlerStep_feed hhandler).2]
    exact hs

/-- Whenever a job was made, the gateway's clock was behind the template's least
time by no more than the allowance. -/
def ClockKeepsUp (events : List SessionEvent) : Prop :=
  ∀ clock template, .prepare clock template ∈ events →
    template.minNtime ≤ saturatingAdd32 clock.nowUnix 60

theorem le_effectiveMinNtime {minNtime curtime now allowance : UInt32}
    (h : minNtime ≤ saturatingAdd32 now allowance) :
    minNtime ≤ effectiveMinNtime minNtime curtime now allowance := by
  have hmax : minNtime ≤ max minNtime curtime := by
    change minNtime ≤ if minNtime ≤ curtime then curtime else minNtime
    split
    · assumption
    · exact UInt32.le_refl _
  change minNtime ≤ if max minNtime curtime ≤ saturatingAdd32 now allowance then
    max minNtime curtime else saturatingAdd32 now allowance
  split
  · exact hmax
  · exact h

theorem MadeBy.raw_le {events : List SessionEvent} {r : JobRecord}
    (h : MadeBy events r) (hclock : ClockKeepsUp events) :
    r.rawMinNtime ≤ r.activationMinNtime := by
  obtain ⟨clock, template, hevent, hraw, hactivation⟩ := h
  rw [hraw, hactivation]
  exact le_effectiveMinNtime (hclock clock template hevent)

/-! ## Accepted shares -/

/-- The job that bounds the time of shares on a channel: the one that the last
previous hash sent on it came with, and the share's own while none was sent. -/
def Bounds (channelId : UInt32) (job bound : JobRecord) (s : Session) : Prop :=
  match lastBound channelId s.conn.sent with
  | none => bound = job
  | some (jobId, minNtime) => bound ∈ s.records ∧ bound.jobId = jobId ∧
      bound.activationMinNtime = minNtime

/-- The least time was advertised on the channel with the job. -/
def Advertised (channelId jobId minNtime : UInt32) (s : Session) : Prop :=
  ∃ f ∈ s.conn.sent, f.advertisedOn channelId = some (jobId, minNtime)

end Session

theorem processShare_ntime {sha : Bytes → Bytes32} {cfg : HandlerConfig}
    {env : SubmitEnv} {table : JobTable} {ch : ChannelState} {extranonce : Bytes}
    {share : SubmitSharesStandard} {dedup : ShareDedupSet} {difficulty : UInt64}
    (h : (processShare env sha cfg table ch extranonce share dedup).1.reply =
      .ok difficulty) :
    ∃ job, table.get share.jobId = some job ∧
      ch.activationMinNtime.getD job.activationMinNtime ≤ share.ntime := by
  unfold processShare at h
  split at h
  · cases h
  · rename_i job hjob
    split at h
    · cases h
    · split at h
      · cases h
      · rename_i hntime
        refine ⟨job, hjob, ?_⟩
        rw [Bool.not_eq_true', Bool.not_eq_false, checkNtimeBounds] at hntime
        split at hntime
        · cases hntime
        · rename_i hlt
          exact UInt32.not_lt.mp hlt

theorem mem_of_lastOf {α β : Type*} {f : α → Option β} {xs : List α} {b : β}
    (h : lastOf f xs = some b) : ∃ x ∈ xs, f x = some b :=
  List.mem_filterMap.mp (List.mem_of_getLast? h)

namespace Session

variable {sha : Bytes → Bytes32} {cfg : HandlerConfig} {s t : Session}

/-- A share that is accepted is not before the bound of its channel. -/
theorem bound_le_ntime (hbounded : s.conn.Bounded) (htraced : s.Traced)
    {env : SubmitEnv} {submission : Submission} {difficulty : UInt64}
    (haccepted : (s.handleSubmission sha cfg env submission).2.reply =
      .ok difficulty) :
    ∃ job bound, s.feed.jobTable.get submission.fields.jobId = some job ∧
      s.Bounds submission.fields.channelId job bound ∧
      bound.activationMinNtime ≤ submission.fields.ntime := by
  rw [handleSubmission_eq] at haccepted
  obtain ⟨ch, extranonce, hch, -, houtcome⟩ := handleShare_eq_ok haccepted
  rw [houtcome] at haccepted
  obtain ⟨job, hjob, hntime⟩ := processShare_ntime haccepted
  rw [hbounded.bound _ ch hch] at hntime
  unfold Bounds
  cases hlast : lastBound submission.fields.channelId s.conn.sent with
  | none =>
      rw [hlast] at hntime
      exact ⟨job, job, hjob, rfl, hntime⟩
  | some last =>
      rw [hlast] at hntime
      obtain ⟨f, hf, hbound⟩ := mem_of_lastOf hlast
      obtain ⟨bound, hmem, hid, htime⟩ :=
        htraced.sent f hf _ _ _ (Frame.advertisedOn_of_boundOn hbound)
      exact ⟨job, bound, hjob, ⟨hmem, hid, htime⟩, htime ▸ hntime⟩

/-- In every run, the time of an accepted share is at least the least time of the
last previous hash sent on its channel, or of its own job when none was sent.
So it is at least the time advertised with its job when that job came with that
previous hash or its time is no later, and at least the time of its template when
that is no later than the one of the bounding job's template and the gateway's
clock keeps up. -/
theorem ntime_of_accepted (sha : Bytes → Bytes32) (cfg : HandlerConfig)
    (htwo : 2 ≤ cfg.extranoncePrefixLen) (height : cfg.extranoncePrefixLen ≤ 8)
    (retentionMs : UInt64) (maxEntries : ℕ) (events : List SessionEvent)
    (env : SubmitEnv) (submission : Submission) (s : Session) (difficulty : UInt64)
    (hrun : run (step sha cfg) (initial cfg htwo height retentionMs maxEntries)
      events = some s)
    (haccepted : (s.handleSubmission sha cfg env submission).2.reply =
      .ok difficulty) :
    ∃ job bound, s.feed.jobTable.get submission.fields.jobId = some job ∧
      s.Bounds submission.fields.channelId job bound ∧
      bound.activationMinNtime ≤ submission.fields.ntime ∧
      (∀ minNtime,
        s.Advertised submission.fields.channelId submission.fields.jobId minNtime →
        bound.jobId = job.jobId ∨ minNtime ≤ bound.activationMinNtime →
          minNtime ≤ submission.fields.ntime) ∧
      (ClockKeepsUp events → job.rawMinNtime ≤ bound.rawMinNtime →
        job.rawMinNtime ≤ submission.fields.ntime) := by
  have hs : s.conn.Bounded ∧ s.Counted cfg ∧ s.Traced ∧ s.Numbered :=
    invariant_of_run (I := fun s => s.conn.Bounded ∧ s.Counted cfg ∧ s.Traced ∧ s.Numbered)
      (fun _ _ _ hs hstep => ⟨bounded_step hs.1 hs.2.1 hstep, hs.2.1.step hstep,
        hs.2.2.1.step hstep, hs.2.2.2.step hstep⟩)
      ⟨.start cfg, initial_counted cfg htwo height retentionMs maxEntries,
        initial_traced cfg htwo height retentionMs maxEntries,
        initial_numbered cfg htwo height retentionMs maxEntries⟩ hrun
  obtain ⟨hbounded, -, htraced, hnumbered⟩ := hs
  have hmade : ∀ r ∈ s.records, MadeBy events r :=
    invariant_of_along (C := fun _ event => event ∈ events)
      (fun _ _ _ hs hevent hstep => madeBy_step hs hevent hstep)
      (by intro r hr; cases hr) (.of_forall_mem fun _ hevent _ => hevent) hrun
  obtain ⟨job, bound, hjob, hbounds, hntime⟩ := bound_le_ntime hbounded htraced haccepted
  obtain ⟨hmem, hid⟩ := hnumbered.table _ _ hjob
  have hbound : bound ∈ s.records := by
    unfold Bounds at hbounds
    split at hbounds
    · rw [hbounds]
      exact hmem
    · exact hbounds.1
  refine ⟨job, bound, hjob, hbounds, hntime, ?_, ?_⟩
  · rintro minNtime ⟨f, hf, hadvertised⟩ (hsame | hle)
    · obtain ⟨r, hr, hrid, rfl⟩ := htraced.sent f hf _ _ _ hadvertised
      have hrbound : r = bound :=
        List.inj_on_of_nodup_map hnumbered.nodup hr hbound
          (hrid.trans (hid.symm.trans hsame.symm))
      rw [hrbound]
      exact hntime
    · exact UInt32.le_trans hle hntime
  · intro hclock hraw
    have hclamped := (hmade bound hbound).raw_le hclock
    exact UInt32.le_trans hraw (UInt32.le_trans hclamped hntime)

/-! ## A share before the time of its refresh -/

/-- A standard share on the first channel. -/
def shareAt (jobId ntime : UInt32) : SubmitSharesStandard :=
  { minedShare with jobId, ntime }

/-- Whether the share is accepted, what was advertised on its channel, and the
least time of its template. -/
def tryShareAt (share : SubmitSharesStandard) (s : Session) :
    Bool × List (UInt32 × UInt32) × Option UInt32 :=
  ((s.handleSubmission sha256 (.permissive 4) openQueues (.standard share)).2.reply.isOk,
    s.conn.sent.filterMap (Frame.advertisedOn 1),
    (s.feed.jobTable.get share.jobId).map (·.rawMinNtime))

theorem tryShareAt_eq (events : List SessionEvent) (share : SubmitSharesStandard)
    (advertised : List (UInt32 × UInt32)) (raw : Option UInt32)
    (h : (run (step sha256 (.permissive 4)) fresh events).map (tryShareAt share) =
      some (true, advertised, raw)) :
    ∃ s difficulty, run (step sha256 (.permissive 4)) fresh events = some s ∧
      (s.handleSubmission sha256 (.permissive 4) openQueues
        (.standard share)).2.reply = .ok difficulty ∧
      s.conn.sent.filterMap (Frame.advertisedOn 1) = advertised ∧
      (s.feed.jobTable.get share.jobId).map (·.rawMinNtime) = raw := by
  obtain ⟨s, hrun, htried⟩ := Option.map_eq_some_iff.mp h
  simp only [tryShareAt, Prod.mk.injEq] at htried
  obtain ⟨difficulty, hreply⟩ := Result.isOk_iff.mp htried.1
  exact ⟨s, difficulty, hrun, hreply, htried.2⟩

/-- A share on the refresh, ten seconds after the time of the block. -/
theorem tryShareAt_orderedRun :
    ∃ s difficulty, run (step sha256 (.permissive 4)) fresh orderedRun = some s ∧
      (s.handleSubmission sha256 (.permissive 4) openQueues
        (.standard (shareAt 2 1700000010))).2.reply = .ok difficulty ∧
      s.conn.sent.filterMap (Frame.advertisedOn 1) =
        [(1, 1700000000), (2, 1700000030)] ∧
      (s.feed.jobTable.get 2).map (·.rawMinNtime) = some 1296688603 :=
  tryShareAt_eq orderedRun (shareAt 2 1700000010) _ _ (by decide +kernel)

/-- A share on a refresh is accepted at a time after that of the block. -/
theorem ntime_of_accepted_orderedRun :
    ∃ s, run (step sha256 (.permissive 4)) fresh orderedRun = some s ∧
      ∃ job bound, s.feed.jobTable.get 2 = some job ∧ s.Bounds 1 job bound ∧
        bound.activationMinNtime ≤ 1700000010 := by
  obtain ⟨s, difficulty, hrun, hreply, -⟩ := tryShareAt_orderedRun
  obtain ⟨job, bound, hjob, hbounds, hntime, -⟩ := ntime_of_accepted _ _ _ _ _ _
    orderedRun openQueues (.standard (shareAt 2 1700000010)) s difficulty hrun hreply
  exact ⟨s, hrun, job, bound, hjob, hbounds, hntime⟩

/-- A clock behind the time of the block by years. -/
def laggingClock : Clock where
  now := 10 ^ 9
  nowUnix := 1000
  unixMs := 1000000

/-- A channel is opened on a job that was made by the lagging clock. -/
def laggingRun : List SessionEvent :=
  [.prepare laggingClock .regtest, .publish, .send, .connect,
    .openStandard wallClock ⟨1, "miner"⟩]

/-- A share on a refresh is accepted before the time advertised with it, and a
share on a job made by a lagging clock before the time of its template. -/
theorem accepted_before_advertised_orderedRun :
    (∃ s difficulty minNtime,
      run (step sha256 (.permissive 4)) fresh orderedRun = some s ∧
      (s.handleSubmission sha256 (.permissive 4) openQueues
        (.standard (shareAt 2 1700000010))).2.reply = .ok difficulty ∧
      s.Advertised 1 2 minNtime ∧ ¬ minNtime ≤ (shareAt 2 1700000010).ntime) ∧
    ∃ s difficulty job,
      run (step sha256 (.permissive 4)) fresh laggingRun = some s ∧
      (s.handleSubmission sha256 (.permissive 4) openQueues
        (.standard (shareAt 1 1060))).2.reply = .ok difficulty ∧
      s.feed.jobTable.get 1 = some job ∧
      ¬ job.rawMinNtime ≤ (shareAt 1 1060).ntime := by
  constructor
  · obtain ⟨s, difficulty, hrun, hreply, hadvertised, -⟩ := tryShareAt_orderedRun
    have hmem : ((2 : UInt32), (1700000030 : UInt32)) ∈
        s.conn.sent.filterMap (Frame.advertisedOn 1) := by
      rw [hadvertised]
      decide
    exact ⟨s, difficulty, 1700000030, hrun, hreply, List.mem_filterMap.mp hmem, by decide⟩
  · obtain ⟨s, difficulty, hrun, hreply, -, hraw⟩ :=
      tryShareAt_eq laggingRun (shareAt 1 1060) [(1, 1060)]
        (some 1296688603) (by decide +kernel)
    obtain ⟨job, hjob, hmin⟩ := Option.map_eq_some_iff.mp hraw
    exact ⟨s, difficulty, job, hrun, hreply, hjob, by rw [hmin]; decide⟩

end Session

end ReserveGrid.Gateway
