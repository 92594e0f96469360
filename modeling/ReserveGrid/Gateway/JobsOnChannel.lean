import ReserveGrid.Gateway.ChannelLimit
import ReserveGrid.Gateway.MinerPrevhash

/-!
# The jobs of a channel in order

The main loop makes jobs under increasing ids and broadcasts them in that
order, so a channel that is open all the while gets them in order, lost ones
left out. A channel that is opened starts from the latest job, which a
broadcast still to be received by its connection may announce again, or may be
behind. The jobs sent on a channel are in order when no channel is opened while
such a broadcast is under way.
-/

namespace ReserveGrid.Gateway

open Support Bitcoin

/-! ## What is sent on a channel -/

/-- The jobs sent on a channel, in the order they were sent. -/
def jobsOn (channelId : UInt32) (sent : List Frame) : List UInt32 :=
  sent.filterMap (Frame.jobOn channelId)

/-- Channels are kept under their ids. -/
def ConnectionChannels.Keyed (c : ConnectionChannels) : Prop :=
  ∀ id ch, c.get id = some ch → ch.channelId = id

theorem ConnectionChannels.Keyed.of_keeps {c c' : ConnectionChannels} (h : c.Keyed)
    (hkeeps : c.Keeps c') : c'.Keyed := by
  intro id ch' hget
  obtain ⟨ch, hch, hsame⟩ := hkeeps id ch' hget
  exact hsame.channelId.trans (h id ch hch)

section

variable {sha : Bytes → Bytes32} {cfg : HandlerConfig} {clock : Clock}
  {c : UInt32} {sent frames : List Frame} {job : JobBroadcast} {ch : ChannelState}
  {frame : Frame}

theorem jobsOn_append (c : UInt32) (sent frames : List Frame) :
    jobsOn c (sent ++ frames) = jobsOn c sent ++ jobsOn c frames :=
  List.filterMap_append

theorem jobsOn_eq_nil (h : ∀ f ∈ frames, f.jobOn c = none) : jobsOn c frames = [] :=
  List.filterMap_eq_nil_iff.mpr h

theorem jobsOn_of_isAnswer (h : ∀ f ∈ frames, f.isAnswer = true) (c : UInt32) :
    jobsOn c (sent ++ frames) = jobsOn c sent := by
  rw [jobsOn_append, jobsOn_eq_nil fun f hf => Frame.jobOn_of_isAnswer (h f hf) c,
    List.append_nil]

theorem jobsOn_jobFrames (h : jobFrame sha job ch = some frame) (c : UInt32) :
    jobsOn c (frame :: prevhashFrames job ch) =
      if ch.channelId = c then [job.jobId] else [] := by
  have hprev : jobsOn c (prevhashFrames job ch) = [] := by
    refine jobsOn_eq_nil ?_
    intro f hf
    obtain ⟨-, -, hnone, -⟩ := mem_prevhashFrames hf c
    exact hnone
  have hframe := (jobOn_jobFrame h c).1
  rw [jobsOn] at hprev ⊢
  by_cases hc : ch.channelId = c
  · rw [if_pos hc] at hframe ⊢
    rw [List.filterMap_cons_some hframe, hprev]
  · rw [if_neg hc] at hframe ⊢
    rw [List.filterMap_cons_none hframe, hprev]

/-- A job is sent once on its channel, if it can be encoded, and on no other. -/
theorem jobsOn_sendJob (sha : Bytes → Bytes32) (now : ℕ) (job : JobBroadcast)
    (ch : ChannelState) (conn : Connection) (c : UInt32) :
    jobsOn c (sendJob sha now job ch conn).sent = jobsOn c conn.sent ∨
      ch.channelId = c ∧
        jobsOn c (sendJob sha now job ch conn).sent =
          jobsOn c conn.sent ++ [job.jobId] := by
  unfold sendJob
  split
  · exact Or.inl rfl
  · rename_i frame hframe
    dsimp only
    rw [jobsOn_append, jobsOn_jobFrames hframe]
    by_cases hc : ch.channelId = c
    · rw [if_pos hc]
      exact Or.inr ⟨hc, rfl⟩
    · rw [if_neg hc, List.append_nil]
      exact Or.inl rfl

/-- A job that is distributed is sent at most once on each channel, and on open
ones only. -/
theorem jobsOn_distributeJob (sha : Bytes → Bytes32) (now : ℕ) (job : JobBroadcast)
    {ids : List UInt32}
    (hnodup : ids.Nodup) {conn : Connection} (hkeyed : conn.channels.Keyed)
    (c : UInt32) :
    jobsOn c (distributeJob sha now job ids conn).sent = jobsOn c conn.sent ∨
      (c ∈ ids ∧ (∃ ch, conn.channels.get c = some ch) ∧
        jobsOn c (distributeJob sha now job ids conn).sent =
          jobsOn c conn.sent ++ [job.jobId]) := by
  induction ids generalizing conn with
  | nil => exact Or.inl rfl
  | cons id ids ih =>
      obtain ⟨hid, hnodup⟩ := List.nodup_cons.mp hnodup
      unfold distributeJob
      cases hget : conn.channels.get id with
      | none =>
          rcases ih hnodup hkeyed with hsame | ⟨hmem, hopen, hsent⟩
          · exact Or.inl hsame
          · exact Or.inr ⟨List.mem_cons_of_mem _ hmem, hopen, hsent⟩
      | some ch =>
          dsimp only
          have hchannel := hkeyed id ch hget
          have hkeeps := (sendJob_updates sha now job ch conn).keeps
          by_cases hended : (sendJob sha now job ch conn).exit.isSome = true
          · rw [if_pos hended]
            rcases jobsOn_sendJob sha now job ch conn c with hsame | ⟨hc, hsent⟩
            · exact Or.inl hsame
            · have hcid : c = id := hc.symm.trans hchannel
              exact Or.inr ⟨hcid ▸ List.mem_cons_self, ⟨ch, hcid ▸ hget⟩, hsent⟩
          · rw [if_neg hended]
            have hrest := ih hnodup (hkeyed.of_keeps hkeeps)
            rcases jobsOn_sendJob sha now job ch conn c with hsame | ⟨hc, hsent⟩
            · rw [hsame] at hrest
              rcases hrest with hkept | ⟨hmem, ⟨ch', hch'⟩, hsent⟩
              · exact Or.inl hkept
              · obtain ⟨old, hold, -⟩ := hkeeps c ch' hch'
                exact Or.inr ⟨List.mem_cons_of_mem _ hmem, ⟨old, hold⟩, hsent⟩
            · -- the channel of this id does not come up again
              have hcid : c = id := hc.symm.trans hchannel
              rw [hsent] at hrest
              rcases hrest with hkept | ⟨hmem, -, -⟩
              · exact Or.inr ⟨hcid ▸ List.mem_cons_self, ⟨ch, hcid ▸ hget⟩, hkept⟩
              · exact absurd (hcid ▸ hmem) hid

/-- A channel that is started is sent the latest job at most, and the others
nothing. -/
theorem jobsOn_startChannel (sha : Bytes → Bytes32) (cfg : HandlerConfig)
    (clock : Clock) (latest : Option JobBroadcast) (ch : ChannelState)
    {success : Frame} (hsuccess : success.isAnswer = true)
    (channels : ConnectionChannels) (conn : Connection) (c : UInt32) :
    jobsOn c (conn.startChannel sha cfg clock latest ch success channels).sent =
        jobsOn c conn.sent ∨
      ch.channelId = c ∧ ∃ job, latest = some job ∧
        jobsOn c (conn.startChannel sha cfg clock latest ch success channels).sent =
          jobsOn c conn.sent ++ [job.jobId] := by
  have hanswer : jobsOn c (conn.sent ++
      [success, .setTarget ch.channelId cfg.channelTarget]) = jobsOn c conn.sent :=
    jobsOn_of_isAnswer (startFrames_isAnswer cfg ch.channelId hsuccess) c
  unfold Connection.startChannel
  dsimp only
  split
  · exact Or.inl hanswer
  · rename_i job
    rcases jobsOn_sendJob sha clock.now job ch { conn with
        channels := _
        steady := true
        sent := conn.sent ++ [success, .setTarget ch.channelId cfg.channelTarget] } c
      with hsame | ⟨hc, hsent⟩
    · exact Or.inl (hsame.trans hanswer)
    · refine Or.inr ⟨hc, job, rfl, hsent.trans ?_⟩
      dsimp only
      rw [hanswer]

end

namespace Session

variable {sha : Bytes → Bytes32} {cfg : HandlerConfig} {s t : Session}

/-! ## The condition -/

/-- The connection has received every broadcast that was sent, and none is
published and still to be sent. -/
def CaughtUp (s : Session) : Prop :=
  s.receiver.queue = [] ∧ ∀ job, s.announcing ≠ .published job

/-- An open reads the latest job, after its awaited writes, only when the
connection has caught up. -/
def OpensCaughtUp (cfg : HandlerConfig) (s : Session) : SessionEvent → Prop
  | .openStandard _ _ =>
      s.HasIds ∧ s.conn.channels.HasRoom → s.CaughtUp
  | .openExtended _ req =>
      (OpenRequest.extended req).WellFormed cfg ∧ s.HasIds ∧
        s.conn.channels.HasRoom → s.CaughtUp
  | _ => True

instance (announcing : Announcing) :
    Decidable (∀ job, announcing ≠ .published job) :=
  match announcing with
  | .idle => isTrue nofun
  | .inserted _ => isTrue nofun
  | .published job => isFalse fun h => h job rfl

instance (s : Session) : Decidable s.CaughtUp :=
  inferInstanceAs (Decidable (_ ∧ _))

instance (cfg : HandlerConfig) (s : Session) (event : SessionEvent) :
    Decidable (s.OpensCaughtUp cfg event) :=
  match event with
  | .openStandard .. =>
      inferInstanceAs (Decidable (s.HasIds ∧
        s.conn.channels.channels.keys.length < s.conn.channels.maxChannels.toNat →
          s.CaughtUp))
  | .openExtended _ req =>
      inferInstanceAs (Decidable ((OpenRequest.extended req).WellFormed cfg ∧
        s.HasIds ∧
        s.conn.channels.channels.keys.length < s.conn.channels.maxChannels.toNat →
          s.CaughtUp))
  | .prepare .. | .publish | .send | .openElsewhere | .connect | .receive .. |
      .submit .. | .close _ | .disconnect _ => isTrue trivial

/-! ## The invariant -/

/-- The jobs under way are in order and after those sent, which are in order on
each channel. -/
structure InOrder (s : Session) : Prop where
  ahead : (s.ahead.map (·.jobId)).Pairwise (· < ·)
  records : ∀ r ∈ s.ahead, r ∈ s.records
  sent : ∀ c, (jobsOn c s.conn.sent).Pairwise (· < ·)
  below : ∀ c, ∀ j ∈ jobsOn c s.conn.sent, ∀ r ∈ s.ahead, j < r.jobId
  made : ∀ c, ∀ j ∈ jobsOn c s.conn.sent, j ∈ s.records.map (·.jobId)
  latest : ∀ job, s.feed.latestJob = some job → job.jobId ∈ s.records.map (·.jobId) ∧
    ∀ r, s.announcing = .inserted r → job.jobId < r.jobId
  opened : ∀ c, jobsOn c s.conn.sent ≠ [] → c ∈ s.conn.channels.channels.keys
  keyed : s.conn.channels.Keyed

theorem initial_inOrder (cfg : HandlerConfig) (htwo : 2 ≤ cfg.extranoncePrefixLen)
    (height : cfg.extranoncePrefixLen ≤ 8) (retentionMs : UInt64)
    (maxEntries : ℕ) :
    (initial cfg htwo height retentionMs maxEntries).InOrder where
  ahead := List.Pairwise.nil
  records _ hr := nomatch hr
  sent _ := List.Pairwise.nil
  below _ _ hj := nomatch hj
  made _ _ hj := nomatch hj
  latest _ hjob := nomatch hjob
  opened _ hne := absurd rfl hne
  keyed := by
    intro id ch hget
    cases hget

/-- Steps of the main loop that make no job: broadcasts only leave the queue. -/
theorem InOrder.of_sublist (hs : s.InOrder) (hahead : t.ahead.Sublist s.ahead)
    (hconn : t.conn = s.conn) (hrecords : t.records = s.records)
    (hlatest : ∀ job, t.feed.latestJob = some job →
      job.jobId ∈ s.records.map (·.jobId) ∧
        ∀ r, t.announcing = .inserted r → job.jobId < r.jobId) :
    t.InOrder where
  ahead := hs.ahead.sublist (hahead.map _)
  records := by
    intro r hr
    rw [hrecords]
    exact hs.records r (hahead.subset hr)
  sent := by
    rw [hconn]
    exact hs.sent
  below := by
    intro c j hj r hr
    rw [hconn] at hj
    exact hs.below c j hj r (hahead.subset hr)
  made := by
    rw [hconn, hrecords]
    exact hs.made
  latest := by
    rw [hrecords]
    exact hlatest
  opened := by
    rw [hconn]
    exact hs.opened
  keyed := by
    rw [hconn]
    exact hs.keyed

/-- A new job has an id above those of all jobs before it. -/
theorem InOrder.prepare (hs : s.InOrder) (hnumbered : s.Numbered)
    (hidle : s.announcing = .idle) {job : JobRecord} {jobAlloc : JobIdAllocator}
    {jobTable : JobTable}
    (halloc : s.feed.jobAlloc.allocate = (some job.jobId, jobAlloc)) :
    (s.prepared jobAlloc jobTable job).InOrder := by
  have hahead := ahead_of_idle hidle
  have habove : ∀ old ∈ s.records.map (·.jobId), old < job.jobId :=
    hnumbered.above.lt_of_allocate halloc
  have hqueue : ∀ r ∈ s.receiver.queue, r ∈ s.records := by
    rw [← hahead]
    exact hs.records
  have hgrows : s.records.map (·.jobId) ⊆
      (s.prepared jobAlloc jobTable job).records.map (·.jobId) := by
    rw [prepared, List.map_append]
    exact List.subset_append_left _ _
  refine ⟨?_, ?_, hs.sent, ?_, ?_, ?_, hs.opened, hs.keyed⟩
  · rw [ahead_prepared, List.map_append, List.pairwise_append]
    refine ⟨hahead ▸ hs.ahead, List.pairwise_singleton _ _, ?_⟩
    intro old hold new hnew
    rw [List.mem_singleton.mp hnew]
    obtain ⟨r, hr, rfl⟩ := List.mem_map.mp hold
    exact habove _ (List.mem_map_of_mem (hqueue r hr))
  · intro r hr
    rw [ahead_prepared, List.mem_append] at hr
    rcases hr with hr | hr
    · exact List.mem_append_left _ (hqueue r hr)
    · exact List.mem_append_right _ hr
  · intro c j hj r hr
    rw [ahead_prepared, List.mem_append] at hr
    rcases hr with hr | hr
    · exact hs.below c j hj r (hahead ▸ hr)
    · rw [List.mem_singleton.mp hr]
      exact habove j (hs.made c j hj)
  · intro c j hj
    exact hgrows (hs.made c j hj)
  · intro latest hlatest
    have hmade := (hs.latest latest hlatest).1
    refine ⟨hgrows hmade, ?_⟩
    intro r hr
    cases hr
    exact habove _ hmade

theorem sublist_send (hpublished : s.announcing = .published job) :
    ({ s with
      announcing := .idle
      receiver :=
        if s.subscribed then s.receiver.send jobBroadcastCapacity job
        else s.receiver } : Session).ahead.Sublist s.ahead := by
  rw [ahead_of_published hpublished, ahead]
  dsimp only [Announcing.job?, Option.toList]
  rw [List.append_nil]
  unfold Receiver.send
  split
  · split
    · exact .refl _
    · exact (List.tail_sublist _).append (.refl _)
  · exact List.sublist_append_left _ _

theorem InOrder.loopStep (hs : s.InOrder) (hnumbered : s.Numbered)
    {event : SessionEvent} (h : s.loopStep event = some t) :
    t.InOrder := by
  rcases loopStep_cases h with ⟨issued, jobAlloc, -, rfl⟩ |
    ⟨clock, template, job, jobAlloc, -, hidle, halloc, -, -, rfl⟩ |
    ⟨job, hinserted, rfl⟩ | ⟨job, -, hpublished, rfl⟩ | ⟨_, _, -, rfl⟩
  · exact hs.of_sublist (.refl _) rfl rfl hs.latest
  · exact hs.prepare hnumbered hidle halloc
  · refine hs.of_sublist ?_ rfl rfl ?_
    · rw [Session.ahead, Session.ahead, hinserted]
      exact .refl _
    · intro latest hlatest
      cases hlatest
      refine ⟨List.mem_map_of_mem (hs.records job ?_), fun r hr => by cases hr⟩
      rw [Session.ahead, hinserted]
      exact List.mem_append_right _ List.mem_cons_self
  · exact hs.of_sublist (sublist_send hpublished) rfl rfl fun latest hlatest =>
      ⟨(hs.latest latest hlatest).1, fun r hr => by cases hr⟩
  · exact hs.of_sublist (.refl _) rfl rfl hs.latest

/-- One job was sent on the channel, after those sent before and before those
still under way. -/
structure SendsNext (s t : Session) (c id : UInt32) : Prop where
  opened : c ∈ t.conn.channels.channels.keys
  made : id ∈ s.records.map (·.jobId)
  after : ∀ j ∈ jobsOn c s.conn.sent, j < id
  before : ∀ r ∈ t.ahead, id < r.jobId
  sent : jobsOn c t.conn.sent = jobsOn c s.conn.sent ++ [id]

/-- A step of the handler that sends one job at most on each channel, in its
turn. -/
theorem InOrder.next (hs : s.InOrder) (hfeed : t.feed = s.feed)
    (hrecords : t.records = s.records) (hannouncing : t.announcing = s.announcing)
    (hahead : t.ahead.Sublist s.ahead) (hkeyed : t.conn.channels.Keyed)
    (hkeys : s.conn.channels.channels.keys ⊆ t.conn.channels.channels.keys)
    (hsent : ∀ c, jobsOn c t.conn.sent = jobsOn c s.conn.sent ∨
      ∃ id, SendsNext s t c id) :
    t.InOrder := by
  refine ⟨hs.ahead.sublist (hahead.map _), ?_, ?_, ?_, ?_, ?_, ?_, hkeyed⟩
  · intro r hr
    rw [hrecords]
    exact hs.records r (hahead.subset hr)
  · intro c
    rcases hsent c with hsame | ⟨id, hnext⟩
    · rw [hsame]
      exact hs.sent c
    · rw [hnext.sent, List.pairwise_append]
      refine ⟨hs.sent c, List.pairwise_singleton _ _, ?_⟩
      intro j hj j' hj'
      rw [List.mem_singleton.mp hj']
      exact hnext.after j hj
  · intro c j hj r hr
    rcases hsent c with hsame | ⟨id, hnext⟩
    · rw [hsame] at hj
      exact hs.below c j hj r (hahead.subset hr)
    · rw [hnext.sent, List.mem_append, List.mem_singleton] at hj
      rcases hj with hj | rfl
      · exact hs.below c j hj r (hahead.subset hr)
      · exact hnext.before r hr
  · intro c j hj
    rw [hrecords]
    rcases hsent c with hsame | ⟨id, hnext⟩
    · rw [hsame] at hj
      exact hs.made c j hj
    · rw [hnext.sent, List.mem_append, List.mem_singleton] at hj
      rcases hj with hj | rfl
      · exact hs.made c j hj
      · exact hnext.made
  · rw [hfeed, hrecords, hannouncing]
    exact hs.latest
  · intro c hne
    rcases hsent c with hsame | ⟨id, hnext⟩
    · rw [hsame] at hne
      exact hkeys (hs.opened c hne)
    · exact hnext.opened

/-- A step of the handler that sends no job. -/
theorem InOrder.answers (hs : s.InOrder) (hfeed : t.feed = s.feed)
    (hrecords : t.records = s.records) (hannouncing : t.announcing = s.announcing)
    (hahead : t.ahead = s.ahead)
    (hchannels : s.conn.channels.Updates ChannelState.Same t.conn.channels)
    (hsent : ∀ c, jobsOn c t.conn.sent = jobsOn c s.conn.sent) :
    t.InOrder := by
  refine hs.next hfeed hrecords hannouncing ?_ (hs.keyed.of_keeps hchannels.keeps)
    hchannels.keys.1.symm.subset fun c => Or.inl (hsent c)
  exact hahead ▸ .refl _

/-- The job at the front of the queue is sent to the open channels. -/
theorem InOrder.receive (hs : s.InOrder) {clock : Clock} {order : IterOrder UInt32}
    {job : JobRecord} {receiver : Receiver JobRecord}
    (hqueue : s.receiver.queue = job :: receiver.queue) :
    ({ s with
      receiver
      conn := distributeJob sha clock.now job.broadcast
        (order.visit s.conn.channels.openIds) s.conn } : Session).InOrder := by
  have hahead := ahead_of_queue hqueue
  have hordered := hs.ahead
  rw [hahead, List.map_cons, List.pairwise_cons] at hordered
  have hupdates := distributeJob_updates sha clock.now job.broadcast
    (order.visit s.conn.channels.openIds) s.conn
  have hnodup : (order.visit s.conn.channels.openIds).Nodup :=
    (order.perm _).nodup_iff.mpr (s.conn.channels.channels.keys_nodup.filter _)
  have hfirst : job ∈ s.ahead := by
    rw [hahead]
    exact List.mem_cons_self
  refine hs.next rfl rfl rfl ?_ (hs.keyed.of_keeps hupdates.keeps)
    hupdates.keys.1.symm.subset ?_
  · rw [hahead]
    exact List.sublist_cons_self _ _
  · intro c
    rcases jobsOn_distributeJob sha clock.now job.broadcast hnodup hs.keyed c
      with hsame | ⟨hmem, -, hsent⟩
    · exact Or.inl hsame
    · refine Or.inr ⟨job.jobId, ?_, ?_, ?_, ?_, hsent⟩
      · have hopen := (order.mem_visit).mp hmem
        exact hupdates.keys.1.symm.subset (List.mem_filter.mp hopen).1
      · exact List.mem_map_of_mem (hs.records job hfirst)
      · intro j hj
        exact hs.below c j hj job hfirst
      · intro r hr
        exact hordered.1 _ (List.mem_map_of_mem hr)

/-- When the connection has caught up, the latest job is before those under
way. -/
theorem InOrder.latest_before (hs : s.InOrder) (hcaught : s.CaughtUp)
    {job : JobBroadcast} (hlatest : s.feed.latestJob = some job) :
    ∀ r ∈ s.ahead, job.jobId < r.jobId := by
  intro r hr
  rw [Session.ahead, hcaught.1, List.nil_append] at hr
  cases hannouncing : s.announcing with
  | idle =>
      rw [hannouncing] at hr
      cases hr
  | inserted job' =>
      rw [hannouncing] at hr
      rw [List.mem_singleton.mp hr]
      exact (hs.latest job hlatest).2 job' hannouncing
  | published job' => exact absurd hannouncing (hcaught.2 job')

theorem InOrder.keyed_opens (hs : s.InOrder) {clock : Clock} {request : OpenRequest}
    {channelId : UInt32}
    (hopens : s.OpensAs sha cfg clock request channelId t.toGatewayState) :
    t.conn.channels.Keyed := by
  obtain ⟨extranonce, channels, hopen, hconn⟩ := hopens.started
  have hopened : channels.Keyed := by
    intro id ch hget
    rcases ConnectionChannels.get_openChannel hopen hget with ⟨hid, rfl⟩ | hold
    · exact hid.symm
    · exact hs.keyed id ch hold
  rw [hconn]
  exact hopened.of_keeps (startChannel_keeps _ _ _ _ _ _ _ _)

/-- A channel is opened, under a new id, on the latest job. -/
theorem InOrder.opens (hs : s.InOrder) (hcounted : s.Counted cfg) {clock : Clock}
    {request : OpenRequest} {channelId : UInt32} (hcaught : s.CaughtUp)
    (hopens : s.OpensAs sha cfg clock request channelId t.toGatewayState)
    (hfeed : t.feed = s.feed) (hrecords : t.records = s.records)
    (hannouncing : t.announcing = s.announcing) (hreceiver : t.receiver = s.receiver) :
    t.InOrder := by
  have hahead : t.ahead = s.ahead := by
    rw [Session.ahead, Session.ahead, hreceiver, hannouncing]
  have hfresh := hcounted.fresh hopens.issued
  have hkeys := (hopens.keys hfresh).1
  refine hs.next hfeed hrecords hannouncing (hahead ▸ .refl _) (hs.keyed_opens hopens)
    (fun id hid => hkeys.symm.subset (List.mem_cons_of_mem _ hid)) ?_
  intro c
  obtain ⟨extranonce, channels, -, hconn⟩ := hopens.started
  rcases jobsOn_startChannel sha cfg clock s.feed.latestJob
      (request.channel cfg clock channelId extranonce)
      (request.success_isAnswer cfg channelId extranonce) channels s.conn c with
    hsame | ⟨hc, job, hlatest, hsent⟩
  · exact Or.inl (by rw [hconn, hsame])
  · rw [OpenRequest.channelId_channel] at hc
    subst hc
    -- nothing was sent on the channel before
    have hnone : jobsOn channelId s.conn.sent = [] := by
      by_contra hne
      exact hfresh (hs.opened channelId hne)
    refine Or.inr ⟨job.jobId, ?_, (hs.latest job hlatest).1, ?_, ?_, ?_⟩
    · exact hkeys.symm.subset List.mem_cons_self
    · rw [hnone]
      intro j hj
      cases hj
    · rw [hahead]
      exact hs.latest_before hcaught hlatest
    · rw [hconn]
      exact hsent

theorem InOrder.handle (hs : s.InOrder) (hcounted : s.Counted cfg) {clock : Clock}
    (request : OpenRequest)
    (hcond : request.WellFormed cfg ∧ s.HasIds ∧ s.conn.channels.HasRoom → s.CaughtUp)
    (hgateway : request.handle sha cfg clock s.toGatewayState = t.toGatewayState)
    (hfeed : t.feed = s.feed) (hrecords : t.records = s.records)
    (hannouncing : t.announcing = s.announcing) (hreceiver : t.receiver = s.receiver) :
    t.InOrder := by
  obtain ⟨-, ⟨hrefuses, -⟩ | ⟨⟨channelId, -, hopens⟩, hadmitted⟩⟩ :=
    handle_outcome sha cfg clock request _ _ hgateway
  · obtain ⟨f, hsent, hanswer, -⟩ := hrefuses.sent
    refine hs.answers hfeed hrecords hannouncing ?_ ?_ ?_
    · rw [Session.ahead, Session.ahead, hreceiver, hannouncing]
    · rw [hrefuses.channels]
      exact .refl
    · intro c
      rw [hsent]
      exact jobsOn_of_isAnswer (by simpa using hanswer) c
  · exact hs.opens hcounted (hcond hadmitted) hopens hfeed hrecords hannouncing hreceiver

theorem InOrder.handlerStep (hs : s.InOrder) (hcounted : s.Counted cfg)
    {event : SessionEvent} (hcond : s.OpensCaughtUp cfg event)
    (h : s.handlerStep sha cfg event = some t) :
    t.InOrder := by
  rcases handlerStep_cases h with ⟨clock, req, rfl, rfl⟩ | ⟨clock, req, rfl, rfl⟩ |
    ⟨n, receiver, hrecv, rfl⟩ | ⟨clock, order, job, receiver, -, hrecv, rfl⟩ |
    ⟨env, submission, -, rfl⟩ | ⟨channelId, -, rfl⟩ | ⟨exit, rfl⟩
  · exact hs.handle hcounted (.standard req) (fun h => hcond h.2) rfl
      (openWith_cases _ _ _ _ _ _ _).1 rfl rfl rfl
  · exact hs.handle hcounted (.extended req) hcond rfl
      (handleOpenExtendedChannel_feed clock req _) rfl rfl rfl
  · rcases Receiver.recv_cases hrecv with ⟨job, hmessage, -⟩ | ⟨n', -, hqueue⟩
    · cases hmessage
    · refine hs.answers rfl rfl rfl ?_ .refl fun _ => rfl
      rw [Session.ahead, Session.ahead, hqueue]
  · rcases Receiver.recv_cases hrecv with ⟨job', hmessage, hqueue⟩ | ⟨n', hlagged, -⟩
    · cases hmessage
      exact hs.receive hqueue
    · cases hlagged
  · obtain ⟨frames, hsent, hanswer⟩ :=
      (handleSubmission_answers sha cfg env submission s).sent
    refine hs.answers rfl rfl rfl rfl ?_ ?_
    · rw [handleSubmission_eq]
      exact (handleShare_updates _ _ _ _).mono fun _ _ h => h.same
    · intro c
      dsimp only
      rw [hsent]
      exact jobsOn_of_isAnswer hanswer c
  · exact hs.answers rfl rfl rfl rfl (handleCloseChannel_updates _ _) fun _ => rfl
  · exact hs.answers rfl rfl rfl rfl .refl fun _ => rfl

theorem InOrder.step (hs : s.InOrder) (hcounted : s.Counted cfg)
    (hnumbered : s.Numbered) {event : SessionEvent}
    (hcond : s.OpensCaughtUp cfg event) (h : s.step sha cfg event = some t) :
    t.InOrder := by
  rcases step_cases h with hloop | ⟨-, rfl⟩ | ⟨-, -, hhandler⟩
  · exact hs.loopStep hnumbered hloop
  · exact hs.of_sublist (.refl _) rfl rfl hs.latest
  · exact hs.handlerStep hcounted hcond hhandler

/-- In every run in which channels are opened only when the connection has caught
up with the broadcasts, the ids of the jobs sent on each channel are strictly
increasing. -/
theorem jobsOn_increasing_of_opensCaughtUp (sha : Bytes → Bytes32)
    (cfg : HandlerConfig) (htwo : 2 ≤ cfg.extranoncePrefixLen)
    (height : cfg.extranoncePrefixLen ≤ 8) (retentionMs : UInt64) (maxEntries : ℕ)
    (events : List SessionEvent) (s : Session)
    (hcond : Along (step sha cfg) (OpensCaughtUp cfg)
      (initial cfg htwo height retentionMs maxEntries) events)
    (hrun : run (step sha cfg) (initial cfg htwo height retentionMs maxEntries)
      events = some s) (channelId : UInt32) :
    (jobsOn channelId s.conn.sent).Pairwise (· < ·) := by
  have hs : s.InOrder ∧ s.Counted cfg ∧ s.Numbered :=
    invariant_of_along (I := fun s => s.InOrder ∧ s.Counted cfg ∧ s.Numbered)
      (fun _ _ _ hs hcond hstep => ⟨hs.1.step hs.2.1 hs.2.2 hcond hstep,
        hs.2.1.step hstep, hs.2.2.step hstep⟩)
      ⟨initial_inOrder cfg htwo height retentionMs maxEntries,
        initial_counted cfg htwo height retentionMs maxEntries,
        initial_numbered cfg htwo height retentionMs maxEntries⟩ hcond hrun
  exact hs.1.sent channelId

/-- A channel is opened on the first job and receives the second. -/
def orderedRun : List SessionEvent :=
  openRun (.openStandard wallClock ⟨1, "miner"⟩) ++ announce refreshTemplate ++
    [.receive wallClock (.stored _)]

theorem jobsOn_increasing_orderedRun :
    ∃ s, run (step sha256 (.permissive 4)) fresh orderedRun = some s ∧
      jobsOn 1 s.conn.sent = [1, 2] ∧ (jobsOn 1 s.conn.sent).Pairwise (· < ·) := by
  have hjobs : (run (step sha256 (.permissive 4)) fresh orderedRun).map
      (fun s => jobsOn 1 s.conn.sent) = some [1, 2] := by
    decide +kernel
  obtain ⟨s, hrun, hs⟩ := Option.map_eq_some_iff.mp hjobs
  exact ⟨s, hrun, hs, jobsOn_increasing_of_opensCaughtUp _ _ _ _ _ _ _ s
    (by decide +kernel) hrun 1⟩

/-- Two jobs are broadcast before a channel is opened. It starts on the second
job, then receives the first. -/
def overtakenRun : List SessionEvent :=
  .connect :: announce .regtest ++ announce refreshTemplate ++
    [.openStandard wallClock ⟨1, "miner"⟩, .receive wallClock (.stored _)]

theorem not_jobsOn_increasing_overtakenRun :
    ∃ s, run (step sha256 (.permissive 4)) fresh overtakenRun = some s ∧
      ¬ (jobsOn 1 s.conn.sent).Pairwise (· < ·) := by
  have hjobs : (run (step sha256 (.permissive 4)) fresh overtakenRun).map
      (fun s => jobsOn 1 s.conn.sent) = some [2, 1] := by
    decide +kernel
  obtain ⟨s, hrun, hs⟩ := Option.map_eq_some_iff.mp hjobs
  exact ⟨s, hrun, by rw [hs]; decide⟩

end Session

end ReserveGrid.Gateway
