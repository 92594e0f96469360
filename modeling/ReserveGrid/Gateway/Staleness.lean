import ReserveGrid.Gateway.MinerPrevhash
import ReserveGrid.Support.Result

/-!
# Stale jobs

A share is accepted on any job in the job table, which all connections share
and which keeps jobs by age and number only: no check compares the job with
those of the channel. What remains true is relative to the miner. A channel's
live jobs are the one that its last previous hash came with and those sent
after it; while miners are kept informed, the live jobs all have the previous
hash last sent, so a miner that submits shares on live jobs only never has a
stale one accepted.
-/

namespace ReserveGrid.Gateway

open Support Bitcoin

namespace Frame

/-- The job that the frame makes current with a new previous hash on a
channel. -/
def activatedOn (channelId : UInt32) : Frame → Option UInt32
  | .setNewPrevHash c jobId _ _ _ => if c = channelId then some jobId else none
  | _ => none

theorem activatedOn_eq_none {f : Frame} {c : UInt32} :
    f.activatedOn c = none ↔ f.prevHashOn c = none := by
  cases f with
  | setNewPrevHash c' jobId prevHash minNtime nbits =>
      by_cases hc : c' = c
      · simp [activatedOn, prevHashOn, hc]
      · simp [activatedOn, prevHashOn, hc]
  | _ => exact ⟨fun _ => rfl, fun _ => rfl⟩

end Frame

/-! ## Live jobs -/

/-- A new previous hash makes its job the only live one. -/
def addLive (channelId : UInt32) (live : List UInt32) (f : Frame) : List UInt32 :=
  match f.activatedOn channelId with
  | some jobId => [jobId]
  | none => live ++ (f.jobOn channelId).toList

/-- The jobs sent on a channel for the last previous hash sent on it. -/
def liveJobs (channelId : UInt32) (sent : List Frame) : List UInt32 :=
  sent.foldl (addLive channelId) []

theorem mem_foldl_addLive {c j : UInt32} {frames : List Frame} {live : List UInt32}
    (h : j ∈ frames.foldl (addLive c) live) :
    (∃ f ∈ frames, f.jobOn c = some j ∨ f.activatedOn c = some j) ∨
      (j ∈ live ∧ ∀ f ∈ frames, f.activatedOn c = none) := by
  induction frames generalizing live with
  | nil => exact Or.inr ⟨h, by simp⟩
  | cons f frames ih =>
      rcases ih h with ⟨g, hg, hnames⟩ | ⟨hlive, hnone⟩
      · exact Or.inl ⟨g, List.mem_cons_of_mem _ hg, hnames⟩
      rw [addLive] at hlive
      cases hf : f.activatedOn c with
      | some jobId =>
          rw [hf, List.mem_singleton] at hlive
          exact Or.inl ⟨f, List.mem_cons_self, Or.inr (by rw [hf, hlive])⟩
      | none =>
          rw [hf, List.mem_append, Option.mem_toList] at hlive
          rcases hlive with hlive | hjob
          · exact Or.inr ⟨hlive, List.forall_mem_cons.mpr ⟨hf, hnone⟩⟩
          · exact Or.inl ⟨f, List.mem_cons_self, Or.inl hjob⟩

theorem liveJobs_eq_nil {c : UInt32} {sent : List Frame}
    (hjob : lastJob c sent = none) (hprev : lastPrevHash c sent = none) :
    liveJobs c sent = [] := by
  rw [lastJob, lastOf, List.getLast?_eq_none_iff, List.filterMap_eq_nil_iff] at hjob
  rw [lastPrevHash, lastOf, List.getLast?_eq_none_iff, List.filterMap_eq_nil_iff]
    at hprev
  refine List.eq_nil_iff_forall_not_mem.mpr ?_
  intro j hj
  rcases mem_foldl_addLive hj with ⟨f, hf, hnames | hnames⟩ | ⟨hnil, -⟩
  · rw [hjob f hf] at hnames
    cases hnames
  · rw [Frame.activatedOn_eq_none.mpr (hprev f hf)] at hnames
    cases hnames
  · cases hnil

/-- The frames are of one job, and bring it to the channels on which they make
it current. -/
structure OfJob (job : UInt32) (frames : List Frame) : Prop where
  jobOn : ∀ f ∈ frames, ∀ c j, f.jobOn c = some j → j = job
  activatedOn : ∀ f ∈ frames, ∀ c j, f.activatedOn c = some j →
    j = job ∧ ∃ g ∈ frames, g.jobOn c = some job

section

variable {job : UInt32} {frames frames' sent : List Frame} {c : UInt32}

theorem OfJob.append (h : OfJob job frames) (h' : OfJob job frames') :
    OfJob job (frames ++ frames') where
  jobOn := by
    intro f hf
    rcases List.mem_append.mp hf with hf | hf
    · exact h.jobOn f hf
    · exact h'.jobOn f hf
  activatedOn := by
    intro f hf c j hj
    rcases List.mem_append.mp hf with hf | hf
    · obtain ⟨rfl, g, hg, hjob⟩ := h.activatedOn f hf c j hj
      exact ⟨rfl, g, List.mem_append_left _ hg, hjob⟩
    · obtain ⟨rfl, g, hg, hjob⟩ := h'.activatedOn f hf c j hj
      exact ⟨rfl, g, List.mem_append_right _ hg, hjob⟩

theorem ofJob_of_isAnswer (h : ∀ f ∈ frames, f.isAnswer = true) (job : UInt32) :
    OfJob job frames where
  jobOn := by
    intro f hf c j hj
    rw [Frame.jobOn_of_isAnswer (h f hf)] at hj
    cases hj
  activatedOn := by
    intro f hf c j hj
    rw [Frame.activatedOn_eq_none.mpr (Frame.prevHashOn_of_isAnswer (h f hf) c)] at hj
    cases hj

theorem ofJob_nil (job : UInt32) : OfJob job [] :=
  ofJob_of_isAnswer (by simp) job

/-- After the frames of one job, a live job is that one, or it was live before
and the previous hash did not change. -/
theorem OfJob.mem_liveJobs (h : OfJob job frames) {j : UInt32}
    (hj : j ∈ liveJobs c (sent ++ frames)) :
    (j = job ∧ (∃ f ∈ frames, f.jobOn c = some j) ∧
      lastJob c (sent ++ frames) = some j) ∨
    (j ∈ liveJobs c sent ∧ (∀ f ∈ frames, f.prevHashOn c = none) ∧
      lastPrevHash c (sent ++ frames) = lastPrevHash c sent) := by
  rw [liveJobs, List.foldl_append] at hj
  rcases mem_foldl_addLive hj with ⟨f, hf, hnames⟩ | ⟨hlive, hnone⟩
  · left
    have hsent : j = job ∧ ∃ g ∈ frames, g.jobOn c = some j := by
      rcases hnames with hjob | hactivated
      · exact ⟨h.jobOn f hf c j hjob, f, hf, hjob⟩
      · obtain ⟨rfl, hsent⟩ := h.activatedOn f hf c j hactivated
        exact ⟨rfl, hsent⟩
    obtain ⟨rfl, hsent⟩ := hsent
    exact ⟨rfl, hsent, lastOf_append_const (fun f hf j => h.jobOn f hf c j) hsent⟩
  · right
    have hsame : ∀ f ∈ frames, f.prevHashOn c = none := by
      intro f hf
      exact Frame.activatedOn_eq_none.mp (hnone f hf)
    exact ⟨hlive, hsame, lastOf_append_none hsame⟩

variable {sha : Bytes → Bytes32} {ch : ChannelState} {frame : Frame}
  {broadcast : JobBroadcast}

/-- The frames of a job on a channel name that job only, and name it before
they make it current. -/
theorem ofJob_jobFrames (h : jobFrame sha broadcast ch = some frame) :
    OfJob broadcast.jobId (frame :: prevhashFrames broadcast ch) where
  jobOn f hf c j hj := (delivers_jobFrames h).jobOn f hf c j hj
  activatedOn := by
    intro f hf c j hj
    have hactivates : f ∈ prevhashFrames broadcast ch := by
      rcases List.mem_cons.mp hf with rfl | hf
      · rw [Frame.activatedOn_eq_none.mpr (jobOn_jobFrame h c).2] at hj
        cases hj
      · exact hf
    unfold prevhashFrames at hactivates
    split at hactivates
    · rw [List.mem_singleton] at hactivates
      rw [hactivates, Frame.activatedOn] at hj
      split at hj
      · rename_i hc
        refine ⟨(Option.some.inj hj).symm, frame, List.mem_cons_self, ?_⟩
        rw [(jobOn_jobFrame h c).1, if_pos hc]
      · cases hj
    · cases hactivates

theorem sendJob_ofJob (sha : Bytes → Bytes32) (now : ℕ) (broadcast : JobBroadcast)
    (ch : ChannelState) (conn : Connection) :
    ∃ frames, (sendJob sha now broadcast ch conn).sent = conn.sent ++ frames ∧
      OfJob broadcast.jobId frames := by
  unfold sendJob
  cases hframe : jobFrame sha broadcast ch with
  | none => exact ⟨[], (List.append_nil _).symm, ofJob_nil _⟩
  | some frame => exact ⟨_, rfl, ofJob_jobFrames hframe⟩

theorem distributeJob_ofJob (now : ℕ) (ids : List UInt32) (conn : Connection) :
    ∃ frames, (distributeJob sha now broadcast ids conn).sent =
        conn.sent ++ frames ∧
      OfJob broadcast.jobId frames := by
  induction ids generalizing conn with
  | nil => exact ⟨[], (List.append_nil _).symm, ofJob_nil _⟩
  | cons id ids ih =>
      unfold distributeJob
      cases hget : conn.channels.get id with
      | none => exact ih conn
      | some ch =>
          obtain ⟨frames, hsent, hframes⟩ := sendJob_ofJob sha now broadcast ch conn
          dsimp only
          by_cases hended : (sendJob sha now broadcast ch conn).exit.isSome = true
          · rw [if_pos hended]
            exact ⟨frames, hsent, hframes⟩
          · rw [if_neg hended]
            obtain ⟨rest, hrest, hrestframes⟩ := ih (sendJob sha now broadcast ch conn)
            refine ⟨frames ++ rest, ?_, hframes.append hrestframes⟩
            rw [hrest, hsent, List.append_assoc]

/-- A channel started on a job got the frames of that job. -/
theorem startChannel_ofJob {cfg : HandlerConfig} {clock : Clock} {success : Frame}
    {conn : Connection} {channels : ConnectionChannels}
    (hsuccess : success.isAnswer = true)
    (hexit : (conn.startChannel sha cfg clock (some broadcast) ch success
      channels).exit = none) :
    ∃ frames, (conn.startChannel sha cfg clock (some broadcast) ch success
        channels).sent = conn.sent ++ frames ∧
      OfJob broadcast.jobId frames ∧ Reaches broadcast frames ch.channelId := by
  rw [Connection.startChannel] at hexit ⊢
  obtain ⟨frame, hframe, heq⟩ := sendJob_eq (by rw [hexit]; exact Bool.false_ne_true)
  rw [heq]
  refine ⟨_, List.append_assoc _ _ _, ?_, ?_⟩
  · exact (ofJob_of_isAnswer (startFrames_isAnswer cfg ch.channelId hsuccess) _).append
      (ofJob_jobFrames hframe)
  · exact (reaches_jobFrames hframe).mono (List.subset_append_right _ _)

end

namespace Session

/-! ## Live jobs are current -/

/-- The job was sent on the channel and has the previous hash last sent. -/
def CurrentOn (c j : UInt32) (s : Session) : Prop :=
  (∃ f ∈ s.conn.sent, f.jobOn c = some j) ∧
    ∃ r ∈ s.records, r.jobId = j ∧ lastPrevHash c s.conn.sent = some r.prevHash

/-- On every open channel, the live jobs are current. -/
def Live (s : Session) : Prop :=
  s.conn.exit = none → ∀ id ch, s.conn.channels.get id = some ch →
    ∀ j ∈ liveJobs ch.channelId s.conn.sent, s.CurrentOn ch.channelId j

variable {s t : Session} {sha : Bytes → Bytes32} {cfg : HandlerConfig}

/-- The frames of one job were sent: the live jobs are current if the last job
is, and those from before were. -/
theorem currentOn_of_ofJob {job c : UInt32} {frames : List Frame}
    (hsent : t.conn.sent = s.conn.sent ++ frames) (hframes : OfJob job frames)
    (hrecords : s.records ⊆ t.records) (hlast : t.Informed c)
    (hbefore : (∀ f ∈ frames, f.prevHashOn c = none) →
      ∀ j ∈ liveJobs c s.conn.sent, s.CurrentOn c j) :
    ∀ j ∈ liveJobs c t.conn.sent, t.CurrentOn c j := by
  intro j hj
  rw [hsent] at hj
  rcases hframes.mem_liveJobs hj with ⟨-, ⟨f, hf, hjob⟩, hlastjob⟩ |
    ⟨hlive, hsame, hprev⟩
  · rw [← hsent] at hlastjob
    refine ⟨⟨f, ?_, hjob⟩, hlast.holds j hlastjob⟩
    rw [hsent]
    exact List.mem_append_right _ hf
  · obtain ⟨⟨f, hf, hjob⟩, r, hr, hid, hhash⟩ := hbefore hsame j hlive
    rw [← hsent] at hprev
    refine ⟨⟨f, ?_, hjob⟩, r, hrecords hr, hid, hprev.trans hhash⟩
    rw [hsent]
    exact List.mem_append_left _ hf

/-- A step that opens no channel. -/
theorem Live.keeps (hs : s.Live) (ht : t.Sound)
    (hkeeps : s.conn.channels.Keeps t.conn.channels)
    (hexit : t.conn.exit = none → s.conn.exit = none)
    (hrecords : s.records ⊆ t.records) {job : UInt32} {frames : List Frame}
    (hsent : t.conn.sent = s.conn.sent ++ frames) (hframes : OfJob job frames) :
    t.Live := by
  intro hnone id ch' hget
  obtain ⟨ch, hch, hsame⟩ := hkeeps id ch' hget
  refine currentOn_of_ofJob hsent hframes hrecords (ht.informed hnone id ch' hget) ?_
  intro _
  rw [hsame.channelId]
  exact hs (hexit hnone) id ch hch

theorem Live.ended (hexit : t.conn.exit ≠ none) : t.Live :=
  fun hnone => absurd hnone hexit

/-- A channel is opened where there is no job, or on one that brings its
previous hash. -/
theorem Live.openWith (hs : s.Live) (hsound : s.Sound) (hexit : s.conn.exit = none)
    (hmay : s.MayOpen) {clock : Clock} {requestId : UInt32}
    {build : UInt32 → Bytes → ChannelState} {success : UInt32 → Bytes → Frame}
    (hsuccess : ∀ channelId extranonce,
      (success channelId extranonce).isAnswer = true)
    (ht : t.Sound) (hrecords : t.records = s.records)
    (hconn : t.conn =
      (s.openWith sha cfg clock requestId build success).conn) :
    t.Live := by
  intro hnone id ch' hget
  have hinformed := ht.informed hnone id ch' hget
  have hsubset : s.records ⊆ t.records := by
    rw [hrecords]
    exact List.Subset.refl _
  obtain ⟨-, -, hended | ⟨channelId, extranonce, channels, -, hopen, hstart⟩⟩ :=
    openWith_cases sha cfg clock requestId build success s.toGatewayState
  · rw [hconn] at hnone
    exact absurd hnone hended
  have hanswer := hsuccess channelId extranonce
  rw [← hconn] at hstart
  cases hlatest : s.feed.latestJob with
  | none =>
      rw [hlatest] at hstart
      have hsent := congrArg Connection.sent hstart
      refine currentOn_of_ofJob hsent
        (ofJob_of_isAnswer (startFrames_isAnswer cfg _ hanswer) 0) hsubset hinformed ?_
      -- nothing was sent yet on any channel
      intro _ j hj
      obtain ⟨hnojob, hnohash⟩ := (hsound.noneLatest hlatest).sent hexit ch'.channelId
      rw [liveJobs_eq_nil hnojob hnohash] at hj
      cases hj
  | some job =>
      rw [hlatest] at hstart
      rw [hstart] at hnone hget
      obtain ⟨frames, hsent, hframes, hreaches⟩ := startChannel_ofJob hanswer hnone
      rw [← hstart] at hsent
      refine currentOn_of_ofJob hsent hframes hsubset hinformed ?_
      intro hsame
      rcases startChannel_channelId hopen hget with hnew | ⟨old, hold, hkept⟩
      · obtain ⟨ph, hph, -⟩ := hmay job hlatest
        obtain ⟨f, hf, hhash⟩ := hreaches.prevHashOn ph hph
        rw [← hnew, hsame f hf] at hhash
        cases hhash
      · rw [hkept]
        exact hs hexit id old hold

theorem records_subset {event : SessionEvent} (h : s.step sha cfg event = some t) :
    s.records ⊆ t.records := by
  rcases step_cases h with hloop | ⟨-, rfl⟩ | ⟨-, -, hhandler⟩
  · rcases loopStep_cases hloop with ⟨_, _, -, rfl⟩ |
      ⟨_, _, job, _, -, -, -, -, -, rfl⟩ | ⟨_, -, rfl⟩ | ⟨_, -, -, rfl⟩ |
      ⟨_, _, -, rfl⟩
    · exact List.Subset.refl _
    · exact List.subset_append_left _ _
    · exact List.Subset.refl _
    · exact List.Subset.refl _
    · exact List.Subset.refl _
  · exact List.Subset.refl _
  · rw [(handlerStep_feed hhandler).2]
    exact List.Subset.refl _

theorem loopStep_conn {event : SessionEvent} (h : s.loopStep event = some t) :
    t.conn = s.conn := by
  rcases loopStep_cases h with ⟨_, _, -, rfl⟩ | ⟨_, _, _, _, -, -, -, -, -, rfl⟩ |
    ⟨_, -, rfl⟩ | ⟨_, -, -, rfl⟩ | ⟨_, _, -, rfl⟩
  · rfl
  · rfl
  · rfl
  · rfl
  · rfl

theorem Live.of_conn_eq (hs : s.Live) (ht : t.Sound) (hconn : t.conn = s.conn)
    (hrecords : s.records ⊆ t.records) :
    t.Live := by
  have hsent : t.conn.sent = s.conn.sent ++ [] := by
    rw [hconn, List.append_nil]
  refine hs.keeps ht ?_ ?_ hrecords hsent (ofJob_nil 0)
  · rw [hconn]
    exact .refl _
  · rw [hconn]
    exact id

theorem Live.handlerStep (hs : s.Live) (hsound : s.Sound) (hexit : s.conn.exit = none)
    {event : SessionEvent} (hcond : s.KeepsMinersInformed event) (ht : t.Sound)
    (h : s.handlerStep sha cfg event = some t) :
    t.Live := by
  rcases handlerStep_cases h with ⟨clock, req, rfl, rfl⟩ | ⟨clock, req, rfl, rfl⟩ |
    ⟨n, receiver, -, rfl⟩ | ⟨clock, order, job, receiver, -, -, rfl⟩ |
    ⟨env, submission, -, rfl⟩ | ⟨channelId, -, rfl⟩ | ⟨exit, rfl⟩
  · exact hs.openWith hsound hexit hcond (fun _ _ => rfl) ht rfl rfl
  · rcases handleOpenExtendedChannel_cases sha cfg clock req s.toGatewayState with
      ⟨conn, hended, heq⟩ | ⟨-, heq⟩
    · rw [heq]
      exact Live.ended hended
    · refine hs.openWith hsound hexit hcond ?_ ht rfl
        (congrArg GatewayState.conn heq)
      intro _ _
      rfl
  · exact hs.of_conn_eq ht rfl (List.Subset.refl _)
  · obtain ⟨frames, hsent, hframes⟩ := distributeJob_ofJob _ _ s.conn
    exact hs.keeps ht (distributeJob_keeps _ _ _ _) (fun _ => hexit)
      (List.Subset.refl _) hsent hframes
  · have hanswers := handleSubmission_answers sha cfg env submission s
    obtain ⟨frames, hsent, hanswer⟩ := hanswers.sent
    exact hs.keeps ht hanswers.channels (fun _ => hexit) (List.Subset.refl _)
      hsent (ofJob_of_isAnswer hanswer 0)
  · exact hs.keeps ht (handleCloseChannel_keeps channelId s.conn) (fun _ => hexit)
      (List.Subset.refl _) (List.append_nil _).symm (ofJob_nil 0)
  · exact Live.ended (Option.some_ne_none _)

theorem Live.step (hs : s.Live) (hsound : s.Sound) {event : SessionEvent}
    (hcond : s.KeepsMinersInformed event) (h : s.step sha cfg event = some t) :
    t.Live := by
  have ht : t.Sound := hsound.step hcond h
  rcases step_cases h with hloop | ⟨-, rfl⟩ | ⟨-, hexit, hhandler⟩
  · exact hs.of_conn_eq ht (loopStep_conn hloop) (records_subset h)
  · exact hs.of_conn_eq ht rfl (List.Subset.refl _)
  · exact hs.handlerStep hsound hexit hcond ht hhandler

/-! ## Accepted shares -/

/-- The job of the share is the current job of its channel, or at least was sent
on it and has the previous hash last sent on it. -/
def Timely (share : SubmitSharesStandard) (s : Session) : Prop :=
  ∃ ch, s.conn.channels.get share.channelId = some ch ∧
    (ch.currentJobId = some share.jobId ∨
      (∃ f ∈ s.conn.sent, f.jobOn ch.channelId = some share.jobId) ∧
        ∃ job, s.feed.jobTable.get share.jobId = some job ∧
          lastPrevHash ch.channelId s.conn.sent = some job.prevHash)

/-- Miners are kept informed, and submit shares on live jobs only. -/
def SubmitsLive (s : Session) (event : SessionEvent) : Prop :=
  s.KeepsMinersInformed event ∧
    match event with
    | .submit _ submission =>
        ∀ ch ∈ s.conn.channels.get submission.fields.channelId,
          submission.fields.jobId ∈ liveJobs ch.channelId s.conn.sent
    | _ => True

instance (s : Session) (event : SessionEvent) : Decidable (s.SubmitsLive event) :=
  match event with
  | .submit _ submission =>
      inferInstanceAs (Decidable (True ∧
        ∀ ch ∈ s.conn.channels.get submission.fields.channelId,
          submission.fields.jobId ∈ liveJobs ch.channelId s.conn.sent))
  | .openStandard .. | .openExtended .. | .send | .prepare .. | .publish |
      .openElsewhere | .connect | .receive .. | .close _ | .disconnect _ =>
      inferInstanceAs (Decidable (KeepsMinersInformed _ _ ∧ True))

theorem initial_live (cfg : HandlerConfig) (htwo : 2 ≤ cfg.extranoncePrefixLen)
    (height : cfg.extranoncePrefixLen ≤ 8) (retentionMs : UInt64)
    (maxEntries : ℕ) :
    (initial cfg htwo height retentionMs maxEntries).Live := by
  intro _ id ch hget
  cases hget

/-- In every run in which miners are kept informed and submit shares on live jobs
only, the job of every accepted share is current. -/
theorem timely_of_submitsLive (sha : Bytes → Bytes32) (cfg : HandlerConfig)
    (htwo : 2 ≤ cfg.extranoncePrefixLen) (height : cfg.extranoncePrefixLen ≤ 8)
    (retentionMs : UInt64) (maxEntries : ℕ) (before after : List SessionEvent)
    (env : SubmitEnv) (submission : Submission) (s t : Session)
    (difficulty : UInt64)
    (hcond : Along (step sha cfg) SubmitsLive
      (initial cfg htwo height retentionMs maxEntries)
      (before ++ .submit env submission :: after))
    (hrun : run (step sha cfg) (initial cfg htwo height retentionMs maxEntries)
      before = some s)
    (hstep : s.step sha cfg (.submit env submission) = some t)
    (haccepted : (s.handleSubmission sha cfg env submission).2.reply =
      .ok difficulty) :
    s.Timely submission.fields := by
  obtain ⟨hbefore, hsubmit⟩ := hcond.append hrun
  have hsound : s.Sound ∧ s.Live :=
    invariant_of_along (I := fun s => s.Sound ∧ s.Live)
      (fun _ _ _ hs hcond hstep =>
        ⟨hs.1.step hcond.1 hstep, hs.2.step hs.1 hcond.1 hstep⟩)
      ⟨initial_sound cfg htwo height retentionMs maxEntries,
        initial_live cfg htwo height retentionMs maxEntries⟩ hbefore hrun
  have hnumbered : s.Numbered :=
    invariant_of_run (fun _ _ _ hs hstep => hs.step hstep)
      (initial_numbered cfg htwo height retentionMs maxEntries) hrun
  obtain ⟨ch, job, -, -, hch, hjob, -, -, -⟩ := handleSubmission_eq_ok haccepted
  obtain ⟨hsent, r, hr, hid, hhash⟩ :=
    hsound.2 (exit_of_submit hstep) _ ch hch _ (hsubmit.1.2 ch hch)
  refine ⟨ch, hch, Or.inr ⟨hsent, job, hjob, ?_⟩⟩
  rw [hnumbered.eq_of_get hr hid hjob]
  exact hhash

/-- Whether a submission is read and accepted, and what its channel and its job
have to do with each other. -/
structure Tried where
  read : Bool
  accepted : Bool
  channel : Option (UInt32 × Option UInt32)
  jobPrevHash : Option Bytes32
  lastPrevHash : Option Bytes32
  deriving DecidableEq

/-- Try a submission on the first channel. -/
def trySubmit (submission : Submission) (s : Session) : Tried where
  read := (s.step sha256 (.permissive 4) (.submit openQueues submission)).isSome
  accepted := (s.handleSubmission sha256 (.permissive 4) openQueues
    submission).2.reply.isOk
  channel := (s.conn.channels.get 1).map fun ch => (ch.channelId, ch.currentJobId)
  jobPrevHash := (s.feed.jobTable.get submission.fields.jobId).map (·.prevHash)
  lastPrevHash := Gateway.lastPrevHash 1 s.conn.sent

theorem trySubmit_eq (events : List SessionEvent) (submission : Submission)
    (tried : Tried) (hread : tried.read = true) (haccepted : tried.accepted = true)
    (h : (run (step sha256 (.permissive 4)) fresh events).map
      (trySubmit submission) = some tried) :
    ∃ s t difficulty, run (step sha256 (.permissive 4)) fresh events = some s ∧
      s.step sha256 (.permissive 4) (.submit openQueues submission) = some t ∧
      (s.handleSubmission sha256 (.permissive 4) openQueues submission).2.reply =
        .ok difficulty ∧
      s.trySubmit submission = tried := by
  obtain ⟨s, hrun, rfl⟩ := Option.map_eq_some_iff.mp h
  obtain ⟨t, ht⟩ := Option.isSome_iff_exists.mp hread
  obtain ⟨difficulty, hreply⟩ := Result.isOk_iff.mp haccepted
  exact ⟨s, t, difficulty, hrun, ht, hreply, rfl⟩

/-- The previous hash of the first template. -/
def regtestPrevHash : Option Bytes32 :=
  (jobFromTemplate wallClock 1 none .regtest).map (·.prevHash)

/-- A share on the first of two jobs on the same block. -/
theorem timely_of_submitsLive_informedRun :
    ∃ s t difficulty,
      run (step sha256 (.permissive 4)) fresh informedRun = some s ∧
      s.step sha256 (.permissive 4) (.submit openQueues (.standard minedShare)) =
        some t ∧
      (s.handleSubmission sha256 (.permissive 4) openQueues
        (.standard minedShare)).2.reply = .ok difficulty ∧
      s.Timely minedShare := by
  obtain ⟨s, t, difficulty, hrun, ht, hreply, -⟩ :=
    trySubmit_eq informedRun (.standard minedShare)
      ⟨true, true, some (1, some 2), regtestPrevHash, regtestPrevHash⟩ rfl rfl
      (by decide +kernel)
  exact ⟨s, t, difficulty, hrun, ht, hreply,
    timely_of_submitsLive _ _ _ _ _ _ informedRun [] openQueues _ s t difficulty
      (by decide +kernel) hrun ht hreply⟩

/-- The first template on another block. -/
def nextBlockTemplate : TemplateResponse :=
  { TemplateResponse.regtest with
    templateId := 2
    blockHeight := 2
    prevHash := "1111111111111111111111111111111111111111111111111111111111111111" }

/-- A channel opened on the first job receives a job on the next block. -/
def supersededRun : List SessionEvent :=
  openRun (.openStandard wallClock ⟨1, "miner"⟩) ++ announce nextBlockTemplate ++
    [.receive wallClock (.stored _)]

/-- A share on the first job is accepted after the previous hash was replaced
on its channel. -/
theorem not_timely_superseded :
    ∃ s t difficulty,
      run (step sha256 (.permissive 4)) fresh supersededRun = some s ∧
      s.step sha256 (.permissive 4) (.submit openQueues (.standard minedShare)) =
        some t ∧
      (s.handleSubmission sha256 (.permissive 4) openQueues
        (.standard minedShare)).2.reply = .ok difficulty ∧
      ¬ s.Timely minedShare := by
  obtain ⟨s, t, difficulty, hrun, ht, hreply, htried⟩ :=
    trySubmit_eq supersededRun (.standard minedShare)
      ⟨true, true, some (1, some 2), regtestPrevHash, some (Bytes32.fill 0x11)⟩ rfl
      rfl (by decide +kernel)
  refine ⟨s, t, difficulty, hrun, ht, hreply, ?_⟩
  have hne : regtestPrevHash ≠ some (Bytes32.fill 0x11) := by
    decide +kernel
  simp only [trySubmit, Tried.mk.injEq] at htried
  obtain ⟨-, -, hchannel, hjob, hprev⟩ := htried
  obtain ⟨ch', hch', hcurrent'⟩ := Option.map_eq_some_iff.mp hchannel
  rw [Prod.mk.injEq] at hcurrent'
  rintro ⟨ch, hch, htimely⟩
  cases hch'.symm.trans hch
  rw [hcurrent'.1, hcurrent'.2] at htimely
  rcases htimely with hcurrent | ⟨-, job, hget, hhash⟩
  · cases hcurrent
  · change (s.feed.jobTable.get minedShare.jobId).map (·.prevHash) = _ at hjob
    rw [hget] at hjob
    rw [hprev] at hhash
    exact hne (hjob.symm.trans hhash.symm)

end Session

end ReserveGrid.Gateway
