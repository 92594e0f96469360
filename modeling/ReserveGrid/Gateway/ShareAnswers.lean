import ReserveGrid.Gateway.Session
import ReserveGrid.Support.Sha256

/-!
# What a share leaves behind

A share is answered on the wire, recorded as an event and, when it is accepted,
queued for the relay. The three agree, except for two refusals of extended
shares that are answered without an event. A share that is refused because the
queue to the relay is full was noted as seen before it was refused, so it is
taken for a replay when it is submitted again.
-/

namespace ReserveGrid.Gateway

open Support Bitcoin

/-! ## Accounting -/

/-- The frames that were written between two states of a connection. -/
def Connection.sentSince (conn conn' : Connection) : List Frame :=
  conn'.sent.drop conn.sent.length

/-- What was enqueued for a share agrees with what the miner was sent: there is
an event, it reports success exactly when the share was acknowledged, it reports
an error exactly when one was sent, with the reason that error stands for, and
the share was queued for the relay exactly when it reports success. -/
def Accounted (share : SubmitSharesStandard) (frames : List Frame)
    (outcome : ShareOutcome) : Prop :=
  ∃ event, outcome.event = some event ∧
    (event.sv2Response = "success" ↔ ∃ difficulty,
      .submitSuccess share.channelId share.sequenceNumber difficulty ∈ frames) ∧
    (event.sv2Response = "error" ↔ ∃ code,
      .submitError share.channelId share.sequenceNumber code ∈ frames) ∧
    (∀ code, .submitError share.channelId share.sequenceNumber code ∈ frames →
      ∃ reason : GatewayReason, event.reasonCode = some reason.asStr ∧
        reason.toSv2ErrorCode = some code) ∧
    (outcome.submission.isSome ↔ event.sv2Response = "success")

/-- An extended share that passes the rate limit of an open channel is on an
extended channel, and brings as many bytes as that channel was granted beside
its prefix. -/
def Submission.FitsChannel (now : ℕ) (channels : ConnectionChannels) :
    Submission → Prop
  | .standard _ => True
  | .extended share =>
      ∀ ch, channels.get share.channelId = some ch →
        (ch.rateLimiter.tryAcquire now).1 = true →
        ∃ minSize size, ch.kind = .extended minSize size ∧
          share.extranonce.length = size.toNat - ch.extranoncePrefix.length

/-! ## Events -/

/-- The event of an outcome and what was queued follow the reply. -/
def ShareOutcome.Told (outcome : ShareOutcome) : Prop :=
  ∃ event, outcome.event = some event ∧
    match outcome.reply with
    | .ok _ => event.sv2Response = "success" ∧ outcome.submission.isSome
    | .error reason => event.sv2Response = "error" ∧
        event.reasonCode = some reason.asStr ∧ reason.toSv2ErrorCode.isSome ∧
        outcome.submission = none

section

variable {env : SubmitEnv} {sha : Bytes → Bytes32} {cfg : HandlerConfig}

theorem refuseShare_told (hroom : env.eventRoom = true) {reason : GatewayReason}
    (hcode : reason.toSv2ErrorCode.isSome) (share : SubmitSharesStandard) :
    (refuseShare env reason share).Told := by
  refine ⟨_, by rw [refuseShare, enqueueShareEvent, if_pos hroom], ?_⟩
  exact ⟨rfl, rfl, hcode, rfl⟩

theorem processShare_told (hroom : env.eventRoom = true) (table : JobTable)
    (ch : ChannelState) (extranonce : Bytes) (share : SubmitSharesStandard)
    (dedup : ShareDedupSet) :
    (processShare env sha cfg table ch extranonce share dedup).1.Told := by
  have htold : ∀ (shareId eventId : Bytes32) (height : UInt32)
      (reply : Except GatewayReason UInt64) (submission : Option ShareSubmission),
      (match reply with
        | .ok _ => submission.isSome = true
        | .error reason => reason.toSv2ErrorCode.isSome = true ∧ submission = none) →
      ShareOutcome.Told {
        reply
        event := enqueueShareEvent env
          (shareEvent env shareId eventId ch.workerId height reply share)
        submission } := by
    intro shareId eventId height reply submission h
    refine ⟨_, by rw [enqueueShareEvent, if_pos hroom], ?_⟩
    cases reply with
    | ok difficulty => exact ⟨rfl, h⟩
    | error reason => exact ⟨rfl, rfl, h.1, h.2⟩
  unfold processShare
  split
  · exact refuseShare_told hroom rfl share
  · split
    · exact refuseShare_told hroom rfl share
    · split
      · exact refuseShare_told hroom rfl share
      · dsimp only
        split
        · exact htold _ _ _ _ _ ⟨rfl, rfl⟩
        · split
          · exact htold _ _ _ _ _ ⟨rfl, rfl⟩
          · split
            · exact htold _ _ _ _ _ rfl
            · exact htold _ _ _ _ _ ⟨rfl, rfl⟩

/-- An outcome that tells the miner's answer is accounted for. -/
theorem ShareOutcome.Told.accounted {outcome : ShareOutcome}
    (h : outcome.Told) {share : SubmitSharesStandard} {targets : List Frame}
    (htargets : ∀ f ∈ targets, f.isSetTarget = true) :
    Accounted share (replyFrame share outcome :: targets) outcome := by
  have hsuccess : ∀ d, Frame.submitSuccess share.channelId share.sequenceNumber d ∉
      targets := fun d hd => by cases htargets _ hd
  have herror : ∀ code, Frame.submitError share.channelId share.sequenceNumber code ∉
      targets := fun code hcode => by cases htargets _ hcode
  obtain ⟨event, hevent, hreply⟩ := h
  refine ⟨event, hevent, ?_⟩
  unfold replyFrame
  cases hcase : outcome.reply with
  | ok difficulty =>
      rw [hcase] at hreply
      obtain ⟨hresponse, hsubmission⟩ := hreply
      simp [hresponse, hsubmission, hsuccess, herror]
  | error reason =>
      rw [hcase] at hreply
      obtain ⟨hresponse, hreason, hcode, hsubmission⟩ := hreply
      obtain ⟨code, hcode⟩ := Option.isSome_iff_exists.mp hcode
      simp only [hresponse, hreason, hsubmission, hcode, List.mem_cons, hsuccess,
        herror]
      simp
      exact ⟨reason, rfl, hcode⟩

/-- A share fits its channel when an extranonce is found for it. -/
theorem fitsChannel_iff (now : ℕ) (channels : ConnectionChannels)
    (submission : Submission) :
    submission.FitsChannel now channels ↔
      ∀ ch, channels.get submission.fields.channelId = some ch →
        (ch.rateLimiter.tryAcquire now).1 = true →
        ∃ extranonce, submission.extranonceOf ch = .ok extranonce := by
  cases submission with
  | standard share =>
      constructor
      · intro _ ch _ _
        exact ⟨ch.extranoncePrefix, rfl⟩
      · intro _
        trivial
  | extended share =>
      apply forall_congr'
      intro ch
      apply imp_congr_right
      intro _
      apply imp_congr_right
      intro _
      change _ ↔ ∃ extranonce, extendedExtranonce share.extranonce ch = .ok extranonce
      unfold extendedExtranonce
      cases hkind : ch.kind with
      | standard => simp
      | extended minSize size =>
          by_cases hlen : share.extranonce.length =
              size.toNat - ch.extranoncePrefix.length
          · simp [hlen]
          · simp [hlen]

/-- A share tells the miner's answer in its event, unless it passes the rate
limit of its channel and no extranonce is found for it: then it has no event. -/
theorem shareResult_told_or_silent (hroom : env.eventRoom = true)
    (extranonceOf : ChannelState → Except GatewayReason Bytes) (table : JobTable)
    (share : SubmitSharesStandard) (conn : Connection) :
    ((∀ ch, conn.channels.get share.channelId = some ch →
        (ch.rateLimiter.tryAcquire env.clock.now).1 = true →
        ∃ extranonce, extranonceOf ch = .ok extranonce) ∧
      (shareResult env sha cfg extranonceOf table share conn).1.Told) ∨
    ((∃ ch reason, conn.channels.get share.channelId = some ch ∧
        (ch.rateLimiter.tryAcquire env.clock.now).1 = true ∧
        extranonceOf ch = .error reason) ∧
      (shareResult env sha cfg extranonceOf table share conn).1.event = none) := by
  unfold shareResult
  cases hget : conn.channels.get share.channelId with
  | none =>
      left
      refine ⟨?_, refuseShare_told hroom rfl share⟩
      intro ch hch
      cases hch
  | some ch =>
      dsimp only
      by_cases hacquired : (ch.rateLimiter.tryAcquire env.clock.now).1 = true
      · rw [hacquired]
        cases hextranonce : extranonceOf ch with
        | error reason =>
            right
            exact ⟨⟨ch, reason, rfl, hacquired, hextranonce⟩, rfl⟩
        | ok extranonce =>
            left
            refine ⟨?_, processShare_told hroom _ _ _ _ _⟩
            intro ch' hch' _
            cases hch'
            exact ⟨extranonce, hextranonce⟩
      · left
        rw [Bool.not_eq_true] at hacquired
        rw [hacquired]
        refine ⟨?_, refuseShare_told hroom rfl share⟩
        intro ch' hch' hacquired'
        cases hch'
        rw [hacquired] at hacquired'
        cases hacquired'

/-- What is told is accounted for by the frames that were written. -/
theorem accounted_handleShare
    {extranonceOf : ChannelState → Except GatewayReason Bytes} {table : JobTable}
    {share : SubmitSharesStandard} {conn : Connection}
    (h : (handleShare env sha cfg extranonceOf table share conn).2.Told) :
    Accounted share
      (conn.sentSince (handleShare env sha cfg extranonceOf table share conn).1)
      (handleShare env sha cfg extranonceOf table share conn).2 := by
  obtain ⟨targets, hsent, htargets⟩ : ∃ targets,
      (handleShare env sha cfg extranonceOf table share conn).1.sent =
        conn.sent ++ replyFrame share
          (handleShare env sha cfg extranonceOf table share conn).2 :: targets ∧
      ∀ f ∈ targets, f.isSetTarget = true := handleShare_sent _ _ _ _ _ _ _
  rw [Connection.sentSince, hsent, List.drop_left]
  exact h.accounted htargets

/-- A share is accounted for exactly when it fits its channel: an extended share
on a standard channel, or with an extranonce of the wrong length, is refused
without an event. -/
theorem accounted_iff_fitsChannel (hroom : env.eventRoom = true)
    (submission : Submission) (s : Session) :
    Accounted submission.fields
        (s.conn.sentSince (s.handleSubmission sha cfg env submission).1)
        (s.handleSubmission sha cfg env submission).2 ↔
      submission.FitsChannel env.clock.now s.conn.channels := by
  rw [Session.handleSubmission_eq, fitsChannel_iff]
  rcases shareResult_told_or_silent hroom submission.extranonceOf s.feed.jobTable
    submission.fields s.conn with ⟨hfits, htold⟩ | ⟨⟨ch, reason, hch, hacquired, herror⟩,
      hsilent⟩
  · rw [← handleShare_outcome] at htold
    exact iff_of_true (accounted_handleShare htold) hfits
  · apply iff_of_false
    · rintro ⟨event, hevent, -⟩
      rw [handleShare_outcome, hsilent] at hevent
      cases hevent
    · intro hfits
      obtain ⟨extranonce, hok⟩ := hfits ch hch hacquired
      rw [herror] at hok
      cases hok

end

namespace Session

/-- A miner with one standard channel. -/
def standardMiner : List SessionEvent :=
  [.connect, .openStandard wallClock ⟨1, "miner"⟩]

/-- The response and the reason that are recorded for a standard share. -/
def responseTo (share : SubmitSharesStandard) (s : Session) :
    Option (String × Option String) :=
  (s.handleSubmission sha256 (.permissive 4) openQueues (.standard share)).2.event.map
    fun event => (event.sv2Response, event.reasonCode)

/-- On an open channel a share that meets every check is accounted for, and so is
the same share on an unknown job. -/
theorem accounted_minedShare_unknownJob :
    ∃ s, run (step sha256 (.permissive 4)) fresh
        (openRun (.openStandard wallClock ⟨1, "miner"⟩)) = some s ∧
      responseTo minedShare s = some ("success", none) ∧
      responseTo { minedShare with jobId := 2 } s = some ("error", some "share_invalid_job_id") ∧
      ∀ share ∈ [minedShare, { minedShare with jobId := 2 }],
        Accounted share
          (s.conn.sentSince (s.handleSubmission sha256 (.permissive 4) openQueues
            (.standard share)).1)
          (s.handleSubmission sha256 (.permissive 4) openQueues (.standard share)).2 := by
  have hresponses : (run (step sha256 (.permissive 4)) fresh
      (openRun (.openStandard wallClock ⟨1, "miner"⟩))).map (fun s =>
        (responseTo minedShare s, responseTo { minedShare with jobId := 2 } s)) =
      some (some ("success", none), some ("error", some "share_invalid_job_id")) := by
    decide +kernel
  obtain ⟨s, hrun, hs⟩ := Option.map_eq_some_iff.mp hresponses
  rw [Prod.mk.injEq] at hs
  refine ⟨s, hrun, hs.1, hs.2, ?_⟩
  intro share _
  exact (accounted_iff_fitsChannel rfl (.standard share) s).mpr trivial

/-- An extended share on a standard channel is refused without an event. -/
theorem not_accounted_extended_share :
    ∃ s, run (step sha256 (.permissive 4)) fresh standardMiner = some s ∧
      openQueues.eventRoom = true ∧
      (s.handleSubmission sha256 (.permissive 4) openQueues
        (.extended ⟨minedShare, [1, 2, 3, 4]⟩)).1.sent.getLast? =
          some (.submitError 1 1 "invalid-channel-id") ∧
      ¬ Accounted minedShare
        (s.conn.sentSince (s.handleSubmission sha256 (.permissive 4) openQueues
          (.extended ⟨minedShare, [1, 2, 3, 4]⟩)).1)
        (s.handleSubmission sha256 (.permissive 4) openQueues
          (.extended ⟨minedShare, [1, 2, 3, 4]⟩)).2 := by
  refine ⟨_, rfl, rfl, rfl, ?_⟩
  rintro ⟨event, hevent, -⟩
  cases hevent

end Session

/-! ## Resubmission -/

/-- A share id that was checked is in the replay set. -/
theorem ShareDedupSet.mem_checkAndInsert (shareId : Bytes32)
    (dedup : ShareDedupSet) :
    shareId ∈ (dedup.checkAndInsert shareId).2.set := by
  unfold checkAndInsert
  split
  · assumption
  · exact Finset.mem_insert_self _ _

section

variable {env : SubmitEnv} {sha : Bytes → Bytes32} {cfg : HandlerConfig}

/-- The header that a share spells on a job. -/
def SubmitSharesStandard.headerOn (sha : Bytes → Bytes32)
    (share : SubmitSharesStandard) (extranonce : Bytes) (job : JobRecord) : Bytes :=
  headerIdentityBytes share.version job.prevHash
    (computeMerkleRoot sha job.coinbaseTxPrefix extranonce job.coinbaseTxSuffix
      job.merklePath) share.ntime job.nbits share.nonce

/-- The times of a share are within bounds on a channel. -/
def ntimeValid (cfg : HandlerConfig) (clock : Clock) (ch : ChannelState)
    (job : JobRecord) (share : SubmitSharesStandard) : Bool :=
  checkNtimeBounds share.ntime (ch.activationMinNtime.getD job.activationMinNtime)
    ((ch.elapsedSincePrevhashSecs clock.now).getD 0) cfg.ntimeElapsedSlackSeconds
    cfg.maxFutureBlockTimeSeconds clock.nowUnix

/-- A share that found no room had passed every check, and was noted as
seen. -/
theorem processShare_eq_queueFull {table : JobTable} {ch : ChannelState}
    {extranonce : Bytes} {share : SubmitSharesStandard} {dedup : ShareDedupSet}
    (h : (processShare env sha cfg table ch extranonce share dedup).1.reply =
      .error .shareDroppedQueueFull) :
    ∃ job, table.get share.jobId = some job ∧
      checkVersionBits share.version job.version = true ∧
      validateSharePow sha (share.headerOn sha extranonce job) ch.maximumTarget =
        true ∧
      computeShareId sha (share.headerOn sha extranonce job) ∈
        (processShare env sha cfg table ch extranonce share dedup).2.set := by
  unfold processShare at h ⊢
  cases hjob : table.get share.jobId with
  | none =>
      rw [hjob] at h
      cases h
  | some job =>
      rw [hjob] at h
      dsimp only at h ⊢
      refine ⟨job, rfl, ?_⟩
      split at h
      · cases h
      rename_i hversion
      split at h
      · cases h
      rename_i hntime
      split at h
      · cases h
      rename_i hpow
      split at h
      · cases h
      rename_i hreplay
      rw [if_neg hversion, if_neg hntime, if_neg hpow, if_neg hreplay]
      refine ⟨by simpa using hversion,
        by simpa [SubmitSharesStandard.headerOn] using hpow, ?_⟩
      split
      · exact ShareDedupSet.mem_checkAndInsert _ _
      · exact ShareDedupSet.mem_checkAndInsert _ _

/-- A share that was noted as seen is a replay. -/
theorem processShare_of_seen {table : JobTable} {ch : ChannelState}
    {extranonce : Bytes} {share : SubmitSharesStandard} {dedup : ShareDedupSet}
    {job : JobRecord} (hjob : table.get share.jobId = some job)
    (hversion : checkVersionBits share.version job.version = true)
    (hntime : ntimeValid cfg env.clock ch job share = true)
    (hpow : validateSharePow sha (share.headerOn sha extranonce job)
      ch.maximumTarget = true)
    (hseen : computeShareId sha (share.headerOn sha extranonce job) ∈ dedup.set) :
    (processShare env sha cfg table ch extranonce share dedup).1.reply =
      .error .shareReplayDetected := by
  have hcheck : (dedup.checkAndInsert
      (computeShareId sha (share.headerOn sha extranonce job))).1 = true := by
    rw [ShareDedupSet.checkAndInsert, if_pos hseen]
  unfold ntimeValid at hntime
  unfold SubmitSharesStandard.headerOn at hpow hcheck
  unfold processShare
  rw [hjob]
  dsimp only
  rw [hversion, hntime, hpow, hcheck]
  rfl

/-- A share that found no room leaves its channel as it was but for the rate
limiter, and is in the replay set. -/
theorem handleShare_eq_queueFull
    {extranonceOf : ChannelState → Except GatewayReason Bytes} {table : JobTable}
    {share : SubmitSharesStandard} {conn : Connection}
    (h : (handleShare env sha cfg extranonceOf table share conn).2.reply =
      .error .shareDroppedQueueFull)
    (hextranonceOf : ∀ ch, extranonceOf ch ≠ .error .shareDroppedQueueFull) :
    ∃ ch limiter extranonce job, conn.channels.get share.channelId = some ch ∧
      (handleShare env sha cfg extranonceOf table share conn).1.channels.get
        share.channelId = some { ch with rateLimiter := limiter } ∧
      extranonceOf ch = .ok extranonce ∧ table.get share.jobId = some job ∧
      checkVersionBits share.version job.version = true ∧
      validateSharePow sha (share.headerOn sha extranonce job) ch.maximumTarget =
        true ∧
      computeShareId sha (share.headerOn sha extranonce job) ∈
        (handleShare env sha cfg extranonceOf table share conn).1.shareDedup.set := by
  unfold handleShare at h ⊢
  cases hget : conn.channels.get share.channelId with
  | none =>
      rw [hget] at h
      cases h
  | some ch =>
      rw [hget] at h
      dsimp only at h ⊢
      split at h
      · cases h
      rename_i hacquired
      rw [if_neg hacquired]
      cases hextranonce : extranonceOf ch with
      | error reason =>
          rw [hextranonce] at h
          cases h
          exact absurd hextranonce (hextranonceOf ch)
      | ok extranonce =>
          rw [hextranonce] at h
          dsimp only at h ⊢
          have hreply : (processShare env sha cfg table ch extranonce share
              conn.shareDedup).1.reply = .error .shareDroppedQueueFull := by
            split at h
            · exact h
            · exact h
          obtain ⟨job, hjob, hversion, hpow, hseen⟩ := processShare_eq_queueFull hreply
          rw [hreply]
          refine ⟨ch, (ch.rateLimiter.tryAcquire env.clock.now).2, extranonce, job,
            rfl, ?_, hextranonce, hjob, hversion, hpow, hseen⟩
          exact ConnectionChannels.get_modify_self hget rfl

variable (cfg) in
/-- The share could be accepted now, but for replays: its channel is open and
has a token, its job is known and its time is within bounds. -/
def Session.stillValid (env : SubmitEnv) (share : SubmitSharesStandard)
    (s : Session) : Bool :=
  match s.conn.channels.get share.channelId, s.feed.jobTable.get share.jobId with
  | some ch, some job =>
      (ch.rateLimiter.tryAcquire env.clock.now).1 &&
        ntimeValid cfg env.clock ch job share
  | _, _ => false

theorem Session.stillValid_eq_true {share : SubmitSharesStandard} {s : Session}
    (h : s.stillValid cfg env share = true) :
    ∃ ch job, s.conn.channels.get share.channelId = some ch ∧
      (ch.rateLimiter.tryAcquire env.clock.now).1 = true ∧
      s.feed.jobTable.get share.jobId = some job ∧
      ntimeValid cfg env.clock ch job share = true := by
  unfold stillValid at h
  split at h
  · rename_i ch job hget hjob
    rw [Bool.and_eq_true] at h
    exact ⟨ch, job, hget, h.1, hjob, h.2⟩
  · cases h

theorem Submission.extranonceOf_congr (submission : Submission) (ch : ChannelState)
    (limiter : ShareRateLimiter) :
    submission.extranonceOf { ch with rateLimiter := limiter } =
      submission.extranonceOf ch := by
  cases submission with
  | standard share => rfl
  | extended share => rfl

theorem Submission.extranonceOf_ne_queueFull (submission : Submission)
    (ch : ChannelState) :
    submission.extranonceOf ch ≠ .error .shareDroppedQueueFull := by
  cases submission with
  | standard share =>
      intro h
      cases h
  | extended share =>
      intro h
      change extendedExtranonce share.extranonce ch = _ at h
      unfold extendedExtranonce at h
      split at h
      · cases h
      · split at h
        · cases h
        · cases h

/-- A share that was refused because the queue to the relay was full, and is
submitted again, is refused as a replay, though it could be accepted by all
other checks, and whether or not there is room for it now. -/
theorem replay_of_queueFull {env' : SubmitEnv} {submission : Submission}
    {s s' : Session}
    (hrefused : (s.handleSubmission sha cfg env submission).2.reply =
      .error .shareDroppedQueueFull)
    (hconn : s'.conn = (s.handleSubmission sha cfg env submission).1)
    (hjob : s'.feed.jobTable.get submission.fields.jobId =
      s.feed.jobTable.get submission.fields.jobId)
    (hvalid : s'.stillValid cfg env' submission.fields = true) :
    (s'.handleSubmission sha cfg env' submission).2.reply =
      .error .shareReplayDetected := by
  rw [Session.handleSubmission_eq] at hrefused hconn
  obtain ⟨ch, limiter, extranonce, job, -, hget, hextranonce, htable, hversion, hpow,
    hseen⟩ := handleShare_eq_queueFull hrefused submission.extranonceOf_ne_queueFull
  rw [← hconn] at hget hseen
  obtain ⟨ch', job', hget', hacquired, hjob', hntime⟩ :=
    Session.stillValid_eq_true hvalid
  rw [hget] at hget'
  cases hget'
  rw [hjob, htable] at hjob'
  cases hjob'
  have hextranonce' := submission.extranonceOf_congr ch limiter
  rw [hextranonce] at hextranonce'
  rw [Session.handleSubmission_eq, handleShare_processed hget hacquired hextranonce']
  exact processShare_of_seen (hjob.trans htable) hversion hntime hpow hseen

end

namespace Session

def fullQueue : SubmitEnv := { openQueues with forwardRoom := false }

/-- The reason a share is refused for. -/
def refusal (env : SubmitEnv) (submission : Submission) (s : Session) :
    Option GatewayReason :=
  match (s.handleSubmission sha256 (.permissive 4) env submission).2.reply with
  | .ok _ => none
  | .error reason => some reason

/-- The session after a share. -/
def afterShare (env : SubmitEnv) (submission : Submission) (s : Session) : Session :=
  { s with conn := (s.handleSubmission sha256 (.permissive 4) env submission).1 }

theorem refusal_eq_some {env : SubmitEnv} {submission : Submission} {s : Session}
    {reason : GatewayReason} :
    s.refusal env submission = some reason ↔
      (s.handleSubmission sha256 (.permissive 4) env submission).2.reply =
        .error reason := by
  unfold refusal
  split
  · rename_i h
    simp [h]
  · rename_i h
    simp [h]

/-- A share is refused for lack of room, and again when there is room. -/
def refusedTwice (submission : Submission) (s : Session) :
    Option GatewayReason × Bool × Option GatewayReason :=
  (s.refusal fullQueue submission,
    (s.afterShare fullQueue submission).stillValid (.permissive 4) openQueues
      submission.fields,
    (s.afterShare fullQueue submission).refusal openQueues submission)

theorem refusedTwice_minedShare :
    (run (step sha256 (.permissive 4)) fresh
      (openRun (.openStandard wallClock ⟨1, "miner"⟩))).map
        (refusedTwice (.standard minedShare)) =
      some (some .shareDroppedQueueFull, true, some .shareReplayDetected) := by
  decide +kernel

theorem replay_of_queueFull_minedShare :
    ∃ s, run (step sha256 (.permissive 4)) fresh
        (openRun (.openStandard wallClock ⟨1, "miner"⟩)) = some s ∧
      (s.handleSubmission sha256 (.permissive 4) fullQueue
        (.standard minedShare)).2.reply = .error .shareDroppedQueueFull ∧
      (s.afterShare fullQueue (.standard minedShare)).stillValid (.permissive 4)
        openQueues minedShare = true ∧
      ((s.afterShare fullQueue (.standard minedShare)).handleSubmission sha256
        (.permissive 4) openQueues (.standard minedShare)).2.reply =
          .error .shareReplayDetected := by
  obtain ⟨s, hrun, hs⟩ := Option.map_eq_some_iff.mp refusedTwice_minedShare
  simp only [refusedTwice, Prod.mk.injEq] at hs
  obtain ⟨hfull, hvalid, -⟩ := hs
  have hrefused := refusal_eq_some.mp hfull
  exact ⟨s, hrun, hrefused, hvalid, replay_of_queueFull hrefused rfl rfl hvalid⟩

/-- A share on a standard channel that finds no room is not accepted when there
is room. -/
theorem not_accepted_after_queueFull :
    ∃ s, run (step sha256 (.permissive 4)) fresh
        (openRun (.openStandard wallClock ⟨1, "miner"⟩)) = some s ∧
      (s.handleSubmission sha256 (.permissive 4) fullQueue
        (.standard minedShare)).2.reply = .error .shareDroppedQueueFull ∧
      (s.afterShare fullQueue (.standard minedShare)).stillValid (.permissive 4)
        openQueues minedShare = true ∧
      openQueues.forwardRoom = true ∧
      ¬ ∃ difficulty,
        ((s.afterShare fullQueue (.standard minedShare)).handleSubmission sha256
          (.permissive 4) openQueues (.standard minedShare)).2.reply =
            .ok difficulty := by
  obtain ⟨s, hrun, hs⟩ := Option.map_eq_some_iff.mp refusedTwice_minedShare
  simp only [refusedTwice, Prod.mk.injEq] at hs
  obtain ⟨hfull, hvalid, hreplay⟩ := hs
  refine ⟨s, hrun, refusal_eq_some.mp hfull, hvalid, rfl, ?_⟩
  rintro ⟨difficulty, hok⟩
  rw [refusal_eq_some.mp hreplay] at hok
  cases hok

end Session

end ReserveGrid.Gateway
