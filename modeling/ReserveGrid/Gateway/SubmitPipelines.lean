import ReserveGrid.Gateway.Session
import ReserveGrid.Support.Sha256

/-!
# The two submit pipelines

The pipelines for standard and for extended shares were written, and are
patched, separately. Here each stands as it is written, exit by exit; each is
shown to be what the handler does with a share of its kind, and from that the
two agree wherever their channels do.
-/

namespace ReserveGrid.Gateway

open Support Bitcoin

namespace Pipeline

section

variable (env : SubmitEnv)

/-- Answer a share with an error, after its event if it has one. -/
def sendShareError (channelId sequenceNumber : UInt32) (reason : GatewayReason)
    (event : Option ShareAcceptedEvent) (conn : Connection) :
    Connection × ShareOutcome :=
  ({ conn with
      sent := conn.sent ++ [.submitError channelId sequenceNumber
        (reason.toSv2ErrorCode.getD "")] },
    { reply := .error reason
      event := event.bind (enqueueShareEvent env) })

variable (sha : Bytes → Bytes32) (cfg : HandlerConfig)

/-- Steps 1 to 5 of the standard pipeline, on the channel as it was found. -/
def validateStandard (table : JobTable) (share : SubmitSharesStandard)
    (channel : ChannelState) (channelExtranonce : Bytes) (conn : Connection) :
    Connection × ShareOutcome :=
  let channelTarget := channel.maximumTarget
  let activationMinNtime := channel.activationMinNtime
  let elapsedSecs := channel.elapsedSincePrevhashSecs env.clock.now
  let workerId := channel.workerId
  -- step 1: the job is in the job table
  match table.get share.jobId with
  | none =>
      sendShareError env share.channelId share.sequenceNumber .shareInvalidJobId
        (some (.sentinel env.clock.unixMs .shareInvalidJobId share.channelId
          share.sequenceNumber share.jobId)) conn
  | some job =>
  -- step 2: version bits
  if !checkVersionBits share.version job.version then
    sendShareError env share.channelId share.sequenceNumber .versionBitViolation
      (some (.sentinel env.clock.unixMs .versionBitViolation share.channelId
        share.sequenceNumber share.jobId)) conn
  else
  -- step 3: time bounds
  let effectiveMinNtime := activationMinNtime.getD job.activationMinNtime
  let effectiveElapsed := elapsedSecs.getD 0
  if !checkNtimeBounds share.ntime effectiveMinNtime effectiveElapsed
      cfg.ntimeElapsedSlackSeconds cfg.maxFutureBlockTimeSeconds
      env.clock.nowUnix then
    sendShareError env share.channelId share.sequenceNumber .ntimeOutOfRange
      (some (.sentinel env.clock.unixMs .ntimeOutOfRange share.channelId
        share.sequenceNumber share.jobId)) conn
  else
  -- step 4: the header and its proof of work
  let merkleRoot := computeMerkleRoot sha job.coinbaseTxPrefix channelExtranonce
    job.coinbaseTxSuffix job.merklePath
  let headerBytes := headerIdentityBytes share.version job.prevHash merkleRoot
    share.ntime job.nbits share.nonce
  if !validateSharePow sha headerBytes channelTarget then
    let sid := computeShareId sha headerBytes
    let eid := computeEventId sha sid workerId "full"
    sendShareError env share.channelId share.sequenceNumber
      .shareDifficultyBelowTarget
      (some {
        eventType := "share_accepted"
        shareIdHex := hexEncode sid.toBytes
        eventIdHex := hexEncode eid.toBytes
        sv2Response := "error"
        reasonCode := some GatewayReason.shareDifficultyBelowTarget.asStr
        reasonDetail := some GatewayReason.shareDifficultyBelowTarget.asStr
        workerId
        channelId := share.channelId
        sequenceNumber := share.sequenceNumber
        jobId := share.jobId
        blockHeight := job.blockHeight
        timestampMs := env.clock.unixMs
        difficultyU64 := 0 }) conn
  else
  -- step 5: replays
  let shareId := computeShareId sha headerBytes
  let checked := conn.shareDedup.checkAndInsert shareId
  let conn := { conn with shareDedup := checked.2 }
  if checked.1 then
    let eid := computeEventId sha shareId workerId "full"
    sendShareError env share.channelId share.sequenceNumber .shareReplayDetected
      (some {
        eventType := "share_accepted"
        shareIdHex := hexEncode shareId.toBytes
        eventIdHex := hexEncode eid.toBytes
        sv2Response := "error"
        reasonCode := some GatewayReason.shareReplayDetected.asStr
        reasonDetail := some GatewayReason.shareReplayDetected.asStr
        workerId
        channelId := share.channelId
        sequenceNumber := share.sequenceNumber
        jobId := share.jobId
        blockHeight := job.blockHeight
        timestampMs := env.clock.unixMs
        difficultyU64 := 0 }) conn
  else
  -- accepted, if there is room for it upstream
  let difficulty := targetToDifficultyU64 channelTarget
  let shareIdHex := hexEncode shareId.toBytes
  let eventId := computeEventId sha shareId workerId "full"
  let eventIdHex := hexEncode eventId.toBytes
  let submission : ShareSubmission := {
    shareIdHex
    version := share.version
    prevHashWireHex := hexEncode job.prevHash.toBytes
    prevHashDisplayHex := hexEncode job.prevHash.reverse.toBytes
    merkleRootWireHex := hexEncode merkleRoot.toBytes
    merkleRootDisplayHex := hexEncode merkleRoot.reverse.toBytes
    ntime := share.ntime
    nbits := job.nbits
    nonce := share.nonce
    eventIdHex
    workerId
    validationLevel := "full"
    gatewayInstanceId := cfg.gatewayInstanceId
    channelId := share.channelId
    sequenceNumber := share.sequenceNumber
    jobId := share.jobId
    templateId := job.templateId
    blockHeight := job.blockHeight
    poolAccountId := none
    timestampMs := env.clock.unixMs
    difficultyU64 := difficulty
    difficultyDisplay := difficulty.toFloat
    sourceInstanceId := job.sourceInstanceId
    gatewaySignatureHex := "" }
  if !env.forwardRoom then
    sendShareError env share.channelId share.sequenceNumber
      .shareDroppedQueueFull
      (some {
        eventType := "share_accepted"
        shareIdHex
        eventIdHex
        sv2Response := "error"
        reasonCode := some GatewayReason.shareDroppedQueueFull.asStr
        reasonDetail := some GatewayReason.shareDroppedQueueFull.asStr
        workerId
        channelId := share.channelId
        sequenceNumber := share.sequenceNumber
        jobId := share.jobId
        blockHeight := job.blockHeight
        timestampMs := env.clock.unixMs
        difficultyU64 := 0 }) conn
  else
  let event : ShareAcceptedEvent := {
    eventType := "share_accepted"
    shareIdHex
    eventIdHex
    sv2Response := "success"
    reasonCode := none
    reasonDetail := none
    workerId
    channelId := share.channelId
    sequenceNumber := share.sequenceNumber
    jobId := share.jobId
    blockHeight := job.blockHeight
    timestampMs := env.clock.unixMs
    difficultyU64 := difficulty }
  let conn := { conn with
    sent := conn.sent ++
      [.submitSuccess share.channelId share.sequenceNumber difficulty] }
  (maybeRetarget env.clock.now share.channelId conn,
    { reply := .ok difficulty
      event := enqueueShareEvent env event
      submission := some (env.sign submission) })

def handleSubmitShares (table : JobTable) (share : SubmitSharesStandard)
    (conn : Connection) : Connection × ShareOutcome :=
  -- step 0: the channel exists
  match conn.channels.get share.channelId with
  | none =>
      sendShareError env share.channelId share.sequenceNumber .invalidChannelId
        (some (.sentinel env.clock.unixMs .invalidChannelId share.channelId
          share.sequenceNumber share.jobId)) conn
  | some limited =>
  -- step 0.5: the rate limit of the channel
  let acquired := limited.rateLimiter.tryAcquire env.clock.now
  let conn := { conn with
    channels := conn.channels.modify share.channelId fun ch =>
      { ch with rateLimiter := acquired.2 } }
  if !acquired.1 then
    sendShareError env share.channelId share.sequenceNumber .shareRateLimited
      (some (.sentinel env.clock.unixMs .shareRateLimited share.channelId
        share.sequenceNumber share.jobId)) conn
  else
  match conn.channels.get share.channelId with
  | none =>
      sendShareError env share.channelId share.sequenceNumber .invalidChannelId
        none conn
  | some channel =>
  validateStandard env sha cfg table share channel channel.extranoncePrefix conn

/-- Steps 1 to 5 of the extended pipeline, on the channel as it was found. -/
def validateExtended (table : JobTable) (share : SubmitSharesExtended)
    (channel : ChannelState) (fullExtranonce : Bytes) (conn : Connection) :
    Connection × ShareOutcome :=
  let channelTarget := channel.maximumTarget
  let activationMinNtime := channel.activationMinNtime
  let elapsedSecs := channel.elapsedSincePrevhashSecs env.clock.now
  let workerId := channel.workerId
  -- step 1: the job is in the job table
  match table.get share.jobId with
  | none =>
      sendShareError env share.channelId share.sequenceNumber .shareInvalidJobId
        (some (.sentinel env.clock.unixMs .shareInvalidJobId share.channelId
          share.sequenceNumber share.jobId)) conn
  | some job =>
  -- step 2: version bits
  if !checkVersionBits share.version job.version then
    sendShareError env share.channelId share.sequenceNumber .versionBitViolation
      (some (.sentinel env.clock.unixMs .versionBitViolation share.channelId
        share.sequenceNumber share.jobId)) conn
  else
  -- step 3: time bounds
  let effectiveMinNtime := activationMinNtime.getD job.activationMinNtime
  let effectiveElapsed := elapsedSecs.getD 0
  if !checkNtimeBounds share.ntime effectiveMinNtime effectiveElapsed
      cfg.ntimeElapsedSlackSeconds cfg.maxFutureBlockTimeSeconds
      env.clock.nowUnix then
    sendShareError env share.channelId share.sequenceNumber .ntimeOutOfRange
      (some (.sentinel env.clock.unixMs .ntimeOutOfRange share.channelId
        share.sequenceNumber share.jobId)) conn
  else
  -- step 4: the header and its proof of work
  let merkleRoot := computeMerkleRoot sha job.coinbaseTxPrefix fullExtranonce
    job.coinbaseTxSuffix job.merklePath
  let headerBytes := headerIdentityBytes share.version job.prevHash merkleRoot
    share.ntime job.nbits share.nonce
  if !validateSharePow sha headerBytes channelTarget then
    let sid := computeShareId sha headerBytes
    let eid := computeEventId sha sid workerId "full"
    sendShareError env share.channelId share.sequenceNumber
      .shareDifficultyBelowTarget
      (some {
        eventType := "share_accepted"
        shareIdHex := hexEncode sid.toBytes
        eventIdHex := hexEncode eid.toBytes
        sv2Response := "error"
        reasonCode := some GatewayReason.shareDifficultyBelowTarget.asStr
        reasonDetail := some GatewayReason.shareDifficultyBelowTarget.asStr
        workerId
        channelId := share.channelId
        sequenceNumber := share.sequenceNumber
        jobId := share.jobId
        blockHeight := job.blockHeight
        timestampMs := env.clock.unixMs
        difficultyU64 := 0 }) conn
  else
  -- step 5: replays
  let shareId := computeShareId sha headerBytes
  let checked := conn.shareDedup.checkAndInsert shareId
  let conn := { conn with shareDedup := checked.2 }
  if checked.1 then
    let eid := computeEventId sha shareId workerId "full"
    sendShareError env share.channelId share.sequenceNumber .shareReplayDetected
      (some {
        eventType := "share_accepted"
        shareIdHex := hexEncode shareId.toBytes
        eventIdHex := hexEncode eid.toBytes
        sv2Response := "error"
        reasonCode := some GatewayReason.shareReplayDetected.asStr
        reasonDetail := some GatewayReason.shareReplayDetected.asStr
        workerId
        channelId := share.channelId
        sequenceNumber := share.sequenceNumber
        jobId := share.jobId
        blockHeight := job.blockHeight
        timestampMs := env.clock.unixMs
        difficultyU64 := 0 }) conn
  else
  -- accepted, if there is room for it upstream
  let difficulty := targetToDifficultyU64 channelTarget
  let shareIdHex := hexEncode shareId.toBytes
  let eventId := computeEventId sha shareId workerId "full"
  let eventIdHex := hexEncode eventId.toBytes
  let submission : ShareSubmission := {
    shareIdHex
    version := share.version
    prevHashWireHex := hexEncode job.prevHash.toBytes
    prevHashDisplayHex := hexEncode job.prevHash.reverse.toBytes
    merkleRootWireHex := hexEncode merkleRoot.toBytes
    merkleRootDisplayHex := hexEncode merkleRoot.reverse.toBytes
    ntime := share.ntime
    nbits := job.nbits
    nonce := share.nonce
    eventIdHex
    workerId
    validationLevel := "full"
    gatewayInstanceId := cfg.gatewayInstanceId
    channelId := share.channelId
    sequenceNumber := share.sequenceNumber
    jobId := share.jobId
    templateId := job.templateId
    blockHeight := job.blockHeight
    poolAccountId := none
    timestampMs := env.clock.unixMs
    difficultyU64 := difficulty
    difficultyDisplay := difficulty.toFloat
    sourceInstanceId := job.sourceInstanceId
    gatewaySignatureHex := "" }
  if !env.forwardRoom then
    sendShareError env share.channelId share.sequenceNumber
      .shareDroppedQueueFull
      (some {
        eventType := "share_accepted"
        shareIdHex
        eventIdHex
        sv2Response := "error"
        reasonCode := some GatewayReason.shareDroppedQueueFull.asStr
        reasonDetail := some GatewayReason.shareDroppedQueueFull.asStr
        workerId
        channelId := share.channelId
        sequenceNumber := share.sequenceNumber
        jobId := share.jobId
        blockHeight := job.blockHeight
        timestampMs := env.clock.unixMs
        difficultyU64 := 0 }) conn
  else
  let event : ShareAcceptedEvent := {
    eventType := "share_accepted"
    shareIdHex
    eventIdHex
    sv2Response := "success"
    reasonCode := none
    reasonDetail := none
    workerId
    channelId := share.channelId
    sequenceNumber := share.sequenceNumber
    jobId := share.jobId
    blockHeight := job.blockHeight
    timestampMs := env.clock.unixMs
    difficultyU64 := difficulty }
  let conn := { conn with
    sent := conn.sent ++
      [.submitSuccess share.channelId share.sequenceNumber difficulty] }
  (maybeRetarget env.clock.now share.channelId conn,
    { reply := .ok difficulty
      event := enqueueShareEvent env event
      submission := some (env.sign submission) })

def handleSubmitSharesExtended (table : JobTable)
    (share : SubmitSharesExtended) (conn : Connection) : Connection × ShareOutcome :=
  -- step 0: the channel exists
  match conn.channels.get share.channelId with
  | none =>
      sendShareError env share.channelId share.sequenceNumber .invalidChannelId
        (some (.sentinel env.clock.unixMs .invalidChannelId share.channelId
          share.sequenceNumber share.jobId)) conn
  | some limited =>
  -- step 0.5: the rate limit of the channel
  let acquired := limited.rateLimiter.tryAcquire env.clock.now
  let conn := { conn with
    channels := conn.channels.modify share.channelId fun ch =>
      { ch with rateLimiter := acquired.2 } }
  if !acquired.1 then
    sendShareError env share.channelId share.sequenceNumber .shareRateLimited
      (some (.sentinel env.clock.unixMs .shareRateLimited share.channelId
        share.sequenceNumber share.jobId)) conn
  else
  match conn.channels.get share.channelId with
  | none =>
      sendShareError env share.channelId share.sequenceNumber .invalidChannelId
        none conn
  | some channel =>
  -- step 0.75: the channel is extended and the extranonce has its size
  match channel.kind with
  | .standard =>
      sendShareError env share.channelId share.sequenceNumber .invalidChannelId
        none conn
  | .extended _ extranonceSize =>
  let expectedMinerEnLen := extranonceSize.toNat - channel.extranoncePrefix.length
  if share.extranonce.length ≠ expectedMinerEnLen then
    sendShareError env share.channelId share.sequenceNumber .shareInvalidNonce
      none conn
  else
  let fullExtranonce := channel.extranoncePrefix ++ share.extranonce
  validateExtended env sha cfg table share channel fullExtranonce conn

end

end Pipeline

namespace Pipeline

variable {env : SubmitEnv} {sha : Bytes → Bytes32} {cfg : HandlerConfig}

/-- The two copies do the same with the same extranonce. -/
theorem validateExtended_eq (table : JobTable) (share : SubmitSharesExtended)
    (channel : ChannelState) (extranonce : Bytes) (conn : Connection) :
    validateExtended env sha cfg table share channel extranonce conn =
      validateStandard env sha cfg table share.toSubmitSharesStandard channel
        extranonce conn := rfl

/-- What the handler does once a share's channel and extranonce are known. -/
theorem validateStandard_eq (table : JobTable) (share : SubmitSharesStandard)
    (ch : ChannelState) (extranonce : Bytes) (conn : Connection) :
    validateStandard env sha cfg table share ch extranonce conn =
      let processed := processShare env sha cfg table ch extranonce share
        conn.shareDedup
      let answered := { conn with
        shareDedup := processed.2
        sent := conn.sent ++ [replyFrame share processed.1] }
      match processed.1.reply with
      | .ok _ =>
          (maybeRetarget env.clock.now share.channelId answered, processed.1)
      | .error _ => (answered, processed.1) := by
  unfold validateStandard processShare
  cases hjob : table.get share.jobId with
  | none => rfl
  | some job =>
      dsimp only
      by_cases hversion : (!checkVersionBits share.version job.version) = true
      · rw [if_pos hversion, if_pos hversion]
        rfl
      rw [if_neg hversion, if_neg hversion]
      by_cases hntime : (!checkNtimeBounds share.ntime
          (ch.activationMinNtime.getD job.activationMinNtime)
          ((ch.elapsedSincePrevhashSecs env.clock.now).getD 0)
          cfg.ntimeElapsedSlackSeconds cfg.maxFutureBlockTimeSeconds
          env.clock.nowUnix) = true
      · rw [if_pos hntime, if_pos hntime]
        rfl
      rw [if_neg hntime, if_neg hntime]
      let headerBytes := headerIdentityBytes share.version job.prevHash
        (computeMerkleRoot sha job.coinbaseTxPrefix extranonce
          job.coinbaseTxSuffix job.merklePath) share.ntime job.nbits share.nonce
      by_cases hpow : (!validateSharePow sha headerBytes ch.maximumTarget) = true
      · rw [if_pos hpow, if_pos hpow]
        rfl
      rw [if_neg hpow, if_neg hpow]
      by_cases hreplay : (conn.shareDedup.checkAndInsert
          (computeShareId sha headerBytes)).1 = true
      · rw [if_pos hreplay, if_pos hreplay]
        rfl
      rw [if_neg hreplay, if_neg hreplay]
      cases hroom : env.forwardRoom with
      | false => rfl
      | true => rfl

/-- The standard pipeline is the handler's. -/
theorem handleSubmitShares_eq (table : JobTable) (share : SubmitSharesStandard)
    (conn : Connection) :
    handleSubmitShares env sha cfg table share conn =
      Gateway.handleSubmitShares env sha cfg table share conn := by
  unfold handleSubmitShares Gateway.handleSubmitShares handleShare
  cases hget : conn.channels.get share.channelId with
  | none => rfl
  | some ch =>
      let limited : ChannelState → ChannelState := fun c =>
        { c with rateLimiter := (ch.rateLimiter.tryAcquire env.clock.now).2 }
      have hget' : (conn.channels.modify share.channelId limited).get
          share.channelId = some (limited ch) :=
        ConnectionChannels.get_modify_self hget rfl
      dsimp only
      by_cases hacquired : (!(ch.rateLimiter.tryAcquire env.clock.now).1) = true
      · rw [if_pos hacquired, if_pos hacquired]
        rfl
      rw [if_neg hacquired, if_neg hacquired, hget']
      exact validateStandard_eq table share (limited ch) ch.extranoncePrefix _

/-- The extended pipeline is the handler's. -/
theorem handleSubmitSharesExtended_eq (table : JobTable)
    (share : SubmitSharesExtended) (conn : Connection) :
    handleSubmitSharesExtended env sha cfg table share conn =
      Gateway.handleSubmitSharesExtended env sha cfg table share conn := by
  unfold handleSubmitSharesExtended Gateway.handleSubmitSharesExtended handleShare
  cases hget : conn.channels.get share.channelId with
  | none => rfl
  | some ch =>
      let limited : ChannelState → ChannelState := fun c =>
        { c with rateLimiter := (ch.rateLimiter.tryAcquire env.clock.now).2 }
      have hget' : (conn.channels.modify share.channelId limited).get
          share.channelId = some (limited ch) :=
        ConnectionChannels.get_modify_self hget rfl
      dsimp only
      by_cases hacquired : (!(ch.rateLimiter.tryAcquire env.clock.now).1) = true
      · rw [if_pos hacquired, if_pos hacquired]
        rfl
      rw [if_neg hacquired, if_neg hacquired, hget']
      unfold extendedExtranonce
      dsimp only [limited]
      cases hkind : ch.kind with
      | standard => rfl
      | extended minSize size =>
          dsimp only
          by_cases hlen : share.extranonce.length ≠
              size.toNat - ch.extranoncePrefix.length
          · rw [if_pos hlen, if_pos hlen]
            rfl
          rw [if_neg hlen, if_neg hlen, validateExtended_eq, ← hkind]
          exact validateStandard_eq table share.toSubmitSharesStandard (limited ch)
            (ch.extranoncePrefix ++ share.extranonce) _

end Pipeline

/-! ## Agreement -/

/-- Two channels that validation cannot tell apart but for the extranonce: the
same id, worker, target and anchors of time, and the same answer of the rate
limiter. -/
structure ChannelState.Alike (now : ℕ) (ch ch' : ChannelState) : Prop where
  channelId : ch'.channelId = ch.channelId
  workerId : ch'.workerId = ch.workerId
  maximumTarget : ch'.maximumTarget = ch.maximumTarget
  activationMinNtime : ch'.activationMinNtime = ch.activationMinNtime
  prevhashSent : ch'.prevhashSentMonotonicMs = ch.prevhashSentMonotonicMs
  acquires : (ch'.rateLimiter.tryAcquire now).1 = (ch.rateLimiter.tryAcquire now).1

section

variable {env : SubmitEnv} {sha : Bytes → Bytes32} {cfg : HandlerConfig}

theorem ChannelState.Alike.processShare_eq {ch ch' : ChannelState}
    (h : ch.Alike env.clock.now ch') (table : JobTable) (extranonce : Bytes)
    (share : SubmitSharesStandard) (dedup : ShareDedupSet) :
    processShare env sha cfg table ch' extranonce share dedup =
      processShare env sha cfg table ch extranonce share dedup := by
  have helapsed : ch'.elapsedSincePrevhashSecs env.clock.now =
      ch.elapsedSincePrevhashSecs env.clock.now := by
    rw [elapsedSincePrevhashSecs, elapsedSincePrevhashSecs, h.prevhashSent]
  unfold processShare
  rw [h.workerId, h.maximumTarget, h.activationMinNtime, helapsed]

/-- A standard share and an extended share that spell the same extranonce, on
channels that are otherwise alike, end the same way: the same answer for the
same reason, the same event and the same submission, and with them the same
share and event ids, and the same replay set. -/
theorem pipelines_agree {table : JobTable} {share : SubmitSharesExtended}
    {conn conn' : Connection} {ch ch' : ChannelState} {minSize size : UInt16}
    (hget : conn.channels.get share.channelId = some ch)
    (hget' : conn'.channels.get share.channelId = some ch')
    (halike : ch.Alike env.clock.now ch')
    (hdedup : conn'.shareDedup = conn.shareDedup)
    (hkind' : ch'.kind = .extended minSize size)
    (hsize : (ch'.extranoncePrefix ++ share.extranonce).length = size.toNat)
    (hextranonce : ch'.extranoncePrefix ++ share.extranonce = ch.extranoncePrefix) :
    (Pipeline.handleSubmitSharesExtended env sha cfg table share conn').2 =
      (Pipeline.handleSubmitShares env sha cfg table share.toSubmitSharesStandard
        conn).2 ∧
    (Pipeline.handleSubmitSharesExtended env sha cfg table share
        conn').1.shareDedup =
      (Pipeline.handleSubmitShares env sha cfg table share.toSubmitSharesStandard
        conn).1.shareDedup := by
  have hlen : share.extranonce.length =
      size.toNat - ch'.extranoncePrefix.length := by
    rw [List.length_append] at hsize
    omega
  have hok : extendedExtranonce share.extranonce ch' = .ok ch.extranoncePrefix := by
    rw [extendedExtranonce, hkind']
    dsimp only
    rw [if_neg (not_not.mpr hlen), hextranonce]
  have hresult : shareResult env sha cfg (extendedExtranonce share.extranonce) table
      share.toSubmitSharesStandard conn' =
      shareResult env sha cfg standardExtranonce table
        share.toSubmitSharesStandard conn := by
    unfold shareResult
    rw [hget, hget']
    dsimp only
    rw [halike.acquires, hdedup, hok, standardExtranonce]
    dsimp only
    rw [halike.processShare_eq]
  rw [← handleShare_result, ← handleShare_result] at hresult
  rw [Pipeline.handleSubmitSharesExtended_eq, Pipeline.handleSubmitShares_eq]
  exact Prod.mk.inj hresult

end

/-- A connection with one open channel. -/
def Connection.withChannel (ch : ChannelState) : Connection where
  channels := { channels := AList.singleton ch.channelId ch, maxChannels := 4 }
  shareDedup := { maxEntries := 16 }
  steady := true

theorem pipelines_agree_on_extranonce :
    let share : SubmitSharesExtended :=
      { Session.minedShare with extranonce := [5, 6, 7, 8] }
    let standard := ChannelState.new 0 1 [1, 2, 3, 4, 5, 6, 7, 8] "miner"
      (Bytes32.fill 0xff) 0
    let extended := ChannelState.newExtended 0 1 [1, 2, 3, 4] "miner"
      (Bytes32.fill 0xff) 0 4 8
    let table := (prepareJob Session.wallClock .regtest Session.fresh.feed).1.jobTable
    (Connection.withChannel standard).channels.get 1 = some standard ∧
    (Connection.withChannel extended).channels.get 1 = some extended ∧
    (Pipeline.handleSubmitSharesExtended Session.openQueues sha256 (.permissive 4)
        table share (.withChannel extended)).2 =
      (Pipeline.handleSubmitShares Session.openQueues sha256 (.permissive 4) table
        share.toSubmitSharesStandard (.withChannel standard)).2 := by
  intro share standard extended table
  have halike : standard.Alike Session.openQueues.clock.now extended :=
    ⟨rfl, rfl, rfl, rfl, rfl, rfl⟩
  have hkind : extended.kind = .extended 4 8 := rfl
  have hsize : (extended.extranoncePrefix ++ share.extranonce).length =
      (8 : UInt16).toNat := rfl
  have hget : (Connection.withChannel standard).channels.get share.channelId =
      some standard := rfl
  have hget' : (Connection.withChannel extended).channels.get share.channelId =
      some extended := rfl
  have hdedup : (Connection.withChannel extended).shareDedup =
      (Connection.withChannel standard).shareDedup := rfl
  have hextranonce : extended.extranoncePrefix ++ share.extranonce =
      standard.extranoncePrefix := rfl
  refine ⟨hget, hget', ?_⟩
  exact (pipelines_agree hget hget' halike hdedup hkind hsize hextranonce).1

end ReserveGrid.Gateway
