import ReserveGrid.Gateway.Channels
import ReserveGrid.Gateway.Jobs
import ReserveGrid.Support.Broadcast
import ReserveGrid.Support.Run

/-!
# The connection handler

What a connection handler does with the frames of its miner and with the jobs
that the main loop announces: opening and closing channels, distributing jobs,
and validating shares. A handler writes frames in order; a failure to encode
one ends the connection.
-/

namespace ReserveGrid.Gateway

open Support Bitcoin

/-! ## Data -/

structure HandlerConfig where
  maxChannelsPerConn : UInt32
  channelTarget : Bytes32
  ntimeElapsedSlackSeconds : UInt32
  maxFutureBlockTimeSeconds : UInt32
  shareDedupWindowSize : ℕ
  maxSharesPerSecondPerChannel : UInt32
  gatewayInstanceId : String
  extendedChannelsEnabled : Bool
  extranoncePrefixLen : ℕ
  vardiffEnabled : Bool
  vardiffTargetSharesPerMin : Float
  vardiffRetargetInterval : ℕ
  vardiffMinDifficulty : UInt64
  vardiffMaxDifficulty : UInt64
  vardiffMaxAdjustmentFactor : Float

/-- A configuration under which every hash meets the target and no limit
applies. -/
def HandlerConfig.permissive (extranoncePrefixLen : ℕ) : HandlerConfig where
  maxChannelsPerConn := 4
  channelTarget := Bytes32.fill 0xff
  ntimeElapsedSlackSeconds := 600
  maxFutureBlockTimeSeconds := 7200
  shareDedupWindowSize := 1000
  maxSharesPerSecondPerChannel := 0
  gatewayInstanceId := "gw-1"
  extendedChannelsEnabled := true
  extranoncePrefixLen
  vardiffEnabled := false
  vardiffTargetSharesPerMin := 6.0
  vardiffRetargetInterval := 60 * 10 ^ 9
  vardiffMinDifficulty := 1
  vardiffMaxDifficulty := 1000000
  vardiffMaxAdjustmentFactor := 4.0

/-- The frames that a handler writes. -/
inductive Frame where
  | openStandardSuccess (requestId channelId : UInt32) (target : Bytes32)
      (extranoncePrefix : Bytes)
  | openExtendedSuccess (requestId channelId : UInt32) (target : Bytes32)
      (extranonceSize : UInt16) (extranoncePrefix : Bytes)
  | openError (requestId : UInt32) (errorCode : String)
  | setTarget (channelId : UInt32) (maximumTarget : Bytes32)
  | newMiningJob (channelId jobId : UInt32) (minNtime : Option UInt32)
      (version : UInt32) (merkleRoot : Bytes32)
  | newExtendedMiningJob (channelId jobId : UInt32) (minNtime : Option UInt32)
      (version : UInt32) (merklePath : List Bytes32)
      (coinbaseTxPrefix coinbaseTxSuffix : Bytes)
  | setNewPrevHash (channelId jobId : UInt32) (prevHash : Bytes32)
      (minNtime nbits : UInt32)
  | submitSuccess (channelId lastSequenceNumber : UInt32)
      (newSharesSum : UInt64)
  | submitError (channelId sequenceNumber : UInt32) (errorCode : String)
  | closeChannel (channelId : UInt32) (reasonCode : String)
  deriving DecidableEq

/-- Why a connection ended. -/
inductive HandlerExit where
  | setupRejected (reason : String)
  | transportError
  | shutdown
  | channelOpenTimeout
  | codecError
  deriving DecidableEq, Repr

/-- The state of a handler. It is steady once a first channel is open; before
that it does not receive jobs. `sent` is every frame written so far. -/
structure Connection where
  channels : ConnectionChannels
  shareDedup : ShareDedupSet
  steady : Bool := false
  sent : List Frame := []
  exit : Option HandlerExit := none

/-- The connection as the handler starts. -/
def Connection.start (cfg : HandlerConfig) : Connection where
  channels := { maxChannels := cfg.maxChannelsPerConn }
  shareDedup := { maxEntries := cfg.shareDedupWindowSize }

structure OpenStandardMiningChannel where
  requestId : UInt32
  userIdentity : String

structure OpenExtendedMiningChannel where
  requestId : UInt32
  userIdentity : String
  minExtranonceSize : UInt16

structure SubmitSharesStandard where
  channelId : UInt32
  sequenceNumber : UInt32
  jobId : UInt32
  nonce : UInt32
  ntime : UInt32
  version : UInt32

structure SubmitSharesExtended extends SubmitSharesStandard where
  extranonce : Bytes

/-! ## Jobs on a channel -/

section

variable (sha : Bytes → Bytes32)

/-- The job frame for a channel: a standard channel gets its merkle root, an
extended one the parts to compute it, when they fit their fields. -/
def jobFrame (job : JobBroadcast) (ch : ChannelState) : Option Frame :=
  match ch.kind with
  | .standard =>
      some (.newMiningJob ch.channelId job.jobId job.minNtime job.version
        (computeMerkleRoot sha job.coinbaseTxPrefix ch.extranoncePrefix
          job.coinbaseTxSuffix job.merklePath))
  | .extended _ _ =>
      if job.merklePath.length ≤ 255 ∧ job.coinbaseTxPrefix.length ≤ 65535 ∧
          job.coinbaseTxSuffix.length ≤ 65535 then
        some (.newExtendedMiningJob ch.channelId job.jobId job.minNtime
          job.version job.merklePath job.coinbaseTxPrefix job.coinbaseTxSuffix)
      else none

/-- The frame that follows a job with a new previous hash. -/
def prevhashFrames (job : JobBroadcast) (ch : ChannelState) : List Frame :=
  match job.prevhashUpdate with
  | some ph =>
      [.setNewPrevHash ch.channelId job.jobId ph.prevHash ph.minNtime ph.nbits]
  | none => []

/-- What the channel remembers of a job sent on it. -/
def noteJob (now : ℕ) (job : JobBroadcast) (ch : ChannelState) : ChannelState :=
  match job.prevhashUpdate with
  | some ph =>
      (ch.recordPrevhashSent now job.jobId ph.minNtime).recordActiveJobSent
        job.jobId
  | none => ch.recordActiveJobSent job.jobId

/-- Send a job on a channel: the job, then the previous hash if it changed. -/
def sendJob (now : ℕ) (job : JobBroadcast) (ch : ChannelState)
    (conn : Connection) : Connection :=
  match jobFrame sha job ch with
  | none => { conn with exit := some .codecError }
  | some frame =>
      { conn with
        sent := conn.sent ++ frame :: prevhashFrames job ch
        channels := conn.channels.modify ch.channelId (noteJob now job) }

/-- Send a job on the channels in turn, until the connection ends. -/
def distributeJob (now : ℕ) (job : JobBroadcast) :
    List UInt32 → Connection → Connection
  | [], conn => conn
  | id :: ids, conn =>
      match conn.channels.get id with
      | none => distributeJob now job ids conn
      | some ch =>
          let conn := sendJob sha now job ch conn
          if conn.exit.isSome then conn else distributeJob now job ids conn

end

/-- The variable difficulty of a new channel. -/
def initialVardiff (cfg : HandlerConfig) (now : ℕ) : VardiffState where
  retargetStart := now
  currentDifficulty := targetToDifficultyU64 cfg.channelTarget
  targetSharesPerMin := cfg.vardiffTargetSharesPerMin
  retargetInterval := cfg.vardiffRetargetInterval
  minDifficulty := cfg.vardiffMinDifficulty
  maxDifficulty := cfg.vardiffMaxDifficulty
  maxAdjustmentFactor := cfg.vardiffMaxAdjustmentFactor

/-- Answer an open channel: success, target, and the latest job if there is
one. -/
def Connection.startChannel (sha : Bytes → Bytes32) (cfg : HandlerConfig)
    (clock : Clock) (latest : Option JobBroadcast) (ch : ChannelState)
    (success : Frame) (channels : ConnectionChannels) (conn : Connection) :
    Connection :=
  let channels :=
    if cfg.vardiffEnabled then
      channels.modify ch.channelId fun ch =>
        { ch with vardiff := some (initialVardiff cfg clock.now) }
    else channels
  let conn := { conn with
    channels
    steady := true
    sent := conn.sent ++ [success, .setTarget ch.channelId cfg.channelTarget] }
  match latest with
  | none => conn
  | some job => sendJob sha clock.now job ch conn

/-! ## Opening and closing channels -/

/-- What all connections and the main loop share, with one connection of
interest. -/
structure GatewayState where
  feed : JobFeed
  channelIdAlloc : ChannelIdAllocator := {}
  extranonceAlloc : ExtranonceAllocator
  conn : Connection

namespace GatewayState

/-- Refuse to open a channel, which ends the connection. -/
def refuseOpen (requestId : UInt32) (why : String) (s : GatewayState) :
    GatewayState :=
  { s with conn := { s.conn with
      sent := s.conn.sent ++ [.openError requestId "max-target-out-of-range"]
      exit := some (.setupRejected why) } }

/-- Open a channel of either kind: allocate its id and extranonce prefix,
register it, answer. Every refusal ends the connection. -/
def openWith (sha : Bytes → Bytes32) (cfg : HandlerConfig) (clock : Clock)
    (requestId : UInt32) (build : UInt32 → Bytes → ChannelState)
    (success : UInt32 → Bytes → Frame) (s : GatewayState) : GatewayState :=
  match s.channelIdAlloc.allocate with
  | (none, channelIdAlloc) =>
      refuseOpen requestId "channel_id allocator exhausted"
        { s with channelIdAlloc }
  | (some channelId, channelIdAlloc) =>
      match s.extranonceAlloc.allocate with
      | (none, extranonceAlloc) =>
          refuseOpen requestId "extranonce allocator exhausted"
            { s with channelIdAlloc, extranonceAlloc }
      | (some extranonce, extranonceAlloc) =>
          let s := { s with channelIdAlloc, extranonceAlloc }
          let ch := build channelId extranonce
          match s.conn.channels.openChannel ch with
          | .error reason =>
              s.refuseOpen requestId
                ("channel registration failed: " ++ reason.asStr)
          | .ok channels =>
              let conn := s.conn.startChannel sha cfg clock s.feed.latestJob ch
                (success channelId extranonce) channels
              { s with conn }

def handleOpenStandardChannel (sha : Bytes → Bytes32) (cfg : HandlerConfig)
    (clock : Clock) (req : OpenStandardMiningChannel) (s : GatewayState) :
    GatewayState :=
  s.openWith sha cfg clock req.requestId
    (fun channelId extranonce =>
      .new clock.now channelId extranonce req.userIdentity cfg.channelTarget
        cfg.maxSharesPerSecondPerChannel)
    (fun channelId extranonce =>
      .openStandardSuccess req.requestId channelId cfg.channelTarget extranonce)

/-- The size of the whole extranonce of an extended channel: the prefix and at
least four bytes of the miner's. -/
def grantedSize (cfg : HandlerConfig) (minExtranonceSize : UInt16) : UInt16 :=
  UInt16.ofNat (cfg.extranoncePrefixLen + max minExtranonceSize.toNat 4)

/-- Open an extended channel, when they are enabled and the requested size is
from two to eight. -/
def handleOpenExtendedChannel (sha : Bytes → Bytes32) (cfg : HandlerConfig)
    (clock : Clock) (req : OpenExtendedMiningChannel) (s : GatewayState) :
    GatewayState :=
  if !cfg.extendedChannelsEnabled then
    { s with conn := { s.conn with
        sent := s.conn.sent ++ [.closeChannel 0 "extended_channel_unsupported"]
        exit := some (.setupRejected "extended channels not supported") } }
  else if req.minExtranonceSize < 2 || 8 < req.minExtranonceSize then
    s.refuseOpen req.requestId "min_extranonce_size out of range"
  else
    s.openWith sha cfg clock req.requestId
      (fun channelId extranonce =>
        .newExtended clock.now channelId extranonce req.userIdentity
          cfg.channelTarget cfg.maxSharesPerSecondPerChannel
          req.minExtranonceSize (grantedSize cfg req.minExtranonceSize))
      (fun channelId extranonce =>
        .openExtendedSuccess req.requestId channelId cfg.channelTarget
          (grantedSize cfg req.minExtranonceSize) extranonce)

end GatewayState

/-- Close a channel at the miner's request. A connection without channels
ends. -/
def handleCloseChannel (channelId : UInt32) (conn : Connection) : Connection :=
  let channels := conn.channels.closeChannel channelId
  { conn with
    channels
    exit := if channels.openCount = 0 then some .shutdown else conn.exit }

/-! ## Shares -/

/-- What a share meets at the gateway when it is submitted: the clocks, room in
the queue to the relay, room in the queue of accounting events, and the signing
of submissions. -/
structure SubmitEnv where
  clock : Clock
  forwardRoom : Bool
  eventRoom : Bool
  sign : ShareSubmission → ShareSubmission

/-- How a share was answered, and what was queued for it. -/
structure ShareOutcome where
  reply : Except GatewayReason UInt64
  event : Option ShareAcceptedEvent
  submission : Option ShareSubmission := none

section

variable (env : SubmitEnv)

/-- The event is dropped when its queue is full. -/
def enqueueShareEvent (event : ShareAcceptedEvent) :
    Option ShareAcceptedEvent :=
  if env.eventRoom then some event else none

/-- Refuse a share before its header is known. -/
def refuseShare (reason : GatewayReason) (share : SubmitSharesStandard) :
    ShareOutcome where
  reply := .error reason
  event := enqueueShareEvent env (.sentinel env.clock.unixMs reason
    share.channelId share.sequenceNumber share.jobId)

/-- The event of a share whose header is known. -/
def shareEvent (shareId eventId : Bytes32) (workerId : String)
    (blockHeight : UInt32) (reply : Except GatewayReason UInt64)
    (share : SubmitSharesStandard) : ShareAcceptedEvent where
  eventType := "share_accepted"
  shareIdHex := hexEncode shareId.toBytes
  eventIdHex := hexEncode eventId.toBytes
  sv2Response := match reply with
    | .ok _ => "success"
    | .error _ => "error"
  reasonCode := match reply with
    | .ok _ => none
    | .error reason => some reason.asStr
  reasonDetail := match reply with
    | .ok _ => none
    | .error reason => some reason.asStr
  workerId
  channelId := share.channelId
  sequenceNumber := share.sequenceNumber
  jobId := share.jobId
  blockHeight
  timestampMs := env.clock.unixMs
  difficultyU64 := match reply with
    | .ok difficulty => difficulty
    | .error _ => 0

variable (sha : Bytes → Bytes32) (cfg : HandlerConfig)

/-- Validate a share whose channel and extranonce are known, against its job.
The share id is noted as seen before the submission is queued. -/
def processShare (table : JobTable) (ch : ChannelState) (extranonce : Bytes)
    (share : SubmitSharesStandard) (dedup : ShareDedupSet) :
    ShareOutcome × ShareDedupSet :=
  match table.get share.jobId with
  | none => (refuseShare env .shareInvalidJobId share, dedup)
  | some job =>
      if !checkVersionBits share.version job.version then
        (refuseShare env .versionBitViolation share, dedup)
      else if !checkNtimeBounds share.ntime
          (ch.activationMinNtime.getD job.activationMinNtime)
          ((ch.elapsedSincePrevhashSecs env.clock.now).getD 0)
          cfg.ntimeElapsedSlackSeconds cfg.maxFutureBlockTimeSeconds
          env.clock.nowUnix then
        (refuseShare env .ntimeOutOfRange share, dedup)
      else
        let merkleRoot := computeMerkleRoot sha job.coinbaseTxPrefix extranonce
          job.coinbaseTxSuffix job.merklePath
        let headerBytes := headerIdentityBytes share.version job.prevHash
          merkleRoot share.ntime job.nbits share.nonce
        let shareId := computeShareId sha headerBytes
        let eventId := computeEventId sha shareId ch.workerId "full"
        let answer (reply : Except GatewayReason UInt64)
            (submission : Option ShareSubmission) : ShareOutcome :=
          { reply
            event := enqueueShareEvent env
              (shareEvent env shareId eventId ch.workerId job.blockHeight reply
                share)
            submission }
        if !validateSharePow sha headerBytes ch.maximumTarget then
          (answer (.error .shareDifficultyBelowTarget) none, dedup)
        else if (dedup.checkAndInsert shareId).1 then
          (answer (.error .shareReplayDetected) none,
            (dedup.checkAndInsert shareId).2)
        else
          let difficulty := targetToDifficultyU64 ch.maximumTarget
          let submission : ShareSubmission := {
            shareIdHex := hexEncode shareId.toBytes
            version := share.version
            prevHashWireHex := hexEncode job.prevHash.toBytes
            prevHashDisplayHex := hexEncode job.prevHash.reverse.toBytes
            merkleRootWireHex := hexEncode merkleRoot.toBytes
            merkleRootDisplayHex := hexEncode merkleRoot.reverse.toBytes
            ntime := share.ntime
            nbits := job.nbits
            nonce := share.nonce
            eventIdHex := hexEncode eventId.toBytes
            workerId := ch.workerId
            validationLevel := "full"
            gatewayInstanceId := cfg.gatewayInstanceId
            channelId := share.channelId
            sequenceNumber := share.sequenceNumber
            jobId := share.jobId
            templateId := job.templateId
            blockHeight := job.blockHeight
            poolAccountId := none
            timestampMs := env.clock.unixMs
            difficultyU64 := difficulty
            difficultyDisplay := difficulty.toFloat
            sourceInstanceId := job.sourceInstanceId
            gatewaySignatureHex := "" }
          if env.forwardRoom then
            (answer (.ok difficulty) (some (env.sign submission)),
              (dedup.checkAndInsert shareId).2)
          else
            (answer (.error .shareDroppedQueueFull) none,
              (dedup.checkAndInsert shareId).2)

/-- After an accepted share, adjust the difficulty of its channel when due. -/
def maybeRetarget (now : ℕ) (channelId : UInt32) (conn : Connection) :
    Connection :=
  match (conn.channels.get channelId).bind (·.vardiff) with
  | none => conn
  | some vd =>
      let counted := vd.recordShare now
      let evaluated :=
        if counted.1 then counted.2.evaluateRetarget now else (none, counted.2)
      match evaluated.1 with
      | none =>
          { conn with channels := conn.channels.modify channelId fun ch =>
              { ch with vardiff := some evaluated.2 } }
      | some newDiff =>
          { conn with
            channels := conn.channels.modify channelId fun ch =>
              { ch with
                vardiff := some evaluated.2
                maximumTarget := difficultyToTarget newDiff }
            sent := conn.sent ++
              [.setTarget channelId (difficultyToTarget newDiff)] }

/-- The answer to a share on the wire. Every reason a share is refused for has
an error code. -/
def replyFrame (share : SubmitSharesStandard) (outcome : ShareOutcome) : Frame :=
  match outcome.reply with
  | .ok difficulty =>
      .submitSuccess share.channelId share.sequenceNumber difficulty
  | .error reason =>
      .submitError share.channelId share.sequenceNumber
        (reason.toSv2ErrorCode.getD "")

/-- Handle a share: find its channel, apply the rate limit, find the extranonce
it was mined with, and validate it. A share without the right extranonce is
refused without an event. -/
def handleShare (extranonceOf : ChannelState → Except GatewayReason Bytes)
    (table : JobTable) (share : SubmitSharesStandard) (conn : Connection) :
    Connection × ShareOutcome :=
  match conn.channels.get share.channelId with
  | none =>
      let outcome := refuseShare env .invalidChannelId share
      ({ conn with sent := conn.sent ++ [replyFrame share outcome] }, outcome)
  | some ch =>
      let acquired := ch.rateLimiter.tryAcquire env.clock.now
      let conn := { conn with
        channels := conn.channels.modify share.channelId fun ch =>
          { ch with rateLimiter := acquired.2 } }
      if !acquired.1 then
        let outcome := refuseShare env .shareRateLimited share
        ({ conn with sent := conn.sent ++ [replyFrame share outcome] }, outcome)
      else match extranonceOf ch with
        | .error reason =>
            let outcome : ShareOutcome := { reply := .error reason, event := none }
            ({ conn with sent := conn.sent ++ [replyFrame share outcome] },
              outcome)
        | .ok extranonce =>
            let processed := processShare env sha cfg table ch extranonce share
              conn.shareDedup
            let conn := { conn with
              shareDedup := processed.2
              sent := conn.sent ++ [replyFrame share processed.1] }
            match processed.1.reply with
            | .ok _ =>
                (maybeRetarget env.clock.now share.channelId conn, processed.1)
            | .error _ => (conn, processed.1)

/-- How a share ends, and the replay set it leaves. -/
def shareResult (extranonceOf : ChannelState → Except GatewayReason Bytes)
    (table : JobTable) (share : SubmitSharesStandard) (conn : Connection) :
    ShareOutcome × ShareDedupSet :=
  match conn.channels.get share.channelId with
  | none => (refuseShare env .invalidChannelId share, conn.shareDedup)
  | some ch =>
      if !(ch.rateLimiter.tryAcquire env.clock.now).1 then
        (refuseShare env .shareRateLimited share, conn.shareDedup)
      else match extranonceOf ch with
        | .error reason =>
            ({ reply := .error reason, event := none }, conn.shareDedup)
        | .ok extranonce =>
            processShare env sha cfg table ch extranonce share conn.shareDedup

/-- The extranonce of a standard share is the channel's prefix, whatever the
kind of the channel. -/
def standardExtranonce (ch : ChannelState) : Except GatewayReason Bytes :=
  .ok ch.extranoncePrefix

/-- The extranonce of an extended share: the channel's prefix and the miner's
part, which has the size granted to the channel. -/
def extendedExtranonce (extranonce : Bytes) (ch : ChannelState) :
    Except GatewayReason Bytes :=
  match ch.kind with
  | .standard => .error .invalidChannelId
  | .extended _ extranonceSize =>
      if extranonce.length ≠ extranonceSize.toNat - ch.extranoncePrefix.length
      then .error .shareInvalidNonce
      else .ok (ch.extranoncePrefix ++ extranonce)

def handleSubmitShares (table : JobTable) (share : SubmitSharesStandard)
    (conn : Connection) : Connection × ShareOutcome :=
  handleShare env sha cfg standardExtranonce table share conn

def handleSubmitSharesExtended (table : JobTable) (share : SubmitSharesExtended)
    (conn : Connection) : Connection × ShareOutcome :=
  handleShare env sha cfg (extendedExtranonce share.extranonce) table
    share.toSubmitSharesStandard conn

end

/-! ## What the handler leaves alone -/

theorem noteJob_same (now : ℕ) (job : JobBroadcast) (ch : ChannelState) :
    ch.Same (noteJob now job ch) := by
  unfold noteJob
  split
  · exact ⟨rfl, rfl, rfl⟩
  · exact ⟨rfl, rfl, rfl⟩

theorem noteJob_closed (now : ℕ) (job : JobBroadcast) (ch : ChannelState) :
    (noteJob now job ch).closed = ch.closed := by
  unfold noteJob
  split
  · rfl
  · rfl

section

variable {sha : Bytes → Bytes32} {cfg : HandlerConfig} {env : SubmitEnv}

section

variable {P : ChannelState → ChannelState → Prop}

/-- Sending a job updates its channel by noting the job. -/
theorem sendJob_updates_of {now : ℕ} {job : JobBroadcast}
    (hnote : ∀ ch, P ch (noteJob now job ch)) (sha : Bytes → Bytes32)
    (ch : ChannelState) (conn : Connection) :
    conn.channels.Updates P (sendJob sha now job ch conn).channels := by
  unfold sendJob
  split
  · exact .refl
  · exact .modify .refl ch.channelId hnote

theorem distributeJob_updates_of {now : ℕ} {job : JobBroadcast}
    (hnote : ∀ ch, P ch (noteJob now job ch)) (sha : Bytes → Bytes32)
    (ids : List UInt32) (conn : Connection) :
    conn.channels.Updates P (distributeJob sha now job ids conn).channels := by
  induction ids generalizing conn with
  | nil => exact .refl
  | cons id ids ih =>
      unfold distributeJob
      split
      · exact ih conn
      · rename_i ch _
        have hsend := sendJob_updates_of hnote sha ch conn
        dsimp only
        split
        · exact hsend
        · exact hsend.trans (ih _)

/-- Answering an open request sets the variable difficulty of the channel and
notes the latest job on it. -/
theorem startChannel_updates_of {clock : Clock}
    (hnote : ∀ job ch, P ch (noteJob clock.now job ch))
    (hvardiff : ∀ (vd : VardiffState) (ch : ChannelState),
      P ch { ch with vardiff := some vd })
    (sha : Bytes → Bytes32) (cfg : HandlerConfig) (latest : Option JobBroadcast)
    (ch : ChannelState) (success : Frame) (channels : ConnectionChannels)
    (conn : Connection) :
    channels.Updates P (conn.startChannel sha cfg clock latest ch success
      channels).channels := by
  have hset : channels.Updates P (if cfg.vardiffEnabled then
      channels.modify ch.channelId fun ch =>
        { ch with vardiff := some (initialVardiff cfg clock.now) }
      else channels) := by
    split
    · exact .modify .refl ch.channelId (hvardiff _)
    · exact .refl
  unfold Connection.startChannel
  dsimp only
  split
  · exact hset
  · exact hset.trans (sendJob_updates_of (hnote _) sha ch
      { conn with channels := _, steady := true, sent := _ })

end

theorem sendJob_updates (sha : Bytes → Bytes32) (now : ℕ) (job : JobBroadcast)
    (ch : ChannelState) (conn : Connection) :
    conn.channels.Updates ChannelState.Same (sendJob sha now job ch conn).channels :=
  sendJob_updates_of (noteJob_same now job) sha ch conn

theorem distributeJob_updates (sha : Bytes → Bytes32) (now : ℕ)
    (job : JobBroadcast) (ids : List UInt32) (conn : Connection) :
    conn.channels.Updates ChannelState.Same
      (distributeJob sha now job ids conn).channels :=
  distributeJob_updates_of (noteJob_same now job) sha ids conn

theorem distributeJob_keeps (now : ℕ) (job : JobBroadcast) (ids : List UInt32)
    (conn : Connection) :
    conn.channels.Keeps (distributeJob sha now job ids conn).channels :=
  (distributeJob_updates sha now job ids conn).keeps

theorem startChannel_updates (sha : Bytes → Bytes32) (cfg : HandlerConfig)
    (clock : Clock) (latest : Option JobBroadcast) (ch : ChannelState)
    (success : Frame) (channels : ConnectionChannels) (conn : Connection) :
    channels.Updates ChannelState.Same (conn.startChannel sha cfg clock latest ch
      success channels).channels :=
  startChannel_updates_of (fun job => noteJob_same clock.now job)
    (fun _ _ => ⟨rfl, rfl, rfl⟩) sha cfg latest ch success channels conn

theorem startChannel_keeps (sha : Bytes → Bytes32) (cfg : HandlerConfig)
    (clock : Clock) (latest : Option JobBroadcast) (ch : ChannelState)
    (success : Frame) (channels : ConnectionChannels) (conn : Connection) :
    channels.Keeps (conn.startChannel sha cfg clock latest ch success
      channels).channels :=
  (startChannel_updates sha cfg clock latest ch success channels conn).keeps

/-- An open request ends the connection, or a channel built with an extranonce
prefix of the configured length is opened and answered. -/
theorem openWith_cases (sha : Bytes → Bytes32) (cfg : HandlerConfig)
    (clock : Clock) (requestId : UInt32) (build : UInt32 → Bytes → ChannelState)
    (success : UInt32 → Bytes → Frame) (s : GatewayState) :
    (s.openWith sha cfg clock requestId build success).feed = s.feed ∧
    (s.openWith sha cfg clock requestId build success).extranonceAlloc.prefixLen =
      s.extranonceAlloc.prefixLen ∧
    ((s.openWith sha cfg clock requestId build success).conn.exit ≠ none ∨
      ∃ channelId extranonce channels,
        extranonce.length = s.extranonceAlloc.prefixLen ∧
        s.conn.channels.openChannel (build channelId extranonce) = .ok channels ∧
        (s.openWith sha cfg clock requestId build success).conn =
          s.conn.startChannel sha cfg clock s.feed.latestJob
            (build channelId extranonce) (success channelId extranonce)
            channels) := by
  unfold GatewayState.openWith
  split
  · exact ⟨rfl, rfl, Or.inl (by simp [GatewayState.refuseOpen])⟩
  · rename_i channelId channelIdAlloc _
    split
    · rename_i extranonceAlloc halloc
      have hlen : extranonceAlloc.prefixLen = s.extranonceAlloc.prefixLen := by
        rw [← s.extranonceAlloc.prefixLen_allocate, halloc]
      exact ⟨rfl, hlen, Or.inl (by simp [GatewayState.refuseOpen])⟩
    · rename_i extranonce extranonceAlloc halloc
      have hlen : extranonceAlloc.prefixLen = s.extranonceAlloc.prefixLen := by
        rw [← s.extranonceAlloc.prefixLen_allocate, halloc]
      dsimp only
      split
      · exact ⟨rfl, hlen, Or.inl (by simp [GatewayState.refuseOpen])⟩
      · rename_i channels hopen
        exact ⟨rfl, hlen, Or.inr ⟨channelId, extranonce, channels,
          ExtranonceAllocator.length_of_allocate halloc, hopen, rfl⟩⟩

/-- A request for an extended channel only ends the connection, or has a size of
at most eight and opens the channel. -/
theorem handleOpenExtendedChannel_cases (sha : Bytes → Bytes32) (cfg : HandlerConfig)
    (clock : Clock) (req : OpenExtendedMiningChannel) (s : GatewayState) :
    (∃ conn, conn.exit ≠ none ∧
      s.handleOpenExtendedChannel sha cfg clock req = { s with conn }) ∨
    (req.minExtranonceSize.toNat ≤ 8 ∧
      s.handleOpenExtendedChannel sha cfg clock req =
        s.openWith sha cfg clock req.requestId
          (fun channelId extranonce =>
            .newExtended clock.now channelId extranonce req.userIdentity
              cfg.channelTarget cfg.maxSharesPerSecondPerChannel
              req.minExtranonceSize
              (GatewayState.grantedSize cfg req.minExtranonceSize))
          (fun channelId extranonce =>
            .openExtendedSuccess req.requestId channelId cfg.channelTarget
              (GatewayState.grantedSize cfg req.minExtranonceSize) extranonce)) := by
  unfold GatewayState.handleOpenExtendedChannel
  split
  · exact Or.inl ⟨_, Option.some_ne_none _, rfl⟩
  · split
    · exact Or.inl ⟨_, Option.some_ne_none _, rfl⟩
    · rename_i hrange
      rw [Bool.or_eq_true, decide_eq_true_eq, decide_eq_true_eq, not_or] at hrange
      have hsize := UInt16.le_iff_toNat_le.mp (UInt16.not_lt.mp hrange.2)
      exact Or.inr ⟨hsize, rfl⟩

theorem handleCloseChannel_updates (channelId : UInt32) (conn : Connection) :
    conn.channels.Updates ChannelState.Same (handleCloseChannel channelId conn).channels :=
  .modify .refl channelId fun _ => ⟨rfl, rfl, rfl⟩

theorem handleCloseChannel_keeps (channelId : UInt32) (conn : Connection) :
    conn.channels.Keeps (handleCloseChannel channelId conn).channels :=
  (handleCloseChannel_updates channelId conn).keeps

/-- Frames that carry neither a job nor a previous hash. -/
def Frame.isAnswer : Frame → Bool
  | .newMiningJob .. | .newExtendedMiningJob .. | .setNewPrevHash .. => false
  | _ => true

/-- The connection goes on, its channels keep their identity, and no job was
sent. -/
structure Connection.Answers (conn conn' : Connection) : Prop where
  channels : conn.channels.Keeps conn'.channels
  exit : conn'.exit = conn.exit
  sent : ∃ frames, conn'.sent = conn.sent ++ frames ∧
    ∀ f ∈ frames, f.isAnswer = true

theorem replyFrame_isAnswer (share : SubmitSharesStandard)
    (outcome : ShareOutcome) :
    (replyFrame share outcome).isAnswer = true := by
  unfold replyFrame
  split
  · rfl
  · rfl

/-- Frames that set a target. -/
def Frame.isSetTarget : Frame → Bool
  | .setTarget .. => true
  | _ => false

theorem Frame.isAnswer_of_isSetTarget {f : Frame} (h : f.isSetTarget = true) :
    f.isAnswer = true := by
  unfold isSetTarget at h
  split at h
  · rfl
  · cases h

/-- A retarget changes the difficulty of the channel at most, and tells the
miner when it does. -/
theorem maybeRetarget_eq (now : ℕ) (channelId : UInt32) (conn : Connection) :
    ∃ channels targets, maybeRetarget now channelId conn =
        { conn with channels, sent := conn.sent ++ targets } ∧
      conn.channels.Updates ChannelState.Retunes channels ∧
      ∀ f ∈ targets, f.isSetTarget = true := by
  unfold maybeRetarget
  split
  · refine ⟨conn.channels, [], ?_, .refl, by simp⟩
    rw [List.append_nil]
  · dsimp only
    split
    · refine ⟨_, [], by rw [List.append_nil], ?_, by simp⟩
      exact .modify .refl channelId fun _ => ⟨rfl⟩
    · refine ⟨_, _, rfl, ?_, by simp [Frame.isSetTarget]⟩
      exact .modify .refl channelId fun _ => ⟨rfl⟩

section

variable (extranonceOf : ChannelState → Except GatewayReason Bytes)
  (table : JobTable) (share : SubmitSharesStandard) (conn : Connection)

variable (sha cfg env) in
/-- A share leaves the replay set of its result and is answered with it, and
after that at most with targets. Only the limits of channels are set anew. -/
theorem handleShare_eq :
    ∃ channels targets, handleShare env sha cfg extranonceOf table share conn =
        ({ conn with
            channels
            shareDedup := (shareResult env sha cfg extranonceOf table share conn).2
            sent := conn.sent ++ replyFrame share
              (shareResult env sha cfg extranonceOf table share conn).1 :: targets },
          (shareResult env sha cfg extranonceOf table share conn).1) ∧
      conn.channels.Updates ChannelState.Retunes channels ∧
      ∀ f ∈ targets, f.isSetTarget = true := by
  unfold handleShare shareResult
  cases hget : conn.channels.get share.channelId with
  | none => exact ⟨conn.channels, [], rfl, .refl, by simp⟩
  | some ch =>
      dsimp only
      have hupdates : conn.channels.Updates ChannelState.Retunes
          (conn.channels.modify share.channelId fun c => { c with
            rateLimiter := (ch.rateLimiter.tryAcquire env.clock.now).2 }) :=
        .modify .refl share.channelId fun _ => ⟨rfl⟩
      by_cases hacquired : (!(ch.rateLimiter.tryAcquire env.clock.now).1) = true
      · rw [if_pos hacquired, if_pos hacquired]
        exact ⟨_, [], rfl, hupdates, by simp⟩
      rw [if_neg hacquired, if_neg hacquired]
      cases hextranonce : extranonceOf ch with
      | error reason => exact ⟨_, [], rfl, hupdates, by simp⟩
      | ok extranonce =>
          dsimp only
          split
          · obtain ⟨channels, targets, heq, hupdates', htargets⟩ :=
              maybeRetarget_eq env.clock.now share.channelId { conn with
                channels := conn.channels.modify share.channelId fun c =>
                  { c with
                    rateLimiter := (ch.rateLimiter.tryAcquire env.clock.now).2 }
                shareDedup := (processShare env sha cfg table ch extranonce share
                  conn.shareDedup).2
                sent := conn.sent ++ [replyFrame share (processShare env sha cfg
                  table ch extranonce share conn.shareDedup).1] }
            refine ⟨channels, targets, ?_, hupdates.trans hupdates', htargets⟩
            rw [heq, List.append_assoc]
            rfl
          · exact ⟨_, [], rfl, hupdates, by simp⟩

/-- A share is answered, and nothing else is sent but a new target. -/
theorem handleShare_answers :
    conn.Answers
      (handleShare env sha cfg extranonceOf table share conn).1 := by
  obtain ⟨channels, targets, heq, hupdates, htargets⟩ :=
    handleShare_eq sha cfg env extranonceOf table share conn
  rw [heq]
  refine ⟨(hupdates.mono fun _ _ h => h.same).keeps, rfl, _, rfl, ?_⟩
  intro f hf
  rcases List.mem_cons.mp hf with rfl | hf
  · exact replyFrame_isAnswer _ _
  · exact Frame.isAnswer_of_isSetTarget (htargets f hf)

theorem handleShare_updates :
    conn.channels.Updates ChannelState.Retunes
      (handleShare env sha cfg extranonceOf table share conn).1.channels := by
  obtain ⟨channels, targets, heq, hupdates, -⟩ :=
    handleShare_eq sha cfg env extranonceOf table share conn
  rw [heq]
  exact hupdates

theorem handleShare_result :
    ((handleShare env sha cfg extranonceOf table share conn).2,
      (handleShare env sha cfg extranonceOf table share conn).1.shareDedup) =
      shareResult env sha cfg extranonceOf table share conn := by
  obtain ⟨channels, targets, heq, -, -⟩ :=
    handleShare_eq sha cfg env extranonceOf table share conn
  rw [heq]

variable (sha cfg env) in
/-- A share is answered with its reply, and after it at most with targets. -/
theorem handleShare_sent :
    ∃ targets, (handleShare env sha cfg extranonceOf table share conn).1.sent =
        conn.sent ++ replyFrame share
          (handleShare env sha cfg extranonceOf table share conn).2 :: targets ∧
      ∀ f ∈ targets, f.isSetTarget = true := by
  obtain ⟨channels, targets, heq, -, htargets⟩ :=
    handleShare_eq sha cfg env extranonceOf table share conn
  rw [heq]
  exact ⟨targets, rfl, htargets⟩

end

theorem handleShare_outcome
    {extranonceOf : ChannelState → Except GatewayReason Bytes}
    {table : JobTable} {share : SubmitSharesStandard} {conn : Connection} :
    (handleShare env sha cfg extranonceOf table share conn).2 =
      (shareResult env sha cfg extranonceOf table share conn).1 :=
  congrArg Prod.fst (handleShare_result extranonceOf table share conn)

/-- A share that gets as far is validated against its job. -/
theorem handleShare_processed
    {extranonceOf : ChannelState → Except GatewayReason Bytes}
    {table : JobTable} {share : SubmitSharesStandard} {conn : Connection}
    {ch : ChannelState} {extranonce : Bytes}
    (hget : conn.channels.get share.channelId = some ch)
    (hacquired : (ch.rateLimiter.tryAcquire env.clock.now).1 = true)
    (hextranonce : extranonceOf ch = .ok extranonce) :
    (handleShare env sha cfg extranonceOf table share conn).2 =
      (processShare env sha cfg table ch extranonce share conn.shareDedup).1 := by
  rw [handleShare_outcome, shareResult, hget]
  dsimp only
  rw [hacquired, hextranonce]
  rfl

/-- An accepted share was processed against its job, on its channel, with the
extranonce found for it. -/
theorem handleShare_eq_ok
    {extranonceOf : ChannelState → Except GatewayReason Bytes}
    {table : JobTable} {share : SubmitSharesStandard} {conn : Connection}
    {difficulty : UInt64}
    (h : (handleShare env sha cfg extranonceOf table share conn).2.reply =
      .ok difficulty) :
    ∃ ch extranonce, conn.channels.get share.channelId = some ch ∧
      extranonceOf ch = .ok extranonce ∧
      (handleShare env sha cfg extranonceOf table share conn).2 =
        (processShare env sha cfg table ch extranonce share
          conn.shareDedup).1 := by
  rw [handleShare_outcome] at h ⊢
  unfold shareResult at h ⊢
  split at h
  · cases h
  · rename_i ch hget
    split at h
    · cases h
    · rename_i hacquired
      split at h
      · cases h
      · rename_i extranonce hextranonce
        refine ⟨ch, extranonce, hget, hextranonce, ?_⟩
        rw [if_neg hacquired]

/-- The coinbase hashed for an accepted share is in the merkle root of its
submission. -/
theorem processShare_eq_ok {table : JobTable} {ch : ChannelState}
    {extranonce : Bytes} {share : SubmitSharesStandard} {dedup : ShareDedupSet}
    {difficulty : UInt64}
    (h : (processShare env sha cfg table ch extranonce share dedup).1.reply =
      .ok difficulty) :
    ∃ job submission, table.get share.jobId = some job ∧
      (processShare env sha cfg table ch extranonce share dedup).1.submission =
        some (env.sign submission) ∧
      submission.merkleRootWireHex = hexEncode (computeMerkleRoot sha
        job.coinbaseTxPrefix extranonce job.coinbaseTxSuffix
        job.merklePath).toBytes := by
  unfold processShare at h ⊢
  split at h
  · cases h
  · rename_i job hjob
    split at h
    · cases h
    · rename_i hversion
      split at h
      · cases h
      · rename_i hntime
        dsimp only at h ⊢
        split at h
        · cases h
        · rename_i hpow
          split at h
          · cases h
          · rename_i hreplay
            split at h
            · rename_i hroom
              rw [if_neg hversion, if_neg hntime, if_neg hpow, if_neg hreplay,
                if_pos hroom]
              exact ⟨job, _, hjob, rfl, rfl⟩
            · cases h

end

end ReserveGrid.Gateway
