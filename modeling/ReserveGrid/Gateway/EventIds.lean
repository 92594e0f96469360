import ReserveGrid.Gateway.ChannelRegistry
import ReserveGrid.Gateway.ShareSignature
import ReserveGrid.Gateway.Sv2RoundTrip

/-!
# Event ids

The event id of a share is the hash of its share id, its worker and its
validation level, the two texts with their lengths in two bytes in front. For
texts that the wire admits as a worker identity this is an encoding: it is read
back by a codec, so no two attributions have the same bytes. A worker's identity
comes off the wire with the request that opened the channel, so accepted shares
with different attribution have different event ids unless the hash collides.
-/

namespace ReserveGrid.Gateway

open Support Bitcoin

/-! ## The bytes that are hashed -/

/-- What `computeEventId` hashes. -/
def eventIdBytes (shareId : Bytes32) (workerId validationLevel : String) : Bytes :=
  shareId.toBytes ++ (lengthPrefixed workerId ++ lengthPrefixed validationLevel)

theorem computeEventId_eq (sha : Bytes → Bytes32) (shareId : Bytes32)
    (workerId validationLevel : String) :
    computeEventId sha shareId workerId validationLevel =
      sha (eventIdBytes shareId workerId validationLevel) := rfl

/-- A share id and two texts of at most 65535 bytes. -/
def eventIdCodec : Codec (Bytes32 × String × String) :=
  .pair .bytes32 (.pair Sv2.b064k.text Sv2.b064k.text)

/-- A length in two bytes is written modulo their range. -/
theorem encode_len16 (n : ℕ) : Sv2.len16.encode n = leBytes 2 n := by
  change leBytes 2 (UInt16.ofNat n).toNat = leBytes 2 n
  rw [leBytes_eq_iff, UInt16.toNat_ofNat']
  exact Nat.mod_mod n _

theorem encode_text (s : String) : Sv2.b064k.text.encode s = lengthPrefixed s := by
  change Sv2.len16.encode (JsonText.utf8 s).length ++ JsonText.utf8 s = _
  rw [encode_len16]
  rfl

theorem encode_eventIdCodec (shareId : Bytes32) (workerId validationLevel : String) :
    eventIdCodec.encode (shareId, workerId, validationLevel) =
      eventIdBytes shareId workerId validationLevel := by
  change shareId.toBytes ++
    (Sv2.b064k.text.encode workerId ++ Sv2.b064k.text.encode validationLevel) = _
  rw [encode_text, encode_text]
  rfl

theorem valid_eventIdCodec (shareId : Bytes32) {workerId validationLevel : String}
    (hworker : Sv2.TextFits workerId) (hlevel : Sv2.TextFits validationLevel) :
    eventIdCodec.Valid (shareId, workerId, validationLevel) := by
  have hfits : ∀ {s}, Sv2.TextFits s → Sv2.b064k.text.Valid s := by
    intro s hs
    apply (Sv2.valid_b064k (JsonText.utf8 s)).mpr
    exact le_trans hs (by decide)
  exact ⟨trivial, hfits hworker, hfits hlevel⟩

/-- Attributions with the same bytes are the same. -/
theorem eventIdBytes_injective {shareId shareId' : Bytes32}
    {workerId workerId' validationLevel validationLevel' : String}
    (hworker : Sv2.TextFits workerId) (hworker' : Sv2.TextFits workerId')
    (hlevel : Sv2.TextFits validationLevel) (hlevel' : Sv2.TextFits validationLevel')
    (h : eventIdBytes shareId workerId validationLevel =
      eventIdBytes shareId' workerId' validationLevel') :
    shareId = shareId' ∧ workerId = workerId' ∧ validationLevel = validationLevel' := by
  rw [← encode_eventIdCodec, ← encode_eventIdCodec] at h
  have heq := eventIdCodec.eq_of_encode_eq (valid_eventIdCodec shareId hworker hlevel)
    (valid_eventIdCodec shareId' hworker' hlevel') h
  rw [Prod.mk.injEq, Prod.mk.injEq] at heq
  exact heq

/-! ## Workers come off the wire -/

/-- A request to open a channel was decoded from a payload. -/
def SessionEvent.FromWire : SessionEvent → Prop
  | .openStandard _ req => ∃ payload msg,
      Sv2.OpenStandardMiningChannel.decode payload = .ok msg ∧
        req = ⟨msg.requestId, msg.userIdentity⟩
  | .openExtended _ req => ∃ payload msg,
      Sv2.OpenExtendedMiningChannel.decode payload = .ok msg ∧
        req = ⟨msg.requestId, msg.userIdentity, msg.minExtranonceSize⟩
  | _ => True

/-- Every worker is one that the wire admits. -/
def Connection.WorkersFit (conn : Connection) : Prop :=
  ∀ id ch, conn.channels.get id = some ch → Sv2.TextFits ch.workerId

def ChannelState.SameWorker (ch ch' : ChannelState) : Prop :=
  ch'.workerId = ch.workerId

theorem ChannelState.SameWorker.refl (ch : ChannelState) : ch.SameWorker ch := rfl

theorem ChannelState.SameWorker.trans {ch ch' ch'' : ChannelState}
    (h : ch.SameWorker ch') (h' : ch'.SameWorker ch'') : ch.SameWorker ch'' :=
  Eq.trans h' h

theorem noteJob_sameWorker (now : ℕ) (job : JobBroadcast) (ch : ChannelState) :
    ch.SameWorker (noteJob now job ch) := by
  unfold noteJob
  split
  · rfl
  · rfl

theorem ChannelState.Retunes.sameWorker {ch ch' : ChannelState} (h : ch.Retunes ch') :
    ch.SameWorker ch' := by
  rw [h.eq]
  rfl

theorem Connection.WorkersFit.updates {conn conn' : Connection} (h : conn.WorkersFit)
    (hupdates : conn.channels.Updates ChannelState.SameWorker conn'.channels) :
    conn'.WorkersFit := by
  intro id ch' hget
  obtain ⟨ch, hch, hworker⟩ := hupdates.get .refl (fun _ _ _ => .trans) hget
  rw [ChannelState.SameWorker] at hworker
  rw [hworker]
  exact h id ch hch

namespace OpenRequest

theorem workerId_channel (cfg : HandlerConfig) (clock : Clock) (request : OpenRequest)
    (channelId : UInt32) (extranonce : Bytes) :
    (request.channel cfg clock channelId extranonce).workerId = request.userIdentity := by
  cases request with
  | standard req => rfl
  | extended req => rfl

/-- What is decoded as a worker identity has at most 255 bytes. -/
theorem textFits_userIdentity {request : OpenRequest} {clock : Clock}
    (h : (request.event clock).FromWire) :
    Sv2.TextFits request.userIdentity := by
  cases request with
  | standard req =>
      obtain ⟨payload, msg, hdecode, rfl⟩ := h
      obtain ⟨fields, -, hvalid, -, rfl⟩ :=
        Sv2.speaks_openStandardMiningChannel.spelled hdecode
      exact (Sv2.valid_str0255 _).mp hvalid.2.1
  | extended req =>
      obtain ⟨payload, msg, hdecode, rfl⟩ := h
      obtain ⟨fields, -, hvalid, -, rfl⟩ :=
        Sv2.speaks_openExtendedMiningChannel.spelled hdecode
      exact (Sv2.valid_str0255 _).mp hvalid.2.1

end OpenRequest

namespace Session

variable {sha : Bytes → Bytes32} {cfg : HandlerConfig} {s t : Session}

theorem workersFit_handle (hs : s.conn.WorkersFit) {clock : Clock} (request : OpenRequest)
    (hwire : (request.event clock).FromWire)
    (hgateway : request.handle sha cfg clock s.toGatewayState = t.toGatewayState) :
    t.conn.WorkersFit := by
  obtain ⟨-, ⟨hrefuses, -⟩ | ⟨⟨channelId, -, hopens⟩, -⟩⟩ :=
    handle_outcome sha cfg clock request _ _ hgateway
  · refine hs.updates ?_
    rw [hrefuses.channels]
    exact .refl
  · obtain ⟨extranonce, channels, hopen, hconn⟩ := hopens.started
    have hopened : ({ s.conn with channels } : Connection).WorkersFit := by
      intro id ch hget
      rcases ConnectionChannels.get_openChannel hopen hget with ⟨-, rfl⟩ | hold
      · rw [OpenRequest.workerId_channel]
        exact OpenRequest.textFits_userIdentity hwire
      · exact hs id ch hold
    rw [hconn]
    exact hopened.updates (startChannel_updates_of (noteJob_sameWorker clock.now)
      (fun _ _ => rfl) sha cfg _ _ _ channels s.conn)

theorem workersFit_step (hs : s.conn.WorkersFit) {event : SessionEvent}
    (hwire : event.FromWire) (h : s.step sha cfg event = some t) :
    t.conn.WorkersFit := by
  rcases step_cases h with hloop | ⟨-, rfl⟩ | ⟨-, -, hhandler⟩
  · rw [(loopStep_channelIdAlloc hloop).1]
    exact hs
  · exact hs
  rcases handlerStep_cases hhandler with ⟨clock, req, rfl, rfl⟩ | ⟨clock, req, rfl, rfl⟩ |
    ⟨n, receiver, -, rfl⟩ | ⟨clock, order, job, receiver, -, -, rfl⟩ |
    ⟨env, submission, -, rfl⟩ | ⟨channelId, -, rfl⟩ | ⟨exit, rfl⟩
  · exact workersFit_handle hs (.standard req) hwire rfl
  · exact workersFit_handle hs (.extended req) hwire rfl
  · exact hs
  · exact hs.updates
      (distributeJob_updates_of (noteJob_sameWorker clock.now _) sha _ s.conn)
  · refine hs.updates ?_
    rw [handleSubmission_eq]
    exact (handleShare_updates _ _ _ _).mono fun _ _ h => h.sameWorker
  · exact hs.updates (.modify .refl channelId fun _ => rfl)
  · exact hs

theorem workersFit_of_run {htwo : 2 ≤ cfg.extranoncePrefixLen}
    {height : cfg.extranoncePrefixLen ≤ 8} {retentionMs : UInt64} {maxEntries : ℕ}
    {events : List SessionEvent} (hwire : ∀ event ∈ events, event.FromWire)
    (hrun : run (step sha cfg) (initial cfg htwo height retentionMs maxEntries) events =
      some s) :
    s.conn.WorkersFit := by
  refine invariant_of_along (C := fun _ event => SessionEvent.FromWire event)
    (I := fun s => s.conn.WorkersFit) (fun _ _ _ h hwire => workersFit_step h hwire) ?_
    (Along.of_forall_mem fun event hevent _ => hwire event hevent) hrun
  intro id ch hget
  cases hget

end Session

/-! ## Accepted shares -/

/-- Signing a submission sets its signature and nothing else. -/
def SubmitEnv.SignsOnly (env : SubmitEnv) : Prop :=
  ∀ submission, ∃ signature,
    env.sign submission = { submission with gatewaySignatureHex := signature }

theorem signSubmission_signsOnly (serde : SerdeJson) (secret : Bytes)
    (submission : ShareSubmission) :
    ∃ signature, signSubmission serde secret submission =
      { submission with gatewaySignatureHex := signature } := by
  unfold signSubmission
  split
  · exact ⟨submission.gatewaySignatureHex, rfl⟩
  · exact ⟨_, rfl⟩

/-- The submission carries the event id of the share, the worker and the level
that it is attributed to. -/
structure ShareSubmission.AttributedTo (sha : Bytes → Bytes32)
    (submission : ShareSubmission) (shareId : Bytes32) : Prop where
  shareIdHex : submission.shareIdHex = hexEncode shareId.toBytes
  workerFits : Sv2.TextFits submission.workerId
  validationLevel : submission.validationLevel = "full"
  eventIdHex : submission.eventIdHex = hexEncode (computeEventId sha shareId
    submission.workerId submission.validationLevel).toBytes

section

variable {sha : Bytes → Bytes32} {cfg : HandlerConfig} {env : SubmitEnv}

theorem processShare_attributed (hsign : env.SignsOnly) {table : JobTable}
    {ch : ChannelState} (hworker : Sv2.TextFits ch.workerId) {extranonce : Bytes}
    {share : SubmitSharesStandard} {dedup : ShareDedupSet} {submission : ShareSubmission}
    (h : (processShare env sha cfg table ch extranonce share dedup).1.submission =
      some submission) :
    ∃ shareId, submission.AttributedTo sha shareId := by
  unfold processShare at h
  split at h
  · cases h
  · split at h
    · cases h
    · split at h
      · cases h
      · dsimp only at h
        split at h
        · cases h
        · split at h
          · cases h
          · split at h
            · obtain ⟨signature, hsigned⟩ := hsign _
              rw [hsigned] at h
              cases h
              exact ⟨_, rfl, hworker, rfl, rfl⟩
            · cases h

theorem handleShare_attributed (hsign : env.SignsOnly)
    {extranonceOf : ChannelState → Except GatewayReason Bytes} {table : JobTable}
    {share : SubmitSharesStandard} {conn : Connection} (hfit : conn.WorkersFit)
    {submission : ShareSubmission}
    (h : (handleShare env sha cfg extranonceOf table share conn).2.submission =
      some submission) :
    ∃ shareId, submission.AttributedTo sha shareId := by
  rw [handleShare_outcome] at h
  unfold shareResult at h
  split at h
  · cases h
  · rename_i ch hget
    split at h
    · cases h
    · split at h
      · cases h
      · exact processShare_attributed hsign (hfit _ ch hget) h

end

/-- An accepted share: in a session whose open requests came off the wire, a
share frame had `submission` queued for the relay. -/
structure AcceptedShare (sha : Bytes → Bytes32) where
  cfg : HandlerConfig
  two_le : 2 ≤ cfg.extranoncePrefixLen
  le_eight : cfg.extranoncePrefixLen ≤ 8
  retentionMs : UInt64
  maxEntries : ℕ
  events : List SessionEvent
  fromWire : ∀ event ∈ events, event.FromWire
  session : Session
  reached : run (Session.step sha cfg)
    (Session.initial cfg two_le le_eight retentionMs maxEntries) events = some session
  env : SubmitEnv
  signsOnly : env.SignsOnly
  frame : Submission
  submission : ShareSubmission
  queued : (session.handleSubmission sha cfg env frame).2.submission = some submission

/-- An accepted share carries the event id of its attribution. -/
theorem AcceptedShare.attributed {sha : Bytes → Bytes32} (a : AcceptedShare sha) :
    ∃ shareId, a.submission.AttributedTo sha shareId := by
  have hqueued := a.queued
  rw [Session.handleSubmission_eq] at hqueued
  exact handleShare_attributed a.signsOnly
    (Session.workersFit_of_run a.fromWire a.reached) hqueued

/-- A hash is known by its digits. -/
theorem eq_of_hexEncode_eq {a b : Bytes32}
    (h : hexEncode a.toBytes = hexEncode b.toBytes) : a = b := by
  have hbytes := congrArg hexDecode h
  rw [hexDecode_hexEncode, hexDecode_hexEncode] at hbytes
  exact Subtype.ext (Except.ok.inj hbytes)

/-- What an accepted share is attributed to, as it is sent on. -/
def ShareSubmission.attribution (submission : ShareSubmission) :
    String × String × String :=
  (submission.shareIdHex, submission.workerId, submission.validationLevel)

/-- The hash has no collision between the bytes of two attributions. -/
def NoEventCollision (sha : Bytes → Bytes32) (a b : ShareSubmission) : Prop :=
  ∀ shareId shareId' : Bytes32, a.shareIdHex = hexEncode shareId.toBytes →
    b.shareIdHex = hexEncode shareId'.toBytes →
    sha (eventIdBytes shareId a.workerId a.validationLevel) =
      sha (eventIdBytes shareId' b.workerId b.validationLevel) →
    eventIdBytes shareId a.workerId a.validationLevel =
      eventIdBytes shareId' b.workerId b.validationLevel

/-- Two attributions with one event id are the same. -/
theorem ShareSubmission.AttributedTo.attribution_eq {sha : Bytes → Bytes32}
    {a b : ShareSubmission} {shareId shareId' : Bytes32}
    (ha : a.AttributedTo sha shareId) (hb : b.AttributedTo sha shareId')
    (hcollision : NoEventCollision sha a b) (h : a.eventIdHex = b.eventIdHex) :
    a.attribution = b.attribution := by
  have hfull : Sv2.TextFits "full" := by
    unfold Sv2.TextFits
    decide +kernel
  have hfits : ∀ {c : ShareSubmission} {id : Bytes32}, c.AttributedTo sha id →
      Sv2.TextFits c.validationLevel := by
    intro c id hc
    rw [hc.validationLevel]
    exact hfull
  have hids : computeEventId sha shareId a.workerId a.validationLevel =
      computeEventId sha shareId' b.workerId b.validationLevel := by
    rw [ha.eventIdHex, hb.eventIdHex] at h
    exact eq_of_hexEncode_eq h
  rw [computeEventId_eq, computeEventId_eq] at hids
  have hbytes := hcollision shareId shareId' ha.shareIdHex hb.shareIdHex hids
  obtain ⟨hid, hworker, hlevel⟩ := eventIdBytes_injective ha.workerFits hb.workerFits
    (hfits ha) (hfits hb) hbytes
  rw [attribution, attribution, ha.shareIdHex, hb.shareIdHex, hid, hworker, hlevel]

/-- Texts within the limit of the wire are told apart by the bytes of an event
id, so that two accepted shares with different attribution have different event
ids, as long as the hash does not collide on their bytes. -/
theorem event_ids_injective (sha : Bytes → Bytes32) :
    (∀ (shareId shareId' : Bytes32)
        (workerId workerId' validationLevel validationLevel' : String),
      Sv2.TextFits workerId → Sv2.TextFits workerId' →
      Sv2.TextFits validationLevel → Sv2.TextFits validationLevel' →
      eventIdBytes shareId workerId validationLevel =
        eventIdBytes shareId' workerId' validationLevel' →
      shareId = shareId' ∧ workerId = workerId' ∧
        validationLevel = validationLevel') ∧
      ∀ a b : AcceptedShare sha, NoEventCollision sha a.submission b.submission →
        a.submission.attribution ≠ b.submission.attribution →
        a.submission.eventIdHex ≠ b.submission.eventIdHex := by
  constructor
  · intro shareId shareId' workerId workerId' level level' hworker hworker' hlevel hlevel' h
    exact eventIdBytes_injective hworker hworker' hlevel hlevel' h
  · intro a b hcollision hdifferent h
    obtain ⟨shareId, ha⟩ := a.attributed
    obtain ⟨shareId', hb⟩ := b.attributed
    exact hdifferent (ha.attribution_eq hb hcollision h)

/-! ## The same work for two miners -/

/-- The share id of the small gateway's share. -/
def minedShareId : Bytes32 :=
  ⟨[0xb9, 0x6b, 0x2e, 0xa4, 0xa3, 0x78, 0xb9, 0x7a, 0xe5, 0x7e, 0x09, 0xa4,
    0x45, 0x5b, 0x6b, 0x2a, 0xde, 0x20, 0xae, 0x22, 0x38, 0x83, 0x87, 0x51,
    0x49, 0x34, 0x84, 0xa7, 0x11, 0x1e, 0xa1, 0x00], rfl⟩

theorem fromWire_openRun {worker : String} (hworker : Sv2.TextFits worker) :
    ∀ event ∈ Session.openRun (.openStandard Session.wallClock ⟨1, worker⟩),
      event.FromWire := by
  have hopen : (SessionEvent.openStandard Session.wallClock ⟨1, worker⟩).FromWire := by
    obtain ⟨payload, -, hdecode⟩ := Sv2.speaks_openStandardMiningChannel.round_trip
      (m := ⟨1, worker, ⟨0⟩, .fill 0xff⟩)
      ⟨trivial, (Sv2.valid_str0255 worker).mpr hworker, trivial, trivial⟩
    exact ⟨payload, _, hdecode, rfl⟩
  intro event hevent
  simp only [Session.openRun, Session.announce, List.cons_append, List.nil_append,
    List.mem_cons, List.not_mem_nil, or_false] at hevent
  rcases hevent with rfl | rfl | rfl | rfl | rfl
  · trivial
  · trivial
  · trivial
  · trivial
  · exact hopen

/-- What the small gateway sends on for its share, when the given miner mined it. -/
def minedBy (worker : String) : Option (String × String) :=
  ((run (Session.step sha256 (.permissive 4)) Session.fresh
    (Session.openRun (.openStandard Session.wallClock ⟨1, worker⟩))).bind fun s =>
      (s.handleSubmission sha256 (.permissive 4) Session.openQueues
        (.standard Session.minedShare)).2.submission).map
    fun submission => (submission.shareIdHex, submission.workerId)

theorem exists_acceptedShare {worker : String} (hworker : Sv2.TextFits worker)
    (h : minedBy worker = some (hexEncode minedShareId.toBytes, worker)) :
    ∃ a : AcceptedShare sha256,
      a.submission.shareIdHex = hexEncode minedShareId.toBytes ∧
        a.submission.workerId = worker := by
  obtain ⟨submission, hbind, hfields⟩ := Option.map_eq_some_iff.mp h
  obtain ⟨session, hrun, hqueued⟩ := Option.bind_eq_some_iff.mp hbind
  rw [Prod.mk.injEq] at hfields
  refine ⟨{
    cfg := .permissive 4
    two_le := by decide
    le_eight := by decide
    retentionMs := 300000
    maxEntries := 1000
    events := _
    fromWire := fromWire_openRun hworker
    session
    reached := hrun
    env := Session.openQueues
    signsOnly := fun submission => ⟨submission.gatewaySignatureHex, rfl⟩
    frame := .standard Session.minedShare
    submission
    queued := hqueued }, hfields⟩

/-- The same header mined for two workers has one share id and two event ids. -/
theorem event_ids_injective_twoMiners :
    ∃ a b : AcceptedShare sha256,
      a.submission.shareIdHex = b.submission.shareIdHex ∧
        a.submission.workerId = "alice" ∧ b.submission.workerId = "bob" ∧
        a.submission.eventIdHex ≠ b.submission.eventIdHex := by
  have halice : Sv2.TextFits "alice" := by
    unfold Sv2.TextFits
    decide +kernel
  have hbob : Sv2.TextFits "bob" := by
    unfold Sv2.TextFits
    decide +kernel
  obtain ⟨a, haid, haworker⟩ := exists_acceptedShare halice (by decide +kernel)
  obtain ⟨b, hbid, hbworker⟩ := exists_acceptedShare hbob (by decide +kernel)
  obtain ⟨shareId, ha⟩ := a.attributed
  obtain ⟨shareId', hb⟩ := b.attributed
  refine ⟨a, b, haid.trans hbid.symm, haworker, hbworker,
    (event_ids_injective sha256).2 a b ?_ ?_⟩
  · intro id id' hid hid' hsha
    rw [← eq_of_hexEncode_eq (haid.symm.trans hid),
      ← eq_of_hexEncode_eq (hbid.symm.trans hid'), haworker, hbworker,
      ha.validationLevel, hb.validationLevel] at hsha
    exact absurd hsha (by decide +kernel)
  · intro hsame
    have hworkers := congrArg (fun p => p.2.1) hsame
    simp only [ShareSubmission.attribution, haworker, hbworker] at hworkers
    exact absurd hworkers (by decide)

end ReserveGrid.Gateway
