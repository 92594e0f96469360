import ReserveGrid.Gateway.JobDelivery
import ReserveGrid.Support.Sha256

/-!
# The channel limit

A connection may open a number of channels. What the limit counts is the
entries of the connection's map, and a channel that the miner closes keeps its
entry: nothing removes closed channels while the connection lasts. So the limit
is on the channels ever opened, which are those that were answered as opened.
-/

namespace ReserveGrid.Gateway

open Support Bitcoin

/-! ## Requests -/

/-- A request to open a channel, of either kind. -/
inductive OpenRequest where
  | standard (req : OpenStandardMiningChannel)
  | extended (req : OpenExtendedMiningChannel)

namespace OpenRequest

def event (clock : Clock) : OpenRequest → SessionEvent
  | .standard req => .openStandard clock req
  | .extended req => .openExtended clock req

def requestId : OpenRequest → UInt32
  | .standard req => req.requestId
  | .extended req => req.requestId

/-- The checks on the request alone. -/
def WellFormed (cfg : HandlerConfig) : OpenRequest → Prop
  | .standard _ => True
  | .extended req => cfg.extendedChannelsEnabled = true ∧
      ¬ (req.minExtranonceSize < 2 ∨ 8 < req.minExtranonceSize)

instance (cfg : HandlerConfig) (request : OpenRequest) :
    Decidable (request.WellFormed cfg) :=
  match request with
  | .standard _ => isTrue trivial
  | .extended req => inferInstanceAs (Decidable (cfg.extendedChannelsEnabled = true ∧
      ¬ (req.minExtranonceSize < 2 ∨ 8 < req.minExtranonceSize)))

/-- The channel that the request opens. -/
def channel (cfg : HandlerConfig) (clock : Clock) :
    OpenRequest → UInt32 → Bytes → ChannelState
  | .standard req, channelId, extranonce =>
      .new clock.now channelId extranonce req.userIdentity cfg.channelTarget
        cfg.maxSharesPerSecondPerChannel
  | .extended req, channelId, extranonce =>
      .newExtended clock.now channelId extranonce req.userIdentity
        cfg.channelTarget cfg.maxSharesPerSecondPerChannel
        req.minExtranonceSize
        (GatewayState.grantedSize cfg req.minExtranonceSize)

/-- The answer to the request when its channel is open. -/
def success (cfg : HandlerConfig) : OpenRequest → UInt32 → Bytes → Frame
  | .standard req, channelId, extranonce =>
      .openStandardSuccess req.requestId channelId cfg.channelTarget extranonce
  | .extended req, channelId, extranonce =>
      .openExtendedSuccess req.requestId channelId cfg.channelTarget
        (GatewayState.grantedSize cfg req.minExtranonceSize) extranonce

def handle (sha : Bytes → Bytes32) (cfg : HandlerConfig) (clock : Clock) :
    OpenRequest → GatewayState → GatewayState
  | .standard req, s => s.handleOpenStandardChannel sha cfg clock req
  | .extended req, s => s.handleOpenExtendedChannel sha cfg clock req

@[simp] theorem channelId_channel (cfg : HandlerConfig) (clock : Clock)
    (request : OpenRequest) (channelId : UInt32) (extranonce : Bytes) :
    (request.channel cfg clock channelId extranonce).channelId = channelId := by
  cases request with
  | standard req => rfl
  | extended req => rfl

theorem success_isAnswer (cfg : HandlerConfig) (request : OpenRequest)
    (channelId : UInt32) (extranonce : Bytes) :
    (request.success cfg channelId extranonce).isAnswer = true := by
  cases request with
  | standard req => rfl
  | extended req => rfl

end OpenRequest

/-- The channel that the frame says is open. -/
def Frame.openedId : Frame → Option UInt32
  | .openStandardSuccess _ channelId _ _ => some channelId
  | .openExtendedSuccess _ channelId _ _ _ => some channelId
  | _ => none

/-- The channels opened on a connection so far. -/
def openedIds (sent : List Frame) : List UInt32 := sent.filterMap Frame.openedId

namespace OpenRequest

theorem openedId_success (cfg : HandlerConfig) (request : OpenRequest)
    (channelId : UInt32) (extranonce : Bytes) :
    (request.success cfg channelId extranonce).openedId = some channelId := by
  cases request with
  | standard req => rfl
  | extended req => rfl

end OpenRequest

/-- The open request ended the connection, with its channels as they were. -/
structure Connection.Refuses (conn conn' : Connection) : Prop where
  channels : conn'.channels = conn.channels
  exit : conn'.exit ≠ none
  sent : ∃ f : Frame, conn'.sent = conn.sent ++ [f] ∧ f.isAnswer = true ∧
    f.openedId = none

/-- The channel was opened, under an id just taken, and answered. -/
structure GatewayState.OpensAs (sha : Bytes → Bytes32) (cfg : HandlerConfig)
    (clock : Clock) (request : OpenRequest) (channelId : UInt32)
    (s t : GatewayState) : Prop where
  issued : s.channelIdAlloc.allocate.1 = some channelId
  started : ∃ extranonce channels,
    s.conn.channels.openChannel (request.channel cfg clock channelId extranonce) =
      .ok channels ∧
    t.conn = s.conn.startChannel sha cfg clock s.feed.latestJob
      (request.channel cfg clock channelId extranonce)
      (request.success cfg channelId extranonce) channels

/-- The connection ended for the channel limit. -/
def Connection.RefusedForLimit (conn : Connection) : Prop :=
  conn.exit = some (.setupRejected
    ("channel registration failed: " ++ GatewayReason.channelLimitExceeded.asStr))

instance (conn : Connection) : Decidable conn.RefusedForLimit :=
  inferInstanceAs (Decidable (_ = _))

/-- An id and an extranonce prefix are left for the channel. -/
def GatewayState.HasIds (s : GatewayState) : Prop :=
  s.channelIdAlloc.allocate.1.isSome = true ∧
    s.extranonceAlloc.allocate.1.isSome = true

instance (s : GatewayState) : Decidable s.HasIds :=
  inferInstanceAs (Decidable (_ ∧ _))

section

variable {sha : Bytes → Bytes32} {cfg : HandlerConfig} {clock : Clock}
  {requestId : UInt32} {request : OpenRequest} {s : GatewayState}

theorem refuseOpen_refuses (requestId : UInt32) (why : String) (s : GatewayState) :
    s.conn.Refuses (s.refuseOpen requestId why).conn :=
  ⟨rfl, Option.some_ne_none _, _, rfl, rfl, rfl⟩

theorem startChannel_exit (sha : Bytes → Bytes32) (cfg : HandlerConfig)
    (clock : Clock) (latest : Option JobBroadcast) (ch : ChannelState)
    (success : Frame) (channels : ConnectionChannels) (conn : Connection) :
    (conn.startChannel sha cfg clock latest ch success channels).exit = conn.exit ∨
      (conn.startChannel sha cfg clock latest ch success channels).exit =
        some .codecError := by
  unfold Connection.startChannel
  dsimp only
  split
  · exact Or.inl rfl
  · unfold sendJob
    split
    · exact Or.inr rfl
    · exact Or.inl rfl

/-- The map of channels has room for one more. -/
def ConnectionChannels.HasRoom (c : ConnectionChannels) : Prop :=
  c.channels.keys.length < c.maxChannels.toNat

theorem not_refusedForLimit_refuseOpen {why : String}
    (hwhy : why ≠ "channel registration failed: " ++
      GatewayReason.channelLimitExceeded.asStr) :
    ¬ (s.refuseOpen requestId why).conn.RefusedForLimit := by
  intro hlimit
  exact hwhy (HandlerExit.setupRejected.inj (Option.some.inj hlimit))

theorem openChannel_cases (c : ConnectionChannels) (ch : ChannelState) :
    (c.openChannel ch = .error .channelLimitExceeded ∧ ¬ c.HasRoom) ∨
      ∃ c', c.openChannel ch = .ok c' ∧ c.HasRoom := by
  unfold ConnectionChannels.openChannel ConnectionChannels.HasRoom
  split
  · rename_i hfull
    exact Or.inl ⟨rfl, Nat.not_lt.mpr hfull⟩
  · rename_i hroom
    split
    · exact Or.inr ⟨_, rfl, Nat.not_le.mp hroom⟩
    · exact Or.inr ⟨_, rfl, Nat.not_le.mp hroom⟩

/-- A well-formed request takes an id if one is left. It is refused when there
is no id, no prefix or no room, and else its channel is opened. -/
theorem openWith_outcome (sha : Bytes → Bytes32) (cfg : HandlerConfig) (clock : Clock)
    (requestId : UInt32) (request : OpenRequest) (s t : GatewayState)
    (ht : s.openWith sha cfg clock requestId (request.channel cfg clock)
      (request.success cfg) = t) :
    t.channelIdAlloc = s.channelIdAlloc.allocate.2 ∧
    (s.conn.Refuses t.conn ∧
        (t.conn.RefusedForLimit ↔ s.HasIds ∧ ¬ s.conn.channels.HasRoom) ∨
      (∃ channelId, s.OpensAs sha cfg clock request channelId t) ∧
        s.HasIds ∧ s.conn.channels.HasRoom) := by
  subst ht
  unfold GatewayState.openWith GatewayState.HasIds
  cases hid : s.channelIdAlloc.allocate with
  | mk issued channelIdAlloc =>
  cases issued with
  | none =>
      refine ⟨rfl, Or.inl ⟨refuseOpen_refuses _ _ _, ?_⟩⟩
      refine iff_of_false (not_refusedForLimit_refuseOpen (by decide)) ?_
      rintro ⟨⟨hissued, -⟩, -⟩
      cases hissued
  | some channelId =>
  cases hprefix : s.extranonceAlloc.allocate with
  | mk extranonce extranonceAlloc =>
  cases extranonce with
  | none =>
      refine ⟨rfl, Or.inl ⟨refuseOpen_refuses _ _ _, ?_⟩⟩
      refine iff_of_false (not_refusedForLimit_refuseOpen (by decide)) ?_
      rintro ⟨⟨-, hissued⟩, -⟩
      cases hissued
  | some extranonce =>
      dsimp only
      rcases openChannel_cases s.conn.channels
          (request.channel cfg clock channelId extranonce) with
        ⟨hopen, hroom⟩ | ⟨channels, hopen, hroom⟩
      · rw [hopen]
        exact ⟨rfl, Or.inl ⟨refuseOpen_refuses _ _ _,
          iff_of_true rfl ⟨⟨rfl, rfl⟩, hroom⟩⟩⟩
      · rw [hopen]
        refine ⟨rfl, Or.inr ⟨⟨channelId, ?_, extranonce, channels, hopen, rfl⟩,
          ⟨rfl, rfl⟩, hroom⟩⟩
        rw [hid]

theorem handle_of_wellFormed (hformed : request.WellFormed cfg) :
    request.handle sha cfg clock s =
      s.openWith sha cfg clock request.requestId (request.channel cfg clock)
        (request.success cfg) := by
  cases request with
  | standard req => rfl
  | extended req =>
      obtain ⟨henabled, hsize⟩ := hformed
      change s.handleOpenExtendedChannel sha cfg clock req = _
      have hrange : ¬ (decide (req.minExtranonceSize < 2) ||
          decide (8 < req.minExtranonceSize)) = true := by
        rw [Bool.or_eq_true, decide_eq_true_eq, decide_eq_true_eq]
        exact hsize
      rw [GatewayState.handleOpenExtendedChannel, henabled, if_neg (by simp),
        if_neg hrange]
      rfl

theorem handle_of_not_wellFormed (sha : Bytes → Bytes32) (clock : Clock)
    (s : GatewayState) (hformed : ¬ request.WellFormed cfg) :
    (request.handle sha cfg clock s).channelIdAlloc = s.channelIdAlloc ∧
      s.conn.Refuses (request.handle sha cfg clock s).conn ∧
      ¬ (request.handle sha cfg clock s).conn.RefusedForLimit := by
  cases request with
  | standard req => exact absurd trivial hformed
  | extended req =>
      change (s.handleOpenExtendedChannel sha cfg clock req).channelIdAlloc = _ ∧
        s.conn.Refuses (s.handleOpenExtendedChannel sha cfg clock req).conn ∧
        ¬ (s.handleOpenExtendedChannel sha cfg clock req).conn.RefusedForLimit
      unfold GatewayState.handleOpenExtendedChannel
      split
      · refine ⟨rfl, ⟨rfl, Option.some_ne_none _, _, rfl, rfl, rfl⟩, ?_⟩
        intro hlimit
        exact absurd (HandlerExit.setupRejected.inj (Option.some.inj hlimit))
          (by decide)
      · rename_i henabled
        split
        · exact ⟨rfl, refuseOpen_refuses _ _ _,
            not_refusedForLimit_refuseOpen (by decide)⟩
        · rename_i hrange
          rw [Bool.or_eq_true, decide_eq_true_eq, decide_eq_true_eq] at hrange
          exact absurd ⟨by simpa using henabled, hrange⟩ hformed

/-- A request is refused for the limit when it is well formed, ids are left and
the map is full. With room in the map it opens its channel. -/
theorem handle_outcome (sha : Bytes → Bytes32) (cfg : HandlerConfig) (clock : Clock)
    (request : OpenRequest) (s t : GatewayState)
    (ht : request.handle sha cfg clock s = t) :
    (t.channelIdAlloc = s.channelIdAlloc ∨
      t.channelIdAlloc = s.channelIdAlloc.allocate.2) ∧
    (s.conn.Refuses t.conn ∧
        (t.conn.RefusedForLimit ↔
          request.WellFormed cfg ∧ s.HasIds ∧ ¬ s.conn.channels.HasRoom) ∨
      (∃ channelId, t.channelIdAlloc = s.channelIdAlloc.allocate.2 ∧
          s.OpensAs sha cfg clock request channelId t) ∧
        request.WellFormed cfg ∧ s.HasIds ∧ s.conn.channels.HasRoom) := by
  by_cases hformed : request.WellFormed cfg
  · rw [handle_of_wellFormed hformed] at ht
    obtain ⟨halloc, ⟨hrefuses, hlimit⟩ | ⟨⟨channelId, hopens⟩, hroom⟩⟩ :=
      openWith_outcome sha cfg clock _ request s t ht
    · exact ⟨Or.inr halloc,
        Or.inl ⟨hrefuses, hlimit.trans (and_iff_right hformed).symm⟩⟩
    · exact ⟨Or.inr halloc, Or.inr ⟨⟨channelId, halloc, hopens⟩, hformed, hroom⟩⟩
  · obtain ⟨halloc, hrefuses, hlimit⟩ :=
      handle_of_not_wellFormed sha clock s hformed
    rw [ht] at halloc hrefuses hlimit
    exact ⟨Or.inl halloc,
      Or.inl ⟨hrefuses, iff_of_false hlimit fun h => hformed h.1⟩⟩

/-- Opening a channel under a new id adds its entry. -/
theorem ConnectionChannels.keys_openChannel {c c' : ConnectionChannels}
    {ch : ChannelState} (hopen : c.openChannel ch = .ok c')
    (hfresh : ch.channelId ∉ c.channels) :
    c'.channels.keys = ch.channelId :: c.channels.keys ∧
      c'.maxChannels = c.maxChannels := by
  unfold openChannel at hopen
  rw [if_neg hfresh] at hopen
  split at hopen
  · cases hopen
  · cases hopen
    rw [AList.keys_insert, List.erase_of_not_mem hfresh]
    exact ⟨rfl, rfl⟩

theorem GatewayState.OpensAs.keys {t : GatewayState} {channelId : UInt32}
    (h : s.OpensAs sha cfg clock request channelId t)
    (hfresh : channelId ∉ s.conn.channels.channels) :
    t.conn.channels.channels.keys.Perm (channelId :: s.conn.channels.channels.keys) ∧
      t.conn.channels.maxChannels = s.conn.channels.maxChannels := by
  obtain ⟨extranonce, channels, hopen, hconn⟩ := h.started
  obtain ⟨hupdated, hmax⟩ := (startChannel_updates sha cfg clock s.feed.latestJob
    (request.channel cfg clock channelId extranonce)
    (request.success cfg channelId extranonce) channels s.conn).keys
  rw [← hconn] at hupdated hmax
  obtain ⟨hkeys, hsame⟩ := ConnectionChannels.keys_openChannel hopen
    (by rwa [OpenRequest.channelId_channel])
  rw [hkeys, OpenRequest.channelId_channel] at hupdated
  exact ⟨hupdated, hmax.trans hsame⟩

end

/-! ## The channels of a connection -/

section

variable {sha : Bytes → Bytes32} {cfg : HandlerConfig} {clock : Clock}
  {sent frames : List Frame}

theorem openedIds_append_none (h : ∀ f ∈ frames, f.openedId = none) :
    openedIds (sent ++ frames) = openedIds sent := by
  rw [openedIds, List.filterMap_append, List.filterMap_eq_nil_iff.mpr h,
    List.append_nil]
  rfl

theorem openedId_of_isOfJob {job : JobBroadcast} {f : Frame} (h : IsOfJob sha job f) :
    f.openedId = none := by
  obtain ⟨ch, frame, hframe, hf⟩ := h
  rcases List.mem_cons.mp hf with rfl | hf
  · unfold jobFrame at hframe
    split at hframe
    · cases hframe
      rfl
    · split at hframe
      · cases hframe
        rfl
      · cases hframe
  · unfold prevhashFrames at hf
    split at hf
    · rw [List.mem_singleton.mp hf]
      rfl
    · cases hf

theorem distributeJob_openedIds (now : ℕ) (job : JobBroadcast) (ids : List UInt32)
    (conn : Connection) :
    openedIds (distributeJob sha now job ids conn).sent = openedIds conn.sent := by
  obtain ⟨frames, hsent, hframes⟩ := distributeJob_frames sha now job ids conn
  rw [hsent]
  exact openedIds_append_none fun f hf => openedId_of_isOfJob (hframes f hf)

theorem startChannel_openedIds (latest : Option JobBroadcast) (ch : ChannelState)
    {success : Frame} {channelId : UInt32} (hsuccess : success.openedId = some channelId)
    (channels : ConnectionChannels) (conn : Connection) :
    openedIds (conn.startChannel sha cfg clock latest ch success channels).sent =
      openedIds conn.sent ++ [channelId] := by
  obtain ⟨frames, hsent, hframes⟩ := startChannel_frames sha cfg clock latest ch
    success channels conn
  have hnone : ∀ f ∈ frames, f.openedId = none := by
    intro f hf
    obtain ⟨job, -, hofjob⟩ := hframes f hf
    exact openedId_of_isOfJob hofjob
  rw [hsent, ← List.append_assoc, openedIds_append_none hnone, openedIds,
    List.filterMap_append, List.filterMap_cons_some hsuccess]
  rfl

theorem handleShare_openedIds (env : SubmitEnv)
    (extranonceOf : ChannelState → Except GatewayReason Bytes) (table : JobTable)
    (share : SubmitSharesStandard) (conn : Connection) :
    openedIds (handleShare env sha cfg extranonceOf table share conn).1.sent =
      openedIds conn.sent := by
  obtain ⟨targets, hsent, htargets⟩ := handleShare_sent sha cfg env extranonceOf table
    share conn
  rw [hsent]
  refine openedIds_append_none ?_
  intro f hf
  rcases List.mem_cons.mp hf with rfl | hf
  · unfold replyFrame
    split
    · rfl
    · rfl
  · have htarget := htargets f hf
    cases f with
    | setTarget channelId target => rfl
    | _ => cases htarget

end

namespace Session

variable {sha : Bytes → Bytes32} {cfg : HandlerConfig} {s t : Session}

/-- The map of a connection has an entry for each channel opened on it. -/
structure Counted (cfg : HandlerConfig) (s : Session) : Prop where
  keys : s.conn.channels.channels.keys.Perm (openedIds s.conn.sent)
  above : s.channelIdAlloc.Above s.conn.channels.channels.keys
  maxChannels : s.conn.channels.maxChannels = cfg.maxChannelsPerConn
  room : s.conn.channels.channels.keys.length ≤ cfg.maxChannelsPerConn.toNat

theorem initial_counted (cfg : HandlerConfig) (htwo : 2 ≤ cfg.extranoncePrefixLen)
    (height : cfg.extranoncePrefixLen ≤ 8) (retentionMs : UInt64)
    (maxEntries : ℕ) :
    (initial cfg htwo height retentionMs maxEntries).Counted cfg where
  keys := .refl _
  above := by
    intro _ id hid
    cases hid
  maxChannels := rfl
  room := Nat.zero_le _

theorem loopStep_channelIdAlloc {event : SessionEvent} (h : s.loopStep event = some t) :
    t.conn = s.conn ∧ (t.channelIdAlloc = s.channelIdAlloc ∨
      t.channelIdAlloc = s.channelIdAlloc.allocate.2) := by
  unfold loopStep at h
  split at h
  · split at h
    · cases h
      exact ⟨rfl, Or.inl rfl⟩
    · cases h
      exact ⟨rfl, Or.inl rfl⟩
    · cases h
  · split at h
    · cases h
      exact ⟨rfl, Or.inl rfl⟩
    · cases h
  · split at h
    · cases h
      exact ⟨rfl, Or.inl rfl⟩
    · cases h
  · split at h
    · rename_i channelIdAlloc halloc
      cases h
      exact ⟨rfl, Or.inr (by rw [halloc])⟩
    · rename_i channelIdAlloc halloc
      cases h
      exact ⟨rfl, Or.inr (by rw [halloc])⟩
  · cases h

theorem Counted.of_updates (hs : s.Counted cfg) {P : ChannelState → ChannelState → Prop}
    (hchannels : s.conn.channels.Updates P t.conn.channels)
    (hsent : openedIds t.conn.sent = openedIds s.conn.sent)
    (halloc : t.channelIdAlloc = s.channelIdAlloc ∨
      t.channelIdAlloc = s.channelIdAlloc.allocate.2) :
    t.Counted cfg := by
  obtain ⟨hkeys, hmax⟩ := hchannels.keys
  refine ⟨?_, ?_, hmax.trans hs.maxChannels, ?_⟩
  · rw [hsent]
    exact hkeys.trans hs.keys
  · have habove : t.channelIdAlloc.Above s.conn.channels.channels.keys := by
      rcases halloc with halloc | halloc
      · rw [halloc]
        exact hs.above
      · rw [halloc]
        exact hs.above.allocate
    intro hlive id hid
    exact habove hlive id (hkeys.subset hid)
  · rw [hkeys.length_eq]
    exact hs.room

/-- The id taken for a channel that is opened is not that of an entry. -/
theorem Counted.fresh (hs : s.Counted cfg) {channelId : UInt32}
    (hissued : s.channelIdAlloc.allocate.1 = some channelId) :
    channelId ∉ s.conn.channels.channels :=
  fun hmem => hs.above.not_mem (Prod.ext hissued rfl) hmem

/-- A channel is opened under an id that no channel had. -/
theorem Counted.opens (hs : s.Counted cfg) {clock : Clock} {request : OpenRequest}
    {channelId : UInt32} (halloc : t.channelIdAlloc = s.channelIdAlloc.allocate.2)
    (hopens : s.OpensAs sha cfg clock request channelId t.toGatewayState)
    (hroom : s.conn.channels.HasRoom) :
    t.Counted cfg := by
  have hallocate : s.channelIdAlloc.allocate = (some channelId, t.channelIdAlloc) :=
    Prod.ext hopens.issued halloc.symm
  obtain ⟨hkeys, hmax⟩ := hopens.keys (hs.fresh hopens.issued)
  refine ⟨?_, ?_, hmax.trans hs.maxChannels, ?_⟩
  · obtain ⟨extranonce, channels, -, hconn⟩ := hopens.started
    rw [hconn, startChannel_openedIds _ _
      (OpenRequest.openedId_success cfg request channelId extranonce), ← hconn]
    exact hkeys.trans ((hs.keys.cons channelId).trans
      (List.perm_append_singleton _ _).symm)
  · intro hlive id hid
    exact hs.above.allocate_some hallocate hlive id (hkeys.subset hid)
  · rw [hkeys.length_eq, List.length_cons, ← hs.maxChannels]
    exact hroom

theorem Counted.handle (hs : s.Counted cfg) {clock : Clock} (request : OpenRequest)
    (hgateway : request.handle sha cfg clock s.toGatewayState = t.toGatewayState) :
    t.Counted cfg := by
  obtain ⟨halloc, ⟨hrefuses, -⟩ | ⟨⟨channelId, hnext, hopens⟩, -, -, hroom⟩⟩ :=
    handle_outcome sha cfg clock request _ _ hgateway
  · obtain ⟨f, hsent, -, hnone⟩ := hrefuses.sent
    have hchannels : s.conn.channels.Updates ChannelState.Same t.conn.channels := by
      rw [hrefuses.channels]
      exact .refl
    refine hs.of_updates hchannels ?_ halloc
    rw [hsent]
    exact openedIds_append_none (by simpa using hnone)
  · exact hs.opens hnext hopens hroom

theorem Counted.handlerStep (hs : s.Counted cfg) {event : SessionEvent}
    (h : s.handlerStep sha cfg event = some t) :
    t.Counted cfg := by
  rcases handlerStep_cases h with ⟨clock, req, -, rfl⟩ | ⟨clock, req, -, rfl⟩ |
    ⟨n, receiver, -, rfl⟩ | ⟨clock, order, job, receiver, -, -, rfl⟩ |
    ⟨env, submission, -, rfl⟩ | ⟨channelId, -, rfl⟩ | ⟨exit, rfl⟩
  · exact hs.handle (.standard req) rfl
  · exact hs.handle (.extended req) rfl
  · exact hs.of_updates (P := ChannelState.Same) .refl rfl (Or.inl rfl)
  · exact hs.of_updates (distributeJob_updates _ _ _ _ _) (distributeJob_openedIds _ _ _ _)
      (Or.inl rfl)
  · rw [handleSubmission_eq]
    exact hs.of_updates (handleShare_updates _ _ _ _)
      (handleShare_openedIds env _ _ _ _) (Or.inl rfl)
  · exact hs.of_updates (handleCloseChannel_updates _ _) rfl (Or.inl rfl)
  · exact hs.of_updates (P := ChannelState.Same) .refl rfl (Or.inl rfl)

theorem Counted.step (hs : s.Counted cfg) {event : SessionEvent}
    (h : s.step sha cfg event = some t) :
    t.Counted cfg := by
  rcases step_cases h with hloop | ⟨-, rfl⟩ | ⟨-, -, hhandler⟩
  · obtain ⟨hconn, halloc⟩ := loopStep_channelIdAlloc hloop
    refine hs.of_updates (P := ChannelState.Same) ?_ ?_ halloc
    · rw [hconn]
      exact .refl
    · rw [hconn]
  · exact hs.of_updates (P := ChannelState.Same) .refl rfl (Or.inl rfl)
  · exact hs.handlerStep hhandler

/-! ## When the limit counts open channels -/

/-- The channels opened on the connection so far, open or closed. -/
def openedCount (s : Session) : ℕ := (openedIds s.conn.sent).length

/-- The request gets as far as the limit. -/
def ReachesLimit (cfg : HandlerConfig) (request : OpenRequest) (s : Session) : Prop :=
  request.WellFormed cfg ∧ s.HasIds

instance (cfg : HandlerConfig) (request : OpenRequest) (s : Session) :
    Decidable (s.ReachesLimit cfg request) :=
  inferInstanceAs (Decidable (_ ∧ _))

/-- A request that gets as far as the limit finds room for all the channels ever
opened, or all of them open; another finds the number of open channels below the
limit. -/
def CountsOpen (cfg : HandlerConfig) (request : OpenRequest) (s : Session) : Prop :=
  (s.ReachesLimit cfg request →
    s.openedCount < cfg.maxChannelsPerConn.toNat ∨
      s.conn.channels.openCount = s.openedCount) ∧
  (¬ s.ReachesLimit cfg request →
    s.conn.channels.openCount ≠ cfg.maxChannelsPerConn.toNat)

instance (cfg : HandlerConfig) (request : OpenRequest) (s : Session) :
    Decidable (s.CountsOpen cfg request) :=
  inferInstanceAs (Decidable ((_ → _ ∨ _) ∧ (¬ _ → _ ≠ _)))

theorem step_open {clock : Clock} {request : OpenRequest}
    (h : s.step sha cfg (request.event clock) = some t) :
    request.handle sha cfg clock s.toGatewayState = t.toGatewayState := by
  have hhandler : s.handlerStep sha cfg (request.event clock) = some t := by
    rcases step_cases h with hloop | ⟨hconnect, -⟩ | ⟨-, -, hhandler⟩
    · cases request with
      | standard req => cases hloop
      | extended req => cases hloop
    · cases request with
      | standard req => cases hconnect
      | extended req => cases hconnect
    · exact hhandler
  cases request with
  | standard req =>
      cases hhandler
      rfl
  | extended req =>
      cases hhandler
      rfl

/-- A request is refused for the limit when it gets as far and finds no room in
the map. -/
theorem refusedForLimit_handle {clock : Clock} {request : OpenRequest}
    (hexit : s.conn.exit = none)
    (hgateway : request.handle sha cfg clock s.toGatewayState = t.toGatewayState) :
    t.conn.RefusedForLimit ↔
      s.ReachesLimit cfg request ∧ ¬ s.conn.channels.HasRoom := by
  obtain ⟨-, ⟨-, hlimit⟩ | ⟨⟨channelId, -, hopens⟩, -, -, hroom⟩⟩ :=
    handle_outcome sha cfg clock request _ _ hgateway
  · exact hlimit.trans and_assoc.symm
  · refine iff_of_false ?_ fun h => h.2 hroom
    obtain ⟨extranonce, channels, -, hconn⟩ := hopens.started
    intro hlimit
    rw [Connection.RefusedForLimit, hconn] at hlimit
    rcases startChannel_exit sha cfg clock
      s.feed.latestJob (request.channel cfg clock channelId extranonce)
      (request.success cfg channelId extranonce) channels s.conn with hkept | hended
    · rw [hkept, hexit] at hlimit
      cases hlimit
    · rw [hended] at hlimit
      cases hlimit

theorem Counted.openCount_le (hs : s.Counted cfg) :
    s.conn.channels.openCount ≤ s.openedCount := by
  rw [openedCount, ← hs.keys.length_eq]
  exact List.length_filter_le _ _

theorem Counted.openedCount_le (hs : s.Counted cfg) :
    s.openedCount ≤ cfg.maxChannelsPerConn.toNat := by
  rw [openedCount, ← hs.keys.length_eq]
  exact hs.room

theorem Counted.hasRoom_iff (hs : s.Counted cfg) :
    s.conn.channels.HasRoom ↔ s.openedCount < cfg.maxChannelsPerConn.toNat := by
  rw [ConnectionChannels.HasRoom, openedCount, ← hs.keys.length_eq, hs.maxChannels]

/-- After every run, an open request is refused for the channel limit exactly when
the limit is the number of open channels, if and only if the limit counts open
channels there. -/
theorem refusedForLimit_iff_countsOpen (sha : Bytes → Bytes32) (cfg : HandlerConfig)
    (htwo : 2 ≤ cfg.extranoncePrefixLen) (height : cfg.extranoncePrefixLen ≤ 8)
    (retentionMs : UInt64) (maxEntries : ℕ) (events : List SessionEvent)
    (clock : Clock) (request : OpenRequest) (s t : Session)
    (hrun : run (step sha cfg) (initial cfg htwo height retentionMs maxEntries)
      events = some s)
    (hstep : s.step sha cfg (request.event clock) = some t) :
    (t.conn.RefusedForLimit ↔
        s.conn.channels.openCount = cfg.maxChannelsPerConn.toNat) ↔
      s.CountsOpen cfg request := by
  have hs : s.Counted cfg :=
    invariant_of_run (fun _ _ _ hs hstep => hs.step hstep)
      (initial_counted cfg htwo height retentionMs maxEntries) hrun
  have hexit : s.conn.exit = none := by
    rcases step_cases hstep with hloop | ⟨hconnect, -⟩ | ⟨-, hexit, -⟩
    · cases request with
      | standard req => cases hloop
      | extended req => cases hloop
    · cases request with
      | standard req => cases hconnect
      | extended req => cases hconnect
    · exact hexit
  rw [refusedForLimit_handle hexit (step_open hstep), hs.hasRoom_iff, CountsOpen]
  have hopen := hs.openCount_le
  have hopened := hs.openedCount_le
  by_cases hreaches : s.ReachesLimit cfg request
  · simp only [hreaches, true_and, true_implies, not_true, false_implies, and_true]
    omega
  · simp only [hreaches, false_and, false_implies, not_false_iff, true_implies,
      true_and, false_iff, ne_eq]

/-- Whether one more request is refused for the limit, how many channels are
open, and whether the limit counts them. -/
def tryOpen (s : Session) : Option (Bool × ℕ × Bool) :=
  (s.step sha256 (.permissive 4) (.openStandard wallClock ⟨5, "miner"⟩)).map
    fun t => (decide t.conn.RefusedForLimit, s.conn.channels.openCount,
      decide (s.CountsOpen (.permissive 4) (.standard ⟨5, "miner"⟩)))

theorem tryOpen_eq (events : List SessionEvent) (tried : Bool × ℕ × Bool)
    (h : (run (step sha256 (.permissive 4)) fresh events).bind tryOpen = some tried) :
    ∃ s t, run (step sha256 (.permissive 4)) fresh events = some s ∧
      s.step sha256 (.permissive 4)
        ((OpenRequest.standard ⟨5, "miner"⟩).event wallClock) = some t ∧
      tried = (decide t.conn.RefusedForLimit, s.conn.channels.openCount,
        decide (s.CountsOpen (.permissive 4) (.standard ⟨5, "miner"⟩))) := by
  obtain ⟨s, hrun, hs⟩ := Option.bind_eq_some_iff.mp h
  obtain ⟨t, hstep, ht⟩ := Option.map_eq_some_iff.mp hs
  exact ⟨s, t, hrun, hstep, ht.symm⟩

/-- Four channels are opened, which is the limit. -/
def openFour : List SessionEvent :=
  .connect :: List.replicate 4 (.openStandard wallClock ⟨1, "miner"⟩)

theorem refusedForLimit_iff_countsOpen_openFour :
    ∃ s t, run (step sha256 (.permissive 4)) fresh openFour = some s ∧
      s.step sha256 (.permissive 4)
        ((OpenRequest.standard ⟨5, "miner"⟩).event wallClock) = some t ∧
      (t.conn.RefusedForLimit ↔ s.conn.channels.openCount = 4) := by
  obtain ⟨s, t, hrun, hstep, htried⟩ :=
    tryOpen_eq openFour (true, 4, true) (by decide +kernel)
  simp only [Prod.mk.injEq] at htried
  exact ⟨s, t, hrun, hstep, (refusedForLimit_iff_countsOpen _ _ _ _ _ _ openFour
    wallClock (.standard ⟨5, "miner"⟩) s t hrun hstep).mpr
      (of_decide_eq_true htried.2.2.symm)⟩

/-- With four channels opened and one of them closed, a fifth is refused for the
limit, though three are open. -/
theorem refusedForLimit_three_open :
    ∃ s t, run (step sha256 (.permissive 4)) fresh (openFour ++ [.close 1]) = some s ∧
      s.step sha256 (.permissive 4)
        ((OpenRequest.standard ⟨5, "miner"⟩).event wallClock) = some t ∧
      ¬ (t.conn.RefusedForLimit ↔ s.conn.channels.openCount =
        (HandlerConfig.permissive 4).maxChannelsPerConn.toNat) := by
  obtain ⟨s, t, hrun, hstep, htried⟩ := tryOpen_eq (openFour ++ [.close 1])
    (true, 3, false) (by decide +kernel)
  simp only [Prod.mk.injEq] at htried
  refine ⟨s, t, hrun, hstep, ?_⟩
  intro h
  have hfull := h.mp (of_decide_eq_true htried.1.symm)
  rw [← htried.2.1] at hfull
  exact absurd hfull (by decide)

end Session

end ReserveGrid.Gateway
