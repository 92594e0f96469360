import ReserveGrid.Gateway.Session

/-!
# The previous hash of a miner's job

A job carries a change of previous hash only when it is the first with that
hash. A channel that is opened on a later job of the block, or that loses the
broadcast with the change, works on a job whose previous hash it was never
told. This module says which frames a channel has seen last, and when the last
previous hash sent on every open channel is that of the last job sent on it.
-/

namespace ReserveGrid.Gateway

open Support Bitcoin

/-! ## The last frames on a channel -/

namespace Frame

/-- The job that the frame starts on a channel. -/
def jobOn (channelId : UInt32) : Frame → Option UInt32
  | .newMiningJob c jobId .. | .newExtendedMiningJob c jobId .. =>
      if c = channelId then some jobId else none
  | _ => none

/-- The previous hash that the frame announces on a channel. -/
def prevHashOn (channelId : UInt32) : Frame → Option Bytes32
  | .setNewPrevHash c _ prevHash _ _ =>
      if c = channelId then some prevHash else none
  | _ => none

theorem jobOn_of_isAnswer {f : Frame} (h : f.isAnswer = true) (c : UInt32) :
    f.jobOn c = none := by
  cases f <;> first | rfl | cases h

theorem prevHashOn_of_isAnswer {f : Frame} (h : f.isAnswer = true)
    (c : UInt32) : f.prevHashOn c = none := by
  cases f <;> first | rfl | cases h

end Frame

section

variable {α β : Type*} {f : α → Option β} {xs ys : List α}

/-- The last value that `f` reads off a list. -/
def lastOf (f : α → Option β) (xs : List α) : Option β :=
  (xs.filterMap f).getLast?

theorem lastOf_append_none (h : ∀ y ∈ ys, f y = none) :
    lastOf f (xs ++ ys) = lastOf f xs := by
  have hys : ys.filterMap f = [] := List.filterMap_eq_nil_iff.mpr h
  rw [lastOf, List.filterMap_append, hys, List.append_nil]
  rfl

theorem lastOf_append_const {b : β} (hall : ∀ y ∈ ys, ∀ c, f y = some c → c = b)
    (hsome : ∃ y ∈ ys, f y = some b) :
    lastOf f (xs ++ ys) = some b := by
  obtain ⟨y, hy, hfy⟩ := hsome
  have hne : ys.filterMap f ≠ [] :=
    List.ne_nil_of_mem (List.mem_filterMap.mpr ⟨y, hy, hfy⟩)
  have hlast : (ys.filterMap f).getLast hne = b := by
    obtain ⟨z, hz, hfz⟩ := List.mem_filterMap.mp (List.getLast_mem hne)
    exact hall z hz _ hfz
  rw [lastOf, List.filterMap_append, List.getLast?_append,
    List.getLast?_eq_some_getLast hne, hlast]
  rfl

end

/-- The last job sent on a channel. -/
def lastJob (channelId : UInt32) (sent : List Frame) : Option UInt32 :=
  lastOf (Frame.jobOn channelId) sent

/-- The last previous hash sent on a channel. -/
def lastPrevHash (channelId : UInt32) (sent : List Frame) : Option Bytes32 :=
  lastOf (Frame.prevHashOn channelId) sent

/-! ## Deliveries -/

/-- The frames are of the given job. -/
structure Delivers (job : JobBroadcast) (frames : List Frame) : Prop where
  jobOn : ∀ f ∈ frames, ∀ c j, f.jobOn c = some j → j = job.jobId
  prevHashOn : ∀ f ∈ frames, ∀ c h, f.prevHashOn c = some h →
    ∃ ph, job.prevhashUpdate = some ph ∧ h = ph.prevHash

/-- The frames bring the job, and the previous hash with it, to a channel. -/
structure Reaches (job : JobBroadcast) (frames : List Frame) (c : UInt32) :
    Prop where
  jobOn : ∃ f ∈ frames, f.jobOn c = some job.jobId
  prevHashOn : ∀ ph, job.prevhashUpdate = some ph →
    ∃ f ∈ frames, f.prevHashOn c = some ph.prevHash

section

variable {job : JobBroadcast} {frames frames' : List Frame} {c : UInt32}

theorem Delivers.append (h : Delivers job frames) (h' : Delivers job frames') :
    Delivers job (frames ++ frames') where
  jobOn := by
    intro f hf
    rcases List.mem_append.mp hf with hf | hf
    · exact h.jobOn f hf
    · exact h'.jobOn f hf
  prevHashOn := by
    intro f hf
    rcases List.mem_append.mp hf with hf | hf
    · exact h.prevHashOn f hf
    · exact h'.prevHashOn f hf

theorem Reaches.mono (h : Reaches job frames c) (hsub : frames ⊆ frames') :
    Reaches job frames' c where
  jobOn := by
    obtain ⟨f, hf, hjob⟩ := h.jobOn
    exact ⟨f, hsub hf, hjob⟩
  prevHashOn := by
    intro ph hph
    obtain ⟨f, hf, hhash⟩ := h.prevHashOn ph hph
    exact ⟨f, hsub hf, hhash⟩

theorem Delivers.lastJob_eq (h : Delivers job frames) (hc : Reaches job frames c)
    (sent : List Frame) :
    lastJob c (sent ++ frames) = some job.jobId :=
  lastOf_append_const (fun f hf j => h.jobOn f hf c j) hc.jobOn

theorem Delivers.lastPrevHash_of_some (h : Delivers job frames)
    (hc : Reaches job frames c) {ph : PrevhashUpdate}
    (hph : job.prevhashUpdate = some ph) (sent : List Frame) :
    lastPrevHash c (sent ++ frames) = some ph.prevHash := by
  refine lastOf_append_const ?_ (hc.prevHashOn ph hph)
  intro f hf hash hhash
  obtain ⟨ph', hph', rfl⟩ := h.prevHashOn f hf c hash hhash
  rw [hph, Option.some.injEq] at hph'
  rw [hph']

theorem Delivers.lastPrevHash_of_none (h : Delivers job frames)
    (hnone : job.prevhashUpdate = none) (c : UInt32) (sent : List Frame) :
    lastPrevHash c (sent ++ frames) = lastPrevHash c sent := by
  refine lastOf_append_none ?_
  intro f hf
  by_contra hsome
  obtain ⟨hash, hhash⟩ := Option.ne_none_iff_exists'.mp hsome
  obtain ⟨ph, hph, -⟩ := h.prevHashOn f hf c hash hhash
  rw [hnone] at hph
  cases hph

/-- The frames of one channel say nothing to another. -/
structure Misses (frames : List Frame) (c : UInt32) : Prop where
  jobOn : ∀ f ∈ frames, f.jobOn c = none
  prevHashOn : ∀ f ∈ frames, f.prevHashOn c = none

theorem Misses.lastJob_eq (h : Misses frames c) (sent : List Frame) :
    lastJob c (sent ++ frames) = lastJob c sent :=
  lastOf_append_none h.jobOn

theorem Misses.lastPrevHash_eq (h : Misses frames c) (sent : List Frame) :
    lastPrevHash c (sent ++ frames) = lastPrevHash c sent :=
  lastOf_append_none h.prevHashOn

theorem misses_of_isAnswer (h : ∀ f ∈ frames, f.isAnswer = true) (c : UInt32) :
    Misses frames c where
  jobOn f hf := Frame.jobOn_of_isAnswer (h f hf) c
  prevHashOn f hf := Frame.prevHashOn_of_isAnswer (h f hf) c

variable {sha : Bytes → Bytes32} {ch : ChannelState} {frame : Frame}

theorem jobOn_jobFrame (h : jobFrame sha job ch = some frame) (c : UInt32) :
    frame.jobOn c = (if ch.channelId = c then some job.jobId else none) ∧
      frame.prevHashOn c = none := by
  unfold jobFrame at h
  split at h
  · cases h
    exact ⟨rfl, rfl⟩
  · split at h
    · cases h
      exact ⟨rfl, rfl⟩
    · cases h

theorem mem_prevhashFrames {f : Frame} (hf : f ∈ prevhashFrames job ch)
    (c : UInt32) :
    ∃ ph, job.prevhashUpdate = some ph ∧ f.jobOn c = none ∧
      f.prevHashOn c = if ch.channelId = c then some ph.prevHash else none := by
  unfold prevhashFrames at hf
  split at hf
  · rename_i ph hph
    rw [List.mem_singleton.mp hf]
    exact ⟨ph, hph, rfl, rfl⟩
  · cases hf

/-- The frames of a job on a channel bring it there and nowhere else. -/
theorem delivers_jobFrames (h : jobFrame sha job ch = some frame) :
    Delivers job (frame :: prevhashFrames job ch) where
  jobOn := by
    intro f hf c j hj
    rcases List.mem_cons.mp hf with rfl | hf
    · rw [(jobOn_jobFrame h c).1] at hj
      split at hj
      · cases hj
        rfl
      · cases hj
    · obtain ⟨-, -, hnone, -⟩ := mem_prevhashFrames hf c
      rw [hnone] at hj
      cases hj
  prevHashOn := by
    intro f hf c hash hhash
    rcases List.mem_cons.mp hf with rfl | hf
    · rw [(jobOn_jobFrame h c).2] at hhash
      cases hhash
    · obtain ⟨ph, hph, -, heq⟩ := mem_prevhashFrames hf c
      rw [heq] at hhash
      split at hhash
      · cases hhash
        exact ⟨ph, hph, rfl⟩
      · cases hhash

theorem reaches_jobFrames (h : jobFrame sha job ch = some frame) :
    Reaches job (frame :: prevhashFrames job ch) ch.channelId where
  jobOn := by
    refine ⟨frame, List.mem_cons_self, ?_⟩
    rw [(jobOn_jobFrame h ch.channelId).1, if_pos rfl]
  prevHashOn := by
    intro ph hph
    refine ⟨.setNewPrevHash ch.channelId job.jobId ph.prevHash ph.minNtime
      ph.nbits, ?_, ?_⟩
    · rw [prevhashFrames, hph]
      simp
    · exact if_pos rfl

theorem misses_jobFrames (h : jobFrame sha job ch = some frame)
    (hc : ch.channelId ≠ c) :
    Misses (frame :: prevhashFrames job ch) c where
  jobOn := by
    intro f hf
    rcases List.mem_cons.mp hf with rfl | hf
    · rw [(jobOn_jobFrame h c).1, if_neg hc]
    · obtain ⟨-, -, hnone, -⟩ := mem_prevhashFrames hf c
      exact hnone
  prevHashOn := by
    intro f hf
    rcases List.mem_cons.mp hf with rfl | hf
    · exact (jobOn_jobFrame h c).2
    · obtain ⟨ph, -, -, heq⟩ := mem_prevhashFrames hf c
      rw [heq, if_neg hc]

/-- A channel stays open, under its id, when a job was sent on some channel. -/
theorem get_modify_noteJob {conn : Connection} {id : UInt32} {ch' : ChannelState}
    (hget : conn.channels.get id = some ch') (now : ℕ) (job : JobBroadcast)
    (channelId : UInt32) :
    ∃ ch'', (conn.channels.modify channelId (noteJob now job)).get id = some ch'' ∧
      ch''.channelId = ch'.channelId := by
  by_cases hid : id = channelId
  · subst hid
    have hopen := ConnectionChannels.get_modify_self hget
      (noteJob_closed now job ch')
    exact ⟨_, hopen, (noteJob_same now job ch').channelId⟩
  · refine ⟨ch', ?_, rfl⟩
    rw [ConnectionChannels.get_modify_of_ne hid]
    exact hget

/-- What sending a job on a channel that can take it does to the connection. -/
theorem sendJob_eq {now : ℕ} {conn : Connection}
    (hexit : ¬ (sendJob sha now job ch conn).exit.isSome = true) :
    ∃ frame, jobFrame sha job ch = some frame ∧
      sendJob sha now job ch conn = { conn with
        sent := conn.sent ++ frame :: prevhashFrames job ch
        channels := conn.channels.modify ch.channelId (noteJob now job) } := by
  unfold sendJob at hexit ⊢
  cases hframe : jobFrame sha job ch with
  | none =>
      rw [hframe] at hexit
      exact absurd rfl hexit
  | some frame => exact ⟨frame, rfl, rfl⟩

/-- The frame is one of those that bring the job to a channel. -/
def IsOfJob (sha : Bytes → Bytes32) (job : JobBroadcast) (f : Frame) : Prop :=
  ∃ ch frame, jobFrame sha job ch = some frame ∧ f ∈ frame :: prevhashFrames job ch

theorem sendJob_frames (sha : Bytes → Bytes32) (now : ℕ) (job : JobBroadcast)
    (ch : ChannelState) (conn : Connection) :
    ∃ frames, (sendJob sha now job ch conn).sent = conn.sent ++ frames ∧
      ∀ f ∈ frames, IsOfJob sha job f := by
  unfold sendJob
  split
  · exact ⟨[], (List.append_nil _).symm, by simp⟩
  · rename_i frame hframe
    exact ⟨_, rfl, fun f hf => ⟨ch, frame, hframe, hf⟩⟩

/-- Distributing a job sends frames of that job only. -/
theorem distributeJob_frames (sha : Bytes → Bytes32) (now : ℕ) (job : JobBroadcast)
    (ids : List UInt32) (conn : Connection) :
    ∃ frames, (distributeJob sha now job ids conn).sent = conn.sent ++ frames ∧
      ∀ f ∈ frames, IsOfJob sha job f := by
  induction ids generalizing conn with
  | nil => exact ⟨[], (List.append_nil _).symm, by simp⟩
  | cons id ids ih =>
      unfold distributeJob
      split
      · exact ih conn
      · rename_i ch _
        obtain ⟨frames, hsent, hframes⟩ := sendJob_frames sha now job ch conn
        dsimp only
        split
        · exact ⟨frames, hsent, hframes⟩
        · obtain ⟨rest, hrest, hall⟩ := ih (sendJob sha now job ch conn)
          refine ⟨frames ++ rest, ?_, List.forall_mem_append.mpr ⟨hframes, hall⟩⟩
          rw [hrest, hsent, List.append_assoc]

/-- A job that was distributed to the end reached every open channel. -/
theorem distributeJob_delivers (now : ℕ) (ids : List UInt32) (conn : Connection)
    (hexit : (distributeJob sha now job ids conn).exit = none) :
    ∃ frames, (distributeJob sha now job ids conn).sent = conn.sent ++ frames ∧
      Delivers job frames ∧
      ∀ id ∈ ids, ∀ ch, conn.channels.get id = some ch →
        Reaches job frames ch.channelId := by
  induction ids generalizing conn with
  | nil =>
      refine ⟨[], (List.append_nil _).symm, ⟨?_, ?_⟩, ?_⟩
      · intro f hf
        cases hf
      · intro f hf
        cases hf
      · intro id hid
        cases hid
  | cons id ids ih =>
      unfold distributeJob at hexit ⊢
      cases hget : conn.channels.get id with
      | none =>
          rw [hget] at hexit
          obtain ⟨frames, hsent, hdelivers, hreaches⟩ := ih conn hexit
          refine ⟨frames, hsent, hdelivers, ?_⟩
          intro id' hid' ch hch
          rcases List.mem_cons.mp hid' with rfl | hid'
          · rw [hget] at hch
            cases hch
          · exact hreaches id' hid' ch hch
      | some ch =>
          rw [hget] at hexit
          dsimp only at hexit ⊢
          by_cases hended : (sendJob sha now job ch conn).exit.isSome = true
          · rw [if_pos hended] at hexit
            rw [hexit] at hended
            cases hended
          · rw [if_neg hended] at hexit ⊢
            obtain ⟨frame, hframe, heq⟩ := sendJob_eq hended
            rw [heq] at hexit ⊢
            -- The job was sent on this channel; the others are still open.
            obtain ⟨frames, hsent, hdelivers, hreaches⟩ := ih _ hexit
            refine ⟨(frame :: prevhashFrames job ch) ++ frames, ?_,
              (delivers_jobFrames hframe).append hdelivers, ?_⟩
            · rw [hsent, List.append_assoc]
            · intro id' hid' ch' hch'
              rcases List.mem_cons.mp hid' with rfl | hid'
              · rw [hget, Option.some.injEq] at hch'
                rw [← hch']
                exact (reaches_jobFrames hframe).mono
                  (List.subset_append_left _ _)
              · obtain ⟨ch'', hopen, hsame⟩ :=
                  get_modify_noteJob hch' now job ch.channelId
                rw [← hsame]
                exact (hreaches id' hid' ch'' hopen).mono
                  (List.subset_append_right _ _)

/-! ## The start of a channel -/

variable {cfg : HandlerConfig} {clock : Clock} {success : Frame}
  {conn : Connection} {channels : ConnectionChannels}

theorem startFrames_isAnswer (cfg : HandlerConfig) (channelId : UInt32)
    (hsuccess : success.isAnswer = true) :
    ∀ f ∈ [success, .setTarget channelId cfg.channelTarget],
      f.isAnswer = true := by
  intro f hf
  rcases List.mem_pair.mp hf with rfl | rfl
  · exact hsuccess
  · rfl

/-- Starting a channel sends its answer, its target, and frames of the latest
job. -/
theorem startChannel_frames (sha : Bytes → Bytes32) (cfg : HandlerConfig)
    (clock : Clock) (latest : Option JobBroadcast) (ch : ChannelState)
    (success : Frame) (channels : ConnectionChannels) (conn : Connection) :
    ∃ frames, (conn.startChannel sha cfg clock latest ch success channels).sent =
        conn.sent ++ ([success, .setTarget ch.channelId cfg.channelTarget] ++ frames) ∧
      ∀ f ∈ frames, ∃ job, latest = some job ∧ IsOfJob sha job f := by
  unfold Connection.startChannel
  dsimp only
  split
  · exact ⟨[], rfl, by simp⟩
  · rename_i job
    obtain ⟨frames, hsent, hframes⟩ := sendJob_frames sha clock.now job ch
      { conn with channels := _, steady := true, sent := _ }
    refine ⟨frames, hsent.trans (List.append_assoc _ _ _), ?_⟩
    intro f hf
    exact ⟨job, rfl, hframes f hf⟩

/-- A channel started on a job got that job; the others got none. -/
theorem startChannel_delivers (hsuccess : success.isAnswer = true)
    (hexit : (conn.startChannel sha cfg clock (some job) ch success
      channels).exit = none) :
    lastJob ch.channelId (conn.startChannel sha cfg clock (some job) ch success
        channels).sent = some job.jobId ∧
      (∀ ph, job.prevhashUpdate = some ph →
        lastPrevHash ch.channelId (conn.startChannel sha cfg clock (some job) ch
          success channels).sent = some ph.prevHash) ∧
      ∀ c, c ≠ ch.channelId →
        lastJob c (conn.startChannel sha cfg clock (some job) ch success
          channels).sent = lastJob c conn.sent ∧
        lastPrevHash c (conn.startChannel sha cfg clock (some job) ch success
          channels).sent = lastPrevHash c conn.sent := by
  rw [Connection.startChannel] at hexit ⊢
  obtain ⟨frame, hframe, heq⟩ := sendJob_eq (by rw [hexit]; exact Bool.false_ne_true)
  rw [heq]
  have hdelivers := delivers_jobFrames hframe
  have hreaches := reaches_jobFrames hframe
  refine ⟨hdelivers.lastJob_eq hreaches _, ?_, ?_⟩
  · intro ph hph
    exact hdelivers.lastPrevHash_of_some hreaches hph _
  · intro c hc
    have hmisses := misses_jobFrames hframe (Ne.symm hc)
    have hanswer := misses_of_isAnswer
      (startFrames_isAnswer cfg ch.channelId hsuccess) c
    constructor
    · rw [hmisses.lastJob_eq, hanswer.lastJob_eq]
    · rw [hmisses.lastPrevHash_eq, hanswer.lastPrevHash_eq]

/-- The channels after an open: the new one and those from before. -/
theorem startChannel_channelId {latest : Option JobBroadcast}
    {id : UInt32} {ch' : ChannelState}
    (hopen : conn.channels.openChannel ch = .ok channels)
    (hget : (conn.startChannel sha cfg clock latest ch success
      channels).channels.get id = some ch') :
    ch'.channelId = ch.channelId ∨
      ∃ old, conn.channels.get id = some old ∧
        ch'.channelId = old.channelId := by
  obtain ⟨ch₀, hch₀, hsame⟩ := startChannel_keeps _ _ _ _ _ _ _ _ id ch' hget
  rcases ConnectionChannels.get_openChannel hopen hch₀ with ⟨-, rfl⟩ | hold
  · exact Or.inl hsame.channelId
  · exact Or.inr ⟨ch₀, hold, hsame.channelId⟩

end

end ReserveGrid.Gateway
