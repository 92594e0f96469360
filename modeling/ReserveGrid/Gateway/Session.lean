import ReserveGrid.Gateway.Handler

/-!
# A session

One miner's connection beside the main loop. The main loop makes jobs in three
steps, between which handlers run: the job enters the job table, becomes the
latest job, and is broadcast. Other connections take part only by taking ids
and extranonce prefixes. The handler opens and closes channels, receives
broadcasts, of which it may lose some, and answers shares.
-/

namespace ReserveGrid.Gateway

open Support Bitcoin

/-- How far the main loop is with its current job. -/
inductive Announcing where
  | idle
  | inserted (job : JobRecord)
  | published (job : JobRecord)

/-- The job that is still to be broadcast. -/
def Announcing.job? : Announcing → Option JobRecord
  | .idle => none
  | .inserted job | .published job => some job

/-- The gateway with one connection. The receiver's queue holds, for each
broadcast not yet received, the job it announces; `records` is every job ever
put in the job table. -/
structure Session extends GatewayState where
  announcing : Announcing := .idle
  receiver : Receiver JobRecord := {}
  subscribed : Bool := false
  records : List JobRecord := []

/-- A share frame of either kind. -/
inductive Submission where
  | standard (share : SubmitSharesStandard)
  | extended (share : SubmitSharesExtended)

namespace Submission

def fields : Submission → SubmitSharesStandard
  | .standard share => share
  | .extended share => share.toSubmitSharesStandard

def isStandard : Submission → Bool
  | .standard _ => true
  | .extended _ => false

/-- The extranonce the share was mined with, on the given channel. -/
def extranonceOf : Submission → ChannelState → Except GatewayReason Bytes
  | .standard _, ch => standardExtranonce ch
  | .extended share, ch => extendedExtranonce share.extranonce ch

end Submission

inductive SessionEvent where
  | prepare (clock : Clock) (template : TemplateResponse)
  | publish
  | send
  | openElsewhere
  | connect
  | openStandard (clock : Clock) (req : OpenStandardMiningChannel)
  | openExtended (clock : Clock) (req : OpenExtendedMiningChannel)
  | receive (clock : Clock) (order : IterOrder UInt32)
  | submit (env : SubmitEnv) (submission : Submission)
  | close (channelId : UInt32)
  | disconnect (exit : HandlerExit)

/-- The broadcasts that a receiver may be behind. -/
def jobBroadcastCapacity : ℕ := 64

namespace Session

/-- The gateway as it starts, before the connection is accepted. -/
def initial (cfg : HandlerConfig) (htwo : 2 ≤ cfg.extranoncePrefixLen)
    (height : cfg.extranoncePrefixLen ≤ 8) (retentionMs : UInt64)
    (maxEntries : ℕ) : Session where
  feed := { jobTable := { retentionMs, maxEntries } }
  extranonceAlloc := ⟨{}, cfg.extranoncePrefixLen, htwo, height⟩
  conn := Connection.start cfg

section

variable (sha : Bytes → Bytes32) (cfg : HandlerConfig)

/-- Handle a share frame. -/
def handleSubmission (env : SubmitEnv) (submission : Submission)
    (s : Session) : Connection × ShareOutcome :=
  match submission with
  | .standard share =>
      handleSubmitShares env sha cfg s.feed.jobTable share s.conn
  | .extended share =>
      handleSubmitSharesExtended env sha cfg s.feed.jobTable share s.conn

/-- Both kinds of share are handled alike, but for the extranonce. -/
theorem handleSubmission_eq (env : SubmitEnv) (submission : Submission)
    (s : Session) :
    s.handleSubmission sha cfg env submission =
      handleShare env sha cfg submission.extranonceOf s.feed.jobTable
        submission.fields s.conn := by
  cases submission with
  | standard share => rfl
  | extended share => rfl

theorem handleSubmission_answers (env : SubmitEnv) (submission : Submission)
    (s : Session) :
    s.conn.Answers (s.handleSubmission sha cfg env submission).1 := by
  rw [handleSubmission_eq]
  exact handleShare_answers _ _ _ _

/-- Receive a broadcast or a report of lost ones. Losses are only logged. -/
def receive (clock : Clock) (order : IterOrder UInt32) (s : Session) :
    Option Session :=
  match s.receiver.recv with
  | none => none
  | some (.lagged _, receiver) => some { s with receiver }
  | some (.message job, receiver) =>
      some { s with
        receiver
        conn := distributeJob sha clock.now job.broadcast
          (order.visit s.conn.channels.openIds) s.conn }

/-- A step of the main loop, which needs no connection. -/
def loopStep (s : Session) : SessionEvent → Option Session
  | .prepare clock template =>
      match s.announcing, prepareJob clock template s.feed with
      | .idle, (feed, none) => some { s with feed }
      | .idle, (feed, some job) =>
          some { s with
            feed
            announcing := .inserted job
            records := s.records ++ [job] }
      | _, _ => none
  | .publish =>
      match s.announcing with
      | .inserted job =>
          some { s with
            feed := s.feed.publish job.broadcast
            announcing := .published job }
      | _ => none
  | .send =>
      match s.announcing with
      | .published job =>
          some { s with
            announcing := .idle
            receiver :=
              if s.subscribed then s.receiver.send jobBroadcastCapacity job
              else s.receiver }
      | _ => none
  | .openElsewhere =>
      match s.channelIdAlloc.allocate with
      | (none, channelIdAlloc) => some { s with channelIdAlloc }
      | (some _, channelIdAlloc) =>
          some { s with
            channelIdAlloc
            extranonceAlloc := s.extranonceAlloc.allocate.2 }
  | _ => none

/-- A step of the handler of a connection that has not ended. Only channel
opens and disconnects happen before a first channel is open. -/
def handlerStep (s : Session) : SessionEvent → Option Session
  | .openStandard clock req =>
      some { s with toGatewayState :=
        s.handleOpenStandardChannel sha cfg clock req }
  | .openExtended clock req =>
      some { s with toGatewayState :=
        s.handleOpenExtendedChannel sha cfg clock req }
  | .receive clock order =>
      if s.conn.steady then s.receive sha clock order else none
  | .submit env submission =>
      if s.conn.steady then
        some { s with conn := (s.handleSubmission sha cfg env submission).1 }
      else none
  | .close channelId =>
      if s.conn.steady then
        some { s with conn := handleCloseChannel channelId s.conn }
      else none
  | .disconnect exit => some { s with conn := { s.conn with exit := some exit } }
  | _ => none

def step (s : Session) (event : SessionEvent) : Option Session :=
  match event with
  | .prepare .. | .publish | .send | .openElsewhere => s.loopStep event
  | .connect => if s.subscribed then none else some { s with subscribed := true }
  | _ =>
      if s.subscribed && s.conn.exit.isNone then s.handlerStep sha cfg event
      else none

/-! ## What a step can do -/

variable {sha cfg} {s t : Session} {event : SessionEvent}

/-- The session with a job just put in the table. -/
def prepared (jobAlloc : JobIdAllocator) (jobTable : JobTable) (job : JobRecord)
    (s : Session) : Session :=
  { s with
    feed := { s.feed with
      jobAlloc
      jobTable
      activePrevHash := some job.prevHash }
    announcing := .inserted job
    records := s.records ++ [job] }

/-- The main loop counts a job id without a job, makes a job, publishes it or
sends it; other connections only take ids and prefixes. -/
theorem loopStep_cases (h : s.loopStep event = some t) :
    (∃ issued jobAlloc, s.feed.jobAlloc.allocate = (issued, jobAlloc) ∧
      t = { s with feed := { s.feed with jobAlloc } }) ∨
    (∃ clock template job jobAlloc, event = .prepare clock template ∧
      s.announcing = .idle ∧
      s.feed.jobAlloc.allocate = (some job.jobId, jobAlloc) ∧
      job.ComesFrom template ∧
      job.activated = decide (s.feed.activePrevHash ≠ some job.prevHash) ∧
      t = s.prepared jobAlloc (s.feed.jobTable.insert clock.now job) job) ∨
    (∃ job, s.announcing = .inserted job ∧
      t = { s with
        feed := s.feed.publish job.broadcast
        announcing := .published job }) ∨
    (∃ job, event = .send ∧ s.announcing = .published job ∧
      t = { s with
        announcing := .idle
        receiver :=
          if s.subscribed then s.receiver.send jobBroadcastCapacity job
          else s.receiver }) ∨
    (∃ channelIdAlloc extranonceAlloc,
      extranonceAlloc.prefixLen = s.extranonceAlloc.prefixLen ∧
      t = { s with channelIdAlloc, extranonceAlloc }) := by
  unfold loopStep at h
  split at h
  · rename_i clock template
    rcases prepareJob_cases clock template s.feed with
      ⟨issued, jobAlloc, halloc, hprepare⟩ |
        ⟨job, jobAlloc, halloc, hfrom, hactivated, hprepare⟩
    · rw [hprepare] at h
      split at h
      · rename_i hnone
        cases hnone
        cases h
        exact Or.inl ⟨issued, jobAlloc, halloc, rfl⟩
      · rename_i hsome
        cases hsome
      · cases h
    · rw [hprepare] at h
      split at h
      · rename_i hnone
        cases hnone
      · rename_i hidle hsome
        cases hsome
        cases h
        exact Or.inr (Or.inl ⟨clock, template, job, jobAlloc, rfl, hidle, halloc,
          hfrom, hactivated, rfl⟩)
      · cases h
  · split at h
    · rename_i job hinserted
      cases h
      exact Or.inr (Or.inr (Or.inl ⟨job, hinserted, rfl⟩))
    · cases h
  · split at h
    · rename_i job hpublished
      cases h
      exact Or.inr (Or.inr (Or.inr (Or.inl ⟨job, rfl, hpublished, rfl⟩)))
    · cases h
  · split at h
    · rename_i channelIdAlloc _
      cases h
      exact Or.inr (Or.inr (Or.inr (Or.inr ⟨channelIdAlloc, _, rfl, rfl⟩)))
    · rename_i channelIdAlloc _
      cases h
      exact Or.inr (Or.inr (Or.inr (Or.inr ⟨channelIdAlloc, _,
        s.extranonceAlloc.prefixLen_allocate, rfl⟩)))
  · cases h

/-- The handler opens channels, hands out a broadcast or skips lost ones, answers
a share, closes a channel, or ends. -/
theorem handlerStep_cases (h : s.handlerStep sha cfg event = some t) :
    (∃ clock req, event = .openStandard clock req ∧
      t = { s with toGatewayState :=
        s.handleOpenStandardChannel sha cfg clock req }) ∨
    (∃ clock req, event = .openExtended clock req ∧
      t = { s with toGatewayState :=
        s.handleOpenExtendedChannel sha cfg clock req }) ∨
    (∃ n receiver, s.receiver.recv = some (.lagged n, receiver) ∧
      t = { s with receiver }) ∨
    (∃ clock order job receiver, event = .receive clock order ∧
      s.receiver.recv = some (.message job, receiver) ∧
      t = { s with
        receiver
        conn := distributeJob sha clock.now job.broadcast
          (order.visit s.conn.channels.openIds) s.conn }) ∨
    (∃ env submission, event = .submit env submission ∧
      t = { s with conn := (s.handleSubmission sha cfg env submission).1 }) ∨
    (∃ channelId, event = .close channelId ∧
      t = { s with conn := handleCloseChannel channelId s.conn }) ∨
    (∃ exit, t = { s with conn := { s.conn with exit := some exit } }) := by
  unfold handlerStep at h
  split at h
  · cases h
    exact Or.inl ⟨_, _, rfl, rfl⟩
  · cases h
    exact Or.inr (Or.inl ⟨_, _, rfl, rfl⟩)
  · split at h
    · unfold receive at h
      split at h
      · cases h
      · rename_i n receiver hrecv
        cases h
        exact Or.inr (Or.inr (Or.inl ⟨n, receiver, hrecv, rfl⟩))
      · rename_i job receiver hrecv
        cases h
        exact Or.inr (Or.inr (Or.inr (Or.inl ⟨_, _, job, receiver, rfl, hrecv,
          rfl⟩)))
    · cases h
  · split at h
    · cases h
      exact Or.inr (Or.inr (Or.inr (Or.inr (Or.inl ⟨_, _, rfl, rfl⟩))))
    · cases h
  · split at h
    · cases h
      exact Or.inr (Or.inr (Or.inr (Or.inr (Or.inr (Or.inl ⟨_, rfl, rfl⟩)))))
    · cases h
  · cases h
    exact Or.inr (Or.inr (Or.inr (Or.inr (Or.inr (Or.inr ⟨_, rfl⟩)))))
  · cases h

theorem handleOpenExtendedChannel_feed (clock : Clock)
    (req : OpenExtendedMiningChannel) (s : GatewayState) :
    (s.handleOpenExtendedChannel sha cfg clock req).feed = s.feed := by
  rcases handleOpenExtendedChannel_cases sha cfg clock req s with
    ⟨conn, -, heq⟩ | ⟨-, heq⟩
  · rw [heq]
  · rw [heq]
    exact (openWith_cases _ _ _ _ _ _ _).1

/-- The handler leaves the jobs alone. -/
theorem handlerStep_feed (h : s.handlerStep sha cfg event = some t) :
    t.feed = s.feed ∧ t.records = s.records := by
  rcases handlerStep_cases h with ⟨clock, req, -, rfl⟩ | ⟨clock, req, -, rfl⟩ |
    ⟨_, _, -, rfl⟩ | ⟨_, _, _, _, -, -, rfl⟩ | ⟨_, _, -, rfl⟩ | ⟨_, -, rfl⟩ | ⟨_, rfl⟩
  · exact ⟨(openWith_cases _ _ _ _ _ _ _).1, rfl⟩
  · exact ⟨handleOpenExtendedChannel_feed clock req _, rfl⟩
  all_goals exact ⟨rfl, rfl⟩

/-- A step is the main loop's, the acceptance of the connection, or one of the
handler of a connection that has not ended. -/
theorem step_cases (h : s.step sha cfg event = some t) :
    s.loopStep event = some t ∨
      (event = .connect ∧ t = { s with subscribed := true }) ∨
      (s.subscribed = true ∧ s.conn.exit = none ∧
        s.handlerStep sha cfg event = some t) := by
  unfold step at h
  split at h
  · exact Or.inl h
  · exact Or.inl h
  · exact Or.inl h
  · exact Or.inl h
  · split at h
    · cases h
    · cases h
      exact Or.inr (Or.inl ⟨rfl, rfl⟩)
  · split at h
    · rename_i hlive
      rw [Bool.and_eq_true, Option.isNone_iff_eq_none] at hlive
      exact Or.inr (Or.inr ⟨hlive.1, hlive.2, h⟩)
    · cases h

/-- Shares are read only while the connection lasts. -/
theorem exit_of_submit {env : SubmitEnv} {submission : Submission}
    (h : s.step sha cfg (.submit env submission) = some t) :
    s.conn.exit = none := by
  rcases step_cases h with hloop | ⟨hconnect, -⟩ | ⟨-, hexit, -⟩
  · cases hloop
  · cases hconnect
  · exact hexit

/-- An accepted share has a channel, a job and an extranonce, and its merkle
root is over the halves of the job around the extranonce. -/
theorem handleSubmission_eq_ok {env : SubmitEnv} {submission : Submission}
    {difficulty : UInt64}
    (h : (s.handleSubmission sha cfg env submission).2.reply = .ok difficulty) :
    ∃ ch job extranonce sent,
      s.conn.channels.get submission.fields.channelId = some ch ∧
      s.feed.jobTable.get submission.fields.jobId = some job ∧
      submission.extranonceOf ch = .ok extranonce ∧
      (s.handleSubmission sha cfg env submission).2.submission =
        some (env.sign sent) ∧
      sent.merkleRootWireHex = hexEncode (computeMerkleRoot sha
        job.coinbaseTxPrefix extranonce job.coinbaseTxSuffix
        job.merklePath).toBytes := by
  rw [handleSubmission_eq] at h ⊢
  obtain ⟨ch, extranonce, hch, hextranonce, houtcome⟩ := handleShare_eq_ok h
  rw [houtcome] at h ⊢
  obtain ⟨job, sent, hjob, hsent, hroot⟩ := processShare_eq_ok h
  exact ⟨ch, job, extranonce, sent, hch, hjob, hextranonce, hsent, hroot⟩

end

/-! ## A small gateway -/

def wallClock : Clock where
  now := 10 ^ 9
  nowUnix := 1700000060
  unixMs := 1700000060000

/-- The gateway as it starts, with prefixes of four bytes. -/
def fresh : Session :=
  initial (.permissive 4) (by decide) (by decide) 300000 1000

/-- Make, publish and send a job of the template. -/
def announce (template : TemplateResponse) : List SessionEvent :=
  [.prepare wallClock template, .publish, .send]

/-- A share on the first job, which meets every target there is. -/
def minedShare : SubmitSharesStandard where
  channelId := 1
  sequenceNumber := 1
  jobId := 1
  nonce := 0
  ntime := 1700000060
  version := 0x20000000

def openQueues : SubmitEnv where
  clock := wallClock
  forwardRoom := true
  eventRoom := true
  sign := id

/-- A job is announced and a miner opens a channel. -/
def openRun (openRequest : SessionEvent) : List SessionEvent :=
  announce .regtest ++ [.connect, openRequest]

end Session

end ReserveGrid.Gateway
