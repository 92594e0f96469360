import ReserveGrid.Gateway.ChannelLimit
import ReserveGrid.Support.Sha256

/-!
# The registry of channels

All connections share a registry of their open channels, which the gateway
serves over HTTP. A handler registers a channel after it has put it in its own
map and before it answers, and takes a channel out when the miner closes it and
when the connection ends. A close frame takes the channel of its id out of the
registry, whether or not it is one of the connection's own. Wherever a handler
waits for the registry or for the miner, the others may go on.
-/

namespace ReserveGrid.Gateway

open Support Bitcoin

/-! ## Opening in parts -/

namespace Connection

/-- Start the variable difficulty of a new channel. -/
def startVardiff (cfg : HandlerConfig) (clock : Clock) (channelId : UInt32)
    (conn : Connection) : Connection :=
  if cfg.vardiffEnabled then
    { conn with channels := conn.channels.modify channelId fun ch =>
        { ch with vardiff := some (initialVardiff cfg clock.now) } }
  else conn

/-- Answer a request with success. -/
def sendSuccess (cfg : HandlerConfig) (request : OpenRequest) (ch : ChannelState)
    (conn : Connection) : Connection :=
  { conn with
    sent := conn.sent ++ [request.success cfg ch.channelId ch.extranoncePrefix] }

def sendTarget (cfg : HandlerConfig) (ch : ChannelState) (conn : Connection) :
    Connection :=
  { conn with sent := conn.sent ++ [.setTarget ch.channelId cfg.channelTarget] }

/-- Start a channel on the latest job, which ends its opening. -/
def sendLatestJob (sha : Bytes → Bytes32) (clock : Clock)
    (latest : Option JobBroadcast) (ch : ChannelState) (conn : Connection) :
    Connection :=
  let conn := { conn with steady := true }
  match latest with
  | none => conn
  | some job => sendJob sha clock.now job ch conn

end Connection

/-- The first part of an open: take an id and a prefix and put the channel in
the connection's map. -/
def GatewayState.beginOpen (cfg : HandlerConfig) (clock : Clock) (request : OpenRequest)
    (s : GatewayState) : GatewayState × Option ChannelState :=
  match s.channelIdAlloc.allocate with
  | (none, channelIdAlloc) =>
      (refuseOpen request.requestId "channel_id allocator exhausted"
        { s with channelIdAlloc }, none)
  | (some channelId, channelIdAlloc) =>
      match s.extranonceAlloc.allocate with
      | (none, extranonceAlloc) =>
          (refuseOpen request.requestId "extranonce allocator exhausted"
            { s with channelIdAlloc, extranonceAlloc }, none)
      | (some extranonce, extranonceAlloc) =>
          let s := { s with channelIdAlloc, extranonceAlloc }
          let ch := request.channel cfg clock channelId extranonce
          match s.conn.channels.openChannel ch with
          | .error reason =>
              (s.refuseOpen request.requestId
                ("channel registration failed: " ++ reason.asStr), none)
          | .ok channels =>
              ({ s with
                conn := Connection.startVardiff cfg clock channelId
                  { s.conn with channels } }, some ch)

namespace OpenRequest

def userIdentity : OpenRequest → String
  | .standard req => req.userIdentity
  | .extended req => req.userIdentity

/-- Start to handle a request. The result has the channel that is to be
registered and answered, if any. -/
def start (sha : Bytes → Bytes32) (cfg : HandlerConfig) (clock : Clock)
    (request : OpenRequest) (s : GatewayState) : GatewayState × Option ChannelState :=
  if request.WellFormed cfg then s.beginOpen cfg clock request
  else (request.handle sha cfg clock s, none)

/-- The frames that follow when the channel is registered. -/
def finish (sha : Bytes → Bytes32) (cfg : HandlerConfig) (clock : Clock)
    (latest : Option JobBroadcast) (ch : ChannelState) (request : OpenRequest)
    (conn : Connection) : Connection :=
  ((conn.sendSuccess cfg request ch).sendTarget cfg ch).sendLatestJob sha clock latest ch

end OpenRequest

section

variable {sha : Bytes → Bytes32} {cfg : HandlerConfig} {clock : Clock}
  {request : OpenRequest} {s t : GatewayState} {ch : ChannelState}

@[simp] theorem extranoncePrefix_channel (channelId : UInt32) (extranonce : Bytes) :
    (request.channel cfg clock channelId extranonce).extranoncePrefix = extranonce := by
  cases request with
  | standard req => rfl
  | extended req => rfl

/-- The parts of an open come to an open in one step. -/
theorem startChannel_eq_finish (sha : Bytes → Bytes32) (cfg : HandlerConfig)
    (clock : Clock) (latest : Option JobBroadcast) (ch : ChannelState)
    (request : OpenRequest) (channels : ConnectionChannels) (conn : Connection) :
    conn.startChannel sha cfg clock latest ch
        (request.success cfg ch.channelId ch.extranoncePrefix) channels =
      request.finish sha cfg clock latest ch
        (Connection.startVardiff cfg clock ch.channelId { conn with channels }) := by
  have hsent : ∀ f g : Frame, conn.sent ++ [f, g] = conn.sent ++ [f] ++ [g] := by
    intro f g
    rw [List.append_assoc, List.singleton_append]
  unfold Connection.startChannel OpenRequest.finish Connection.sendLatestJob
    Connection.sendTarget Connection.sendSuccess Connection.startVardiff
  rw [hsent]
  split
  · rfl
  · rfl

/-- A well-formed request is refused as a whole, or its channel is put in the map
under a new id, and both parts together handle the request. -/
theorem beginOpen_cases (sha : Bytes → Bytes32) (request : OpenRequest)
    (s : GatewayState) :
    ((s.beginOpen cfg clock request).2 = none ∧
      s.conn.Refuses (s.beginOpen cfg clock request).1.conn ∧
      (s.beginOpen cfg clock request).1.channelIdAlloc = s.channelIdAlloc.allocate.2 ∧
      s.openWith sha cfg clock request.requestId (request.channel cfg clock)
        (request.success cfg) = (s.beginOpen cfg clock request).1) ∨
    ∃ ch t channels, s.beginOpen cfg clock request = (t, some ch) ∧
      s.channelIdAlloc.allocate = (some ch.channelId, t.channelIdAlloc) ∧
      s.conn.channels.openChannel ch = .ok channels ∧
      t.conn = Connection.startVardiff cfg clock ch.channelId
        { s.conn with channels } ∧
      s.openWith sha cfg clock request.requestId (request.channel cfg clock)
          (request.success cfg) =
        { t with conn := request.finish sha cfg clock t.feed.latestJob ch t.conn } := by
  unfold GatewayState.openWith GatewayState.beginOpen
  cases hid : s.channelIdAlloc.allocate with
  | mk issued channelIdAlloc =>
  cases issued with
  | none => exact Or.inl ⟨rfl, refuseOpen_refuses _ _ _, rfl, rfl⟩
  | some channelId =>
  cases hprefix : s.extranonceAlloc.allocate with
  | mk extranonce extranonceAlloc =>
  cases extranonce with
  | none => exact Or.inl ⟨rfl, refuseOpen_refuses _ _ _, rfl, rfl⟩
  | some extranonce =>
      dsimp only
      cases hopen : s.conn.channels.openChannel
          (request.channel cfg clock channelId extranonce) with
      | error reason => exact Or.inl ⟨rfl, refuseOpen_refuses _ _ _, rfl, rfl⟩
      | ok channels =>
          have hstart := startChannel_eq_finish sha cfg clock s.feed.latestJob
            (request.channel cfg clock channelId extranonce) request channels s.conn
          rw [OpenRequest.channelId_channel, extranoncePrefix_channel] at hstart
          refine Or.inr ⟨_, _, channels, rfl, ?_, hopen, ?_, ?_⟩
          · rw [OpenRequest.channelId_channel]
          · rw [OpenRequest.channelId_channel]
          · dsimp only
            rw [hstart]

/-- The same of every request. -/
theorem start_cases (sha : Bytes → Bytes32) (cfg : HandlerConfig) (clock : Clock)
    (request : OpenRequest) (s : GatewayState) :
    ((request.start sha cfg clock s).2 = none ∧
      s.conn.Refuses (request.start sha cfg clock s).1.conn ∧
      ((request.start sha cfg clock s).1.channelIdAlloc = s.channelIdAlloc ∨
        (request.start sha cfg clock s).1.channelIdAlloc =
          s.channelIdAlloc.allocate.2) ∧
      request.handle sha cfg clock s = (request.start sha cfg clock s).1) ∨
    ∃ ch t channels, request.start sha cfg clock s = (t, some ch) ∧
      s.channelIdAlloc.allocate = (some ch.channelId, t.channelIdAlloc) ∧
      s.conn.channels.openChannel ch = .ok channels ∧
      t.conn = Connection.startVardiff cfg clock ch.channelId
        { s.conn with channels } ∧
      request.handle sha cfg clock s =
        { t with conn := request.finish sha cfg clock t.feed.latestJob ch t.conn } := by
  unfold OpenRequest.start
  by_cases hformed : request.WellFormed cfg
  · rw [if_pos hformed, handle_of_wellFormed hformed]
    exact (beginOpen_cases sha request s).imp_left fun ⟨hnone, hrefuses, halloc, heq⟩ =>
      ⟨hnone, hrefuses, Or.inr halloc, heq⟩
  · rw [if_neg hformed]
    obtain ⟨halloc, hrefuses, -⟩ := handle_of_not_wellFormed sha clock s hformed
    exact Or.inl ⟨rfl, hrefuses, Or.inl halloc, rfl⟩

theorem startVardiff_keeps (cfg : HandlerConfig) (clock : Clock) (channelId : UInt32)
    (conn : Connection) :
    conn.channels.Keeps (conn.startVardiff cfg clock channelId).channels := by
  unfold Connection.startVardiff
  split
  · exact (ConnectionChannels.Updates.modify .refl channelId
      fun _ => ⟨rfl, rfl, rfl⟩).keeps
  · exact .refl _

theorem sendLatestJob_keeps (sha : Bytes → Bytes32) (clock : Clock)
    (latest : Option JobBroadcast) (ch : ChannelState) (conn : Connection) :
    conn.channels.Keeps (conn.sendLatestJob sha clock latest ch).channels := by
  unfold Connection.sendLatestJob
  split
  · exact .refl _
  · exact (sendJob_updates sha clock.now _ ch { conn with steady := true }).keeps

/-- A connection that has ended stays so. -/
theorem exit_of_sendLatestJob {latest : Option JobBroadcast} {conn : Connection}
    (h : (conn.sendLatestJob sha clock latest ch).exit = none) : conn.exit = none := by
  unfold Connection.sendLatestJob at h
  split at h
  · exact h
  · unfold sendJob at h
    split at h
    · cases h
    · exact h

end

/-! ## The registry -/

/-- What the registry keeps of a channel, but for its hash rate. -/
structure ChannelSnapshot where
  channelId : UInt32
  workerId : String
  peerAddr : String
  openedAtUnixMs : UInt64
  sharesSubmitted : UInt64 := 0
  sharesAccepted : UInt64 := 0
  lastShareAtUnixMs : UInt64 := 0
  deriving DecidableEq, Repr

/-- The snapshot that a channel is registered with. -/
def snapshotFromOpen (unixMs : UInt64) (channelId : UInt32) (workerId peerAddr : String) :
    ChannelSnapshot where
  channelId
  workerId
  peerAddr
  openedAtUnixMs := unixMs

/-- The registered channels, by id. -/
abbrev ChannelRegistry := HashMap UInt32 ChannelSnapshot

namespace ChannelRegistry

def register (snap : ChannelSnapshot) (registry : ChannelRegistry) : ChannelRegistry :=
  registry.insert snap.channelId snap

/-- Count a share of a registered channel. -/
def updateShare (unixMs : UInt64) (channelId : UInt32) (accepted : Bool)
    (registry : ChannelRegistry) : ChannelRegistry :=
  match registry.lookup channelId with
  | none => registry
  | some entry =>
      registry.insert channelId { entry with
        sharesSubmitted := entry.sharesSubmitted + 1
        sharesAccepted :=
          if accepted then entry.sharesAccepted + 1 else entry.sharesAccepted
        lastShareAtUnixMs := unixMs }

def unregister (channelId : UInt32) (registry : ChannelRegistry) : ChannelRegistry :=
  registry.erase channelId

theorem mem_updateShare {unixMs : UInt64} {channelId id : UInt32} {accepted : Bool}
    {registry : ChannelRegistry} (h : id ∈ registry) :
    id ∈ registry.updateShare unixMs channelId accepted := by
  unfold updateShare
  split
  · exact h
  · exact (AList.mem_insert _).mpr (Or.inr h)

end ChannelRegistry

/-! ## Many connections -/

/-- What is left of an open: the channel in the map is still to be registered,
or the success, the target or the latest job are still to be sent. -/
inductive Opening where
  | register (request : OpenRequest) (ch : ChannelState)
  | success (request : OpenRequest) (ch : ChannelState)
  | target (ch : ChannelState)
  | latestJob (ch : ChannelState)

/-- The channel that is still to be registered. -/
def Opening.unregistered : Opening → Option UInt32
  | .register _ ch => some ch.channelId
  | _ => none

/-- The handler of one connection. While a close frame is handled, `closing` has
the channel that is closed in the map and still to be taken out of the
registry. -/
structure ConnectionTask where
  peer : String
  conn : Connection
  openedIds : List UInt32 := []
  opening : Option Opening := none
  closing : Option UInt32 := none

/-- What the handlers and the main loop share. -/
structure Server where
  feed : JobFeed
  channelIdAlloc : ChannelIdAllocator := {}
  extranonceAlloc : ExtranonceAllocator
  registry : ChannelRegistry := ∅
  tasks : HashMap ℕ ConnectionTask := ∅

/-- What can happen next. A handler may receive the broadcast of any job, and the
main loop may count a share on any channel. -/
inductive ServerEvent where
  | announce (clock : Clock) (template : TemplateResponse)
  | updateShare (unixMs : UInt64) (channelId : UInt32) (accepted : Bool)
  | accept (k : ℕ) (peer : String)
  | openChannel (k : ℕ) (clock : Clock) (request : OpenRequest)
  | register (k : ℕ) (clock : Clock)
  | answer (k : ℕ) (clock : Clock)
  | receive (k : ℕ) (clock : Clock) (order : IterOrder UInt32) (job : JobBroadcast)
  | submit (k : ℕ) (env : SubmitEnv) (submission : Submission)
  | close (k : ℕ) (channelId : UInt32)
  | unregister (k : ℕ)
  | disconnect (k : ℕ) (exit : HandlerExit)
  | panic (k : ℕ)
  | cleanUp (k : ℕ)

/-- A connection whose channels are all closed ends. -/
def Connection.endIfEmpty (conn : Connection) : Connection :=
  { conn with exit := if conn.channels.openCount = 0 then some .shutdown else conn.exit }

theorem handleCloseChannel_eq (channelId : UInt32) (conn : Connection) :
    handleCloseChannel channelId conn =
      Connection.endIfEmpty
        { conn with channels := conn.channels.closeChannel channelId } := rfl

theorem exit_of_endIfEmpty {conn : Connection} (h : conn.endIfEmpty.exit = none) :
    conn.exit = none := by
  unfold Connection.endIfEmpty at h
  dsimp only at h
  split at h
  · cases h
  · exact h

namespace ConnectionTask

/-- The handler waits for a frame or a broadcast. -/
def waits (task : ConnectionTask) : Bool :=
  task.conn.exit.isNone && task.opening.isNone && task.closing.isNone

/-- The handler waits, and a first channel is open. -/
def steady (task : ConnectionTask) : Bool := task.waits && task.conn.steady

theorem waits_iff {task : ConnectionTask} :
    task.waits = true ↔
      task.conn.exit = none ∧ task.opening = none ∧ task.closing = none := by
  rw [waits, Bool.and_eq_true, Bool.and_eq_true, Option.isNone_iff_eq_none,
    Option.isNone_iff_eq_none, Option.isNone_iff_eq_none, and_assoc]

theorem waits_of_steady {task : ConnectionTask} (h : task.steady = true) :
    task.waits = true :=
  (Bool.and_eq_true_iff.mp h).1

theorem exit_of_steady {task : ConnectionTask} (h : task.steady = true) :
    task.conn.exit = none :=
  (waits_iff.mp (waits_of_steady h)).1

/-- The ids of the channels the handler opened or is opening. -/
def ids (task : ConnectionTask) : List UInt32 :=
  task.openedIds ++ (task.opening.bind Opening.unregistered).toList

/-- Send the next frames of the answer to an open. -/
def answer (sha : Bytes → Bytes32) (cfg : HandlerConfig) (clock : Clock)
    (latest : Option JobBroadcast) (task : ConnectionTask) : Option ConnectionTask :=
  match task.opening with
  | some (.success request ch) =>
      some { task with
        conn := task.conn.sendSuccess cfg request ch
        opening := some (.target ch) }
  | some (.target ch) =>
      some { task with
        conn := task.conn.sendTarget cfg ch
        opening := some (.latestJob ch) }
  | some (.latestJob ch) =>
      some { task with
        conn := task.conn.sendLatestJob sha clock latest ch
        opening := none }
  | _ => none

/-- An answer is frames only. -/
theorem answer_cases {sha : Bytes → Bytes32} {cfg : HandlerConfig} {clock : Clock}
    {latest : Option JobBroadcast} {task task' : ConnectionTask}
    (h : task.answer sha cfg clock latest = some task') :
    task'.openedIds = task.openedIds ∧ task'.ids = task.ids ∧
      task'.closing = task.closing ∧
      (task'.conn.exit = none → task.conn.exit = none) ∧
      task.conn.channels.Keeps task'.conn.channels := by
  unfold answer at h
  split at h
  · rename_i hopening
    cases h
    exact ⟨rfl, by rw [ids, ids, hopening]; rfl, rfl, id, .refl _⟩
  · rename_i hopening
    cases h
    exact ⟨rfl, by rw [ids, ids, hopening]; rfl, rfl, id, .refl _⟩
  · rename_i hopening
    cases h
    exact ⟨rfl, by rw [ids, ids, hopening]; rfl, rfl, exit_of_sendLatestJob,
      sendLatestJob_keeps _ _ _ _ _⟩
  · cases h

end ConnectionTask

namespace Server

/-- The gateway as it starts. -/
def initial (cfg : HandlerConfig) (htwo : 2 ≤ cfg.extranoncePrefixLen)
    (height : cfg.extranoncePrefixLen ≤ 8) (retentionMs : UInt64)
    (maxEntries : ℕ) : Server where
  feed := { jobTable := { retentionMs, maxEntries } }
  extranonceAlloc := ⟨{}, cfg.extranoncePrefixLen, htwo, height⟩

/-- The gateway as the handler of one connection sees it. -/
def gateway (s : Server) (task : ConnectionTask) : GatewayState where
  feed := s.feed
  channelIdAlloc := s.channelIdAlloc
  extranonceAlloc := s.extranonceAlloc
  conn := task.conn

/-- The handler of a connection moved on. -/
def withTask (k : ℕ) (task : ConnectionTask) (s : Server) : Server :=
  { s with tasks := s.tasks.insert k task }

section

variable (sha : Bytes → Bytes32) (cfg : HandlerConfig)

/-- A step of the handler of connection `k`, up to where it waits next. A write
that fails or the time limit on the first open may end an open at any of them,
and a handler that panics takes nothing out of the registry. -/
def taskStep (k : ℕ) (task : ConnectionTask) (s : Server) :
    ServerEvent → Option Server
  | .openChannel _ clock request =>
      if task.waits then
        let (gateway, opening) := request.start sha cfg clock (s.gateway task)
        some ({ s with
          channelIdAlloc := gateway.channelIdAlloc
          extranonceAlloc := gateway.extranonceAlloc }.withTask k { task with
            conn := gateway.conn
            opening := opening.map (.register request ·) })
      else none
  | .register _ clock =>
      match task.opening with
      | some (.register request ch) =>
          some ({ s with
            registry := s.registry.register
              (snapshotFromOpen clock.unixMs ch.channelId request.userIdentity
                task.peer) }.withTask k { task with
                openedIds := task.openedIds ++ [ch.channelId]
                opening := some (.success request ch) })
      | _ => none
  | .answer _ clock =>
      (task.answer sha cfg clock s.feed.latestJob).map fun task => s.withTask k task
  | .receive _ clock order job =>
      if task.steady then
        some (s.withTask k { task with
          conn := distributeJob sha clock.now job
            (order.visit task.conn.channels.openIds) task.conn })
      else none
  | .submit _ env submission =>
      if task.steady then
        some (s.withTask k { task with
          conn := (handleShare env sha cfg submission.extranonceOf s.feed.jobTable
            submission.fields task.conn).1 })
      else none
  | .close _ channelId =>
      if task.steady then
        some (s.withTask k { task with
          conn := { task.conn with
            channels := task.conn.channels.closeChannel channelId }
          closing := some channelId })
      else none
  | .unregister _ =>
      match task.closing with
      | none => none
      | some channelId =>
          some ({ s with registry := s.registry.unregister channelId }.withTask k
            { task with
              conn := task.conn.endIfEmpty
              closing := none })
  | .disconnect _ exit =>
      if task.conn.exit.isNone && task.closing.isNone then
        some (s.withTask k { task with
          conn := { task.conn with exit := some exit }
          opening := none })
      else none
  | .panic _ =>
      if task.steady then some { s with tasks := s.tasks.erase k } else none
  | .cleanUp _ =>
      if task.conn.exit.isNone then none
      else
        match task.openedIds with
        | [] => some { s with tasks := s.tasks.erase k }
        | id :: openedIds =>
            some ({ s with registry := s.registry.unregister id }.withTask k
              { task with openedIds })
  | _ => none

def step (s : Server) (event : ServerEvent) : Option Server :=
  match event with
  | .announce clock template =>
      some { s with feed := (broadcastJobFromTemplate clock template s.feed).1 }
  | .updateShare unixMs channelId accepted =>
      some { s with registry := s.registry.updateShare unixMs channelId accepted }
  | .accept k peer =>
      if k ∈ s.tasks then none
      else some (s.withTask k { peer, conn := Connection.start cfg })
  | .openChannel k .. | .register k .. | .answer k .. | .receive k .. |
      .submit k .. | .close k .. | .unregister k | .disconnect k .. | .panic k |
      .cleanUp k =>
      (s.tasks.lookup k).bind fun task => s.taskStep sha cfg k task event

end

/-! ## The invariant -/

/-- A live connection registered the channel and has it open. It may still have
to be answered. -/
def Opened (k : ℕ) (id : UInt32) (s : Server) : Prop :=
  ∃ task, s.tasks.lookup k = some task ∧ task.conn.exit = none ∧
    id ∈ task.openedIds ∧ (task.conn.channels.get id).isSome = true

/-- Each channel belongs to one connection, the open ones are in the registry,
and one that is to leave it is closed. -/
structure Sound (s : Server) : Prop where
  own : ∀ k task, s.tasks.lookup k = some task → task.conn.exit = none →
    ∀ id, (task.conn.channels.get id).isSome = true → id ∈ task.ids
  registered : ∀ k id, s.Opened k id → id ∈ s.registry
  closed : ∀ k task, s.tasks.lookup k = some task → ∀ id ∈ task.closing,
    ¬ (task.conn.channels.get id).isSome = true
  apart : ∀ k k' task task', s.tasks.lookup k = some task →
    s.tasks.lookup k' = some task' → k ≠ k' → ∀ id ∈ task.ids, id ∉ task'.ids
  above : ∀ k task, s.tasks.lookup k = some task → s.channelIdAlloc.Above task.ids

theorem initial_sound (cfg : HandlerConfig) (htwo : 2 ≤ cfg.extranoncePrefixLen)
    (height : cfg.extranoncePrefixLen ≤ 8) (retentionMs : UInt64)
    (maxEntries : ℕ) :
    (initial cfg htwo height retentionMs maxEntries).Sound where
  own := by
    intro k task hlookup
    cases hlookup
  registered := by
    rintro k id ⟨task, hlookup, -⟩
    cases hlookup
  closed := by
    intro k task hlookup
    cases hlookup
  apart := by
    intro k k' task task' hlookup
    cases hlookup
  above := by
    intro k task hlookup
    cases hlookup

variable {sha : Bytes → Bytes32} {cfg : HandlerConfig} {s t : Server} {k : ℕ}
  {task task' : ConnectionTask}

theorem mem_ids_of_opened {id : UInt32} (h : id ∈ task.openedIds) : id ∈ task.ids :=
  List.mem_append_left _ h

/-- The handler of one connection moved on: what is to be checked is its own
channels, and that those of the others stay registered. -/
theorem Sound.update (hs : s.Sound) (htasks : t.tasks = s.tasks.insert k task')
    (halloc : t.channelIdAlloc = s.channelIdAlloc ∨
      t.channelIdAlloc = s.channelIdAlloc.allocate.2)
    (hothers : ∀ j id, j ≠ k → s.Opened j id → id ∈ t.registry)
    (hown : task'.conn.exit = none →
      ∀ id, (task'.conn.channels.get id).isSome = true → id ∈ task'.ids)
    (hregistered : task'.conn.exit = none → ∀ id ∈ task'.openedIds,
      (task'.conn.channels.get id).isSome = true → id ∈ t.registry)
    (hclosed : ∀ id ∈ task'.closing, ¬ (task'.conn.channels.get id).isSome = true)
    (hapart : ∀ j task, j ≠ k → s.tasks.lookup j = some task →
      ∀ id ∈ task'.ids, id ∉ task.ids)
    (habove : t.channelIdAlloc.Above task'.ids) :
    t.Sound := by
  refine ⟨?_, ?_, ?_, ?_, ?_⟩
  · intro j task hlookup
    rw [htasks] at hlookup
    rcases HashMap.lookup_insert_cases hlookup with ⟨-, rfl⟩ | ⟨-, hold⟩
    · exact hown
    · exact hs.own j task hold
  · rintro j id ⟨task, hlookup, hexit, hmem, hget⟩
    rw [htasks] at hlookup
    rcases HashMap.lookup_insert_cases hlookup with ⟨-, rfl⟩ | ⟨hj, hold⟩
    · exact hregistered hexit id hmem hget
    · exact hothers j id hj ⟨task, hold, hexit, hmem, hget⟩
  · intro j task hlookup
    rw [htasks] at hlookup
    rcases HashMap.lookup_insert_cases hlookup with ⟨-, rfl⟩ | ⟨-, hold⟩
    · exact hclosed
    · exact hs.closed j task hold
  · intro i j first second hfirst hsecond hij
    rw [htasks] at hfirst hsecond
    rcases HashMap.lookup_insert_cases hfirst with ⟨rfl, rfl⟩ | ⟨hi, hfirst'⟩
    · rcases HashMap.lookup_insert_cases hsecond with ⟨rfl, -⟩ | ⟨hj, hsecond'⟩
      · exact absurd rfl hij
      · exact hapart j second hj hsecond'
    · rcases HashMap.lookup_insert_cases hsecond with ⟨rfl, rfl⟩ | ⟨-, hsecond'⟩
      · intro id hid hid'
        exact hapart i first hi hfirst' id hid' hid
      · exact hs.apart i j first second hfirst' hsecond' hij
  · intro j task hlookup
    rw [htasks] at hlookup
    rcases HashMap.lookup_insert_cases hlookup with ⟨-, rfl⟩ | ⟨-, hold⟩
    · exact habove
    · rcases halloc with halloc | halloc
      · rw [halloc]
        exact hs.above j task hold
      · rw [halloc]
        exact (hs.above j task hold).allocate

/-- A step after which the handler has no other channels than before. -/
theorem Sound.shrink (hs : s.Sound) (hlookup : s.tasks.lookup k = some task)
    (htasks : t.tasks = s.tasks.insert k task')
    (halloc : t.channelIdAlloc = s.channelIdAlloc ∨
      t.channelIdAlloc = s.channelIdAlloc.allocate.2)
    (hids : ∀ id ∈ task'.ids, id ∈ task.ids)
    (hothers : ∀ j id, j ≠ k → s.Opened j id → id ∈ t.registry)
    (hown : task'.conn.exit = none →
      ∀ id, (task'.conn.channels.get id).isSome = true → id ∈ task'.ids)
    (hregistered : task'.conn.exit = none → ∀ id ∈ task'.openedIds,
      (task'.conn.channels.get id).isSome = true → id ∈ t.registry)
    (hclosed : ∀ id ∈ task'.closing,
      ¬ (task'.conn.channels.get id).isSome = true) :
    t.Sound := by
  refine hs.update htasks halloc hothers hown hregistered hclosed ?_ ?_
  · intro j other hj hother id hid
    exact hs.apart k j task other hlookup hother (Ne.symm hj) id (hids id hid)
  · have habove : t.channelIdAlloc.Above task.ids := by
      rcases halloc with halloc | halloc
      · rw [halloc]
        exact hs.above k task hlookup
      · rw [halloc]
        exact (hs.above k task hlookup).allocate
    intro hlive id hid
    exact habove hlive id (hids id hid)

/-- The handler of a connection that has ended keeps nothing. -/
theorem Sound.ended (hs : s.Sound) (hlookup : s.tasks.lookup k = some task)
    (htasks : t.tasks = s.tasks.insert k task')
    (halloc : t.channelIdAlloc = s.channelIdAlloc ∨
      t.channelIdAlloc = s.channelIdAlloc.allocate.2)
    (hids : ∀ id ∈ task'.ids, id ∈ task.ids) (hexit : task'.conn.exit ≠ none)
    (hothers : ∀ j id, j ≠ k → s.Opened j id → id ∈ t.registry)
    (hclosed : ∀ id ∈ task'.closing,
      ¬ (task'.conn.channels.get id).isSome = true) :
    t.Sound :=
  hs.shrink hlookup htasks halloc hids hothers (fun hnone => absurd hnone hexit)
    (fun hnone => absurd hnone hexit) hclosed

/-- A connection is gone. -/
theorem Sound.erase (hs : s.Sound) : ({ s with tasks := s.tasks.erase k }).Sound := by
  have hlookups : ∀ j other, (s.tasks.erase k).lookup j = some other →
      s.tasks.lookup j = some other :=
    fun j other hother => HashMap.lookup_of_lookup_erase hother
  refine ⟨fun j other hother => hs.own j other (hlookups j other hother), ?_,
    fun j other hother => hs.closed j other (hlookups j other hother),
    fun i j first second hfirst hsecond =>
      hs.apart i j first second (hlookups i first hfirst) (hlookups j second hsecond),
    fun j other hother => hs.above j other (hlookups j other hother)⟩
  rintro j id ⟨other, hother, hopened⟩
  exact hs.registered j id ⟨other, hlookups j other hother, hopened⟩

/-! ## Steps -/

/-- A step within the handler's own channels keeps them, open or closed. -/
theorem Sound.keeps (hs : s.Sound) (hlookup : s.tasks.lookup k = some task)
    (htasks : t.tasks = s.tasks.insert k task')
    (halloc : t.channelIdAlloc = s.channelIdAlloc) (hregistry : t.registry = s.registry)
    (hopened : task'.openedIds = task.openedIds) (hids : task'.ids = task.ids)
    (hclosed : ∀ id ∈ task'.closing, ¬ (task'.conn.channels.get id).isSome = true)
    (hexit : task'.conn.exit = none → task.conn.exit = none)
    (hkeeps : task.conn.channels.Keeps task'.conn.channels) :
    t.Sound := by
  refine hs.shrink hlookup htasks (Or.inl halloc) ?_ ?_ ?_ ?_ hclosed
  · rw [hids]
    exact fun id hid => hid
  · rw [hregistry]
    exact fun j id _ hopened => hs.registered j id hopened
  · intro hnone id hget
    rw [hids]
    exact hs.own k task hlookup (hexit hnone) id (hkeeps.isSome hget)
  · intro hnone id hid hget
    rw [hregistry]
    exact hs.registered k id
      ⟨task, hlookup, hexit hnone, hopened ▸ hid, hkeeps.isSome hget⟩

/-- A frame or a broadcast is handled in one go, within the handler's own
channels. -/
theorem Sound.handled (hs : s.Sound) (hlookup : s.tasks.lookup k = some task)
    {conn : Connection} (hsteady : task.steady = true)
    (hkeeps : task.conn.channels.Keeps conn.channels) :
    (s.withTask k { task with conn }).Sound := by
  refine hs.keeps hlookup rfl rfl rfl rfl rfl ?_
    (fun _ => ConnectionTask.exit_of_steady hsteady) hkeeps
  intro id hid hget
  exact hs.closed k task hlookup id hid (hkeeps.isSome hget)

/-- A channel is put in the map under an id that no channel has or had. -/
theorem Sound.openChannel (hs : s.Sound) (hlookup : s.tasks.lookup k = some task)
    {k' : ℕ} {clock : Clock} {request : OpenRequest}
    (h : s.taskStep sha cfg k task (.openChannel k' clock request) = some t) :
    t.Sound := by
  rw [taskStep] at h
  by_cases hwaits : task.waits = true
  swap
  · rw [if_neg hwaits] at h
    cases h
  rw [if_pos hwaits, Option.some.injEq] at h
  obtain ⟨hexit, hopening, hclosing⟩ := ConnectionTask.waits_iff.mp hwaits
  have hids : task.ids = task.openedIds := by
    rw [ConnectionTask.ids, hopening]
    exact List.append_nil _
  have hclosed : ∀ conn : Connection, ∀ id ∈ task.closing,
      ¬ (conn.channels.get id).isSome = true := by
    intro conn id hid
    rw [hclosing] at hid
    cases hid
  rcases start_cases sha cfg clock request (s.gateway task) with
    ⟨hnone, hrefuses, halloc, -⟩ |
      ⟨ch, gateway, channels, hstart, halloc, hopen, hconn, -⟩
  · subst h
    refine hs.ended hlookup rfl halloc ?_ hrefuses.exit
      (fun j id _ hopened => hs.registered j id hopened) (hclosed _)
    intro id hid
    rw [ConnectionTask.ids, hnone] at hid
    exact hids ▸ (List.append_nil task.openedIds) ▸ hid
  · rw [hstart] at h
    subst h
    have hfresh : ∀ j other, s.tasks.lookup j = some other → ch.channelId ∉ other.ids :=
      fun j other hother => (hs.above j other hother).not_mem halloc
    have hnew : ∀ id, (gateway.conn.channels.get id).isSome = true →
        id = ch.channelId ∨ (task.conn.channels.get id).isSome = true := by
      intro id hget
      rw [hconn] at hget
      obtain ⟨ch', hch'⟩ := Option.isSome_iff_exists.mp
        ((startVardiff_keeps cfg clock ch.channelId _).isSome hget)
      rcases ConnectionChannels.get_openChannel hopen hch' with ⟨hid, -⟩ | hold
      · exact Or.inl hid
      · exact Or.inr (by rw [show task.conn.channels.get id = _ from hold]; rfl)
    refine hs.update rfl (Or.inr (by rw [show s.channelIdAlloc.allocate = _ from halloc]; rfl))
      (fun j id _ hopened => hs.registered j id hopened) ?_ ?_ (hclosed _) ?_ ?_
    · intro _ id hget
      rcases hnew id hget with rfl | hold
      · exact List.mem_append_right _ List.mem_cons_self
      · exact mem_ids_of_opened (hids ▸ hs.own k task hlookup hexit id hold)
    · intro _ id hid hget
      rcases hnew id hget with rfl | hold
      · exact absurd (List.mem_append_left _ hid) (hfresh k task hlookup)
      · exact hs.registered k id ⟨task, hlookup, hexit, hid, hold⟩
    · intro j other hj hother id hid
      rcases List.mem_append.mp hid with hid | hid
      · exact hs.apart k j task other hlookup hother (Ne.symm hj) id (mem_ids_of_opened hid)
      · rw [List.mem_singleton.mp hid]
        exact hfresh j other hother
    · intro hlive id hid
      refine (hs.above k task hlookup).allocate_some halloc hlive id ?_
      rcases List.mem_append.mp hid with hid | hid
      · exact List.mem_cons_of_mem _ (mem_ids_of_opened hid)
      · rw [List.mem_singleton.mp hid]
        exact List.mem_cons_self

/-- The channel that is being opened is registered. -/
theorem Sound.register (hs : s.Sound) (hlookup : s.tasks.lookup k = some task)
    {k' : ℕ} {clock : Clock}
    (h : s.taskStep sha cfg k task (.register k' clock) = some t) :
    t.Sound := by
  rw [taskStep] at h
  split at h
  · rename_i request ch hopening
    cases h
    have hids : task.ids = task.openedIds ++ [ch.channelId] := by
      rw [ConnectionTask.ids, hopening]
      rfl
    have hregister : ∀ id ∈ s.registry, id ∈ s.registry.register
        (snapshotFromOpen clock.unixMs ch.channelId request.userIdentity task.peer) :=
      fun id hid => (AList.mem_insert _).mpr (Or.inr hid)
    refine hs.shrink hlookup rfl (Or.inl rfl) ?_ ?_ ?_ ?_ (hs.closed k task hlookup)
    · intro id hid
      rw [hids]
      exact (List.append_nil (task.openedIds ++ [ch.channelId])) ▸ hid
    · exact fun j id _ hopened => hregister id (hs.registered j id hopened)
    · intro hlive id hget
      have hid := hs.own k task hlookup hlive id hget
      rw [hids] at hid
      exact mem_ids_of_opened hid
    · intro hlive id hid hget
      rcases List.mem_append.mp hid with hid | hid
      · exact hregister id (hs.registered k id ⟨task, hlookup, hlive, hid, hget⟩)
      · rw [List.mem_singleton.mp hid]
        exact (AList.mem_insert _).mpr (Or.inl rfl)
  · cases h

theorem Sound.answer (hs : s.Sound) (hlookup : s.tasks.lookup k = some task)
    {k' : ℕ} {clock : Clock}
    (h : s.taskStep sha cfg k task (.answer k' clock) = some t) :
    t.Sound := by
  obtain ⟨task', hanswer, rfl⟩ := Option.map_eq_some_iff.mp h
  obtain ⟨hopened, hids, hclosing, hexit, hkeeps⟩ := ConnectionTask.answer_cases hanswer
  refine hs.keeps hlookup rfl rfl rfl hopened hids ?_ hexit hkeeps
  intro id hid hget
  rw [hclosing] at hid
  exact hs.closed k task hlookup id hid (hkeeps.isSome hget)

/-- A channel is closed in the map, if it is one of the connection's own. -/
theorem Sound.close (hs : s.Sound) (hlookup : s.tasks.lookup k = some task)
    {k' : ℕ} {channelId : UInt32}
    (h : s.taskStep sha cfg k task (.close k' channelId) = some t) :
    t.Sound := by
  rw [taskStep] at h
  split at h
  · rename_i hsteady
    cases h
    refine hs.keeps hlookup rfl rfl rfl rfl rfl ?_
      (fun _ => ConnectionTask.exit_of_steady hsteady)
      (handleCloseChannel_keeps channelId task.conn)
    intro id hid hget
    cases hid
    rw [ConnectionChannels.get_closeChannel_self] at hget
    cases hget
  · cases h

/-- A channel that is no other connection's leaves the registry. -/
theorem Sound.unregister (hs : s.Sound) (hlookup : s.tasks.lookup k = some task)
    {k' : ℕ} (hcond : ∀ channelId ∈ task.closing, ∀ j, j ≠ k → ¬ s.Opened j channelId)
    (h : s.taskStep sha cfg k task (.unregister k') = some t) :
    t.Sound := by
  rw [taskStep] at h
  split at h
  · cases h
  · rename_i channelId hclosing
    cases h
    have herase : ∀ id ∈ s.registry, id ≠ channelId →
        id ∈ s.registry.unregister channelId :=
      fun id hid hne => AList.mem_erase.mpr ⟨hne, hid⟩
    refine hs.shrink hlookup rfl (Or.inl rfl) (fun id hid => hid) ?_ ?_ ?_ ?_
    · intro j id hj hopened
      refine herase id (hs.registered j id hopened) ?_
      rintro rfl
      exact hcond id hclosing j hj hopened
    · intro hnone id hget
      exact hs.own k task hlookup (exit_of_endIfEmpty hnone) id hget
    · intro hnone id hid hget
      refine herase id (hs.registered k id
        ⟨task, hlookup, exit_of_endIfEmpty hnone, hid, hget⟩) ?_
      rintro rfl
      exact hs.closed k task hlookup id hclosing hget
    · intro id hid
      cases hid

/-- An ended connection takes its channels out of the registry one by one. -/
theorem Sound.cleanUp (hs : s.Sound) (hlookup : s.tasks.lookup k = some task)
    {k' : ℕ} (h : s.taskStep sha cfg k task (.cleanUp k') = some t) :
    t.Sound := by
  rw [taskStep] at h
  split at h
  · cases h
  · rename_i hexit
    rw [Option.isNone_iff_eq_none] at hexit
    split at h
    · cases h
      exact hs.erase
    · rename_i id openedIds hopenedIds
      cases h
      have hid : id ∈ task.ids := by
        apply mem_ids_of_opened
        rw [hopenedIds]
        exact List.mem_cons_self
      refine hs.ended hlookup rfl (Or.inl rfl) ?_ hexit ?_ (hs.closed k task hlookup)
      · intro id' hid'
        rw [ConnectionTask.ids, hopenedIds, List.cons_append]
        exact List.mem_cons_of_mem _ hid'
      · rintro j id' hj ⟨other, hother, hlive, hmem, hget⟩
        refine AList.mem_erase.mpr
          ⟨?_, hs.registered j id' ⟨other, hother, hlive, hmem, hget⟩⟩
        rintro rfl
        exact hs.apart k j task other hlookup hother (Ne.symm hj) _ hid
          (mem_ids_of_opened hmem)

theorem Sound.disconnect (hs : s.Sound) (hlookup : s.tasks.lookup k = some task)
    {k' : ℕ} {exit : HandlerExit}
    (h : s.taskStep sha cfg k task (.disconnect k' exit) = some t) :
    t.Sound := by
  rw [taskStep] at h
  split at h
  · cases h
    refine hs.ended hlookup rfl (Or.inl rfl) ?_ (Option.some_ne_none exit)
      (fun j id _ hopened => hs.registered j id hopened) (hs.closed k task hlookup)
    intro id hid
    exact mem_ids_of_opened ((List.append_nil task.openedIds) ▸ hid)
  · cases h

theorem Sound.accept (hs : s.Sound) (peer : String) :
    (s.withTask k { peer, conn := Connection.start cfg }).Sound := by
  refine hs.update rfl (Or.inl rfl) (fun j id _ hopened => hs.registered j id hopened)
    ?_ ?_ ?_ ?_ ?_
  · intro _ id hget
    cases hget
  · intro _ id hid
    cases hid
  · intro id hid
    cases hid
  · intro j other _ _ id hid
    cases hid
  · intro _ id hid
    cases hid

/-- What connection `k` is about to take out of the registry for a close frame. -/
def closing (k : ℕ) (s : Server) : Option UInt32 :=
  (s.tasks.lookup k).bind ConnectionTask.closing

/-- The channel that a close frame takes out of the registry is not one that
another connection registered and has open. -/
def ClosesOwn (s : Server) : ServerEvent → Prop
  | .unregister k => ∀ channelId ∈ s.closing k, ∀ j, j ≠ k → ¬ s.Opened j channelId
  | _ => True

theorem Sound.taskStep (hs : s.Sound) (hlookup : s.tasks.lookup k = some task)
    {event : ServerEvent} (hcond : ∀ k', event = .unregister k' →
      ∀ channelId ∈ task.closing, ∀ j, j ≠ k → ¬ s.Opened j channelId)
    (h : s.taskStep sha cfg k task event = some t) :
    t.Sound := by
  cases event with
  | announce clock template => cases h
  | updateShare unixMs channelId accepted => cases h
  | accept k' peer => cases h
  | openChannel k' clock request => exact hs.openChannel hlookup h
  | register k' clock => exact hs.register hlookup h
  | answer k' clock => exact hs.answer hlookup h
  | receive k' clock order job =>
      rw [Server.taskStep] at h
      split at h
      · rename_i hsteady
        cases h
        exact hs.handled hlookup hsteady (distributeJob_keeps _ _ _ _)
      · cases h
  | submit k' env submission =>
      rw [Server.taskStep] at h
      split at h
      · rename_i hsteady
        cases h
        exact hs.handled hlookup hsteady (handleShare_answers _ _ _ _).channels
      · cases h
  | close k' channelId => exact hs.close hlookup h
  | unregister k' => exact hs.unregister hlookup (hcond k' rfl) h
  | disconnect k' exit => exact hs.disconnect hlookup h
  | panic k' =>
      rw [Server.taskStep] at h
      split at h
      · cases h
        exact hs.erase
      · cases h
  | cleanUp k' => exact hs.cleanUp hlookup h

theorem Sound.step (hs : s.Sound) {event : ServerEvent} (hcond : s.ClosesOwn event)
    (h : s.step sha cfg event = some t) :
    t.Sound := by
  unfold Server.step at h
  split at h
  · cases h
    exact ⟨hs.own, hs.registered, hs.closed, hs.apart, hs.above⟩
  · cases h
    refine ⟨hs.own, ?_, hs.closed, hs.apart, hs.above⟩
    intro k id hopened
    exact ChannelRegistry.mem_updateShare (hs.registered k id hopened)
  · split at h
    · cases h
    · cases h
      exact hs.accept _
  all_goals
    obtain ⟨task, hlookup, hstep⟩ := Option.bind_eq_some_iff.mp h
    refine hs.taskStep hlookup ?_ hstep
    rintro k' hevent
    cases hevent
  intro channelId hclosing
  refine hcond channelId ?_
  rw [closing, hlookup]
  exact hclosing

/-! ## Isolation -/

/-- The channels of the other connections are as they were, and those that are
open are registered. -/
def Isolated (k : ℕ) (s t : Server) : Prop :=
  ∀ j, j ≠ k → t.tasks.lookup j = s.tasks.lookup j ∧
    ∀ id, s.Opened j id → id ∈ t.registry

/-- The event is a step of the handling of a close frame on connection `k`. -/
def HandlesClose (k : ℕ) : ServerEvent → Prop
  | .close j _ | .unregister j => j = k
  | _ => False

/-- A close frame changes the connection's own map, and then takes its channel
out of the registry. -/
theorem step_handlesClose {event : ServerEvent} (hevent : HandlesClose k event)
    (h : s.step sha cfg event = some t) :
    (∀ j, j ≠ k → t.tasks.lookup j = s.tasks.lookup j) ∧
      ((t.registry = s.registry ∧ ∃ channelId, event = .close k channelId) ∨
        ∃ channelId, event = .unregister k ∧ s.closing k = some channelId ∧
          t.registry = s.registry.unregister channelId) := by
  cases event with
  | close j channelId =>
      obtain rfl : j = k := hevent
      obtain ⟨task, -, hstep⟩ := Option.bind_eq_some_iff.mp h
      rw [taskStep] at hstep
      split at hstep
      · cases hstep
        exact ⟨fun i hi => AList.lookup_insert_ne hi, Or.inl ⟨rfl, channelId, rfl⟩⟩
      · cases hstep
  | unregister j =>
      obtain rfl : j = k := hevent
      obtain ⟨task, hlookup, hstep⟩ := Option.bind_eq_some_iff.mp h
      rw [taskStep] at hstep
      split at hstep
      · cases hstep
      · rename_i channelId hclosing
        cases hstep
        refine ⟨fun i hi => AList.lookup_insert_ne hi, Or.inr ⟨channelId, rfl, ?_, rfl⟩⟩
        rw [closing, hlookup]
        exact hclosing
  | _ => cases hevent

/-- In every run whose close frames take no open channels of other connections
out of the registry, every open channel is registered, and one more step of a
close frame leaves the channels of the other connections alone if and only if
it takes none of theirs out. -/
theorem isolated_iff_closesOwn (sha : Bytes → Bytes32) (cfg : HandlerConfig)
    (htwo : 2 ≤ cfg.extranoncePrefixLen) (height : cfg.extranoncePrefixLen ≤ 8)
    (retentionMs : UInt64) (maxEntries : ℕ) (events : List ServerEvent) (k : ℕ)
    (event : ServerEvent) (s t : Server)
    (hcond : Along (step sha cfg) ClosesOwn
      (initial cfg htwo height retentionMs maxEntries) events)
    (hrun : run (step sha cfg) (initial cfg htwo height retentionMs maxEntries)
      events = some s)
    (hevent : HandlesClose k event) (hstep : s.step sha cfg event = some t) :
    (∀ j id, s.Opened j id → id ∈ s.registry) ∧
      (s.Isolated k t ↔ s.ClosesOwn event) := by
  have hs : s.Sound :=
    invariant_of_along (fun _ _ _ hs hcond hstep => hs.step hcond hstep)
      (initial_sound cfg htwo height retentionMs maxEntries) hcond hrun
  obtain ⟨htasks, ⟨hregistry, channelId, rfl⟩ | ⟨channelId, rfl, hclosing, hregistry⟩⟩ :=
    step_handlesClose hevent hstep
  · refine ⟨hs.registered, iff_of_true ?_ trivial⟩
    intro j hj
    rw [hregistry]
    exact ⟨htasks j hj, hs.registered j⟩
  · refine ⟨hs.registered, ?_, ?_⟩
    · intro hisolated id hid j hj hopened
      have hmem := (hisolated j hj).2 id hopened
      cases hclosing.symm.trans hid
      rw [hregistry] at hmem
      exact (AList.mem_erase.mp hmem).1 rfl
    · intro hcloses j hj
      refine ⟨htasks j hj, ?_⟩
      intro id hopened
      rw [hregistry]
      refine AList.mem_erase.mpr ⟨?_, hs.registered j id hopened⟩
      rintro rfl
      exact hcloses id hclosing j hj hopened

instance (k : ℕ) (id : UInt32) (s : Server) : Decidable (s.Opened k id) :=
  inferInstanceAs (Decidable (∃ task ∈ s.tasks.lookup k, task.conn.exit = none ∧
    id ∈ task.openedIds ∧ (task.conn.channels.get id).isSome = true))

theorem closesOwn_unregister_iff :
    s.ClosesOwn (.unregister k) ↔ (s.closing k).all (fun channelId =>
      ∀ j ∈ s.tasks.keys, j ≠ k → ¬ s.Opened j channelId) = true := by
  simp only [Option.all_eq_true, decide_eq_true_eq]
  constructor
  · intro h channelId hclosing j _
    exact h channelId hclosing j
  · intro h channelId hclosing j hj hopened
    have ⟨task, hlookup, _⟩ := hopened
    exact h channelId hclosing j (AList.lookup_isSome.mp (by rw [hlookup]; rfl)) hj
      hopened

instance (s : Server) (event : ServerEvent) : Decidable (s.ClosesOwn event) :=
  match event with
  | .unregister _ => decidable_of_iff' _ closesOwn_unregister_iff
  | .announce .. | .updateShare .. | .accept .. | .openChannel .. | .register .. |
      .answer .. | .receive .. | .submit .. | .close .. | .disconnect .. | .panic _ |
      .cleanUp _ => isTrue trivial

/-- The gateway as it starts, with prefixes of four bytes. -/
def freshServer : Server :=
  initial (.permissive 4) (Nat.le_of_ble_eq_true rfl) (Nat.le_of_ble_eq_true rfl)
    300000 1000

/-- Open a channel up to its registration. -/
def registerOn (k : ℕ) : List ServerEvent :=
  [.openChannel k Session.wallClock (.standard ⟨1, "miner"⟩),
    .register k Session.wallClock]

/-- Open a channel to the end. -/
def openOn (k : ℕ) : List ServerEvent :=
  registerOn k ++ List.replicate 3 (.answer k Session.wallClock)

/-- The first connection opens channels 1 and 2, the second one opens channel 3
as far as given, and then the first one sends a close frame. -/
def twoMiners (second : List ServerEvent) (channelId : UInt32) : List ServerEvent :=
  [.accept 0 "10.0.0.1:3333", .accept 1 "10.0.0.2:3333"] ++ openOn 0 ++ openOn 0 ++
    second ++ [.close 0 channelId]

/-- Whether the second connection's channel is open and registered, before and
after the first one's close frame reaches the registry. -/
def finishClose (s : Server) : Option (Bool × Bool × Bool) :=
  (s.step sha256 (.permissive 4) (.unregister 0)).map fun t =>
    (decide (s.Opened 1 3), decide ((3 : UInt32) ∈ s.registry),
      decide ((3 : UInt32) ∈ t.registry))

theorem finishClose_eq (events : List ServerEvent) (tried : Bool × Bool × Bool)
    (h : (run (step sha256 (.permissive 4)) freshServer events).bind finishClose =
      some tried) :
    ∃ s t, run (step sha256 (.permissive 4)) freshServer events = some s ∧
      s.step sha256 (.permissive 4) (.unregister 0) = some t ∧
      (decide (s.Opened 1 3), decide ((3 : UInt32) ∈ s.registry),
        decide ((3 : UInt32) ∈ t.registry)) = tried := by
  obtain ⟨s, hrun, hs⟩ := Option.bind_eq_some_iff.mp h
  obtain ⟨t, hstep, ht⟩ := Option.map_eq_some_iff.mp hs
  exact ⟨s, t, hrun, hstep, ht⟩

/-- The first connection closes a channel of its own. The channel of the second
one, which is still to be answered, stays registered. -/
theorem isolated_iff_closesOwn_twoMiners :
    ∃ s t, run (step sha256 (.permissive 4)) freshServer
        (twoMiners (registerOn 1) 1) = some s ∧
      s.step sha256 (.permissive 4) (.unregister 0) = some t ∧ s.Opened 1 3 ∧
      (∀ j id, s.Opened j id → id ∈ s.registry) ∧
      (s.Isolated 0 t ↔ s.ClosesOwn (.unregister 0)) := by
  obtain ⟨s, t, hrun, hstep, htried⟩ :=
    finishClose_eq (twoMiners (registerOn 1) 1) (true, true, true) (by decide +kernel)
  simp only [Prod.mk.injEq, decide_eq_true_eq] at htried
  exact ⟨s, t, hrun, hstep, htried.1, isolated_iff_closesOwn _ _ _ _ _ _
    (twoMiners (registerOn 1) 1) 0 (.unregister 0) s t (by decide +kernel) hrun rfl hstep⟩

/-- The first connection names the channel of the second, which is open and
answered and leaves the registry. -/
theorem not_isolated_twoMiners :
    ∃ s t, run (step sha256 (.permissive 4)) freshServer
        (twoMiners (openOn 1) 3) = some s ∧
      s.step sha256 (.permissive 4) (.unregister 0) = some t ∧ ¬ s.Isolated 0 t := by
  obtain ⟨s, t, hrun, hstep, htried⟩ :=
    finishClose_eq (twoMiners (openOn 1) 3) (true, true, false) (by decide +kernel)
  simp only [Prod.mk.injEq, decide_eq_true_eq, decide_eq_false_iff_not] at htried
  refine ⟨s, t, hrun, hstep, ?_⟩
  intro hisolated
  exact htried.2.2 ((hisolated 1 (by decide)).2 3 htried.1)

end Server

end ReserveGrid.Gateway
