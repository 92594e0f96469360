import ReserveGrid.Gateway.VerifierIo
import ReserveGrid.Support.Pipe
import ReserveGrid.Verifier.Connection

/-!
# The link between gateway and verifier

One connection with both of its ends, each running its own code, and the bytes
that are under way between them. Every step of one end is a step of its machine;
the lines an end writes go into the stream, from which the other reads. The stream
may break off in either direction and after any byte.
-/

namespace ReserveGrid

open Support Bitcoin Protocol Gateway Verifier

namespace Gateway

/-- What a message asks the verifier for. -/
def VerifierOutbound.request : VerifierOutbound → Request
  | .templatePropose t => .propose t
  | .heartbeat => .heartbeat

def IoEvent.isLine : IoEvent → Bool
  | .line _ => true
  | _ => false

/-- The message that the loop begins to write. -/
def IoLoop.begun (s t : IoLoop) : List VerifierOutbound :=
  match s.pc, t.pc with
  | .selecting, .writing msg _ => [msg]
  | _, _ => []

end Gateway

namespace Verifier

def IngressLabel.isReadOf (c : ℕ) : IngressLabel → Bool
  | .read c' _ _ => c' = c
  | _ => false

/-- The answer that a connection writes. -/
def TcpConnection.outgoing (conn : TcpConnection) : List (Option Bool × Answer) :=
  match conn.pc with
  | .sending answer => [(conn.usesEnvelope, answer)]
  | _ => []

def IngressState.outgoing (s : IngressState) (c : ℕ) : List (Option Bool × Answer) :=
  (s.connections c).elim [] TcpConnection.outgoing

/-- The answer that the connection begins to write. -/
def IngressState.begun (s t : IngressState) (c : ℕ) : List (Option Bool × Answer) :=
  if (s.outgoing c).isEmpty then t.outgoing c else []

/-- An answer as the gateway has it. -/
def Answer.received (reread : Float → Float) : Answer → VerifierInbound
  | .ack => .heartbeatAck
  | .verdict v => .templateVerdict (v.received reread)

end Verifier

/-- Both ends and the bytes between them. What either end has done and begun to write
is kept for the statements about it. -/
structure VerifierLink where
  io : IoLoop
  ingress : IngressState
  toVerifier : Pipe := {}
  toGateway : Pipe := {}
  events : List IoEvent := []
  labels : List IngressLabel := []
  sent : List VerifierOutbound := []
  answered : List (Option Bool × Answer) := []

inductive LinkLabel where
  /-- A step of the gateway that reads no line. -/
  | gateway (event : IoEvent)
  /-- The gateway reads a line. -/
  | receive
  /-- A step of the verifier that reads no line of this connection. -/
  | verifier (label : IngressLabel)
  /-- The verifier reads a line of this connection. -/
  | deliver (now : ℕ)
  | cutToVerifier (n : ℕ)
  | cutToGateway (n : ℕ)

namespace VerifierLink

/-- The gateway has made a step. -/
def afterGateway (lib : JsonLib) (s : VerifierLink) (event : IoEvent) (io : IoLoop) :
    VerifierLink :=
  { s with
    io := io
    events := s.events ++ [event]
    sent := s.sent ++ s.io.begun io
    toVerifier := s.toVerifier.writes ((s.io.begun io).map (serializeOutbound lib)) }

/-- The verifier has made a step. -/
def afterVerifier (lib : JsonLib) (c : ℕ) (s : VerifierLink) (label : IngressLabel)
    (ingress : IngressState) : VerifierLink :=
  { s with
    ingress := ingress
    labels := s.labels ++ [label]
    answered := s.answered ++ s.ingress.begun ingress c
    toGateway := s.toGateway.writes
      ((s.ingress.begun ingress c).map fun p => p.2.line lib p.1) }

section

variable (lib : JsonLib) (btc : RustBitcoin) (sha : Bytes → Bytes32) (maxLog c : ℕ)

/-- One step of either end, or of the stream between them. -/
def step (s : VerifierLink) : LinkLabel → Option VerifierLink
  | .gateway event =>
      if event.isLine then none
      else (IoLoop.step lib s.io event).map (s.afterGateway lib event)
  | .receive =>
      s.toGateway.next.bind fun (line, rest) =>
        (IoLoop.step lib s.io (.line line)).map
          ({ s with toGateway := rest }.afterGateway lib (.line line))
  | .verifier label =>
      if label.isReadOf c then none
      else
        (IngressState.step lib btc sha maxLog s.ingress label).map
          (s.afterVerifier lib c label)
  | .deliver now =>
      s.toVerifier.next.bind fun (line, rest) =>
        (IngressState.step lib btc sha maxLog s.ingress (.read c now line)).map
          ({ s with toVerifier := rest }.afterVerifier lib c (.read c now line))
  | .cutToVerifier n => some { s with toVerifier := s.toVerifier.cut n }
  | .cutToGateway n => some { s with toGateway := s.toGateway.cut n }

end

/-- Both ends are there, and the connection is not made yet. -/
def start (interval now : ℕ) (policyLoaded : Bool) (counter : UInt64)
    (log : List LoggedVerdict) : VerifierLink where
  io := .start interval now policyLoaded
  ingress := .start counter log

end VerifierLink

/-! ## The lines of either end -/

section

variable {lib : JsonLib}

theorem isWholeLine_line (hlib : lib.Lawful) {v : JsonTree} (hv : v.Writable) :
    IsWholeLine (lib.write v ++ [10]) := by
  refine ⟨lib.write v, ?_, rfl⟩
  intro hmem
  exact absurd (hlib.printable v hv 10 hmem) (by decide)

theorem Gateway.VerifierOutbound.writable (msg : VerifierOutbound) :
    msg.message.payload.Writable := by
  rcases msg with t | _
  · exact t.writable_toJson
  · trivial

theorem isWholeLine_serializeOutbound (hlib : lib.Lawful) (msg : VerifierOutbound) :
    IsWholeLine (serializeOutbound lib msg) :=
  isWholeLine_line hlib (InternalMessage.writable_toJson msg.writable)

/-- The line of a message asks for what the message asks for. -/
theorem request_parseLine (hlib : lib.Lawful) (msg : VerifierOutbound) :
    (parseLine lib (serializeOutbound lib msg)).request = some msg.request := by
  rw [serializeOutbound, parseLine_message hlib msg.writable]
  rcases msg with t | _
  · change ((TemplatePropose.ofJson (t.toJson.mapFloat lib.reread)).map Request.propose) = _
    rw [t.mapFloat_toJson, t.ofJson_toJson]
    rfl
  · rfl

theorem request_part (hlib : lib.Lawful) (msg : VerifierOutbound) {part : Bytes}
    (hpart : part <+: serializeOutbound lib msg) :
    (parseLine lib part).request = none ∨
      (parseLine lib part).request = (parseLine lib (serializeOutbound lib msg)).request := by
  have hwritable := msg.writable
  rcases parseLine_part hlib hwritable hpart with hparse | hparse | hparse
  · exact .inl (by rw [hparse]; rfl)
  · exact .inl (by rw [hparse]; rfl)
  · right
    rw [serializeOutbound, hparse, parseLine_message hlib hwritable]

/-- No part of the line of a message looks like a bare proposal. -/
theorem format_part (hlib : lib.Lawful) (msg : VerifierOutbound) {part : Bytes}
    (hpart : part <+: serializeOutbound lib msg) :
    (parseLine lib part).format ≠ some false := by
  rcases parseLine_part hlib msg.writable hpart with
    hparse | hparse | hparse
  · rw [hparse]
    nofun
  · rw [hparse]
    nofun
  · rw [hparse]
    nofun

/-- The message of an answer to a gateway. -/
def Verifier.Answer.message : Answer → InternalMessage
  | .ack =>
      { msgType := InternalMessage.heartbeatAck
        version := protocolVersion
        payload := .obj [] }
  | .verdict v =>
      { msgType := InternalMessage.templateVerdict
        version := protocolVersion
        payload := v.toJson }

theorem Verifier.Answer.writable (a : Answer) : a.message.payload.Writable := by
  rcases a with _ | v
  · trivial
  · exact v.writable_toJson

theorem Verifier.Answer.line_envelope (a : Answer) :
    a.line lib (some true) = lib.write a.message.toJson ++ [10] := by
  rcases a with _ | v
  · rfl
  · rfl

/-- The line of an answer is dispatched as the answer. -/
theorem inboundOfLine_answer (hlib : lib.Lawful) (a : Answer) :
    IoLoop.inboundOfLine lib (a.line lib (some true)) = some (a.received lib.reread) := by
  rw [IoLoop.inboundOfLine, a.line_envelope,
    readEnvelope_message hlib a.writable, Option.bind_some]
  rcases a with _ | v
  · rfl
  · change (TemplateVerdict.ofJson (v.toJson.mapFloat lib.reread)).map
      VerifierInbound.templateVerdict = _
    rw [v.ofJson_mapFloat]
    rfl

theorem inboundOfLine_part (hlib : lib.Lawful) (a : Answer) {part : Bytes}
    (hpart : part <+: a.line lib (some true)) :
    IoLoop.inboundOfLine lib part = none ∨
      IoLoop.inboundOfLine lib part = IoLoop.inboundOfLine lib (a.line lib (some true)) := by
  rw [a.line_envelope] at hpart ⊢
  rcases readEnvelope_part hlib a.writable hpart with hread | hread
  · left
    rw [IoLoop.inboundOfLine, hread, Option.bind_none]
  · right
    rw [IoLoop.inboundOfLine, IoLoop.inboundOfLine, hread]

end

/-! ## What the verifier has begun to write -/

namespace Verifier

/-- The answers of a connection, with the one it is writing. -/
def TcpConnection.given (conn : TcpConnection) : List (Option Bool × Answer) :=
  conn.sent ++ conn.outgoing

/-- Unless the connection is closed, it has begun these answers. -/
def IngressState.Given (s : IngressState) (c : ℕ) (answered : List (Option Bool × Answer)) :
    Prop :=
  match s.connections c with
  | none => answered = []
  | some conn => conn.pc = .closed ∨ answered = conn.given

section

variable {lib : JsonLib} {btc : RustBitcoin} {sha : Bytes → Bytes32} {maxLog c : ℕ}
  {s t : IngressState} {a : IngressLabel} {conn conn' : TcpConnection}
  {answered : List (Option Bool × Answer)}

theorem IngressState.begun_of_eq (h : t.connections c = s.connections c) :
    s.begun t c = [] := by
  have houtgoing : t.outgoing c = s.outgoing c := by rw [outgoing, h, outgoing]
  rw [begun, houtgoing]
  split
  · exact List.isEmpty_iff.mp ‹_›
  · rfl

theorem IngressState.Given.of_eq (h : s.Given c answered)
    (heq : t.connections c = s.connections c) : t.Given c (answered ++ s.begun t c) := by
  rw [begun_of_eq heq, List.append_nil, Given, heq]
  exact h

theorem IngressState.begun_of_some (hs : s.connections c = some conn)
    (ht : t.connections c = some conn') :
    s.begun t c = if conn.outgoing.isEmpty then conn'.outgoing else [] := by
  rw [begun, outgoing, outgoing, hs, ht]
  rfl

/-- A connection that is not writing begins the answer that it is writing next. -/
theorem IngressState.Given.of_idle (h : s.Given c answered)
    (hs : s.connections c = some conn) (ht : t.connections c = some conn')
    (hopen : conn.pc ≠ .closed) (hidle : conn.outgoing = [])
    (hsent : conn'.sent = conn.sent) : t.Given c (answered ++ s.begun t c) := by
  rw [Given, hs] at h
  rcases h with hclosed | h
  · exact absurd hclosed hopen
  · rw [Given, ht]
    right
    rw [begun_of_some hs ht, hidle, h, TcpConnection.given, hidle, List.append_nil,
      TcpConnection.given, hsent]
    rfl

theorem TcpConnection.read_sent (conn : TcpConnection) (now : ℕ) (line : ParsedLine) :
    (conn.read now line).sent = conn.sent := by
  rcases conn.read_cases now line with ⟨-, hread⟩ | ⟨-, hread⟩ | ⟨t, -, hread⟩ |
    ⟨-, cadence, shedAfterMs, hread⟩
  all_goals rw [hread]

theorem IngressState.Given.step (h : s.Given c answered)
    (hstep : IngressState.step lib btc sha maxLog s a = some t) :
    t.Given c (answered ++ s.begun t c) := by
  have hother : ∀ (u : IngressState) (c' : ℕ) (new : TcpConnection),
      c ≠ c' → t = u.set c' new → u.connections = s.connections →
      t.Given c (answered ++ s.begun t c) := by
    rintro u c' new hne rfl hsame
    refine h.of_eq ?_
    rw [set_connections, if_neg hne, hsame]
  have hself : ∀ (u : IngressState) (new : TcpConnection), t = u.set c new →
      t.connections c = some new := by
    rintro u new rfl
    rw [set_connections, if_pos rfl]
  rcases step_cases hstep with ⟨c', started, shedAfterMs, rfl, hnone, ht⟩ |
    ⟨c', now, line, conn, rfl, hconn, hpc, ht⟩ |
    ⟨c', ctx, timestamp, conn, template, rfl, hconn, hpc, ht⟩ |
    ⟨c', conn, logged, v, rfl, hconn, hpc, ht⟩ | ⟨c', conn, answer, rfl, hconn, hpc, ht⟩ |
    ⟨c', conn, rfl, hconn, -, ht⟩
  · by_cases hc : c = c'
    · subst hc
      have hnew := hself _ _ ht
      rw [Given, hnone] at h
      rw [Given, hnew]
      right
      rw [h, begun, outgoing, outgoing, hnone, hnew]
      rfl
    · exact hother _ _ _ hc ht rfl
  · by_cases hc : c = c'
    · subst hc
      exact h.of_idle hconn (hself _ _ ht) (by simp [hpc])
        (by simp [TcpConnection.outgoing, hpc]) (conn.read_sent now _)
    · exact hother _ _ _ hc ht rfl
  · by_cases hc : c = c'
    · subst hc
      exact h.of_idle hconn (hself _ _ ht) (by simp [hpc])
        (by simp [TcpConnection.outgoing, hpc]) rfl
    · exact hother _ _ _ hc ht rfl
  · by_cases hc : c = c'
    · subst hc
      exact h.of_idle hconn (hself _ _ ht) (by simp [hpc])
        (by simp [TcpConnection.outgoing, hpc]) rfl
    · exact hother _ _ _ hc ht rfl
  · by_cases hc : c = c'
    · subst hc
      have hnew := hself _ _ ht
      have hwriting : conn.outgoing = [(conn.usesEnvelope, answer)] := by
        rw [TcpConnection.outgoing, hpc]
      rw [Given, hconn] at h
      rcases h with hclosed | h
      · rw [hpc] at hclosed
        cases hclosed
      · rw [Given, hnew]
        right
        rw [begun_of_some hconn hnew, hwriting, h, TcpConnection.given, hwriting,
          TcpConnection.given]
        simp [TcpConnection.outgoing]
    · exact hother _ _ _ hc ht rfl
  · by_cases hc : c = c'
    · subst hc
      rw [Given, hself _ _ ht]
      exact .inl rfl
    · exact hother _ _ _ hc ht rfl

/-- An answer that was begun is being written. -/
theorem IngressState.mem_begun {p : Option Bool × Answer} (hp : p ∈ s.begun t c) :
    ∃ conn, t.connections c = some conn ∧ conn.pc = .sending p.2 ∧
      p.1 = conn.usesEnvelope ∧ s.begun t c = conn.outgoing := by
  rw [begun] at hp ⊢
  split at hp
  · rw [if_pos ‹_›]
    rw [outgoing] at hp ⊢
    rcases hconn : t.connections c with _ | conn
    · rw [hconn] at hp
      cases hp
    · rw [hconn] at hp
      refine ⟨conn, rfl, ?_⟩
      change p ∈ conn.outgoing at hp
      rw [TcpConnection.outgoing] at hp
      split at hp
      · rename_i answer hpc
        cases List.mem_singleton.mp hp
        exact ⟨hpc, rfl, rfl⟩
      · cases hp
  · cases hp

/-- The log only grows. -/
theorem IngressState.appended_prefix
    (hstep : IngressState.step lib btc sha maxLog s a = some t) :
    s.appended <+: t.appended := by
  rcases step_cases hstep with ⟨_, _, _, _, _, rfl⟩ | ⟨_, _, _, _, _, _, _, rfl⟩ |
    ⟨_, _, _, _, _, _, _, _, rfl⟩ | ⟨c', conn, logged, v, _, _, _, rfl⟩ |
    ⟨_, _, _, _, _, _, rfl⟩ | ⟨_, _, _, _, _, rfl⟩
  case inr.inr.inr.inl => exact List.prefix_append _ _
  all_goals exact List.prefix_rfl

end

end Verifier

/-! ## Runs of the link -/

namespace VerifierLink

/-- How a link was set up: the clock of the gateway, the log the verifier loaded, and
the number of the connection. -/
structure Setup where
  interval : ℕ
  now : ℕ
  policyLoaded : Bool
  maxLog : ℕ
  counter : UInt64
  before : List LoggedVerdict
  c : ℕ

def Setup.link (setup : Setup) : VerifierLink :=
  start setup.interval setup.now setup.policyLoaded setup.counter
    (setup.before.rtake setup.maxLog)

/-- Each end has run its own machine on what the other one wrote. -/
structure Sound (lib : JsonLib) (btc : RustBitcoin) (sha : Bytes → Bytes32) (setup : Setup)
    (s : VerifierLink) : Prop where
  io : run (IoLoop.step lib) setup.link.io s.events = some s.io
  ingress : run (IngressState.step lib btc sha setup.maxLog) setup.link.ingress s.labels =
    some s.ingress
  received : IoLoop.linesRead s.events = s.toGateway.read
  delivered : linesOf lib setup.c s.labels = s.toVerifier.read.map (parseLine lib)
  sent : s.toVerifier.written = s.sent.map (serializeOutbound lib)
  written : s.toGateway.written = s.answered.map fun p => p.2.line lib (some true)
  toVerifier : s.toVerifier.Sound
  toGateway : s.toGateway.Sound
  given : s.ingress.Given setup.c s.answered
  answers : s.answered.map Prod.snd <+:
    answersTo btc sha (requestsOf (linesOf lib setup.c s.labels))
      (contextsOf setup.c s.labels)
  logged : ∀ p ∈ s.answered, ∀ v, p.2 = .verdict v →
    ∃ logged, (setup.c, logged) ∈ s.ingress.appended ∧ logged.Records v

section

variable {lib : JsonLib} {btc : RustBitcoin} {sha : Bytes → Bytes32} {setup : Setup}
  {s t : VerifierLink} {rest : Pipe}

theorem sound_start (lib : JsonLib) (btc : RustBitcoin) (sha : Bytes → Bytes32)
    (setup : Setup) : setup.link.Sound lib btc sha setup where
  io := rfl
  ingress := rfl
  received := rfl
  delivered := rfl
  sent := rfl
  written := rfl
  toVerifier := Pipe.sound_new
  toGateway := Pipe.sound_new
  given := rfl
  answers := List.nil_prefix
  logged _ hp := absurd hp List.not_mem_nil

/-- A step of the gateway, with what it has left of its stream. -/
theorem Sound.gateway (hlib : lib.Lawful) (h : s.Sound lib btc sha setup) {event : IoEvent}
    {io : IoLoop} (hstep : IoLoop.step lib s.io event = some io) (hrest : rest.Sound)
    (hwritten : rest.written = s.toGateway.written)
    (hread : rest.read = s.toGateway.read ++ IoLoop.linesRead [event]) :
    ({ s with toGateway := rest }.afterGateway lib event io).Sound lib btc sha setup where
  io := run_concat h.io hstep
  ingress := h.ingress
  received := by
    change IoLoop.linesRead (s.events ++ [event]) = rest.read
    rw [IoLoop.linesRead_append, h.received, hread]
  delivered := by
    change linesOf lib setup.c s.labels = (s.toVerifier.writes _).read.map (parseLine lib)
    rw [Pipe.writes_read, h.delivered]
  sent := by
    change (s.toVerifier.writes _).written = (s.sent ++ s.io.begun io).map _
    rw [Pipe.writes_written, h.sent, List.map_append]
  written := hwritten.trans h.written
  toVerifier := by
    refine h.toVerifier.writes ?_
    intro line hline
    obtain ⟨msg, -, rfl⟩ := List.mem_map.mp hline
    exact isWholeLine_serializeOutbound hlib msg
  toGateway := hrest
  given := h.given
  answers := h.answers
  logged := h.logged

/-- The lines of a gateway are in envelopes, as far as they arrive. -/
theorem formatOf_read (hlib : lib.Lawful) {p : Pipe} {sent : List VerifierOutbound}
    (hp : p.Sound) (hsent : p.written = sent.map (serializeOutbound lib)) :
    formatOf (p.read.map (parseLine lib)) ≠ some false := by
  intro heq
  rw [formatOf, List.findSome?_eq_some_iff] at heq
  obtain ⟨before, parsed, after, hlines, hformat, -⟩ := heq
  have hmem : parsed ∈ p.read.map (parseLine lib) := by
    rw [hlines]
    simp
  obtain ⟨part, hpart, rfl⟩ := List.mem_map.mp hmem
  obtain ⟨line, hline, hprefix⟩ := hp.truncates.exists_prefix hpart
  rw [hsent] at hline
  obtain ⟨msg, -, rfl⟩ := List.mem_map.mp hline
  exact format_part hlib msg hprefix hformat

theorem exists_of_forall₂ {α β : Type} {R : α → β → Prop} {as : List α} {bs : List β}
    {b : β} (h : List.Forall₂ R as bs) (hb : b ∈ bs) : ∃ a ∈ as, R a b := by
  induction h with
  | nil => cases hb
  | cons hab _ ih =>
      rcases List.mem_cons.mp hb with rfl | hb
      · exact ⟨_, List.mem_cons_self, hab⟩
      · obtain ⟨a, ha, hR⟩ := ih hb
        exact ⟨a, List.mem_cons_of_mem _ ha, hR⟩

/-- A step of the verifier, with what it has left of its stream. -/
theorem Sound.verifier (hlib : lib.Lawful) (h : s.Sound lib btc sha setup)
    {label : IngressLabel} {ingress : IngressState}
    (hstep : IngressState.step lib btc sha setup.maxLog s.ingress label = some ingress)
    (hrest : rest.Sound) (hwritten : rest.written = s.toVerifier.written)
    (hread : rest.read.map (parseLine lib) =
      s.toVerifier.read.map (parseLine lib) ++ linesOf lib setup.c [label]) :
    ({ s with toVerifier := rest }.afterVerifier lib setup.c label ingress).Sound lib btc sha
      setup := by
  have hrun := run_concat h.ingress hstep
  have hlines : linesOf lib setup.c (s.labels ++ [label]) = rest.read.map (parseLine lib) := by
    rw [IngressState.linesOf_append, h.delivered, hread]
  have hbegun : ∀ p ∈ s.ingress.begun ingress setup.c, p.1 = some true ∧
      (s.answered ++ s.ingress.begun ingress setup.c).map Prod.snd =
        answersTo btc sha (requestsOf (linesOf lib setup.c (s.labels ++ [label])))
          (contextsOf setup.c (s.labels ++ [label])) ∧
      ∀ v, p.2 = .verdict v →
        ∃ logged, (setup.c, logged) ∈ ingress.appended ∧ logged.Records v := by
    intro p hp
    obtain ⟨conn, hconn, hpc, hformat, hout⟩ := IngressState.mem_begun hp
    have hsound := (IngressState.sound_of_run hrun).conns _ _ hconn
    have hlogged := (IngressState.logSound_of_run hrun).logged _ _ hconn
    have hgiven := h.given.step hstep
    rw [IngressState.Given, hconn] at hgiven
    have hall := hsound.answers
    simp only [TcpConnection.Answers, hpc] at hall
    simp only [TcpConnection.Logged, hpc] at hlogged
    refine ⟨?_, ?_, ?_⟩
    · have hsome := hsound.settled (.inr (by rw [hpc]; rfl))
      have hnot := formatOf_read hlib hrest (hwritten.trans h.sent)
      rw [← hlines, ← hsound.format] at hnot
      rw [hformat]
      rcases huses : conn.usesEnvelope with _ | envelope
      · rw [huses] at hsome
        cases hsome
      · rw [huses] at hnot
        rcases envelope with _ | _
        · exact absurd rfl hnot
        · rfl
    · rcases hgiven with hclosed | hgiven
      · rw [hpc] at hclosed
        cases hclosed
      · rw [hgiven, TcpConnection.given, TcpConnection.outgoing, hpc, List.map_append]
        exact hall.2
    · intro v hv
      rw [hv] at hlogged
      obtain ⟨logged, hmem, hrecords⟩ :=
        exists_of_forall₂ hlogged (List.mem_append_right _ List.mem_cons_self)
      obtain ⟨entry, hentry, rfl⟩ := List.mem_map.mp hmem
      obtain ⟨hentry, hc⟩ := List.mem_filter.mp hentry
      have hc : entry.1 = setup.c := by simpa using hc
      refine ⟨entry.2, ?_, hrecords⟩
      rw [← hc]
      exact hentry
  refine ⟨h.io, hrun, h.received.trans (Pipe.writes_read _ _).symm, hlines,
    hwritten.trans h.sent, ?_, hrest, ?_, h.given.step hstep, ?_, ?_⟩
  · change (s.toGateway.writes _).written = (s.answered ++ _).map _
    rw [Pipe.writes_written, h.written, List.map_append, List.append_cancel_left_eq]
    refine List.map_congr_left ?_
    intro p hp
    rw [(hbegun p hp).1]
  · refine h.toGateway.writes ?_
    intro line hline
    obtain ⟨p, hp, rfl⟩ := List.mem_map.mp hline
    rw [(hbegun p hp).1, p.2.line_envelope]
    exact isWholeLine_line hlib (InternalMessage.writable_toJson p.2.writable)
  · change (s.answered ++ s.ingress.begun ingress setup.c).map Prod.snd <+: _
    rcases hnew : s.ingress.begun ingress setup.c with _ | ⟨p, ps⟩
    · have hmore : answersTo btc sha (requestsOf (linesOf lib setup.c s.labels))
          (contextsOf setup.c s.labels) <+:
          answersTo btc sha (requestsOf (linesOf lib setup.c (s.labels ++ [label])))
            (contextsOf setup.c (s.labels ++ [label])) := by
        rw [IngressState.linesOf_append, IngressState.contextsOf_append, requestsOf,
          requestsOf, List.filterMap_append]
        exact answersTo_prefix _ _ _ _
      rw [List.append_nil]
      exact h.answers.trans hmore
    · have hmem : p ∈ s.ingress.begun ingress setup.c := by
        rw [hnew]
        exact List.mem_cons_self
      have hall := (hbegun p hmem).2.1
      rw [hnew] at hall
      rw [hall]
      exact List.prefix_rfl
  · intro p hp v hv
    rcases List.mem_append.mp hp with hp | hp
    · obtain ⟨logged, hmem, hrecords⟩ := h.logged p hp v hv
      exact ⟨logged, (IngressState.appended_prefix hstep).subset hmem, hrecords⟩
    · exact (hbegun p hp).2.2 v hv

theorem linesRead_of_not_isLine {event : IoEvent} (h : ¬ event.isLine) :
    IoLoop.linesRead [event] = [] := by
  rcases event with _ | bytes | _ | _ | _ | _ | _ | _ | _
  case line => exact absurd rfl h
  all_goals rfl

theorem linesOf_of_not_isReadOf {c : ℕ} {label : IngressLabel} (h : ¬ label.isReadOf c) :
    linesOf lib c [label] = [] := by
  rcases label with _ | ⟨c', now, line⟩ | _ | _ | _ | _
  case read =>
    have hne : c' ≠ c := fun heq => h (by simp [IngressLabel.isReadOf, heq])
    simp [linesOf, hne]
  all_goals rfl

theorem Sound.step (hlib : lib.Lawful) (h : s.Sound lib btc sha setup) {label : LinkLabel}
    (hstep : VerifierLink.step lib btc sha setup.maxLog setup.c s label = some t) :
    t.Sound lib btc sha setup := by
  rcases label with event | _ | label | now | n | n
  · rw [VerifierLink.step] at hstep
    split at hstep
    · cases hstep
    · rename_i hline
      obtain ⟨io, hio, rfl⟩ := Option.map_eq_some_iff.mp hstep
      refine h.gateway hlib hio h.toGateway rfl ?_
      rw [linesRead_of_not_isLine hline, List.append_nil]
  · obtain ⟨⟨line, rest⟩, hnext, hstep⟩ := Option.bind_eq_some_iff.mp hstep
    obtain ⟨io, hio, rfl⟩ := Option.map_eq_some_iff.mp hstep
    obtain ⟨hrest, hread, hwritten, -⟩ := h.toGateway.next hnext
    exact h.gateway hlib hio hrest hwritten hread
  · rw [VerifierLink.step] at hstep
    split at hstep
    · cases hstep
    · rename_i hread
      obtain ⟨ingress, hingress, rfl⟩ := Option.map_eq_some_iff.mp hstep
      refine h.verifier hlib hingress h.toVerifier rfl ?_
      rw [linesOf_of_not_isReadOf hread, List.append_nil]
  · obtain ⟨⟨line, rest⟩, hnext, hstep⟩ := Option.bind_eq_some_iff.mp hstep
    obtain ⟨ingress, hingress, rfl⟩ := Option.map_eq_some_iff.mp hstep
    obtain ⟨hrest, hread, hwritten, -⟩ := h.toVerifier.next hnext
    refine h.verifier hlib hingress hrest hwritten ?_
    rw [hread, List.map_append]
    simp [linesOf]
  · cases hstep
    exact { h with toVerifier := h.toVerifier.cut n }
  · cases hstep
    exact { h with toGateway := h.toGateway.cut n }

theorem sound_of_run (hlib : lib.Lawful) {labels : List LinkLabel}
    (hrun : run (VerifierLink.step lib btc sha setup.maxLog setup.c) setup.link labels =
      some s) : s.Sound lib btc sha setup :=
  invariant_of_run (fun _ _ _ h hstep => Sound.step hlib h hstep)
    (sound_start lib btc sha setup) hrun

/-- The verifier was asked what the gateway sent, as far as it has arrived. -/
theorem Sound.requests_prefix (hlib : lib.Lawful) (h : s.Sound lib btc sha setup) :
    requestsOf (linesOf lib setup.c s.labels) <+: s.sent.map VerifierOutbound.request := by
  have hwritten : s.toVerifier.written.filterMap (fun line => (parseLine lib line).request) =
      s.sent.map VerifierOutbound.request := by
    rw [h.sent, List.filterMap_map, ← List.filterMap_eq_map]
    exact List.filterMap_congr fun msg _ => request_parseLine hlib msg
  rw [h.delivered, requestsOf, List.filterMap_map, ← hwritten]
  refine h.toVerifier.truncates.filterMap_prefix ?_
  intro line hline part hpart
  rw [h.sent] at hline
  obtain ⟨msg, -, rfl⟩ := List.mem_map.mp hline
  exact request_part hlib msg hpart

theorem Sound.inbound_written (hlib : lib.Lawful) (h : s.Sound lib btc sha setup) :
    s.toGateway.written.filterMap (IoLoop.inboundOfLine lib) =
      (s.answered.map Prod.snd).map (Answer.received lib.reread) := by
  rw [h.written, List.filterMap_map, List.map_map, ← List.filterMap_eq_map]
  exact List.filterMap_congr fun p _ => inboundOfLine_answer hlib p.2

/-- The gateway has dispatched what the verifier has answered, as far as it has
arrived. -/
theorem Sound.inbound_prefix (hlib : lib.Lawful) (h : s.Sound lib btc sha setup) :
    s.io.inbound <+: (s.answered.map Prod.snd).map (Answer.received lib.reread) := by
  rw [(IoLoop.relays_of_run h.io).inbound, h.received, ← h.inbound_written hlib]
  refine h.toGateway.truncates.filterMap_prefix ?_
  intro line hline part hpart
  rw [h.written] at hline
  obtain ⟨p, -, rfl⟩ := List.mem_map.mp hline
  exact inboundOfLine_part hlib p.2 hpart

/-- No line that the verifier sent is malformed, but its last may be cut short. -/
theorem Sound.malformed_le (hlib : lib.Lawful) (h : s.Sound lib btc sha setup) :
    s.io.malformedCount ≤ 1 := by
  rw [(IoLoop.relays_of_run h.io).strikes, h.received]
  refine h.toGateway.truncates.countP_le ?_
  intro line hline
  rw [h.written] at hline
  obtain ⟨p, -, rfl⟩ := List.mem_map.mp hline
  rw [p.2.line_envelope, readEnvelope_message hlib p.2.writable]
  rfl

theorem verdictFor_id (btc : RustBitcoin) (sha : Bytes → Bytes32) (ctx : IngressContext)
    (t : TemplatePropose) : (verdictFor btc sha ctx t).id = t.id := by
  rw [verdictFor]
  split
  · rfl
  · rfl

/-- A verdict that was answered is one of a proposal of the gateway. -/
theorem Sound.verdict_of_answered (hlib : lib.Lawful) (h : s.Sound lib btc sha setup)
    {v : TemplateVerdict}
    (hv : .templateVerdict v ∈ (s.answered.map Prod.snd).map (Answer.received lib.reread)) :
    ∃ t ctx logged, .templatePropose t ∈ s.sent ∧ ctx ∈ contextsOf setup.c s.labels ∧
      v = (verdictFor btc sha ctx t).received lib.reread ∧ v.id = t.id ∧
      (setup.c, logged) ∈ s.ingress.appended ∧
      logged.Records (verdictFor btc sha ctx t) := by
  obtain ⟨answer, hanswer, hreceived⟩ := List.mem_map.mp hv
  obtain ⟨p, hp, rfl⟩ := List.mem_map.mp hanswer
  rcases hverdict : p.2 with _ | v'
  · rw [hverdict] at hreceived
    cases hreceived
  · rw [hverdict] at hreceived hanswer
    obtain ⟨t, ctx, ht, hctx, rfl⟩ := mem_answersTo (h.answers.subset hanswer)
    obtain ⟨logged, hlogged, hrecords⟩ := h.logged p hp _ hverdict
    have hv := VerifierInbound.templateVerdict.inj hreceived
    have hsent := (h.requests_prefix hlib).subset ht
    obtain ⟨msg, hmsg, hrequest⟩ := List.mem_map.mp hsent
    rcases msg with t' | _
    · cases hrequest
      refine ⟨t, ctx, logged, hmsg, hctx, hv.symm, ?_, hlogged, hrecords⟩
      rw [← hv]
      exact verdictFor_id btc sha ctx t
    · cases hrequest

/-- Whatever either end does, and wherever the connection breaks off, what the gateway
dispatches are the verifier's answers to the messages of the gateway, in their order
and none twice. Each verdict is one of a proposal that the gateway sent, under its id,
and stands in the verifier's log; at most one line is malformed, the last. -/
theorem verifier_link_agrees (lib : JsonLib) (hlib : lib.Lawful) (btc : RustBitcoin)
    (sha : Bytes → Bytes32) (setup : Setup) (labels : List LinkLabel) (s : VerifierLink)
    (hrun : run (VerifierLink.step lib btc sha setup.maxLog setup.c) setup.link labels =
      some s) :
    s.io.inbound <+:
        (answersTo btc sha (s.sent.map VerifierOutbound.request)
          (contextsOf setup.c s.labels)).map (Answer.received lib.reread) ∧
      s.io.malformedCount ≤ 1 ∧
      ∀ v, .templateVerdict v ∈ s.io.inbound →
        ∃ t ctx logged, .templatePropose t ∈ s.sent ∧ ctx ∈ contextsOf setup.c s.labels ∧
          v = (verdictFor btc sha ctx t).received lib.reread ∧ v.id = t.id ∧
          (setup.c, logged) ∈ s.ingress.appended ∧
          logged.Records (verdictFor btc sha ctx t) := by
  have hsound := sound_of_run hlib hrun
  have hinbound := hsound.inbound_prefix hlib
  refine ⟨hinbound.trans ?_, hsound.malformed_le hlib, ?_⟩
  · obtain ⟨more, hmore⟩ := hsound.requests_prefix hlib
    have hall : answersTo btc sha (requestsOf (linesOf lib setup.c s.labels))
        (contextsOf setup.c s.labels) <+:
        answersTo btc sha (s.sent.map VerifierOutbound.request)
          (contextsOf setup.c s.labels ++ []) := by
      rw [← hmore]
      exact answersTo_prefix _ more _ []
    rw [List.append_nil] at hall
    exact (hsound.answers.trans hall).map _
  · intro v hv
    exact hsound.verdict_of_answered hlib (hinbound.subset hv)

/-- Once nothing is under way on a connection that goes on, and the verifier reads
again, every message of the gateway was answered, once and in order. -/
theorem verifier_link_settles (lib : JsonLib) (hlib : lib.Lawful) (btc : RustBitcoin)
    (sha : Bytes → Bytes32) (setup : Setup) (labels : List LinkLabel) (s : VerifierLink)
    (conn : TcpConnection)
    (hrun : run (VerifierLink.step lib btc sha setup.maxLog setup.c) setup.link labels =
      some s)
    (hwhole : s.toVerifier.broken = false ∧ s.toGateway.broken = false)
    (harrived : s.toVerifier.pending = [] ∧ s.toGateway.pending = [])
    (hconn : s.ingress.connections setup.c = some conn) (hreading : conn.pc = .reading) :
    s.io.inbound =
        (answersTo btc sha (s.sent.map VerifierOutbound.request)
          (contextsOf setup.c s.labels)).map (Answer.received lib.reread) ∧
      s.io.inbound.length = s.sent.length := by
  have hsound := sound_of_run hlib hrun
  have hinbound : s.io.inbound =
      (s.answered.map Prod.snd).map (Answer.received lib.reread) := by
    rw [(IoLoop.relays_of_run hsound.io).inbound, hsound.received,
      hsound.toGateway.read_eq hwhole.2 harrived.2, hsound.inbound_written hlib]
  have hrequests : requestsOf (linesOf lib setup.c s.labels) =
      s.sent.map VerifierOutbound.request := by
    rw [hsound.delivered, hsound.toVerifier.read_eq hwhole.1 harrived.1, hsound.sent,
      requestsOf, List.filterMap_map, List.filterMap_map, ← List.filterMap_eq_map]
    exact List.filterMap_congr fun msg _ => request_parseLine hlib msg
  have hanswers := ((IngressState.sound_of_run hsound.ingress).conns _ conn hconn).answers
  simp only [TcpConnection.Answers, hreading, hrequests] at hanswers
  obtain ⟨hall, hsent⟩ := hanswers
  have hgiven := hsound.given
  rw [IngressState.Given, hconn] at hgiven
  have hanswered : s.answered.map Prod.snd =
      answersTo btc sha (s.sent.map VerifierOutbound.request)
        (contextsOf setup.c s.labels) := by
    rcases hgiven with hclosed | hgiven
    · rw [hreading] at hclosed
      cases hclosed
    · rw [hgiven, TcpConnection.given, TcpConnection.outgoing, hreading, List.append_nil,
        hsent]
  refine ⟨by rw [hinbound, hanswered], ?_⟩
  rw [hinbound, hanswered, List.length_map, answersTo_length hall, List.length_map]

end

/-! ## One proposal -/

section

variable {lib : JsonLib} {btc : RustBitcoin} {sha : Bytes → Bytes32} {maxLog c : ℕ}
  {s : VerifierLink} {p : Pipe} {line : Bytes}

/-- A line that was written to an idle stream is read. -/
theorem step_deliver {now : ℕ} {ingress : IngressState} (hpipe : s.toVerifier = p.write line)
    (hpending : p.pending = []) (hbroken : p.broken = false) (hline : IsWholeLine line)
    (hstep : IngressState.step lib btc sha maxLog s.ingress (.read c now line) =
      some ingress) :
    step lib btc sha maxLog c s (.deliver now) =
      some ({ s with
        toVerifier := { p.write line with
          read := p.read ++ [line]
          pending := [] } }.afterVerifier lib c (.read c now line) ingress) := by
  rw [step, hpipe, Pipe.next_write hpending hbroken hline, Option.bind_some]
  dsimp only
  rw [hstep]
  rfl

/-- No message is begun at the reading of a line. -/
theorem begun_line {io io' : IoLoop} (hstep : IoLoop.step lib io (.line line) = some io') :
    io.begun io' = [] := by
  have hpc : io.pc = .selecting ∧ io' = io.onLine lib line := by
    rcases IoLoop.step_cases hstep with ⟨_, hevent, -⟩ | ⟨bytes, hevent, hpc, rfl⟩ |
      ⟨_, -, -, -, hline, -⟩ | ⟨_, hevent, -⟩ | ⟨hevent, -⟩ | ⟨_, hevent, -⟩ |
      ⟨_, _, _, hevent, -⟩
    case inr.inl =>
      cases hevent
      exact ⟨hpc, rfl⟩
    case inr.inr.inl => exact absurd rfl (hline line)
    all_goals cases hevent
  rw [IoLoop.begun, hpc.1, hpc.2]
  rcases io.onLine_cases lib line with ⟨m, -, hread⟩ | ⟨-, hread⟩
  · rw [hread]
    dsimp only
    rw [hpc.1]
  · rw [hread]
    dsimp only
    rw [hpc.1]
    split
    · rename_i hwriting
      split at hwriting
      · cases hwriting
      · cases hwriting
    · rfl

theorem step_receive {io : IoLoop} (hpipe : s.toGateway = p.write line)
    (hpending : p.pending = []) (hbroken : p.broken = false) (hline : IsWholeLine line)
    (hstep : IoLoop.step lib s.io (.line line) = some io) :
    step lib btc sha maxLog c s .receive =
      some { s with
        io := io
        events := s.events ++ [.line line]
        toGateway := { p.write line with
          read := p.read ++ [line]
          pending := [] } } := by
  rw [step, hpipe, Pipe.next_write hpending hbroken hline, Option.bind_some]
  dsimp only
  rw [hstep, Option.map_some, afterGateway, begun_line hstep, List.append_nil]
  rfl

end

open CompactJson IngressState in
/-- The gateway proposes, and the verifier, with its policy gone, rejects. -/
def rejectedProposal : List LinkLabel :=
  [.verifier (.connect 0 0 0), .gateway (.outbound (.templatePropose shieldlessTemplate)),
    .deliver 5, .gateway (.poll .finished), .verifier (.evaluate 0 poisonedContext 9),
    .verifier (.record 0), .receive, .verifier (.send 0)]

def freshSetup : Setup where
  interval := 2000000000
  now := 0
  policyLoaded := false
  maxLog := 1000
  counter := 1
  before := []
  c := 0

theorem exists_rejectedProposal (btc : RustBitcoin) (sha : Bytes → Bytes32) :
    ∃ s conn, run (step CompactJson.lib btc sha 1000 0) freshSetup.link rejectedProposal =
        some s ∧ s.ingress.connections 0 = some conn ∧ conn.pc = .reading ∧
      s.sent.length = 1 ∧ s.toVerifier.broken = false ∧ s.toGateway.broken = false ∧
      s.toVerifier.pending = [] ∧ s.toGateway.pending = [] := by
  have hparse : parseLine CompactJson.lib
      (serializeOutbound CompactJson.lib (.templatePropose shieldlessTemplate)) = _ :=
    parseLine_message CompactJson.lib_lawful
      (Gateway.VerifierOutbound.writable (.templatePropose shieldlessTemplate))
  have hmessage := isWholeLine_serializeOutbound CompactJson.lib_lawful
    (.templatePropose shieldlessTemplate)
  have hanswer : IsWholeLine ((Answer.verdict (verdictFor btc sha poisonedContext
      shieldlessTemplate)).line CompactJson.lib (some true)) :=
    isWholeLine_line CompactJson.lib_lawful (InternalMessage.writable_toJson
      (Answer.writable (.verdict _)))
  refine ⟨_, _, run_cons_eq_some.mpr ⟨_, rfl, run_cons_eq_some.mpr ⟨_, rfl,
    run_cons_eq_some.mpr ⟨_, step_deliver rfl rfl rfl hmessage
      (IngressState.step_read rfl rfl hparse), run_cons_eq_some.mpr ⟨_, rfl,
        run_cons_eq_some.mpr ⟨_, rfl, run_cons_eq_some.mpr ⟨_, rfl,
          run_cons_eq_some.mpr ⟨_, step_receive rfl rfl rfl hanswer rfl,
            run_cons_eq_some.mpr ⟨_, rfl, rfl⟩⟩⟩⟩⟩⟩⟩⟩,
    rfl, rfl, rfl, rfl, rfl, rfl, rfl⟩

theorem verifier_link_agrees_rejectedProposal :
    ∃ s, run (step CompactJson.lib (RustBitcoin.reference sha256) sha256 1000 0)
        freshSetup.link rejectedProposal = some s ∧ s.sent.length = 1 ∧
      s.io.malformedCount ≤ 1 := by
  obtain ⟨s, conn, hrun, -, -, hlength, -⟩ :=
    exists_rejectedProposal (RustBitcoin.reference sha256) sha256
  have hagrees := verifier_link_agrees CompactJson.lib CompactJson.lib_lawful
    (RustBitcoin.reference sha256) sha256 freshSetup rejectedProposal s hrun
  exact ⟨s, hrun, hlength, hagrees.2.1⟩

theorem verifier_link_settles_rejectedProposal :
    ∃ s, run (step CompactJson.lib (RustBitcoin.reference sha256) sha256 1000 0)
        freshSetup.link rejectedProposal = some s ∧ s.io.inbound.length = 1 := by
  obtain ⟨s, conn, hrun, hconn, hpc, hlength, hwhole, hwhole', harrived, harrived'⟩ :=
    exists_rejectedProposal (RustBitcoin.reference sha256) sha256
  have hsettles := verifier_link_settles CompactJson.lib CompactJson.lib_lawful
    (RustBitcoin.reference sha256) sha256 freshSetup rejectedProposal s conn hrun
    ⟨hwhole, hwhole'⟩ ⟨harrived, harrived'⟩ hconn hpc
  exact ⟨s, hrun, hsettles.2.trans hlength⟩

end VerifierLink

end ReserveGrid
