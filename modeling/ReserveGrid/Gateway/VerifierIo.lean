import ReserveGrid.Support.CompactJson
import ReserveGrid.Support.Run
import ReserveGrid.Wire

/-!
# The stream to the verifier

The gateway keeps one connection to the verifier. Its loop reads lines first,
then sends what the main loop hands it, and on each tick of the heartbeat looks
how long the verifier has been silent: past three intervals it looks once more
after a turn of the runtime and then drops the connection. Time spent in a write
of a proposal is no silence; a write that moves no bytes is failed by its guard
after the same three intervals.

Times are counted in nanoseconds, of which there are arbitrarily many.
-/

namespace ReserveGrid.Gateway

open Support Protocol

/-! ## Messages -/

/-- Outbound message to send to the verifier. -/
inductive VerifierOutbound where
  | templatePropose (t : TemplatePropose)
  | heartbeat

/-- Inbound message received from the verifier. -/
inductive VerifierInbound where
  | templateVerdict (v : TemplateVerdict)
  | heartbeatAck

def VerifierOutbound.message : VerifierOutbound → InternalMessage
  | .templatePropose t =>
      { msgType := InternalMessage.templatePropose
        version := protocolVersion
        payload := t.toJson }
  | .heartbeat =>
      { msgType := InternalMessage.heartbeat
        version := protocolVersion
        payload := .obj [] }

/-- Serialize an outbound message as an NDJSON line. -/
def serializeOutbound (lib : JsonLib) (msg : VerifierOutbound) : Bytes :=
  lib.write msg.message.toJson ++ [10]

/-- White space of ASCII, without the vertical tab. -/
def isAsciiWhitespace (b : UInt8) : Bool :=
  b = 0x20 || b = 9 || b = 10 || b = 12 || b = 13

def trimAscii (bs : Bytes) : Bytes :=
  ((bs.dropWhile isAsciiWhitespace).reverse.dropWhile isAsciiWhitespace).reverse

/-- The envelope of a line. -/
def readEnvelope (lib : JsonLib) (line : Bytes) : Option InternalMessage :=
  (lib.read (trimAscii line)).bind InternalMessage.ofJson

/-- What an envelope is dispatched as. A payload that is no verdict and a type that
is not known are passed over. -/
def inboundOf (m : InternalMessage) : Option VerifierInbound :=
  if m.msgType = InternalMessage.templateVerdict then
    (TemplateVerdict.ofJson m.payload).map .templateVerdict
  else if m.msgType = InternalMessage.heartbeatAck then some .heartbeatAck
  else none

def VerifierInbound.isAck : VerifierInbound → Bool
  | .heartbeatAck => true
  | .templateVerdict _ => false

section

variable {lib : JsonLib}

/-- Nothing but the newline is trimmed off a line between braces. -/
theorem trimAscii_line (inner : Bytes) :
    trimAscii (0x7b :: (inner ++ [0x7d]) ++ [10]) = 0x7b :: (inner ++ [0x7d]) := by
  have hfirst : ¬ isAsciiWhitespace 0x7b := by decide
  have hlast : ¬ isAsciiWhitespace 0x7d := by decide
  have hnewline : isAsciiWhitespace 10 := by decide
  rw [trimAscii, List.cons_append, List.dropWhile_cons_of_neg hfirst]
  simp [List.dropWhile_cons_of_pos hnewline, List.dropWhile_cons_of_neg hlast]

theorem trimAscii_braces (inner : Bytes) :
    trimAscii (0x7b :: (inner ++ [0x7d])) = 0x7b :: (inner ++ [0x7d]) := by
  have hfirst : ¬ isAsciiWhitespace 0x7b := by decide
  have hlast : ¬ isAsciiWhitespace 0x7d := by decide
  rw [trimAscii, List.dropWhile_cons_of_neg hfirst]
  simp [List.dropWhile_cons_of_neg hlast]

/-- Behind a brace only the end is trimmed. -/
theorem trimAscii_prefix (rest : Bytes) : trimAscii (0x7b :: rest) <+: 0x7b :: rest := by
  have hfirst : ¬ isAsciiWhitespace 0x7b := by decide
  have hsuffix := List.dropWhile_suffix isAsciiWhitespace (l := (0x7b :: rest).reverse)
  rw [trimAscii, List.dropWhile_cons_of_neg hfirst]
  rwa [← List.reverse_prefix, List.reverse_reverse] at hsuffix

/-- The line of an envelope is read as the envelope. -/
theorem readEnvelope_message (hlib : lib.Lawful) {m : InternalMessage}
    (h : m.payload.Writable) :
    readEnvelope lib (lib.write m.toJson ++ [10]) =
      some { m with payload := m.payload.mapFloat lib.reread } := by
  obtain ⟨inner, hbraces⟩ := hlib.braces m.jsonFields
  have hread := hlib.read_write _ (InternalMessage.writable_toJson h)
  rw [InternalMessage.toJson] at hread ⊢
  rw [readEnvelope, hbraces, trimAscii_line, ← hbraces, hread, Option.bind_some,
    ← InternalMessage.toJson, InternalMessage.ofJson_mapFloat]

/-- A part of such a line is read as nothing or as the envelope. -/
theorem readEnvelope_part (hlib : lib.Lawful) {m : InternalMessage}
    (h : m.payload.Writable) {part : Bytes} (hpart : part <+: lib.write m.toJson ++ [10]) :
    readEnvelope lib part = none ∨
      readEnvelope lib part = readEnvelope lib (lib.write m.toJson ++ [10]) := by
  obtain ⟨inner, hbraces⟩ := hlib.braces m.jsonFields
  rw [← InternalMessage.toJson] at hbraces
  rcases List.prefix_concat_iff.mp hpart with rfl | hpart
  · exact .inr rfl
  · by_cases hwhole : part = lib.write m.toJson
    · right
      rw [readEnvelope, readEnvelope, hwhole, hbraces, trimAscii_line, trimAscii_braces]
    · left
      have htrim : trimAscii part <+: part := by
        rcases hcons : part with _ | ⟨b, rest⟩
        · exact List.prefix_rfl
        · rw [hcons, hbraces] at hpart
          rw [(List.cons_prefix_cons.mp hpart).1]
          exact trimAscii_prefix rest
      have hne : trimAscii part ≠ lib.write m.toJson := by
        intro heq
        rw [heq] at htrim
        exact hwhole (hpart.eq_of_length_le htrim.length_le)
      rw [readEnvelope, hlib.read_cut m.jsonFields (InternalMessage.writable_toJson h) _
        (htrim.trans hpart) hne, Option.bind_none]

end

/-! ## The guard of writes -/

/-- Heartbeat intervals the verifier may stay silent. -/
def readDeadlineBeats : ℕ := 3

/-- One turn of the runtime before a silent verifier is dropped. -/
def recheckSleep : ℕ := 1000000

/-- Fails a write that has moved no bytes for `stall`. The deadline is that of the
writes pending in a row. -/
structure StallGuard where
  stall : ℕ
  blocked : Option ℕ := none

namespace StallGuard

/-- The inner writer is not ready. -/
def pollStalled (g : StallGuard) (now : ℕ) : StallGuard × Bool :=
  let deadline := g.blocked.getD (now + g.stall)
  ({ g with blocked := some deadline }, deadline ≤ now)

/-- The inner writer is ready. -/
def moved (g : StallGuard) : StallGuard := { g with blocked := none }

end StallGuard

/-! ## The loop -/

/-- Why the loop ends. -/
inductive IoEnd where
  | readEnded
  | malformed
  | writeFailed
  | writeStalled
  | silent
  | shutdown
  deriving DecidableEq

/-- Where the loop stands: at its select, in a write that began at some time, or in
the sleep before it rechecks. -/
inductive IoPc where
  | selecting
  | writing (msg : VerifierOutbound) (since : ℕ)
  | sleeping (wake : ℕ)
  | ended (why : IoEnd)

/-- Outside of writes, and unless the verifier was found silent. -/
def IoPc.isCalm : IoPc → Bool
  | .writing _ _ | .ended .silent => false
  | .selecting | .sleeping _ | .ended _ => true

/-- The loop of one connection. When the last line was read, and for how long writes
of proposals were blocked since, are kept for the statements about it. -/
structure IoLoop where
  interval : ℕ
  now : ℕ
  pc : IoPc := .selecting
  nextTick : ℕ
  lastHeard : ℕ
  rechecking : Bool := false
  malformedCount : ℕ := 0
  writer : StallGuard
  policyLoaded : Bool
  inbound : List VerifierInbound := []
  sent : List VerifierOutbound := []
  heardAt : ℕ
  excused : ℕ := 0

/-- What a poll of the writer gives: some bytes are taken and others are left, the
message is out, nothing moves, or the socket fails. -/
inductive WritePoll where
  | accepted
  | finished
  | pending
  | failed
  deriving DecidableEq

inductive IoEvent where
  | wait (d : ℕ)
  | line (bytes : Bytes)
  /-- The stream ends, a line is over the budget, or the read fails. -/
  | readEnds
  | outbound (msg : VerifierOutbound)
  | outboundClosed
  | tick
  | wake
  | poll (result : WritePoll)
  | shutdown

namespace IoLoop

/-- The loop of a connection made at a time. -/
def start (interval now : ℕ) (policyLoaded : Bool) : IoLoop where
  interval := interval
  now := now
  nextTick := now
  lastHeard := now
  writer := { stall := readDeadlineBeats * interval }
  policyLoaded := policyLoaded
  heardAt := now

def readDeadline (s : IoLoop) : ℕ := readDeadlineBeats * s.interval

def endWith (s : IoLoop) (why : IoEnd) : IoLoop := { s with pc := .ended why }

@[simp] theorem endWith_pc (s : IoLoop) (why : IoEnd) : (s.endWith why).pc = .ended why :=
  rfl

/-- Dispatch an inbound message from the verifier. -/
def dispatchInbound (s : IoLoop) (m : InternalMessage) : IoLoop :=
  match inboundOf m with
  | some msg =>
      { s with
        policyLoaded := s.policyLoaded || msg.isAck
        inbound := s.inbound ++ [msg] }
  | none => s

/-- The branch of a line that was read. -/
def onLine (lib : JsonLib) (s : IoLoop) (bytes : Bytes) : IoLoop :=
  let s := { s with lastHeard := s.now, heardAt := s.now, excused := 0 }
  match readEnvelope lib bytes with
  | some m => s.dispatchInbound m
  | none =>
      let s := { s with malformedCount := s.malformedCount + 1 }
      if 3 ≤ s.malformedCount then s.endWith .malformed else s

/-- The branch of the heartbeat's tick. -/
def onTick (s : IoLoop) : IoLoop :=
  if s.readDeadline < s.now - s.lastHeard then
    if s.rechecking then s.endWith .silent
    else
      { s with
        rechecking := true
        nextTick := s.now
        pc := .sleeping (s.now + recheckSleep) }
  else
    { s with
      rechecking := false
      nextTick := s.nextTick + s.interval
      pc := .writing .heartbeat s.now }

/-- A message is out. The time that a proposal took is no silence. -/
def finish (s : IoLoop) (msg : VerifierOutbound) (since : ℕ) : IoLoop :=
  let s := { s with pc := .selecting, writer := s.writer.moved, sent := s.sent ++ [msg] }
  match msg with
  | .templatePropose _ =>
      { s with
        lastHeard := min (s.lastHeard + (s.now - since)) s.now
        excused := s.excused + (s.now - since) }
  | .heartbeat => s

@[simp] theorem finish_pc (s : IoLoop) (msg : VerifierOutbound) (since : ℕ) :
    (s.finish msg since).pc = .selecting := by
  rcases msg with template | _
  · rfl
  · rfl

def onPoll (s : IoLoop) (msg : VerifierOutbound) (since : ℕ) : WritePoll → IoLoop
  | .accepted => { s with writer := s.writer.moved }
  | .finished => s.finish msg since
  | .pending =>
      let polled := s.writer.pollStalled s.now
      let s := { s with writer := polled.1 }
      if polled.2 then s.endWith .writeStalled else s
  | .failed => s.endWith .writeFailed

/-- One step of the loop, or the passing of time. -/
def step (lib : JsonLib) (s : IoLoop) (event : IoEvent) : Option IoLoop :=
  match s.pc, event with
  | .ended _, _ => none
  | _, .wait d => some { s with now := s.now + d }
  | .selecting, .line bytes => some (s.onLine lib bytes)
  | .selecting, .readEnds => some (s.endWith .readEnded)
  | .selecting, .outbound msg => some { s with pc := .writing msg s.now }
  | .selecting, .outboundClosed => some (s.endWith .shutdown)
  | .selecting, .shutdown => some (s.endWith .shutdown)
  | .selecting, .tick => if s.nextTick ≤ s.now then some s.onTick else none
  | .writing msg since, .poll result => some (s.onPoll msg since result)
  | .sleeping wake, .wake => if wake ≤ s.now then some { s with pc := .selecting } else none
  | _, _ => none

section

variable {lib : JsonLib} {s t : IoLoop} {event : IoEvent}

/-- All that a step can do. -/
theorem step_cases (h : step lib s event = some t) :
    (∃ d, event = .wait d ∧ (∀ why, s.pc ≠ .ended why) ∧
      t = { s with now := s.now + d }) ∨
    (∃ bytes, event = .line bytes ∧ s.pc = .selecting ∧ t = s.onLine lib bytes) ∨
    (∃ why, why ≠ .silent ∧ why ≠ .writeStalled ∧ why ≠ .malformed ∧
      (∀ bytes, event ≠ .line bytes) ∧ s.pc = .selecting ∧ t = s.endWith why) ∨
    (∃ msg, event = .outbound msg ∧ s.pc = .selecting ∧
      t = { s with pc := .writing msg s.now }) ∨
    (event = .tick ∧ s.pc = .selecting ∧ s.nextTick ≤ s.now ∧ t = s.onTick) ∨
    (∃ wake, event = .wake ∧ s.pc = .sleeping wake ∧ wake ≤ s.now ∧
      t = { s with pc := .selecting }) ∨
    (∃ msg since result, event = .poll result ∧ s.pc = .writing msg since ∧
      t = s.onPoll msg since result) := by
  rw [step.eq_def] at h
  rcases hpc : s.pc with _ | ⟨msg, since⟩ | wake | why
  · rw [hpc] at h
    rcases event with d | bytes | _ | msg | _ | _ | _ | result | _
    case wait => exact .inl ⟨d, rfl, by simp, (Option.some.inj h).symm⟩
    case line => exact .inr (.inl ⟨bytes, rfl, rfl, (Option.some.inj h).symm⟩)
    case readEnds =>
      exact .inr (.inr (.inl ⟨.readEnded, by simp, by simp, by simp, by simp, rfl,
        (Option.some.inj h).symm⟩))
    case outbound =>
      exact .inr (.inr (.inr (.inl ⟨msg, rfl, rfl, (Option.some.inj h).symm⟩)))
    case outboundClosed =>
      exact .inr (.inr (.inl ⟨.shutdown, by simp, by simp, by simp, by simp, rfl,
        (Option.some.inj h).symm⟩))
    case tick =>
      right; right; right; right; left
      dsimp only at h
      split at h
      · exact ⟨rfl, rfl, ‹_›, (Option.some.inj h).symm⟩
      · cases h
    case wake => cases h
    case poll => cases h
    case shutdown =>
      exact .inr (.inr (.inl ⟨.shutdown, by simp, by simp, by simp, by simp, rfl,
        (Option.some.inj h).symm⟩))
  · rw [hpc] at h
    rcases event with d | _ | _ | _ | _ | _ | _ | result | _
    case wait => exact .inl ⟨d, rfl, by simp, (Option.some.inj h).symm⟩
    case poll =>
      right; right; right; right; right; right
      exact ⟨msg, since, result, rfl, rfl, (Option.some.inj h).symm⟩
    all_goals cases h
  · rw [hpc] at h
    rcases event with d | _ | _ | _ | _ | _ | _ | _ | _
    case wait => exact .inl ⟨d, rfl, by simp, (Option.some.inj h).symm⟩
    case wake =>
      right; right; right; right; right; left
      dsimp only at h
      split at h
      · exact ⟨wake, rfl, rfl, ‹_›, (Option.some.inj h).symm⟩
      · cases h
    all_goals cases h
  · rw [hpc] at h
    cases h

/-- Only the readiness and the messages handed on change. -/
theorem dispatchInbound_eq (s : IoLoop) (m : InternalMessage) :
    s.dispatchInbound m =
      { s with
        policyLoaded := s.policyLoaded || (inboundOf m).any VerifierInbound.isAck
        inbound := s.inbound ++ (inboundOf m).toList } := by
  rw [dispatchInbound]
  rcases inboundOf m with _ | msg
  · simp
  · simp

/-- Whatever a line holds, the verifier was heard. -/
theorem onLine_cases (lib : JsonLib) (s : IoLoop) (bytes : Bytes) :
    (∃ m, readEnvelope lib bytes = some m ∧ s.onLine lib bytes =
      { s with
        lastHeard := s.now
        heardAt := s.now
        excused := 0
        policyLoaded := s.policyLoaded || (inboundOf m).any VerifierInbound.isAck
        inbound := s.inbound ++ (inboundOf m).toList }) ∨
    (readEnvelope lib bytes = none ∧ s.onLine lib bytes =
      { s with
        lastHeard := s.now
        heardAt := s.now
        excused := 0
        malformedCount := s.malformedCount + 1
        pc := if 3 ≤ s.malformedCount + 1 then .ended .malformed else s.pc }) := by
  rw [onLine]
  rcases hread : readEnvelope lib bytes with _ | m
  · right
    refine ⟨rfl, ?_⟩
    dsimp only
    split
    · rfl
    · rfl
  · left
    exact ⟨m, rfl, dispatchInbound_eq _ m⟩

/-- What neither ticks nor writes change. -/
structure Keeps (s t : IoLoop) : Prop where
  interval : t.interval = s.interval
  inbound : t.inbound = s.inbound
  policyLoaded : t.policyLoaded = s.policyLoaded
  malformedCount : t.malformedCount = s.malformedCount
  pc : t.pc ≠ .ended .malformed

theorem onTick_keeps (s : IoLoop) : s.Keeps s.onTick := by
  rw [onTick]
  split
  · split
    · exact ⟨rfl, rfl, rfl, rfl, by simp⟩
    · exact ⟨rfl, rfl, rfl, rfl, by simp⟩
  · exact ⟨rfl, rfl, rfl, rfl, by simp⟩

theorem onPoll_keeps {msg : VerifierOutbound} {since : ℕ} (hpc : s.pc = .writing msg since)
    (result : WritePoll) : s.Keeps (s.onPoll msg since result) := by
  have hlive : s.pc ≠ .ended .malformed := by
    rw [hpc]
    simp
  rcases result with _ | _ | _ | _
  · exact ⟨rfl, rfl, rfl, rfl, hlive⟩
  · rcases msg with template | _
    · exact ⟨rfl, rfl, rfl, rfl, by simp [onPoll]⟩
    · exact ⟨rfl, rfl, rfl, rfl, by simp [onPoll]⟩
  · rw [onPoll]
    split
    · exact ⟨rfl, rfl, rfl, rfl, by simp⟩
    · exact ⟨rfl, rfl, rfl, rfl, hlive⟩
  · exact ⟨rfl, rfl, rfl, rfl, by simp [onPoll]⟩

/-! ## Lines -/

/-- The lines that were read. -/
def linesRead (events : List IoEvent) : List Bytes :=
  events.filterMap fun
    | .line bytes => some bytes
    | _ => none

/-- What a line is dispatched as. -/
def inboundOfLine (lib : JsonLib) (line : Bytes) : Option VerifierInbound :=
  (readEnvelope lib line).bind inboundOf

/-- What the lines of a connection have done. -/
structure Relays (lib : JsonLib) (policyLoaded : Bool) (events : List IoEvent)
    (s : IoLoop) : Prop where
  inbound : s.inbound = (linesRead events).filterMap (inboundOfLine lib)
  policy : s.policyLoaded = (policyLoaded || s.inbound.any VerifierInbound.isAck)
  strikes : s.malformedCount =
    (linesRead events).countP fun line => (readEnvelope lib line).isNone
  live : (∀ why, s.pc ≠ .ended why) → s.malformedCount < 3
  le_three : s.malformedCount ≤ 3
  ended : s.pc = .ended .malformed ↔ s.malformedCount = 3

theorem linesRead_append (events : List IoEvent) (event : IoEvent) :
    linesRead (events ++ [event]) = linesRead events ++ linesRead [event] :=
  List.filterMap_append

/-- A step that reads no line. -/
theorem Relays.quiet {policyLoaded : Bool} {events : List IoEvent}
    (h : s.Relays lib policyLoaded events) (hlines : linesRead [event] = [])
    (hlive : ∀ why, s.pc ≠ .ended why) (hkeeps : s.Keeps t) :
    t.Relays lib policyLoaded (events ++ [event]) := by
  have hless := h.live hlive
  have hcount := hkeeps.malformedCount
  refine ⟨?_, ?_, ?_, fun _ => by omega, by omega, ?_⟩
  · rw [linesRead_append, hlines, List.append_nil, hkeeps.inbound]
    exact h.inbound
  · rw [hkeeps.policyLoaded, hkeeps.inbound]
    exact h.policy
  · rw [linesRead_append, hlines, List.append_nil, hcount]
    exact h.strikes
  · constructor
    · intro heq
      exact absurd heq hkeeps.pc
    · intro heq
      omega

theorem Relays.line {policyLoaded : Bool} {events : List IoEvent} {bytes : Bytes}
    (h : s.Relays lib policyLoaded events) (hpc : s.pc = .selecting) :
    (s.onLine lib bytes).Relays lib policyLoaded (events ++ [.line bytes]) := by
  have hlive : s.malformedCount < 3 := h.live (by simp [hpc])
  have hlines : linesRead (events ++ [.line bytes]) = linesRead events ++ [bytes] :=
    linesRead_append events _
  rcases s.onLine_cases lib bytes with ⟨m, hread, hline⟩ | ⟨hread, hline⟩
  · rw [hline]
    have hone : [bytes].filterMap (inboundOfLine lib) = (inboundOf m).toList := by
      have hof : inboundOfLine lib bytes = inboundOf m := by
        rw [inboundOfLine, hread, Option.bind_some]
      rcases hm : inboundOf m with _ | msg
      · simp [hof, hm]
      · simp [hof, hm]
    refine ⟨?_, ?_, ?_, fun _ => hlive, hlive.le, ?_⟩
    · rw [hlines, List.filterMap_append, hone, h.inbound]
    · have hany : (inboundOf m).toList.any VerifierInbound.isAck =
          (inboundOf m).any VerifierInbound.isAck := by
        rcases inboundOf m with _ | msg
        · rfl
        · simp
      dsimp only
      rw [h.policy, List.any_append, hany, Bool.or_assoc]
    · rw [hlines, List.countP_append]
      simp [hread, h.strikes]
    · dsimp only
      rw [hpc]
      constructor
      · simp
      · intro heq
        omega
  · rw [hline]
    have hnone : [bytes].filterMap (inboundOfLine lib) = [] := by
      have hof : inboundOfLine lib bytes = none := by rw [inboundOfLine, hread]; rfl
      simp [hof]
    refine ⟨?_, h.policy, ?_, ?_, hlive, ?_⟩
    · rw [hlines, List.filterMap_append, hnone, List.append_nil]
      exact h.inbound
    · rw [hlines, List.countP_append]
      simp [hread, h.strikes]
    · intro hnot
      dsimp only at hnot ⊢
      by_contra hmany
      exact hnot .malformed (if_pos (by omega))
    · dsimp only
      rw [hpc]
      split
      · exact ⟨fun _ => by omega, fun _ => rfl⟩
      · exact ⟨by simp, fun heq => by omega⟩

theorem Relays.step {policyLoaded : Bool} {events : List IoEvent}
    (h : s.Relays lib policyLoaded events) (hstep : step lib s event = some t) :
    t.Relays lib policyLoaded (events ++ [event]) := by
  rcases step_cases hstep with ⟨d, rfl, hlive, rfl⟩ | ⟨bytes, rfl, hpc, rfl⟩ |
    ⟨why, -, -, hmalformed, hline, hpc, rfl⟩ | ⟨msg, rfl, hpc, rfl⟩ | ⟨rfl, hpc, -, rfl⟩ |
    ⟨wake, rfl, hpc, -, rfl⟩ | ⟨msg, since, result, rfl, hpc, rfl⟩
  · exact h.quiet rfl hlive ⟨rfl, rfl, rfl, rfl, hlive _⟩
  · exact h.line hpc
  · have hnone : linesRead [event] = [] := by
      rcases event with _ | bytes | _ | _ | _ | _ | _ | _ | _
      case line => exact absurd rfl (hline bytes)
      all_goals rfl
    exact h.quiet hnone (by simp [hpc])
      ⟨rfl, rfl, rfl, rfl, fun heq => hmalformed (IoPc.ended.inj heq)⟩
  · exact h.quiet rfl (by simp [hpc]) ⟨rfl, rfl, rfl, rfl, by simp⟩
  · exact h.quiet rfl (by simp [hpc]) s.onTick_keeps
  · exact h.quiet rfl (by simp [hpc]) ⟨rfl, rfl, rfl, rfl, by simp⟩
  · exact h.quiet rfl (by simp [hpc]) (onPoll_keeps hpc result)

theorem relays_of_run {interval now : ℕ} {policyLoaded : Bool} {events : List IoEvent}
    (hrun : run (step lib) (start interval now policyLoaded) events = some s) :
    s.Relays lib policyLoaded events := by
  have hstart : (start interval now policyLoaded).Relays lib policyLoaded [] := by
    refine ⟨rfl, ?_, rfl, fun _ => Nat.zero_lt_succ 2, Nat.zero_le 3, ?_⟩
    · exact (Bool.or_false policyLoaded).symm
    · constructor
      · intro heq
        cases heq
      · intro heq
        cases heq
  have hrelays : s.Relays lib policyLoaded ([] ++ events) :=
    history_of_run (fun _ _ _ _ h hstep => Relays.step h hstep) hstart hrun
  exact hrelays

/-- Every line that is read is dispatched, in order and once. The verifier counts as
having a policy when it has acknowledged a heartbeat, and the third line that is no
envelope ends the connection. -/
theorem io_loop_relays (lib : JsonLib) (interval now : ℕ) (policyLoaded : Bool)
    (events : List IoEvent) (s : IoLoop)
    (hrun : run (step lib) (start interval now policyLoaded) events = some s) :
    s.inbound = (linesRead events).filterMap (inboundOfLine lib) ∧
      s.policyLoaded = (policyLoaded || s.inbound.any VerifierInbound.isAck) ∧
      s.malformedCount =
        (linesRead events).countP (fun line => (readEnvelope lib line).isNone) ∧
      s.malformedCount ≤ 3 ∧ (s.pc = .ended .malformed ↔ s.malformedCount = 3) := by
  have hrelays := relays_of_run hrun
  exact ⟨hrelays.inbound, hrelays.policy, hrelays.strikes, hrelays.le_three,
    hrelays.ended⟩

end

/-- The acknowledgment of a heartbeat. -/
def ackMessage : InternalMessage where
  msgType := InternalMessage.heartbeatAck
  version := protocolVersion
  payload := .obj []

def ackLine : Bytes := CompactJson.lib.write ackMessage.toJson ++ [10]

/-- A line that is no envelope, then the acknowledgment. -/
def ackEvents : List IoEvent :=
  [.tick, .poll .finished, .line [123, 125, 10], .line ackLine]

theorem io_loop_relays_ack :
    ∃ s, run (step CompactJson.lib) (start 10 0 false) ackEvents = some s ∧
      s.inbound = [.heartbeatAck] ∧ s.policyLoaded = true ∧ s.malformedCount = 1 ∧
      s.pc ≠ .ended .malformed := by
  have hmalformed : readEnvelope CompactJson.lib [123, 125, 10] = none := by
    decide +kernel
  have hack : readEnvelope CompactJson.lib ackLine = some ackMessage := by
    have hpayload : ackMessage.payload.Writable := trivial
    exact readEnvelope_message CompactJson.lib_lawful hpayload
  have hnone : inboundOfLine CompactJson.lib [123, 125, 10] = none := by
    rw [inboundOfLine, hmalformed]
    rfl
  have hsome : inboundOfLine CompactJson.lib ackLine = some .heartbeatAck := by
    rw [inboundOfLine, hack]
    rfl
  have hlines : linesRead ackEvents = [[123, 125, 10], ackLine] := rfl
  obtain ⟨s, hrun⟩ : ∃ s, run (step CompactJson.lib) (start 10 0 false) ackEvents = some s :=
    ⟨_, rfl⟩
  obtain ⟨hinbound, hpolicy, hstrikes, -, hended⟩ :=
    io_loop_relays CompactJson.lib 10 0 false ackEvents s hrun
  have hone : s.malformedCount = 1 := by
    rw [hstrikes, hlines]
    simp [hmalformed, hack]
  have hheard : s.inbound = [.heartbeatAck] := by
    rw [hinbound, hlines]
    simp [hnone, hsome]
  refine ⟨s, hrun, hheard, ?_, hone, ?_⟩
  · rw [hpolicy, hheard]
    rfl
  · intro heq
    rw [hended, hone] at heq
    cases heq

end IoLoop

end ReserveGrid.Gateway
