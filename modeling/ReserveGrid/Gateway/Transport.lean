import ReserveGrid.Support.Bytes
import ReserveGrid.Support.Chunks
import Mathlib.Algebra.Group.Nat.Defs

/-!
# The framed transport

A frame is a header and a payload. The writer cuts it into pieces that fit one
Noise message each, encrypts them and puts each on the socket after its length.
The reader keeps what it took off the socket in two buffers, of encrypted and of
decrypted bytes; a read of a frame waits for the socket only, and may be dropped
while it waits.

Encryption is a parameter: a state for each direction, and what one end
encrypts the other decrypts, in order.
-/

namespace ReserveGrid.Gateway

open Support

/-! ## Frames -/

def aeadMacLen : ℕ := 16

def maxNoiseFrameLen : ℕ := 65535

def maxNoisePlaintextLen : ℕ := maxNoiseFrameLen - aeadMacLen

def sv2FrameHeaderSize : ℕ := 6

def maxSv2PayloadLen : ℕ := 16 * 1024 * 1024

/-- How much one read of the socket takes at most. -/
def readChunk : ℕ := 8192

inductive TransportError where
  | noiseDecrypt
  | noiseEncrypt
  | emptyFrame
  | payloadTooLarge (len : ℕ)
  | connectionReset
  deriving DecidableEq, Repr

structure Sv2FrameHeader where
  extensionType : UInt16
  msgType : UInt8
  msgLength : UInt32
  deriving DecidableEq, Repr

namespace Sv2FrameHeader

/-- Read a header from its six bytes. -/
def parse (buf : Bytes) : Sv2FrameHeader where
  extensionType := .ofNat (leNat (buf.take 2))
  msgType := buf.getD 2 0
  msgLength := .ofNat (leNat ((buf.drop 3).take 3))

/-- The six bytes of a header: of the length only the three low bytes. -/
def toBytes (h : Sv2FrameHeader) : Bytes :=
  leBytes 2 h.extensionType.toNat ++ h.msgType :: leBytes 3 h.msgLength.toNat

end Sv2FrameHeader

/-- A frame to send, with a payload that callers keep within the bound and the
width of the length field. -/
structure Sv2Frame where
  extensionType : UInt16
  msgType : UInt8
  payload : Bytes
  payload_le : payload.length ≤ maxSv2PayloadLen
  payload_lt : payload.length < 2 ^ 24

namespace Sv2Frame

def header (f : Sv2Frame) : Sv2FrameHeader where
  extensionType := f.extensionType
  msgType := f.msgType
  msgLength := .ofNat f.payload.length

/-- The header and the payload, as they stand in the decrypted stream. -/
def bytes (f : Sv2Frame) : Bytes := f.header.toBytes ++ f.payload

end Sv2Frame

/-! ## Encryption -/

/-- One direction of an encrypted session: each message is encrypted and
decrypted in a state that moves on with it. -/
structure Noise (σ : Type) where
  encrypt : σ → Bytes → Option (Bytes × σ)
  decrypt : σ → Bytes → Option (Bytes × σ)

/-- The two ends of a direction stay in step: a message of at most the maximal
plaintext is encrypted, grows by its authentication code, and is decrypted by
the peer that has decrypted all messages before it. -/
def Noise.Paired {σ : Type} (noise : Noise σ) (InStep : σ → σ → Prop) : Prop :=
  ∀ a b plain, InStep a b → plain.length ≤ maxNoisePlaintextLen →
    ∃ encrypted a' b', noise.encrypt a plain = some (encrypted, a') ∧
      encrypted.length = plain.length + aeadMacLen ∧
      noise.decrypt b encrypted = some (plain, b') ∧ InStep a' b'

/-! ## Writing and reading -/

/-- What the reading end keeps between reads. -/
structure Sv2Transport (σ : Type) where
  codec : σ
  /-- Decrypted bytes of frames that were not returned yet. -/
  readBuf : Bytes := []
  /-- Encrypted bytes that do not make a whole Noise message yet. -/
  rawBuf : Bytes := []

/-- Where a read that waits for the socket was suspended. -/
inductive ReadAt where
  | header
  | payload (header : Sv2FrameHeader)

/-- A read of a frame returned, or waits for the socket. -/
inductive Poll (σ : Type) where
  | ready (frame : Sv2FrameHeader × Bytes) (t : Sv2Transport σ)
  | pending (at_ : ReadAt) (t : Sv2Transport σ)

/-- An encrypted message on the wire, after its length with the high byte
first. -/
def noiseFrame (encrypted : Bytes) : Bytes :=
  (leBytes 2 encrypted.length).reverse ++ encrypted

section

variable {σ : Type} (noise : Noise σ)

/-- The bytes put on the socket for the pieces of a frame, each a message of its
own. -/
def writeChunks : List Bytes → σ → Except TransportError (Bytes × σ)
  | [], codec => .ok ([], codec)
  | chunk :: rest, codec =>
      match noise.encrypt codec chunk with
      | none => .error .noiseEncrypt
      | some (encrypted, codec) =>
          match writeChunks rest codec with
          | .error e => .error e
          | .ok (written, codec) => .ok (noiseFrame encrypted ++ written, codec)

def writeFrame (f : Sv2Frame) (codec : σ) : Except TransportError (Bytes × σ) :=
  writeChunks noise (chunks maxNoisePlaintextLen f.bytes) codec

/-- Take a whole Noise message out of the raw buffer, or find that more must be
read from the socket. -/
def readNoiseFrame (t : Sv2Transport σ) :
    Except TransportError (Option (Sv2Transport σ)) :=
  if 2 ≤ t.rawBuf.length then
    let frameLen := leNat (t.rawBuf.take 2).reverse
    if frameLen = 0 then .error .emptyFrame
    else if 2 + frameLen ≤ t.rawBuf.length then
      match noise.decrypt t.codec ((t.rawBuf.drop 2).take frameLen) with
      | none => .error .noiseDecrypt
      | some (plain, codec) =>
          .ok (some {
            codec
            readBuf := t.readBuf ++ plain
            rawBuf := t.rawBuf.drop (2 + frameLen) })
    else .ok none
  else .ok none

theorem readNoiseFrame_shrinks {t t' : Sv2Transport σ}
    (h : readNoiseFrame noise t = .ok (some t')) :
    t'.rawBuf.length < t.rawBuf.length := by
  unfold readNoiseFrame at h
  split at h
  · dsimp only at h
    split at h
    · cases h
    · split at h
      · split at h
        · cases h
        · cases h
          rw [List.length_drop]
          omega
      · cases h
  · cases h

/-- Read Noise messages until the decrypted buffer holds `n` bytes, or the
socket must be waited for. -/
def fillTo (n : ℕ) (t : Sv2Transport σ) :
    Except TransportError (Bool × Sv2Transport σ) :=
  if n ≤ t.readBuf.length then .ok (true, t)
  else
    match _h : readNoiseFrame noise t with
    | .error e => .error e
    | .ok none => .ok (false, t)
    | .ok (some t') => fillTo n t'
termination_by t.rawBuf.length
decreasing_by exact readNoiseFrame_shrinks noise _h

/-- The second half of a read: the header is known, its payload is awaited. -/
def readPayload (header : Sv2FrameHeader) (t : Sv2Transport σ) :
    Except TransportError (Poll σ) :=
  let totalFrameLen := sv2FrameHeaderSize + header.msgLength.toNat
  match fillTo noise totalFrameLen t with
  | .error e => .error e
  | .ok (false, t) => .ok (.pending (.payload header) t)
  | .ok (true, t) =>
      .ok (.ready
        (header, (t.readBuf.take totalFrameLen).drop sv2FrameHeaderSize)
        { t with readBuf := t.readBuf.drop totalFrameLen })

/-- A read of a frame from its start. -/
def readFrame (t : Sv2Transport σ) : Except TransportError (Poll σ) :=
  match fillTo noise sv2FrameHeaderSize t with
  | .error e => .error e
  | .ok (false, t) => .ok (.pending .header t)
  | .ok (true, t) =>
      let header := Sv2FrameHeader.parse (t.readBuf.take sv2FrameHeaderSize)
      if maxSv2PayloadLen < header.msgLength.toNat then
        .error (.payloadTooLarge header.msgLength.toNat)
      else readPayload noise header t

/-- A suspended read goes on where it waited. -/
def resumeRead (at_ : ReadAt) (t : Sv2Transport σ) :
    Except TransportError (Poll σ) :=
  match at_ with
  | .header => readFrame noise t
  | .payload header => readPayload noise header t

/-- The socket answers a waiting read. -/
def onSocketRead (at_ : ReadAt) (chunk : Bytes) (t : Sv2Transport σ) :
    Except TransportError (Poll σ) :=
  if chunk = [] then .error .connectionReset
  else resumeRead noise at_ { t with rawBuf := t.rawBuf ++ chunk }

/-! ## A link -/

/-- The two ends of a direction and the bytes between them. `received` is what
the reads returned so far. -/
structure Link (σ : Type) where
  writer : σ
  reader : Sv2Transport σ
  /-- Written to the socket and not read from it yet. -/
  wire : Bytes := []
  pending : Option ReadAt := none
  received : List (Sv2FrameHeader × Bytes) := []
  failed : Option TransportError := none

inductive LinkEvent where
  /-- A frame is written, to its end. -/
  | write (f : Sv2Frame)
  /-- A read of a frame is started. -/
  | read
  /-- A waiting read gets at most `n` bytes of what was written. -/
  | arrive (n : ℕ)
  /-- A waiting read is dropped. -/
  | cancel

namespace Link

/-- What a read came to. -/
def polled (s : Link σ) : Except TransportError (Poll σ) → Link σ
  | .error e => { s with pending := none, failed := some e }
  | .ok (.pending at_ t) => { s with pending := some at_, reader := t }
  | .ok (.ready frame t) =>
      { s with pending := none, reader := t, received := s.received ++ [frame] }

def step (s : Link σ) : LinkEvent → Link σ
  | .write f =>
      match writeFrame noise f s.writer with
      | .error e => { s with failed := some e }
      | .ok (written, writer) => { s with writer, wire := s.wire ++ written }
  | .read =>
      match s.pending with
      | some _ => s
      | none => s.polled (readFrame noise s.reader)
  | .arrive n =>
      let n := min n readChunk
      match s.pending with
      | none => s
      | some at_ =>
          -- a read that nothing arrives for goes on waiting
          if s.wire.take n = [] then s
          else { s with wire := s.wire.drop n }.polled
            (onSocketRead noise at_ (s.wire.take n) s.reader)
  | .cancel => { s with pending := none }

/-- A link after the handshake. -/
def start (writer reader : σ) : Link σ where
  writer
  reader := { codec := reader }

def after (s : Link σ) (events : List LinkEvent) : Link σ :=
  events.foldl (step noise) s

end Link

end

/-- The frames written in a run, as a read returns them. -/
def writtenIn (events : List LinkEvent) : List (Sv2FrameHeader × Bytes) :=
  events.filterMap fun
    | .write f => some (f.header, f.payload)
    | _ => none

end ReserveGrid.Gateway
