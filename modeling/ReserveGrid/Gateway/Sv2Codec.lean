import ReserveGrid.Gateway.Handler
import ReserveGrid.Support.Cursor

/-!
# The message codec

The messages of the mining protocol and their binary form, field by field.
Numbers are little-endian; texts, byte strings and lists have their length in
front, in one byte or two; an optional number has a tag byte in front.

The two share submissions are the ones that the connection handler works on.
-/

namespace ReserveGrid.Gateway.Sv2

open Support

inductive Sv2CodecError where
  | bufferUnderflow (need available : ℕ)
  | stringTooLong (len : ℕ)
  | bytesTooLong (len : ℕ)
  | invalidUtf8 (bytes : Bytes)
  | invalidOptionTag (tag : UInt8)
  deriving DecidableEq, Repr

/-- A single-precision number, as its bit pattern. -/
structure F32 where
  bits : UInt32
  deriving DecidableEq, Repr

/-! ## Reading -/

abbrev Reader := Support.Reader Sv2CodecError

namespace Reader

open Support.Reader

def ensure (n : ℕ) : Reader Unit := do
  let rest ← get
  if rest.length < n then throw (.bufferUnderflow n rest.length)

/-- The next `n` bytes, which are there. -/
def advance (n : ℕ) : Reader Bytes := do
  let rest ← get
  set (rest.drop n)
  return rest.take n

/-- The next `n` bytes. -/
def readBytes (n : ℕ) : Reader Bytes := do
  ensure n
  advance n

def readU8 : Reader UInt8 := do
  let bytes ← readBytes 1
  return .ofNat (leNat bytes)

def readU16 : Reader UInt16 := do
  let bytes ← readBytes 2
  return .ofNat (leNat bytes)

def readU32 : Reader UInt32 := do
  let bytes ← readBytes 4
  return .ofNat (leNat bytes)

def readU64 : Reader UInt64 := do
  let bytes ← readBytes 8
  return .ofNat (leNat bytes)

def readF32 : Reader F32 := do
  let bits ← readU32
  return ⟨bits⟩

def readU256 : Reader Bytes32 := do
  let bytes ← readBytes 32
  -- 32 bytes were read, so the error is not reached
  orThrow (Bytes32.ofBytes bytes) (.bufferUnderflow 32 bytes.length)

def readStr0255 : Reader String := do
  let len ← readU8
  let bytes ← readBytes len.toNat
  orThrow (JsonText.fromUtf8 bytes) (.invalidUtf8 bytes)

def readB032 : Reader Bytes := do
  let len ← readU8
  if 32 < len.toNat then throw (.bytesTooLong len.toNat)
  readBytes len.toNat

def readB0255 : Reader Bytes := do
  let len ← readU8
  readBytes len.toNat

def readB064k : Reader Bytes := do
  let len ← readU16
  readBytes len.toNat

def readSeqU256 : Reader (List Bytes32) := do
  let count ← readU8
  times readU256 count.toNat

def readOptionU32 : Reader (Option UInt32) := do
  let tag ← readU8
  if tag = 0 then return none
  else if tag = 1 then
    let v ← readU32
    return some v
  else throw (.invalidOptionTag tag)

end Reader

/-! ## Writing -/

abbrev Writer := Support.Writer Sv2CodecError

namespace Writer

def writeBytes (bytes : Bytes) : Writer Unit := do
  let buf ← get
  set (buf ++ bytes)

def writeU8 (v : UInt8) : Writer Unit := writeBytes (leBytes 1 v.toNat)

def writeU16 (v : UInt16) : Writer Unit := writeBytes (leBytes 2 v.toNat)

def writeU32 (v : UInt32) : Writer Unit := writeBytes (leBytes 4 v.toNat)

def writeU64 (v : UInt64) : Writer Unit := writeBytes (leBytes 8 v.toNat)

def writeF32 (v : F32) : Writer Unit := writeU32 v.bits

def writeU256 (v : Bytes32) : Writer Unit := writeBytes v.toBytes

/-- A byte string of at most `max` bytes, its length in one byte. -/
def writeShort (max : ℕ) (tooLong : ℕ → Sv2CodecError) (b : Bytes) :
    Writer Unit := do
  if max < b.length then throw (tooLong b.length)
  writeU8 (.ofNat b.length)
  writeBytes b

def writeStr0255 (s : String) : Writer Unit :=
  writeShort 255 .stringTooLong (JsonText.utf8 s)

def writeB032 (b : Bytes) : Writer Unit := writeShort 32 .bytesTooLong b

def writeB0255 (b : Bytes) : Writer Unit := writeShort 255 .stringTooLong b

def writeB064k (b : Bytes) : Writer Unit := do
  if 65535 < b.length then throw (.stringTooLong b.length)
  writeU16 (.ofNat b.length)
  writeBytes b

def writeSeqU256 (items : List Bytes32) : Writer Unit := do
  if 255 < items.length then throw (.stringTooLong items.length)
  writeU8 (.ofNat items.length)
  items.forM writeU256

def writeOptionU32 (v : Option UInt32) : Writer Unit :=
  match v with
  | none => writeU8 0
  | some val => do
      writeU8 1
      writeU32 val

end Writer

open Reader Writer

/-! ## Messages -/

structure SetupConnection where
  protocol : UInt8
  minVersion : UInt16
  maxVersion : UInt16
  flags : UInt32
  endpointHost : String
  endpointPort : UInt16
  vendor : String
  hardwareVersion : String
  firmware : String
  deviceId : String

def SetupConnection.encode (m : SetupConnection) : Except Sv2CodecError Bytes :=
  Writer.intoBytes do
    writeU8 m.protocol
    writeU16 m.minVersion
    writeU16 m.maxVersion
    writeU32 m.flags
    writeStr0255 m.endpointHost
    writeU16 m.endpointPort
    writeStr0255 m.vendor
    writeStr0255 m.hardwareVersion
    writeStr0255 m.firmware
    writeStr0255 m.deviceId

def SetupConnection.decode (payload : Bytes) :
    Except Sv2CodecError SetupConnection :=
  Reader.decode (do
    let protocol ← readU8
    let minVersion ← readU16
    let maxVersion ← readU16
    let flags ← readU32
    let endpointHost ← readStr0255
    let endpointPort ← readU16
    let vendor ← readStr0255
    let hardwareVersion ← readStr0255
    let firmware ← readStr0255
    let deviceId ← readStr0255
    return { protocol, minVersion, maxVersion, flags, endpointHost,
             endpointPort, vendor, hardwareVersion, firmware,
             deviceId }) payload

structure SetupConnectionSuccess where
  usedVersion : UInt16
  flags : UInt32

def SetupConnectionSuccess.encode (m : SetupConnectionSuccess) :
    Except Sv2CodecError Bytes :=
  Writer.intoBytes do
    writeU16 m.usedVersion
    writeU32 m.flags

def SetupConnectionSuccess.decode (payload : Bytes) :
    Except Sv2CodecError SetupConnectionSuccess :=
  Reader.decode (do
    let usedVersion ← readU16
    let flags ← readU32
    return { usedVersion, flags }) payload

structure SetupConnectionError where
  flags : UInt32
  errorCode : String

def SetupConnectionError.encode (m : SetupConnectionError) :
    Except Sv2CodecError Bytes :=
  Writer.intoBytes do
    writeU32 m.flags
    writeStr0255 m.errorCode

def SetupConnectionError.decode (payload : Bytes) :
    Except Sv2CodecError SetupConnectionError :=
  Reader.decode (do
    let flags ← readU32
    let errorCode ← readStr0255
    return { flags, errorCode }) payload

structure OpenStandardMiningChannel where
  requestId : UInt32
  userIdentity : String
  nominalHashRate : F32
  maxTarget : Bytes32

def OpenStandardMiningChannel.encode (m : OpenStandardMiningChannel) :
    Except Sv2CodecError Bytes :=
  Writer.intoBytes do
    writeU32 m.requestId
    writeStr0255 m.userIdentity
    writeF32 m.nominalHashRate
    writeU256 m.maxTarget

def OpenStandardMiningChannel.decode (payload : Bytes) :
    Except Sv2CodecError OpenStandardMiningChannel :=
  Reader.decode (do
    let requestId ← readU32
    let userIdentity ← readStr0255
    let nominalHashRate ← readF32
    let maxTarget ← readU256
    return { requestId, userIdentity, nominalHashRate, maxTarget }) payload

structure OpenStandardMiningChannelSuccess where
  requestId : UInt32
  channelId : UInt32
  target : Bytes32
  extranoncePrefix : Bytes
  groupChannelId : UInt32

def OpenStandardMiningChannelSuccess.encode
    (m : OpenStandardMiningChannelSuccess) :
    Except Sv2CodecError Bytes :=
  Writer.intoBytes do
    writeU32 m.requestId
    writeU32 m.channelId
    writeU256 m.target
    writeB032 m.extranoncePrefix
    writeU32 m.groupChannelId

def OpenStandardMiningChannelSuccess.decode (payload : Bytes) :
    Except Sv2CodecError OpenStandardMiningChannelSuccess :=
  Reader.decode (do
    let requestId ← readU32
    let channelId ← readU32
    let target ← readU256
    let extranoncePrefix ← readB032
    let groupChannelId ← readU32
    return { requestId, channelId, target, extranoncePrefix,
             groupChannelId }) payload

structure OpenMiningChannelError where
  requestId : UInt32
  errorCode : String

def OpenMiningChannelError.encode (m : OpenMiningChannelError) :
    Except Sv2CodecError Bytes :=
  Writer.intoBytes do
    writeU32 m.requestId
    writeStr0255 m.errorCode

def OpenMiningChannelError.decode (payload : Bytes) :
    Except Sv2CodecError OpenMiningChannelError :=
  Reader.decode (do
    let requestId ← readU32
    let errorCode ← readStr0255
    return { requestId, errorCode }) payload

structure NewMiningJob where
  channelId : UInt32
  jobId : UInt32
  minNtime : Option UInt32
  version : UInt32
  merkleRoot : Bytes32

def NewMiningJob.encode (m : NewMiningJob) : Except Sv2CodecError Bytes :=
  Writer.intoBytes do
    writeU32 m.channelId
    writeU32 m.jobId
    writeOptionU32 m.minNtime
    writeU32 m.version
    writeU256 m.merkleRoot

def NewMiningJob.decode (payload : Bytes) :
    Except Sv2CodecError NewMiningJob :=
  Reader.decode (do
    let channelId ← readU32
    let jobId ← readU32
    let minNtime ← readOptionU32
    let version ← readU32
    let merkleRoot ← readU256
    return { channelId, jobId, minNtime, version, merkleRoot }) payload

structure SetNewPrevHash where
  channelId : UInt32
  jobId : UInt32
  prevHash : Bytes32
  minNtime : UInt32
  nbits : UInt32

def SetNewPrevHash.encode (m : SetNewPrevHash) : Except Sv2CodecError Bytes :=
  Writer.intoBytes do
    writeU32 m.channelId
    writeU32 m.jobId
    writeU256 m.prevHash
    writeU32 m.minNtime
    writeU32 m.nbits

def SetNewPrevHash.decode (payload : Bytes) :
    Except Sv2CodecError SetNewPrevHash :=
  Reader.decode (do
    let channelId ← readU32
    let jobId ← readU32
    let prevHash ← readU256
    let minNtime ← readU32
    let nbits ← readU32
    return { channelId, jobId, prevHash, minNtime, nbits }) payload

structure SetTarget where
  channelId : UInt32
  maximumTarget : Bytes32

def SetTarget.encode (m : SetTarget) : Except Sv2CodecError Bytes :=
  Writer.intoBytes do
    writeU32 m.channelId
    writeU256 m.maximumTarget

def SetTarget.decode (payload : Bytes) :
    Except Sv2CodecError SetTarget :=
  Reader.decode (do
    let channelId ← readU32
    let maximumTarget ← readU256
    return { channelId, maximumTarget }) payload

def SubmitSharesStandard.encode (m : SubmitSharesStandard) :
    Except Sv2CodecError Bytes :=
  Writer.intoBytes do
    writeU32 m.channelId
    writeU32 m.sequenceNumber
    writeU32 m.jobId
    writeU32 m.nonce
    writeU32 m.ntime
    writeU32 m.version

def SubmitSharesStandard.decode (payload : Bytes) :
    Except Sv2CodecError SubmitSharesStandard :=
  Reader.decode (do
    let channelId ← readU32
    let sequenceNumber ← readU32
    let jobId ← readU32
    let nonce ← readU32
    let ntime ← readU32
    let version ← readU32
    return { channelId, sequenceNumber, jobId, nonce, ntime, version }) payload

structure SubmitSharesSuccess where
  channelId : UInt32
  lastSequenceNumber : UInt32
  newSubmitsAcceptedCount : UInt32
  newSharesSum : UInt64

def SubmitSharesSuccess.encode (m : SubmitSharesSuccess) :
    Except Sv2CodecError Bytes :=
  Writer.intoBytes do
    writeU32 m.channelId
    writeU32 m.lastSequenceNumber
    writeU32 m.newSubmitsAcceptedCount
    writeU64 m.newSharesSum

def SubmitSharesSuccess.decode (payload : Bytes) :
    Except Sv2CodecError SubmitSharesSuccess :=
  Reader.decode (do
    let channelId ← readU32
    let lastSequenceNumber ← readU32
    let newSubmitsAcceptedCount ← readU32
    let newSharesSum ← readU64
    return { channelId, lastSequenceNumber, newSubmitsAcceptedCount,
             newSharesSum }) payload

structure SubmitSharesError where
  channelId : UInt32
  sequenceNumber : UInt32
  errorCode : String

def SubmitSharesError.encode (m : SubmitSharesError) :
    Except Sv2CodecError Bytes :=
  Writer.intoBytes do
    writeU32 m.channelId
    writeU32 m.sequenceNumber
    writeStr0255 m.errorCode

def SubmitSharesError.decode (payload : Bytes) :
    Except Sv2CodecError SubmitSharesError :=
  Reader.decode (do
    let channelId ← readU32
    let sequenceNumber ← readU32
    let errorCode ← readStr0255
    return { channelId, sequenceNumber, errorCode }) payload

structure OpenExtendedMiningChannel where
  requestId : UInt32
  userIdentity : String
  nominalHashRate : F32
  maxTarget : Bytes32
  minExtranonceSize : UInt16

def OpenExtendedMiningChannel.encode (m : OpenExtendedMiningChannel) :
    Except Sv2CodecError Bytes :=
  Writer.intoBytes do
    writeU32 m.requestId
    writeStr0255 m.userIdentity
    writeF32 m.nominalHashRate
    writeU256 m.maxTarget
    writeU16 m.minExtranonceSize

def OpenExtendedMiningChannel.decode (payload : Bytes) :
    Except Sv2CodecError OpenExtendedMiningChannel :=
  Reader.decode (do
    let requestId ← readU32
    let userIdentity ← readStr0255
    let nominalHashRate ← readF32
    let maxTarget ← readU256
    let minExtranonceSize ← readU16
    return { requestId, userIdentity, nominalHashRate, maxTarget,
             minExtranonceSize }) payload

structure OpenExtendedMiningChannelSuccess where
  requestId : UInt32
  channelId : UInt32
  target : Bytes32
  extranonceSize : UInt16
  extranoncePrefix : Bytes

def OpenExtendedMiningChannelSuccess.encode
    (m : OpenExtendedMiningChannelSuccess) :
    Except Sv2CodecError Bytes :=
  Writer.intoBytes do
    writeU32 m.requestId
    writeU32 m.channelId
    writeU256 m.target
    writeU16 m.extranonceSize
    writeB0255 m.extranoncePrefix

def OpenExtendedMiningChannelSuccess.decode (payload : Bytes) :
    Except Sv2CodecError OpenExtendedMiningChannelSuccess :=
  Reader.decode (do
    let requestId ← readU32
    let channelId ← readU32
    let target ← readU256
    let extranonceSize ← readU16
    let extranoncePrefix ← readB0255
    return { requestId, channelId, target, extranonceSize,
             extranoncePrefix }) payload

structure NewExtendedMiningJob where
  channelId : UInt32
  jobId : UInt32
  minNtime : Option UInt32
  version : UInt32
  versionRollingAllowed : Bool
  merklePath : List Bytes32
  coinbaseTxPrefix : Bytes
  coinbaseTxSuffix : Bytes

def NewExtendedMiningJob.encode (m : NewExtendedMiningJob) :
    Except Sv2CodecError Bytes :=
  Writer.intoBytes do
    writeU32 m.channelId
    writeU32 m.jobId
    writeOptionU32 m.minNtime
    writeU32 m.version
    writeU8 (if m.versionRollingAllowed then 1 else 0)
    writeSeqU256 m.merklePath
    writeB064k m.coinbaseTxPrefix
    writeB064k m.coinbaseTxSuffix

def NewExtendedMiningJob.decode (payload : Bytes) :
    Except Sv2CodecError NewExtendedMiningJob :=
  Reader.decode (do
    let channelId ← readU32
    let jobId ← readU32
    let minNtime ← readOptionU32
    let version ← readU32
    let rolling ← readU8
    let merklePath ← readSeqU256
    let coinbaseTxPrefix ← readB064k
    let coinbaseTxSuffix ← readB064k
    return { channelId, jobId, minNtime, version,
             versionRollingAllowed := rolling != 0, merklePath,
             coinbaseTxPrefix, coinbaseTxSuffix }) payload

def SubmitSharesExtended.encode (m : SubmitSharesExtended) :
    Except Sv2CodecError Bytes :=
  Writer.intoBytes do
    writeU32 m.channelId
    writeU32 m.sequenceNumber
    writeU32 m.jobId
    writeU32 m.nonce
    writeU32 m.ntime
    writeU32 m.version
    writeB0255 m.extranonce

def SubmitSharesExtended.decode (payload : Bytes) :
    Except Sv2CodecError SubmitSharesExtended :=
  Reader.decode (do
    let channelId ← readU32
    let sequenceNumber ← readU32
    let jobId ← readU32
    let nonce ← readU32
    let ntime ← readU32
    let version ← readU32
    let extranonce ← readB0255
    return { channelId, sequenceNumber, jobId, nonce, ntime, version,
             extranonce }) payload

structure CloseChannel where
  channelId : UInt32
  reasonCode : String

def CloseChannel.encode (m : CloseChannel) : Except Sv2CodecError Bytes :=
  Writer.intoBytes do
    writeU32 m.channelId
    writeStr0255 m.reasonCode

def CloseChannel.decode (payload : Bytes) :
    Except Sv2CodecError CloseChannel :=
  Reader.decode (do
    let channelId ← readU32
    let reasonCode ← readStr0255
    return { channelId, reasonCode }) payload

/-! ## Message types -/

inductive MessageKind where
  | setupConnection
  | setupConnectionSuccess
  | setupConnectionError
  | openStandardMiningChannel
  | openStandardMiningChannelSuccess
  | openMiningChannelError
  | newMiningJob
  | setNewPrevHash
  | setTarget
  | submitSharesStandard
  | submitSharesSuccess
  | submitSharesError
  | openExtendedMiningChannel
  | openExtendedMiningChannelSuccess
  | newExtendedMiningJob
  | submitSharesExtended
  | closeChannel
  deriving DecidableEq, Repr

namespace MessageKind

abbrev Message : MessageKind → Type
  | setupConnection => SetupConnection
  | setupConnectionSuccess => SetupConnectionSuccess
  | setupConnectionError => SetupConnectionError
  | openStandardMiningChannel => OpenStandardMiningChannel
  | openStandardMiningChannelSuccess => OpenStandardMiningChannelSuccess
  | openMiningChannelError => OpenMiningChannelError
  | newMiningJob => NewMiningJob
  | setNewPrevHash => SetNewPrevHash
  | setTarget => SetTarget
  | submitSharesStandard => SubmitSharesStandard
  | submitSharesSuccess => SubmitSharesSuccess
  | submitSharesError => SubmitSharesError
  | openExtendedMiningChannel => OpenExtendedMiningChannel
  | openExtendedMiningChannelSuccess => OpenExtendedMiningChannelSuccess
  | newExtendedMiningJob => NewExtendedMiningJob
  | submitSharesExtended => SubmitSharesExtended
  | closeChannel => CloseChannel

def encode : (k : MessageKind) → k.Message → Except Sv2CodecError Bytes
  | setupConnection => SetupConnection.encode
  | setupConnectionSuccess => SetupConnectionSuccess.encode
  | setupConnectionError => SetupConnectionError.encode
  | openStandardMiningChannel => OpenStandardMiningChannel.encode
  | openStandardMiningChannelSuccess => OpenStandardMiningChannelSuccess.encode
  | openMiningChannelError => OpenMiningChannelError.encode
  | newMiningJob => NewMiningJob.encode
  | setNewPrevHash => SetNewPrevHash.encode
  | setTarget => SetTarget.encode
  | submitSharesStandard => SubmitSharesStandard.encode
  | submitSharesSuccess => SubmitSharesSuccess.encode
  | submitSharesError => SubmitSharesError.encode
  | openExtendedMiningChannel => OpenExtendedMiningChannel.encode
  | openExtendedMiningChannelSuccess => OpenExtendedMiningChannelSuccess.encode
  | newExtendedMiningJob => NewExtendedMiningJob.encode
  | submitSharesExtended => SubmitSharesExtended.encode
  | closeChannel => CloseChannel.encode

def decode : (k : MessageKind) → Bytes → Except Sv2CodecError k.Message
  | setupConnection => SetupConnection.decode
  | setupConnectionSuccess => SetupConnectionSuccess.decode
  | setupConnectionError => SetupConnectionError.decode
  | openStandardMiningChannel => OpenStandardMiningChannel.decode
  | openStandardMiningChannelSuccess => OpenStandardMiningChannelSuccess.decode
  | openMiningChannelError => OpenMiningChannelError.decode
  | newMiningJob => NewMiningJob.decode
  | setNewPrevHash => SetNewPrevHash.decode
  | setTarget => SetTarget.decode
  | submitSharesStandard => SubmitSharesStandard.decode
  | submitSharesSuccess => SubmitSharesSuccess.decode
  | submitSharesError => SubmitSharesError.decode
  | openExtendedMiningChannel => OpenExtendedMiningChannel.decode
  | openExtendedMiningChannelSuccess => OpenExtendedMiningChannelSuccess.decode
  | newExtendedMiningJob => NewExtendedMiningJob.decode
  | submitSharesExtended => SubmitSharesExtended.decode
  | closeChannel => CloseChannel.decode

end MessageKind

end ReserveGrid.Gateway.Sv2
