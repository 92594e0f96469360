import ReserveGrid.Support.Hmac
import ReserveGrid.Support.JsonObject

/-!
# Ingest of shares

The template manager takes shares from the gateway as JSON. With a secret
configured, a share has to carry a code over its event id and over the hash of
its own body with the code left out.
-/

namespace ReserveGrid.TemplateManager

open Support

/-- A share as the gateway sends it. -/
structure ShareSubmissionRecord where
  shareIdHex : String
  version : UInt32
  prevHashWireHex : String
  prevHashDisplayHex : String
  merkleRootWireHex : String
  merkleRootDisplayHex : String
  ntime : UInt32
  nbits : UInt32
  nonce : UInt32
  eventIdHex : String
  workerId : String
  validationLevel : String
  gatewayInstanceId : String
  channelId : UInt32
  sequenceNumber : UInt32
  jobId : UInt32
  templateId : UInt64
  blockHeight : UInt32
  poolAccountId : Option String
  timestampMs : UInt64
  difficultyU64 : UInt64
  difficultyDisplay : Float
  sourceInstanceId : String
  gatewaySignatureHex : String

namespace ShareSubmissionRecord

/-- The names of the fields, in the order of their declaration. -/
def fieldNames : List String :=
  ["share_id_hex", "version", "prev_hash_wire_hex", "prev_hash_display_hex",
    "merkle_root_wire_hex", "merkle_root_display_hex", "ntime", "nbits",
    "nonce", "event_id_hex", "worker_id", "validation_level",
    "gateway_instance_id", "channel_id", "sequence_number", "job_id",
    "template_id", "block_height", "pool_account_id", "timestamp_ms",
    "difficulty_u64", "difficulty_display", "source_instance_id",
    "gateway_signature_hex"]

/-- The values of the fields, in the same order. -/
def values (r : ShareSubmissionRecord) : List JsonValue :=
  [.str r.shareIdHex, .num r.version.toNat, .str r.prevHashWireHex,
    .str r.prevHashDisplayHex, .str r.merkleRootWireHex,
    .str r.merkleRootDisplayHex, .num r.ntime.toNat, .num r.nbits.toNat,
    .num r.nonce.toNat, .str r.eventIdHex, .str r.workerId,
    .str r.validationLevel, .str r.gatewayInstanceId, .num r.channelId.toNat,
    .num r.sequenceNumber.toNat, .num r.jobId.toNat, .num r.templateId.toNat,
    .num r.blockHeight.toNat, .ofOptStr r.poolAccountId,
    .num r.timestampMs.toNat, .num r.difficultyU64.toNat,
    .float r.difficultyDisplay, .str r.sourceInstanceId,
    .str r.gatewaySignatureHex]

def toFields (r : ShareSubmissionRecord) : List (String × JsonValue) :=
  fieldNames.zip r.values

/-- A record from the values of its fields. The account and the code may be
missing. -/
def ofValues : List (Option JsonValue) → Option ShareSubmissionRecord
  | [some shareIdHex, some version, some prevHashWireHex,
      some prevHashDisplayHex, some merkleRootWireHex,
      some merkleRootDisplayHex, some ntime, some nbits, some nonce,
      some eventIdHex, some workerId, some validationLevel,
      some gatewayInstanceId, some channelId, some sequenceNumber, some jobId,
      some templateId, some blockHeight, poolAccountId, some timestampMs,
      some difficultyU64, some difficultyDisplay, some sourceInstanceId,
      gatewaySignatureHex] => do
      return {
        shareIdHex := ← shareIdHex.readStr
        version := ← version.readU32
        prevHashWireHex := ← prevHashWireHex.readStr
        prevHashDisplayHex := ← prevHashDisplayHex.readStr
        merkleRootWireHex := ← merkleRootWireHex.readStr
        merkleRootDisplayHex := ← merkleRootDisplayHex.readStr
        ntime := ← ntime.readU32
        nbits := ← nbits.readU32
        nonce := ← nonce.readU32
        eventIdHex := ← eventIdHex.readStr
        workerId := ← workerId.readStr
        validationLevel := ← validationLevel.readStr
        gatewayInstanceId := ← gatewayInstanceId.readStr
        channelId := ← channelId.readU32
        sequenceNumber := ← sequenceNumber.readU32
        jobId := ← jobId.readU32
        templateId := ← templateId.readU64
        blockHeight := ← blockHeight.readU32
        poolAccountId := ← poolAccountId.elim (some none) JsonValue.readOptStr
        timestampMs := ← timestampMs.readU64
        difficultyU64 := ← difficultyU64.readU64
        difficultyDisplay := ← difficultyDisplay.readF64
        sourceInstanceId := ← sourceInstanceId.readStr
        gatewaySignatureHex :=
          ← gatewaySignatureHex.elim (some "") JsonValue.readStr }
  | _ => none

def ofFields (fields : List (String × JsonValue)) :
    Option ShareSubmissionRecord := do
  ofValues (← fieldValues fields fieldNames)

/-- The record without its code. -/
def blank (r : ShareSubmissionRecord) : ShareSubmissionRecord :=
  { r with gatewaySignatureHex := "" }

theorem fieldNames_nodup : fieldNames.Nodup := by
  decide +kernel

/-- A record is read back from its own fields. -/
theorem ofFields_toFields (r : ShareSubmissionRecord) :
    ofFields r.toFields = some r := by
  have hread : fieldValues r.toFields fieldNames = some (r.values.map some) :=
    fieldValues_zip fieldNames_nodup rfl
  rw [ofFields, hread]
  change ofValues (r.values.map some) = some r
  simp only [values, List.map_cons, List.map_nil]
  rw [ofValues, JsonValue.readU32_num, JsonValue.readU32_num, JsonValue.readU32_num,
    JsonValue.readU32_num, JsonValue.readU32_num, JsonValue.readU32_num,
    JsonValue.readU32_num, JsonValue.readU32_num, JsonValue.readU64_num,
    JsonValue.readU64_num, JsonValue.readU64_num, Option.elim_some,
    JsonValue.readOptStr_ofOptStr]
  rfl

theorem toFields_injective {r r' : ShareSubmissionRecord}
    (h : r.toFields = r'.toFields) : r = r' := by
  have hread := ofFields_toFields r
  rw [h, ofFields_toFields] at hread
  exact (Option.some.inj hread).symm

/-- A record is its fields and its code. -/
theorem eq_of_blank {r r' : ShareSubmissionRecord} (hblank : r.blank = r'.blank)
    (hcode : r.gatewaySignatureHex = r'.gatewaySignatureHex) : r = r' := by
  change { r.blank with gatewaySignatureHex := r.gatewaySignatureHex } =
    { r'.blank with gatewaySignatureHex := r'.gatewaySignatureHex }
  rw [hblank, hcode]

end ShareSubmissionRecord

/-! ## The check -/

/-- Why a share is refused. -/
inductive ShareRefusal where
  | fieldSizeExceeded
  | missingGatewaySignature
  | malformedGatewaySignature
  | malformedEventId
  | invalidGatewaySignature
  deriving DecidableEq

namespace ShareRefusal

def asStr : ShareRefusal → String
  | .fieldSizeExceeded => "field_size_exceeded"
  | .missingGatewaySignature => "missing_gateway_signature"
  | .malformedGatewaySignature => "malformed_gateway_signature"
  | .malformedEventId => "malformed_event_id"
  | .invalidGatewaySignature => "invalid_gateway_signature"

end ShareRefusal

def maxShareHexField : ℕ := 256

def maxShareStringField : ℕ := 256

/-- Whether a field is longer than it may be. -/
def fieldSizeExceeded (r : ShareSubmissionRecord) : Bool :=
  ([r.shareIdHex, r.prevHashWireHex, r.prevHashDisplayHex, r.merkleRootWireHex,
      r.merkleRootDisplayHex, r.eventIdHex, r.gatewaySignatureHex].any
        fun s => maxShareHexField < s.utf8ByteSize) ||
    [r.workerId, r.gatewayInstanceId, r.sourceInstanceId,
      r.validationLevel].any fun s => maxShareStringField < s.utf8ByteSize

section

variable (serde : SerdeJson)

/-- The hash of the body without its code. -/
def canonicalBodyHash (submission : ShareSubmissionRecord) : Bytes32 :=
  sha256 (serde.toVec submission.blank.toFields)

/-- Whether a code is the one of the event id and the body. -/
def verifyGatewaySignature (secret : Bytes) (eventId bodyHash : Bytes32)
    (signature : Bytes) : Bool :=
  signature ==
    (hmacSha256 secret (eventId.toBytes ++ bodyHash.toBytes)).toBytes

/-- Thirty-two bytes in hex. -/
def hexArray (s : String) : Option Bytes32 :=
  match hexDecode s with
  | .ok bs => Bytes32.ofBytes bs
  | .error _ => none

/-- The check of the code, when a secret is configured. -/
def checkGatewaySignature (secret : Bytes)
    (submission : ShareSubmissionRecord) : Except ShareRefusal Unit :=
  if submission.gatewaySignatureHex.isEmpty then
    .error .missingGatewaySignature
  else
    match hexDecode submission.gatewaySignatureHex with
    | .error _ => .error .malformedGatewaySignature
    | .ok sigBytes =>
        match hexArray submission.eventIdHex with
        | none => .error .malformedEventId
        | some eventId =>
            if verifyGatewaySignature secret eventId
                (canonicalBodyHash serde submission) sigBytes then
              .ok ()
            else .error .invalidGatewaySignature

/-- The answer to a share: nothing, or why it is refused. -/
def ingestShare (secret : Bytes) (submission : ShareSubmissionRecord) :
    Except ShareRefusal Unit :=
  if fieldSizeExceeded submission then .error .fieldSizeExceeded
  else if secret.isEmpty then .ok ()
  else checkGatewaySignature serde secret submission

/-- The record of a request body. -/
def parseRecord (body : Bytes) : Option ShareSubmissionRecord :=
  (serde.fromSlice body).bind ShareSubmissionRecord.ofFields

end

/-- A share passes the check when its code is the one of its event id and its
body. -/
theorem checkGatewaySignature_eq_ok {serde : SerdeJson} {secret : Bytes}
    {r : ShareSubmissionRecord} :
    checkGatewaySignature serde secret r = .ok () ↔
      r.gatewaySignatureHex.isEmpty = false ∧
        ∃ sigBytes eventId, hexDecode r.gatewaySignatureHex = .ok sigBytes ∧
          hexArray r.eventIdHex = some eventId ∧
          verifyGatewaySignature secret eventId (canonicalBodyHash serde r)
            sigBytes = true := by
  unfold checkGatewaySignature
  cases hempty : r.gatewaySignatureHex.isEmpty with
  | true => simp
  | false =>
      cases hsig : hexDecode r.gatewaySignatureHex with
      | error e => simp
      | ok sigBytes =>
          cases hevent : hexArray r.eventIdHex with
          | none => simp
          | some eventId => simp

end ReserveGrid.TemplateManager
