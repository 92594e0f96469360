import ReserveGrid.Protocol
import ReserveGrid.Support.JsonTree

/-!
# Protocol messages as JSON

The gateway and the verifier exchange lines that hold an envelope, whose payload
is a message; the template manager sends and receives bare messages. Messages are
read by the names of their fields, so that a field that one side does not know is
passed over and an optional one may be missing.
-/

namespace ReserveGrid.Protocol

open Support JsonTree

/-! ## Reason codes -/

namespace VerdictReason

/-- Every reason. -/
def all : List VerdictReason :=
  [.protocolVersionMismatch, .invalidPrevHash, .prevHashLenMismatch,
    .coinbaseValueZeroRejected, .emptyTemplateRejected, .txCountExceeded,
    .totalFeesBelowMinimum, .avgFeeBelowMinimum, .policyLoadError,
    .mempoolBackendUnavailable, .internalError, .weightRatioExceeded, .templateStale,
    .sigopsBudgetWarning, .coinbaseSigopsAbnormal, .v2InvariantCoinbaseValueMismatch,
    .v2InvariantTemplateWeightMismatch, .v2InvariantMerkleRootMismatch,
    .v2InvariantWitnessCommitmentMissing, .v2InvariantWitnessCommitmentMismatch,
    .v2InvariantSigopsMismatch, .v2InvariantCoinbaseSigopsMismatch,
    .v2InvariantTxCountMismatch, .v2InvariantCoinbaseScriptLength,
    .v2InvariantCoinbaseOutputCount, .v2InvariantCoinbaseBip34Missing,
    .v2InvariantCoinbaseHeightMismatch, .v2InvariantWeightExceedsMax,
    .v2InvariantSigopsExceedMax, .v2InvariantCoinbaseValueExceedsMax,
    .v2InvariantNontcbNullPrevout, .v2InvariantCoinbasePrevoutNotNull,
    .v2InvariantHeaderVersionLow, .v2InvariantDuplicateTx, .v2InvariantDecodeFailed,
    .v2InvariantMempoolTxUnknown, .v2InvariantMempoolToleranceExceeded,
    .v2InvariantMempoolUnavailable, .v2InvariantMempoolViewStale]

/-- The code of a reason, in logs and on the wire. -/
def asStr : VerdictReason → String
  | .protocolVersionMismatch => "protocol_version_mismatch"
  | .invalidPrevHash => "invalid_prev_hash"
  | .prevHashLenMismatch => "prev_hash_len_mismatch"
  | .coinbaseValueZeroRejected => "coinbase_value_zero_rejected"
  | .emptyTemplateRejected => "empty_template_rejected"
  | .txCountExceeded => "tx_count_exceeded"
  | .totalFeesBelowMinimum => "total_fees_below_minimum"
  | .avgFeeBelowMinimum => "avg_fee_below_minimum"
  | .policyLoadError => "policy_load_error"
  | .mempoolBackendUnavailable => "mempool_backend_unavailable"
  | .internalError => "internal_error"
  | .weightRatioExceeded => "weight_ratio_exceeded"
  | .templateStale => "template_stale"
  | .sigopsBudgetWarning => "sigops_budget_warning"
  | .coinbaseSigopsAbnormal => "coinbase_sigops_abnormal"
  | .v2InvariantCoinbaseValueMismatch => "v2_invariant_coinbase_value_mismatch"
  | .v2InvariantTemplateWeightMismatch => "v2_invariant_template_weight_mismatch"
  | .v2InvariantMerkleRootMismatch => "v2_invariant_merkle_root_mismatch"
  | .v2InvariantWitnessCommitmentMissing => "v2_invariant_witness_commitment_missing"
  | .v2InvariantWitnessCommitmentMismatch => "v2_invariant_witness_commitment_mismatch"
  | .v2InvariantSigopsMismatch => "v2_invariant_sigops_mismatch"
  | .v2InvariantCoinbaseSigopsMismatch => "v2_invariant_coinbase_sigops_mismatch"
  | .v2InvariantTxCountMismatch => "v2_invariant_tx_count_mismatch"
  | .v2InvariantCoinbaseScriptLength => "v2_invariant_coinbase_script_length"
  | .v2InvariantCoinbaseOutputCount => "v2_invariant_coinbase_output_count"
  | .v2InvariantCoinbaseBip34Missing => "v2_invariant_coinbase_bip34_missing"
  | .v2InvariantCoinbaseHeightMismatch => "v2_invariant_coinbase_height_mismatch"
  | .v2InvariantWeightExceedsMax => "v2_invariant_weight_exceeds_max"
  | .v2InvariantSigopsExceedMax => "v2_invariant_sigops_exceed_max"
  | .v2InvariantCoinbaseValueExceedsMax => "v2_invariant_coinbase_value_exceeds_max"
  | .v2InvariantNontcbNullPrevout => "v2_invariant_nontcb_null_prevout"
  | .v2InvariantCoinbasePrevoutNotNull => "v2_invariant_coinbase_prevout_not_null"
  | .v2InvariantHeaderVersionLow => "v2_invariant_header_version_low"
  | .v2InvariantDuplicateTx => "v2_invariant_duplicate_tx"
  | .v2InvariantDecodeFailed => "v2_invariant_decode_failed"
  | .v2InvariantMempoolTxUnknown => "v2_invariant_mempool_tx_unknown"
  | .v2InvariantMempoolToleranceExceeded => "v2_invariant_mempool_tolerance_exceeded"
  | .v2InvariantMempoolUnavailable => "v2_invariant_mempool_unavailable"
  | .v2InvariantMempoolViewStale => "v2_invariant_mempool_view_stale"

/-- A reason is read by its code. -/
def ofJson (v : JsonTree) : Option VerdictReason :=
  v.readStr.bind fun code => all.find? fun r => r.asStr = code

def toJson (r : VerdictReason) : JsonTree := .str r.asStr

theorem mem_all (r : VerdictReason) : r ∈ all := by
  cases r <;> decide

theorem asStr_nodup : (all.map asStr).Nodup := by decide +kernel

@[simp] theorem ofJson_toJson (r : VerdictReason) : ofJson r.toJson = some r := by
  have hfind : all.find? (fun r' => r'.asStr = r.asStr) = some r := by
    rw [List.find?_eq_some_iff_append]
    obtain ⟨before, after, hsplit⟩ := List.append_of_mem (mem_all r)
    refine ⟨by simp, before, after, hsplit, fun r' hr' => ?_⟩
    have hnodup := asStr_nodup
    rw [hsplit, List.map_append, List.nodup_append] at hnodup
    have hne : r'.asStr ≠ r.asStr := fun h =>
      hnodup.2.2 _ (List.mem_map_of_mem hr') _ (by simp) h
    simpa using hne
  simpa [ofJson, toJson] using hfind

end VerdictReason

/-! ## Messages -/

namespace TemplatePropose

def jsonFields (t : TemplatePropose) : List (String × JsonTree) :=
  [("version", .nat t.version.toNat),
    ("id", .nat t.id.toNat),
    ("block_height", .nat t.blockHeight.toNat),
    ("prev_hash", .str t.prevHash),
    ("coinbase_value", .nat t.coinbaseValue.toNat),
    ("tx_count", .nat t.txCount.toNat),
    ("total_fees", .nat t.totalFees.toNat),
    ("observed_weight", ofOption (fun n => .nat n.toNat) t.observedWeight),
    ("created_at_unix_ms", ofOption (fun n => .nat n.toNat) t.createdAtUnixMs),
    ("total_sigops", ofOption (fun n => .nat n.toNat) t.totalSigops),
    ("coinbase_sigops", ofOption (fun n => .nat n.toNat) t.coinbaseSigops),
    ("template_weight", ofOption (fun n => .nat n.toNat) t.templateWeight),
    ("gateway_instance_id", ofOption .str t.gatewayInstanceId),
    ("raw_block_hex", ofOption .str t.rawBlockHex)]

def toJson (t : TemplatePropose) : JsonTree := .obj t.jsonFields

def ofFields (fs : List (String × JsonTree)) : Option TemplatePropose := do
  let version ← required readU16 fs "version"
  let id ← required readU64 fs "id"
  let blockHeight ← required readU32 fs "block_height"
  let prevHash ← required readStr fs "prev_hash"
  let coinbaseValue ← required readU64 fs "coinbase_value"
  let txCount ← required readU32 fs "tx_count"
  let totalFees ← required readU64 fs "total_fees"
  let observedWeight ← optional readU64 fs "observed_weight"
  let createdAtUnixMs ← optional readU64 fs "created_at_unix_ms"
  let totalSigops ← optional readU32 fs "total_sigops"
  let coinbaseSigops ← optional readU32 fs "coinbase_sigops"
  let templateWeight ← optional readU64 fs "template_weight"
  let gatewayInstanceId ← optional readStr fs "gateway_instance_id"
  let rawBlockHex ← optional readStr fs "raw_block_hex"
  some { version, id, blockHeight, prevHash, coinbaseValue, txCount, totalFees,
         observedWeight, createdAtUnixMs, totalSigops, coinbaseSigops, templateWeight,
         gatewayInstanceId, rawBlockHex }

def ofJson (v : JsonTree) : Option TemplatePropose := v.fields.bind ofFields

end TemplatePropose

namespace PolicyContext

def jsonFields (c : PolicyContext) : List (String × JsonTree) :=
  [("fee_tier", ofOption .str c.feeTier),
    ("min_avg_fee_used", ofOption (fun n => .nat n.toNat) c.minAvgFeeUsed),
    ("min_total_fees_used", ofOption (fun n => .nat n.toNat) c.minTotalFeesUsed),
    ("reject_coinbase_zero", ofOption .bool c.rejectCoinbaseZero),
    ("unknown_mempool_as_high", ofOption .bool c.unknownMempoolAsHigh),
    ("max_weight_ratio", ofOption ofF64 c.maxWeightRatio),
    ("max_template_age_ms", ofOption (fun n => .nat n.toNat) c.maxTemplateAgeMs)]

def toJson (c : PolicyContext) : JsonTree := .obj c.jsonFields

def ofFields (fs : List (String × JsonTree)) : Option PolicyContext := do
  let feeTier ← optional readStr fs "fee_tier"
  let minAvgFeeUsed ← optional readU64 fs "min_avg_fee_used"
  let minTotalFeesUsed ← optional readU64 fs "min_total_fees_used"
  let rejectCoinbaseZero ← optional readBool fs "reject_coinbase_zero"
  let unknownMempoolAsHigh ← optional readBool fs "unknown_mempool_as_high"
  let maxWeightRatio ← optional readF64 fs "max_weight_ratio"
  let maxTemplateAgeMs ← optional readU64 fs "max_template_age_ms"
  some { feeTier, minAvgFeeUsed, minTotalFeesUsed, rejectCoinbaseZero,
         unknownMempoolAsHigh, maxWeightRatio, maxTemplateAgeMs }

def ofJson (v : JsonTree) : Option PolicyContext := v.fields.bind ofFields

/-- The context as it arrives: a ratio that has no text is lost, and another is
what its text reads as. -/
def received (reread : Float → Float) (c : PolicyContext) : PolicyContext :=
  { c with
    maxWeightRatio := c.maxWeightRatio.bind fun x =>
      if x.isFinite then some (reread x) else none }

end PolicyContext

namespace TemplateVerdict

def jsonFields (v : TemplateVerdict) : List (String × JsonTree) :=
  [("version", .nat v.version.toNat),
    ("id", .nat v.id.toNat),
    ("accepted", .bool v.accepted),
    ("reason_code", ofOption VerdictReason.toJson v.reasonCode),
    ("reason_detail", ofOption .str v.reasonDetail),
    ("policy_context", ofOption PolicyContext.toJson v.policyContext)]

def toJson (v : TemplateVerdict) : JsonTree := .obj v.jsonFields

def ofFields (fs : List (String × JsonTree)) : Option TemplateVerdict := do
  let version ← required readU16 fs "version"
  let id ← required readU64 fs "id"
  let accepted ← required readBool fs "accepted"
  let reasonCode ← optional VerdictReason.ofJson fs "reason_code"
  let reasonDetail ← optional readStr fs "reason_detail"
  let policyContext ← optional PolicyContext.ofJson fs "policy_context"
  some { version, id, accepted, reasonCode, reasonDetail, policyContext }

def ofJson (v : JsonTree) : Option TemplateVerdict := v.fields.bind ofFields

/-- The verdict as it arrives. -/
def received (reread : Float → Float) (v : TemplateVerdict) : TemplateVerdict :=
  { v with policyContext := v.policyContext.map (·.received reread) }

end TemplateVerdict

/-! ## The envelope -/

/-- NDJSON envelope for messages on the gateway-to-verifier stream. -/
structure InternalMessage where
  msgType : String
  version : UInt16
  payload : JsonTree := .null

namespace InternalMessage

def templatePropose : String := "template_propose"
def templateVerdict : String := "template_verdict"
def heartbeat : String := "heartbeat"
def heartbeatAck : String := "heartbeat_ack"

def jsonFields (m : InternalMessage) : List (String × JsonTree) :=
  [("msg_type", .str m.msgType), ("version", .nat m.version.toNat), ("payload", m.payload)]

def toJson (m : InternalMessage) : JsonTree := .obj m.jsonFields

def ofFields (fs : List (String × JsonTree)) : Option InternalMessage := do
  let msgType ← required readStr fs "msg_type"
  let version ← required readU16 fs "version"
  let payload ← orDefault .null some fs "payload"
  some { msgType, version, payload }

def ofJson (v : JsonTree) : Option InternalMessage := v.fields.bind ofFields

end InternalMessage

/-! ## What is written is read -/

section

variable {fs : List (String × JsonTree)}

theorem optionU64 (n : Option UInt64) :
    readOption readU64 (ofOption (fun n => .nat n.toNat) n) = some n :=
  readOption_ofOption readU64_nat (by simp) n

theorem optionU32 (n : Option UInt32) :
    readOption readU32 (ofOption (fun n => .nat n.toNat) n) = some n :=
  readOption_ofOption readU32_nat (by simp) n

theorem optionStr (s : Option String) : readOption readStr (ofOption .str s) = some s :=
  readOption_ofOption readStr_str (by simp) s

theorem optionBool (b : Option Bool) : readOption readBool (ofOption .bool b) = some b :=
  readOption_ofOption readBool_bool (by simp) b

/-- A proposal is read from every object that has its fields, whatever else the
object has, in whatever order, and without those that are none. -/
theorem TemplatePropose.ofFields_of_presents {t : TemplatePropose}
    (h : Presents fs t.jsonFields) : ofFields fs = some t := by
  have hnat (n : ℕ) : JsonTree.nat n ≠ .null := by simp
  rw [ofFields, h.required 0 rfl (hnat _), h.required 1 rfl (hnat _),
    h.required 2 rfl (hnat _), h.required 3 rfl (by simp), h.required 4 rfl (hnat _),
    h.required 5 rfl (hnat _), h.required 6 rfl (hnat _), h.optional 7 rfl,
    h.optional 8 rfl, h.optional 9 rfl, h.optional 10 rfl, h.optional 11 rfl,
    h.optional 12 rfl, h.optional 13 rfl]
  simp only [readU16_nat, readU32_nat, readU64_nat, readStr_str, optionU64, optionU32,
    optionStr, Option.bind_eq_bind, Option.bind_some]

theorem TemplatePropose.nodup_jsonFields (t : TemplatePropose) :
    (t.jsonFields.map Prod.fst).Nodup := by
  simp [jsonFields]

theorem TemplatePropose.mapFloat_toJson (f : Float → Float) (t : TemplatePropose) :
    t.toJson.mapFloat f = t.toJson := by
  simp [toJson, jsonFields, mapFloat]

theorem TemplatePropose.ofJson_toJson (t : TemplatePropose) : ofJson t.toJson = some t :=
  ofFields_of_presents (presents_self t.nodup_jsonFields)

theorem PolicyContext.ofJson_mapFloat (f : Float → Float) (c : PolicyContext) :
    ofJson (c.toJson.mapFloat f) = some (c.received f) := by
  have h : Presents (mapFields f c.jsonFields) (mapFields f c.jsonFields) :=
    presents_self (by rw [map_fst_mapFields]; simp [jsonFields])
  have hratio : readOption readF64 ((ofOption ofF64 c.maxWeightRatio).mapFloat f) =
      some (c.maxWeightRatio.bind fun x =>
        if x.isFinite then some (f x) else none) := by
    rcases c.maxWeightRatio with _ | x
    · rfl
    · rw [ofOption, ofF64]
      split
      · simp [mapFloat, readOption, readF64, *]
      · simp [mapFloat, readOption, *]
  have hfields : ofFields (mapFields f c.jsonFields) = some (c.received f) := by
    rw [ofFields, h.optional 0 rfl, h.optional 1 rfl, h.optional 2 rfl, h.optional 3 rfl,
      h.optional 4 rfl, h.optional 5 rfl, h.optional 6 rfl, hratio]
    simp only [mapFloat_ofOption, mapFloat, optionU64, optionStr, optionBool,
      Option.bind_eq_bind, Option.bind_some]
    rfl
  exact hfields

theorem TemplateVerdict.ofJson_mapFloat (f : Float → Float) (v : TemplateVerdict) :
    ofJson (v.toJson.mapFloat f) = some (v.received f) := by
  have h : Presents (mapFields f v.jsonFields) (mapFields f v.jsonFields) :=
    presents_self (by rw [map_fst_mapFields]; simp [jsonFields])
  have hcode : readOption VerdictReason.ofJson
      ((ofOption VerdictReason.toJson v.reasonCode).mapFloat f) = some v.reasonCode := by
    rw [mapFloat_ofOption]
    exact readOption_ofOption VerdictReason.ofJson_toJson (by simp [VerdictReason.toJson]) _
  have hcontext : readOption PolicyContext.ofJson
      ((ofOption PolicyContext.toJson v.policyContext).mapFloat f) =
      some (v.policyContext.map (·.received f)) := by
    rcases v.policyContext with _ | c
    · rfl
    · have hread := c.ofJson_mapFloat f
      rw [ofOption, PolicyContext.toJson, mapFloat] at *
      rw [readOption, hread]
      · rfl
      · simp
  have hfields : ofFields (mapFields f v.jsonFields) = some (v.received f) := by
    rw [ofFields, h.required 0 rfl (by simp [mapFloat]),
      h.required 1 rfl (by simp [mapFloat]), h.required 2 rfl (by simp [mapFloat]),
      h.optional 3 rfl, h.optional 4 rfl, h.optional 5 rfl, hcode, hcontext]
    simp only [mapFloat_ofOption, mapFloat, readU16_nat, readU64_nat, readBool_bool,
      optionStr, Option.bind_eq_bind, Option.bind_some]
    rfl
  exact hfields

theorem InternalMessage.ofJson_mapFloat (f : Float → Float) (m : InternalMessage) :
    ofJson (m.toJson.mapFloat f) = some { m with payload := m.payload.mapFloat f } := by
  have hnodup : ((mapFields f m.jsonFields).map Prod.fst).Nodup := by
    rw [map_fst_mapFields]
    simp [jsonFields]
  have h : Presents (mapFields f m.jsonFields) (mapFields f m.jsonFields) :=
    presents_self hnodup
  have hpayload : orDefault .null some (mapFields f m.jsonFields) "payload" =
      some (m.payload.mapFloat f) := by
    have hmem : ("payload", m.payload.mapFloat f) ∈ mapFields f m.jsonFields := by
      simp [jsonFields]
    rw [orDefault, field_of_mem hnodup hmem]
  have hfields : ofFields (mapFields f m.jsonFields) =
      some { m with payload := m.payload.mapFloat f } := by
    rw [ofFields, h.required 0 rfl (by simp [mapFloat]),
      h.required 1 rfl (by simp [mapFloat]), hpayload]
    simp only [mapFloat, readU16_nat, readStr_str, Option.bind_eq_bind, Option.bind_some]
  exact hfields

end

/-! ## What the library writes -/

theorem writable_u16 (n : UInt16) : (JsonTree.nat n.toNat).Writable :=
  n.toNat_lt.trans (by decide)

theorem writable_u32 (n : UInt32) : (JsonTree.nat n.toNat).Writable :=
  n.toNat_lt.trans (by decide)

theorem writable_u64 (n : UInt64) : (JsonTree.nat n.toNat).Writable := n.toNat_lt

theorem TemplatePropose.writable_toJson (t : TemplatePropose) : t.toJson.Writable := by
  have h64 (n : Option UInt64) : (ofOption (fun n => .nat n.toNat) n).Writable :=
    writable_ofOption _ (fun n => writable_u64 n) n
  have h32 (n : Option UInt32) : (ofOption (fun n => .nat n.toNat) n).Writable :=
    writable_ofOption _ (fun n => writable_u32 n) n
  have hstr (s : Option String) : (ofOption .str s).Writable :=
    writable_ofOption .str (fun _ => trivial) s
  exact ⟨writable_u16 _, writable_u64 _, writable_u32 _, trivial, writable_u64 _,
    writable_u32 _, writable_u64 _, h64 _, h64 _, h32 _, h32 _, h64 _, hstr _, hstr _,
    trivial⟩

theorem PolicyContext.writable_toJson (c : PolicyContext) : c.toJson.Writable := by
  have h64 (n : Option UInt64) : (ofOption (fun n => .nat n.toNat) n).Writable :=
    writable_ofOption _ (fun n => writable_u64 n) n
  have hstr (s : Option String) : (ofOption .str s).Writable :=
    writable_ofOption .str (fun _ => trivial) s
  have hbool (b : Option Bool) : (ofOption .bool b).Writable :=
    writable_ofOption .bool (fun _ => trivial) b
  have hf64 (x : Float) : (ofF64 x).Writable := by
    rw [ofF64]
    split
    · assumption
    · trivial
  exact ⟨hstr _, h64 _, h64 _, hbool _, hbool _, writable_ofOption _ hf64 _, h64 _, trivial⟩

theorem TemplateVerdict.writable_toJson (v : TemplateVerdict) : v.toJson.Writable := by
  have hcode : (ofOption VerdictReason.toJson v.reasonCode).Writable :=
    writable_ofOption VerdictReason.toJson (fun _ => trivial) _
  have hdetail : (ofOption .str v.reasonDetail).Writable :=
    writable_ofOption .str (fun _ => trivial) _
  have hcontext : (ofOption PolicyContext.toJson v.policyContext).Writable :=
    writable_ofOption _ PolicyContext.writable_toJson _
  exact ⟨writable_u16 _, writable_u64 _, trivial, hcode, hdetail, hcontext, trivial⟩

theorem InternalMessage.writable_toJson {m : InternalMessage} (h : m.payload.Writable) :
    m.toJson.Writable :=
  ⟨trivial, writable_u16 _, h, trivial⟩

end ReserveGrid.Protocol
