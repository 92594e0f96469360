import ReserveGrid.Support.Bytes

/-!
# Protocol messages

The messages between the template manager, the gateway and the verifier: the
proposal of a template, the verdict on it and its reason codes.
-/

namespace ReserveGrid.Protocol

def protocolVersion : UInt16 := 2

/-- A template put to the verifier. Counts, weights and signature operations
cover the non-coinbase transactions, and signature operations are in cost
units. -/
structure TemplatePropose where
  version : UInt16
  id : UInt64
  blockHeight : UInt32
  prevHash : String
  coinbaseValue : UInt64
  txCount : UInt32
  totalFees : UInt64
  observedWeight : Option UInt64 := none
  createdAtUnixMs : Option UInt64 := none
  totalSigops : Option UInt32 := none
  coinbaseSigops : Option UInt32 := none
  templateWeight : Option UInt64 := none
  gatewayInstanceId : Option String := none
  rawBlockHex : Option String := none
  deriving DecidableEq, Repr

/-- Machine-readable reasons of a rejection. -/
inductive VerdictReason where
  | protocolVersionMismatch
  | invalidPrevHash
  | prevHashLenMismatch
  | coinbaseValueZeroRejected
  | emptyTemplateRejected
  | txCountExceeded
  | totalFeesBelowMinimum
  | avgFeeBelowMinimum
  | policyLoadError
  | mempoolBackendUnavailable
  | internalError
  | weightRatioExceeded
  | templateStale
  | sigopsBudgetWarning
  | coinbaseSigopsAbnormal
  | v2InvariantCoinbaseValueMismatch
  | v2InvariantTemplateWeightMismatch
  | v2InvariantMerkleRootMismatch
  | v2InvariantWitnessCommitmentMissing
  | v2InvariantWitnessCommitmentMismatch
  | v2InvariantSigopsMismatch
  | v2InvariantCoinbaseSigopsMismatch
  | v2InvariantTxCountMismatch
  | v2InvariantCoinbaseScriptLength
  | v2InvariantCoinbaseOutputCount
  | v2InvariantCoinbaseBip34Missing
  | v2InvariantCoinbaseHeightMismatch
  | v2InvariantWeightExceedsMax
  | v2InvariantSigopsExceedMax
  | v2InvariantCoinbaseValueExceedsMax
  | v2InvariantNontcbNullPrevout
  | v2InvariantCoinbasePrevoutNotNull
  | v2InvariantHeaderVersionLow
  | v2InvariantDuplicateTx
  | v2InvariantDecodeFailed
  | v2InvariantMempoolTxUnknown
  | v2InvariantMempoolToleranceExceeded
  | v2InvariantMempoolUnavailable
  | v2InvariantMempoolViewStale
  deriving DecidableEq, Repr

/-- The policy values a verdict was made with. -/
structure PolicyContext where
  feeTier : Option String
  minAvgFeeUsed : Option UInt64
  minTotalFeesUsed : Option UInt64
  rejectCoinbaseZero : Option Bool
  unknownMempoolAsHigh : Option Bool
  maxWeightRatio : Option Float
  maxTemplateAgeMs : Option UInt64

/-- The verifier's answer to a proposal. It names the proposal by its id. -/
structure TemplateVerdict where
  version : UInt16
  id : UInt64
  accepted : Bool
  reasonCode : Option VerdictReason := none
  reasonDetail : Option String := none
  policyContext : Option PolicyContext := none

end ReserveGrid.Protocol
