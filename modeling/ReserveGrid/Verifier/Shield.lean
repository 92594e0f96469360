import ReserveGrid.Protocol
import ReserveGrid.Support.Rules
import ReserveGrid.Verifier.MempoolView

/-!
# The invariant shield

The shield re-derives the consensus-critical values from the raw block of a
proposal and compares them with the declared fields. The checks run in a fixed
order and the first violation ends the pass. The mempool check comes last.
-/

namespace ReserveGrid.Verifier

open Support Bitcoin Consensus Protocol

/-! ## Outcomes -/

/-- The outcome of the shield pass. -/
inductive ShieldOutcome where
  | skipped
  | agreed
  | rejected (reason : VerdictReason) (detail : String)
  deriving DecidableEq

/-- What the Class M check did during an evaluation. -/
inductive Phase2Attribution where
  | notRun
  | agreed
  | stale
  | skippedDegraded
  | skippedUnprimed
  | rejected (unknown : List Bytes32) (total : UInt32)
  deriving DecidableEq

/-- A reason and a human-readable detail. -/
structure Rejection where
  reason : VerdictReason
  detail : String
  deriving DecidableEq

def consensusViolationToVerdictReason : ConsensusViolation → VerdictReason
  | .decodeFailed _ => .v2InvariantDecodeFailed
  | .coinbaseValueMismatch _ _ => .v2InvariantCoinbaseValueMismatch
  | .templateWeightMismatch _ _ => .v2InvariantTemplateWeightMismatch
  | .merkleRootMismatch _ _ => .v2InvariantMerkleRootMismatch
  | .witnessCommitmentMissing => .v2InvariantWitnessCommitmentMissing
  | .witnessCommitmentMismatch _ _ => .v2InvariantWitnessCommitmentMismatch
  | .sigopsMismatch _ _ => .v2InvariantSigopsMismatch
  | .coinbaseSigopsMismatch _ _ => .v2InvariantCoinbaseSigopsMismatch
  | .txCountMismatch _ _ => .v2InvariantTxCountMismatch
  | .coinbaseScriptLength => .v2InvariantCoinbaseScriptLength
  | .coinbaseOutputCount => .v2InvariantCoinbaseOutputCount
  | .coinbaseBip34Missing => .v2InvariantCoinbaseBip34Missing
  | .coinbaseHeightMismatch _ _ => .v2InvariantCoinbaseHeightMismatch
  | .weightExceedsMax => .v2InvariantWeightExceedsMax
  | .sigopsExceedMax => .v2InvariantSigopsExceedMax
  | .coinbaseValueExceedsMax => .v2InvariantCoinbaseValueExceedsMax
  | .nonCoinbaseNullPrevout => .v2InvariantNontcbNullPrevout
  | .coinbasePrevoutNotNull => .v2InvariantCoinbasePrevoutNotNull
  | .headerVersionLow => .v2InvariantHeaderVersionLow
  | .duplicateTx => .v2InvariantDuplicateTx
  | .mempoolTxUnknown _ => .v2InvariantMempoolTxUnknown
  | .mempoolToleranceExceeded _ _ => .v2InvariantMempoolToleranceExceeded
  | .mempoolUnavailable => .v2InvariantMempoolUnavailable
  | .mempoolViewStale _ => .v2InvariantMempoolViewStale
  | .notImplemented => .internalError

/-- The rejection for a violation reported by the facade. -/
def rejectionOf (v : ConsensusViolation) : Rejection where
  reason := consensusViolationToVerdictReason v
  detail := v.asReasonCode

/-- A facade check as a step of the shield. -/
def facadeCheck {α : Type} (result : Except ConsensusViolation α) :
    Except Rejection Unit :=
  match result with
  | .ok _ => .ok ()
  | .error v => .error (rejectionOf v)

/-! ## The checks against declared fields -/

section

variable (btc : RustBitcoin) (template : TemplatePropose)

def coinbaseValueCheck (rawBlock : Bytes) : Except Rejection Unit :=
  match reDeriveCoinbaseValue btc rawBlock with
  | .error v => .error (rejectionOf v)
  | .ok reDerived =>
      if reDerived ≠ template.coinbaseValue then
        .error
          { reason := .v2InvariantCoinbaseValueMismatch
            detail := "coinbase_value declared=" ++
              toString template.coinbaseValue ++ " re_derived=" ++
              toString reDerived }
      else .ok ()

def templateWeightCheck (parsed : Block) : Except Rejection Unit :=
  match template.templateWeight with
  | none => .ok ()
  | some declared =>
      let reDerived := nonCoinbaseTxWeight btc parsed
      if reDerived ≠ declared.toNat then
        .error
          { reason := .v2InvariantTemplateWeightMismatch
            detail := "template_weight declared=" ++ toString declared ++
              " re_derived=" ++ toString reDerived }
      else .ok ()

def txCountCheck (parsed : Block) : Except Rejection Unit :=
  let reDerived := txCount parsed - 1
  if reDerived ≠ template.txCount.toNat then
    .error
      { reason := .v2InvariantTxCountMismatch
        detail := "tx_count declared=" ++ toString template.txCount ++
          " re_derived=" ++ toString reDerived }
  else .ok ()

/-- The one-sided comparison of a declared cost with the floor of four times a
legacy count. -/
def sigopsFloorCheck (field : String) (reason : VerdictReason)
    (declared : Option UInt32) (legacy : ℕ) : Except Rejection Unit :=
  match declared with
  | none => .ok ()
  | some declared =>
      let floor := min (legacy * 4) u64Max
      if declared.toNat < floor then
        .error
          { reason := reason
            detail := field ++ " declared_cost=" ++ toString declared ++
              " below provable floor=" ++ toString floor ++ " (legacy count " ++
              toString legacy ++ " x4)" }
      else .ok ()

def totalSigopsCheck (parsed : Block) : Except Rejection Unit :=
  sigopsFloorCheck "total_sigops" .v2InvariantSigopsMismatch
    template.totalSigops (nonCoinbaseSigops btc parsed)

def coinbaseSigopsCheck (parsed : Block) : Except Rejection Unit :=
  sigopsFloorCheck "coinbase_sigops" .v2InvariantCoinbaseSigopsMismatch
    template.coinbaseSigops (coinbaseSigops btc parsed)

def coinbaseHeightCheck (parsed : Block) : Except Rejection Unit :=
  match bip34Height parsed with
  | .error v => .error (rejectionOf v)
  | .ok reDerived =>
      if reDerived ≠ template.blockHeight then
        .error
          { reason := .v2InvariantCoinbaseHeightMismatch
            detail := "block_height declared=" ++ toString template.blockHeight ++
              " re_derived=" ++ toString reDerived }
      else .ok ()

/-! ## The pass -/

/-- The ceilings and structural rules, in the order they run. -/
def tier3Checks (parsed : Block) : List (Except Rejection Unit) :=
  [checkCoinbaseScriptLength parsed, checkCoinbaseOutputCount parsed,
    checkWeightMax btc parsed, checkSigopsMax btc parsed,
    checkCoinbaseValueMax parsed, checkNonCoinbaseNullPrevout parsed,
    checkCoinbaseNullPrevout parsed, checkHeaderVersion parsed,
    checkDuplicateTx btc parsed].map facadeCheck

/-- Every check before the mempool check, in the order they run. -/
def phase1Checks (sha : Bytes → Bytes32) (rawBlock : Bytes) (parsed : Block) :
    List (Except Rejection Unit) :=
  coinbaseValueCheck btc template rawBlock ::
  templateWeightCheck btc template parsed ::
  facadeCheck (checkMerkleRootInternal btc parsed) ::
  facadeCheck (checkWitnessCommitmentInternal btc sha parsed) ::
  facadeCheck (checkCoinbaseBip34Present parsed) ::
  txCountCheck template parsed ::
  totalSigopsCheck btc template parsed ::
  coinbaseSigopsCheck btc template parsed ::
  coinbaseHeightCheck template parsed ::
  tier3Checks btc parsed

/-- The detail of a Class M rejection. Txids are given in display order. -/
def formatMempoolToleranceDetail (unknownCount total : UInt32)
    (txidsToEmit : List Bytes32) : String :=
  let detail := "mempool tolerance exceeded: " ++ toString unknownCount ++ "/" ++
    toString total ++ " txs unknown to verifier view"
  if txidsToEmit.isEmpty then detail
  else
    detail ++ " sample=[" ++ ",".intercalate
      (txidsToEmit.map fun t => hexEncode t.reverse.toBytes) ++ "]"

def perTxDetailEmitCap : ℕ := 10000

/-- The detail with at most `perTxDetailEmitCap` txids. -/
def formatMempoolToleranceDetailBounded (unknownCount total : UInt32)
    (txidsToEmit : List Bytes32) : String :=
  if txidsToEmit.length ≤ perTxDetailEmitCap then
    formatMempoolToleranceDetail unknownCount total txidsToEmit
  else
    formatMempoolToleranceDetail unknownCount total
      (txidsToEmit.take perTxDetailEmitCap) ++ " (truncated " ++
      toString perTxDetailEmitCap ++ " of " ++ toString txidsToEmit.length ++ ")"

/-- The mempool check of a block that passed every other one. -/
def classM (parsed : Block)
    (mempool : Option (MempoolSnapshot × Float × Bool)) :
    ShieldOutcome × Phase2Attribution :=
  match mempool with
  | none => (.agreed, .notRun)
  | some (snapshot, tolerancePct, perTxDetail) =>
      match evaluate snapshot (templateTxids btc parsed) tolerancePct with
      | .agreed _ _ => (.agreed, .agreed)
      | .stale _ => (.agreed, .stale)
      | .skipped =>
          (.agreed, match snapshot.state with
            | .degraded => .skippedDegraded
            | _ => .skippedUnprimed)
      | .toleranceExceeded unknown total =>
          let emitLen := if perTxDetail then unknown.length
            else min unknown.length sampleUnknownCap
          (.rejected .v2InvariantMempoolToleranceExceeded
            (formatMempoolToleranceDetailBounded (u32TryFrom unknown.length)
              total (unknown.take emitLen)),
            .rejected unknown total)

/-- The shield pass, with the attribution of the mempool check. -/
def checkInvariantShieldInner (sha : Bytes → Bytes32)
    (mempool : Option (MempoolSnapshot × Float × Bool)) :
    ShieldOutcome × Phase2Attribution :=
  match template.rawBlockHex with
  | none => (.skipped, .notRun)
  | some hexStr =>
      match hexDecode hexStr with
      | .error e =>
          (.rejected .v2InvariantDecodeFailed
            ("raw_block_hex decode failed: " ++ e.message), .notRun)
      | .ok rawBlock =>
          match parseBlock btc rawBlock with
          | .error v => (.rejected (rejectionOf v).reason (rejectionOf v).detail,
              .notRun)
          | .ok parsed =>
              match firstFailure (phase1Checks btc template sha rawBlock parsed) with
              | .error r => (.rejected r.reason r.detail, .notRun)
              | .ok () => classM btc parsed mempool

/-- The shield pass without a mempool view. -/
def checkInvariantShield (sha : Bytes → Bytes32) : ShieldOutcome :=
  (checkInvariantShieldInner btc template sha none).1

end

end ReserveGrid.Verifier
