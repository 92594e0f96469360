import Mathlib.Data.Finset.Insert
import ReserveGrid.Bitcoin.Library
import ReserveGrid.Support.Result

/-!
# The consensus facade

The invariant shield's view of a block: values re-derived from the parsed block
and checks that need no declared value. Each failure is a
`ConsensusViolation` with its own reason code.
-/

namespace ReserveGrid.Consensus

open Support Bitcoin

/-! ## Violations -/

/-- The failures the facade reports. The last five come from no function over a
block. -/
inductive ConsensusViolation where
  | decodeFailed (detail : String)
  | coinbaseValueMismatch (declared reDerived : UInt64)
  | templateWeightMismatch (declared reDerived : ℕ)
  | merkleRootMismatch (declared reDerived : Bytes32)
  | witnessCommitmentMissing
  | witnessCommitmentMismatch (declared reDerived : Bytes32)
  | sigopsMismatch (declared reDerived : ℕ)
  | coinbaseSigopsMismatch (declared reDerived : ℕ)
  | txCountMismatch (declared reDerived : ℕ)
  | coinbaseScriptLength
  | coinbaseOutputCount
  | coinbaseBip34Missing
  | coinbaseHeightMismatch (declared reDerived : UInt32)
  | weightExceedsMax
  | sigopsExceedMax
  | coinbaseValueExceedsMax
  | nonCoinbaseNullPrevout
  | coinbasePrevoutNotNull
  | headerVersionLow
  | duplicateTx
  | mempoolTxUnknown (txid : Bytes32)
  | mempoolToleranceExceeded (unknownCount total : UInt32)
  | mempoolUnavailable
  | mempoolViewStale (ageSecs : UInt64)
  | notImplemented
  deriving DecidableEq

def ConsensusViolation.asReasonCode : ConsensusViolation → String
  | .decodeFailed _ => "v2_invariant_decode_failed"
  | .coinbaseValueMismatch _ _ => "v2_invariant_coinbase_value_mismatch"
  | .templateWeightMismatch _ _ => "v2_invariant_template_weight_mismatch"
  | .merkleRootMismatch _ _ => "v2_invariant_merkle_root_mismatch"
  | .witnessCommitmentMissing => "v2_invariant_witness_commitment_missing"
  | .witnessCommitmentMismatch _ _ => "v2_invariant_witness_commitment_mismatch"
  | .sigopsMismatch _ _ => "v2_invariant_sigops_mismatch"
  | .coinbaseSigopsMismatch _ _ => "v2_invariant_coinbase_sigops_mismatch"
  | .txCountMismatch _ _ => "v2_invariant_tx_count_mismatch"
  | .coinbaseScriptLength => "v2_invariant_coinbase_script_length"
  | .coinbaseOutputCount => "v2_invariant_coinbase_output_count"
  | .coinbaseBip34Missing => "v2_invariant_coinbase_bip34_missing"
  | .coinbaseHeightMismatch _ _ => "v2_invariant_coinbase_height_mismatch"
  | .weightExceedsMax => "v2_invariant_weight_exceeds_max"
  | .sigopsExceedMax => "v2_invariant_sigops_exceed_max"
  | .coinbaseValueExceedsMax => "v2_invariant_coinbase_value_exceeds_max"
  | .nonCoinbaseNullPrevout => "v2_invariant_nontcb_null_prevout"
  | .coinbasePrevoutNotNull => "v2_invariant_coinbase_prevout_not_null"
  | .headerVersionLow => "v2_invariant_header_version_low"
  | .duplicateTx => "v2_invariant_duplicate_tx"
  | .mempoolTxUnknown _ => "v2_invariant_mempool_tx_unknown"
  | .mempoolToleranceExceeded _ _ => "v2_invariant_mempool_tolerance_exceeded"
  | .mempoolUnavailable => "v2_invariant_mempool_unavailable"
  | .mempoolViewStale _ => "v2_invariant_mempool_view_stale"
  | .notImplemented => "v2_invariant_not_implemented"

/-! ## Internal helpers -/

/-- The start of a commitment script: `OP_RETURN`, a push of 36 bytes, and the
four bytes of the commitment header. -/
def commitmentHeader : Bytes := [0x6a, 0x24, 0xaa, 0x21, 0xa9, 0xed]

/-- The commitment in an output script of commitment form. -/
def commitmentOfScript (script : Bytes) : Option Bytes32 :=
  if 38 ≤ script.length ∧ script.take 6 = commitmentHeader then
    Bytes32.ofBytes ((script.drop 6).take 32)
  else none

/-- The witness commitment of a coinbase: the last output of commitment form
counts. -/
def extractWitnessCommitmentFromCoinbase (coinbase : Transaction) :
    Option Bytes32 :=
  coinbase.output.reverse.findSome? fun o => commitmentOfScript o.scriptPubkey

/-- The value of a height push's payload, the sign bit of its last byte
masked. -/
def heightValue (payload : Bytes) : ℕ :=
  leNat (payload.dropLast ++ [payload.getLastD 0 &&& 0x7f])

/-- The height at the front of a coinbase script, as a minimal push of one to
four bytes. -/
def decodeBip34Height (script : Bytes) : Option UInt32 :=
  match script with
  | [] => none
  | lenByte :: rest =>
      if ¬ (0x01 ≤ lenByte ∧ lenByte ≤ 0x04) then none
      else
        let len := lenByte.toNat
        if rest.length < len then none
        else
          let payload := rest.take len
          let last := payload.getLastD 0
          if last &&& 0x80 ≠ 0 then none
          else if 1 < len ∧ last = 0 ∧ payload.getD (len - 2) 0 &&& 0x80 = 0 then
            none
          else if heightValue payload < 2 ^ 32 then
            some (UInt32.ofNat (heightValue payload))
          else none

/-! ## The facade over a parsed block -/

def u32Max : ℕ := 2 ^ 32 - 1

def u64Max : ℕ := 2 ^ 64 - 1

/-- Saturating addition of `u64`. -/
def satAdd64 (a b : ℕ) : ℕ := min (a + b) u64Max

section

variable (btc : RustBitcoin)

def parseBlock (raw : Bytes) : Except ConsensusViolation Block :=
  match btc.deserializeBlock raw with
  | some b => .ok b
  | none => .error (.decodeFailed "block_deserialize")

/-- Sum with overflow detection at `u64`. -/
def checkedSum : List UInt64 → ℕ → Option ℕ
  | [], acc => some acc
  | v :: vs, acc =>
      if acc + v.toNat ≤ u64Max then checkedSum vs (acc + v.toNat) else none

/-- The coinbase output total of a raw block. -/
def reDeriveCoinbaseValue (raw : Bytes) : Except ConsensusViolation UInt64 := do
  let b ← parseBlock btc raw
  match b.txdata with
  | [] => .error (.decodeFailed "block_has_no_coinbase")
  | coinbase :: _ =>
      match checkedSum (coinbase.output.map TxOut.value) 0 with
      | some total => .ok (UInt64.ofNat total)
      | none => .error .coinbaseValueExceedsMax

def checkMerkleRootInternal (b : Block) : Except ConsensusViolation Unit :=
  match btc.computeMerkleRoot b with
  | none => .error (.decodeFailed "merkle_root_empty_block")
  | some computed =>
      if b.header.merkleRoot ≠ computed then
        .error (.merkleRootMismatch b.header.merkleRoot computed)
      else .ok ()

/-- The witness reserved value of a coinbase: the first stack element of its
first input when that has 32 bytes, else zero. -/
def reservedValue (coinbase : Transaction) : Bytes32 :=
  match coinbase.input with
  | [] => Bytes32.zero
  | i :: _ =>
      match i.witness with
      | [] => Bytes32.zero
      | w :: _ => (Bytes32.ofBytes w).getD Bytes32.zero

def checkWitnessCommitmentInternal (sha : Bytes → Bytes32) (b : Block) :
    Except ConsensusViolation Unit :=
  match b.txdata with
  | [] => .error (.decodeFailed "block_has_no_coinbase")
  | coinbase :: _ =>
      if b.txdata.any Transaction.hasWitness then
        match extractWitnessCommitmentFromCoinbase coinbase with
        | none => .error .witnessCommitmentMissing
        | some declared =>
            match btc.witnessRoot b with
            | none => .error (.decodeFailed "witness_root_empty_block")
            | some root =>
                let computed := sha256d sha
                  (root.toBytes ++ (reservedValue coinbase).toBytes)
                if declared = computed then .ok ()
                else .error (.witnessCommitmentMismatch declared computed)
      else .ok ()

def bip34Height (b : Block) : Except ConsensusViolation UInt32 :=
  match b.txdata with
  | [] => .error (.decodeFailed "block_has_no_coinbase")
  | coinbase :: _ =>
      match coinbase.input with
      | [] => .error (.decodeFailed "coinbase_has_no_input")
      | input :: _ =>
          match decodeBip34Height input.scriptSig with
          | some height => .ok height
          | none => .error .coinbaseBip34Missing

def checkCoinbaseBip34Present (b : Block) : Except ConsensusViolation Unit :=
  (bip34Height b).map fun _ => ()

def txCount (b : Block) : ℕ := min b.txdata.length u32Max

/-- The scripts whose signature operations a transaction is charged for. -/
def sigopScripts (tx : Transaction) : List Bytes :=
  tx.input.map TxIn.scriptSig ++ tx.output.map TxOut.scriptPubkey

/-- Legacy signature operations of a list of transactions, saturating. -/
def sumLegacySigops (txs : List Transaction) : ℕ :=
  min ((txs.flatMap sigopScripts).foldl
    (fun total script => satAdd64 total (btc.countSigopsLegacy script)) 0) u32Max

def totalSigops (b : Block) : ℕ := sumLegacySigops btc b.txdata

def nonCoinbaseTxWeight (b : Block) : ℕ :=
  ((b.txdata.drop 1).map btc.txWeight).sum

def nonCoinbaseSigops (b : Block) : ℕ := sumLegacySigops btc (b.txdata.drop 1)

def coinbaseSigops (b : Block) : ℕ := sumLegacySigops btc (b.txdata.take 1)

/-! ## Ceilings and structural rules -/

def maxBlockWeightWu : ℕ := 4000000

def maxBlockSigopsCost : ℕ := 80000

def maxMoneySats : ℕ := 21000000 * 100000000

def witnessScaleFactor : ℕ := 4

def minCoinbaseScriptLen : ℕ := 2

def maxCoinbaseScriptLen : ℕ := 100

def headerVersionFloor : Int32 := 4

def checkCoinbaseScriptLength (b : Block) : Except ConsensusViolation Unit :=
  match b.txdata with
  | [] => .error (.decodeFailed "block_has_no_coinbase")
  | coinbase :: _ =>
      match coinbase.input with
      | [] => .error (.decodeFailed "coinbase_has_no_input")
      | input :: _ =>
          if minCoinbaseScriptLen ≤ input.scriptSig.length ∧
              input.scriptSig.length ≤ maxCoinbaseScriptLen then .ok ()
          else .error .coinbaseScriptLength

def checkCoinbaseOutputCount (b : Block) : Except ConsensusViolation Unit :=
  match b.txdata with
  | [] => .error (.decodeFailed "block_has_no_coinbase")
  | coinbase :: _ =>
      if coinbase.output.isEmpty then .error .coinbaseOutputCount else .ok ()

def checkWeightMax (b : Block) : Except ConsensusViolation Unit :=
  if maxBlockWeightWu < btc.blockWeight b then .error .weightExceedsMax
  else .ok ()

def checkSigopsMax (b : Block) : Except ConsensusViolation Unit :=
  let scaled := min (totalSigops btc b * witnessScaleFactor) u64Max
  if maxBlockSigopsCost < scaled then .error .sigopsExceedMax else .ok ()

/-- The loop over the coinbase outputs: each value and the running total. -/
def moneyLoop : List UInt64 → ℕ → Except ConsensusViolation ℕ
  | [], total => .ok total
  | v :: vs, total =>
      if maxMoneySats < v.toNat then .error .coinbaseValueExceedsMax
      else if u64Max < total + v.toNat then .error .coinbaseValueExceedsMax
      else moneyLoop vs (total + v.toNat)

def checkCoinbaseValueMax (b : Block) : Except ConsensusViolation Unit :=
  match b.txdata with
  | [] => .error (.decodeFailed "block_has_no_coinbase")
  | coinbase :: _ => do
      let total ← moneyLoop (coinbase.output.map TxOut.value) 0
      if maxMoneySats < total then .error .coinbaseValueExceedsMax
      else .ok ()

def checkNonCoinbaseNullPrevout (b : Block) : Except ConsensusViolation Unit :=
  if (b.txdata.drop 1).any fun tx => tx.input.any fun i => i.previousOutput.isNull
  then .error .nonCoinbaseNullPrevout
  else .ok ()

def checkCoinbaseNullPrevout (b : Block) : Except ConsensusViolation Unit :=
  match b.txdata with
  | [] => .error .coinbasePrevoutNotNull
  | coinbase :: _ =>
      match coinbase.input with
      | [input] =>
          if input.previousOutput.isNull then .ok ()
          else .error .coinbasePrevoutNotNull
      | _ => .error .coinbasePrevoutNotNull

def checkHeaderVersion (b : Block) : Except ConsensusViolation Unit :=
  if b.header.version < headerVersionFloor then .error .headerVersionLow
  else .ok ()

/-- The loop that collects the txids seen so far. -/
def duplicateLoop : List Transaction → Finset Bytes32 → Bool
  | [], _ => false
  | tx :: txs, seen =>
      if btc.computeTxid tx ∈ seen then true
      else duplicateLoop txs (insert (btc.computeTxid tx) seen)

def checkDuplicateTx (b : Block) : Except ConsensusViolation Unit :=
  if duplicateLoop btc b.txdata ∅ then .error .duplicateTx else .ok ()

/-- The ids of the non-coinbase transactions, in block order. -/
def templateTxids (b : Block) : List Bytes32 :=
  (b.txdata.drop 1).map btc.computeTxid

/-! ## Template block assembly -/

/-- The parts of a template block. The coinbase comes in its legacy
serialisation. -/
structure TemplateBlockParts where
  version : Int32
  prevHash : Bytes32
  time : UInt32
  bits : UInt32
  coinbaseLegacy : Bytes
  txsRaw : List Bytes

/-- Parse the raw transactions in order. -/
def parseTxs : List Bytes → Except ConsensusViolation (List Transaction)
  | [] => .ok []
  | raw :: raws =>
      match btc.deserializeTx raw with
      | none => .error (.decodeFailed "template_tx_deserialize")
      | some tx => (parseTxs raws).map (tx :: ·)

def parseCoinbase (raw : Bytes) : Except ConsensusViolation Transaction :=
  match btc.deserializeTx raw with
  | some tx => .ok tx
  | none => .error (.decodeFailed "coinbase_deserialize")

/-- The coinbase with the reserved value as the witness of its first input. -/
def attachReserved (coinbase : Transaction) :
    Except ConsensusViolation Transaction :=
  match coinbase.input with
  | [] => .error (.decodeFailed "coinbase_has_no_input")
  | i :: is =>
      .ok { coinbase with
        input := { i with witness := [Bytes32.zero.toBytes] } :: is }

/-- The coinbase as it enters the block. -/
def witnessedCoinbase (coinbase : Transaction) :
    Except ConsensusViolation Transaction :=
  if (extractWitnessCommitmentFromCoinbase coinbase).isSome then
    attachReserved coinbase
  else .ok coinbase

/-- The block before its merkle root is known. -/
def draftBlock (parts : TemplateBlockParts) (txs : List Transaction) : Block where
  header :=
    { version := parts.version
      prevBlockhash := parts.prevHash
      merkleRoot := Bytes32.zero
      time := parts.time
      bits := parts.bits
      nonce := 0 }
  txdata := txs

/-- Put the merkle root of the body into the header. -/
def sealBlock (draft : Block) : Except ConsensusViolation Block :=
  match btc.computeMerkleRoot draft with
  | none => .error (.decodeFailed "merkle_root_empty_block")
  | some merkle =>
      .ok { draft with header := { draft.header with merkleRoot := merkle } }

/-- The block that `assembleTemplateBlock` serialises. -/
def assembleBlock (parts : TemplateBlockParts) :
    Except ConsensusViolation Block :=
  (parseCoinbase btc parts.coinbaseLegacy).bind fun coinbase =>
    (parseTxs btc parts.txsRaw).bind fun txdata =>
      if txdata.any Transaction.hasWitness &&
          !(extractWitnessCommitmentFromCoinbase coinbase).isSome then
        .error .witnessCommitmentMissing
      else (witnessedCoinbase coinbase).bind fun body =>
        sealBlock btc (draftBlock parts (body :: txdata))

/-- Assemble and serialise an unmined template block. -/
def assembleTemplateBlock (parts : TemplateBlockParts) :
    Except ConsensusViolation Bytes :=
  (assembleBlock btc parts).map btc.serializeBlock

variable {btc}

theorem parseTxs_eq_ok {raws : List Bytes} {txs : List Transaction}
    (h : parseTxs btc raws = .ok txs) :
    raws.mapM btc.deserializeTx = some txs := by
  induction raws generalizing txs with
  | nil =>
      cases h
      rfl
  | cons raw raws ih =>
      rw [parseTxs] at h
      split at h
      · simp at h
      · rename_i tx htx
        obtain ⟨rest, hrest, rfl⟩ := Result.map_eq_ok.mp h
        simp [List.mapM_cons, htx, ih hrest]

theorem attachReserved_strip {coinbase coinbase' : Transaction}
    (h : attachReserved coinbase = .ok coinbase') :
    coinbase'.strip = coinbase.strip := by
  unfold attachReserved at h
  split at h
  · simp at h
  · rename_i i is hinput
    cases h
    simp [Transaction.strip, hinput, TxIn.strip]

/-- What an assembled block is made of. -/
structure Assembled (btc : RustBitcoin) (parts : TemplateBlockParts)
    (b : Block) (coinbase body : Transaction) (txs : List Transaction) :
    Prop where
  coinbase_eq : btc.deserializeTx parts.coinbaseLegacy = some coinbase
  txs_eq : parts.txsRaw.mapM btc.deserializeTx = some txs
  committed : txs.any Transaction.hasWitness = true →
    (extractWitnessCommitmentFromCoinbase coinbase).isSome = true
  body_eq : witnessedCoinbase coinbase = .ok body
  merkle : btc.computeMerkleRoot (draftBlock parts (body :: txs)) =
    some b.header.merkleRoot
  header_eq : b.header =
    ⟨parts.version, parts.prevHash, b.header.merkleRoot, parts.time, parts.bits, 0⟩
  txdata_eq : b.txdata = body :: txs

theorem assembleBlock_eq_ok {parts : TemplateBlockParts} {b : Block}
    (h : assembleBlock btc parts = .ok b) :
    ∃ coinbase body txs, Assembled btc parts b coinbase body txs := by
  obtain ⟨coinbase, hcoinbase, h⟩ := Result.bind_eq_ok.mp h
  obtain ⟨txs, htxs, h⟩ := Result.bind_eq_ok.mp h
  have hparsed : btc.deserializeTx parts.coinbaseLegacy = some coinbase := by
    unfold parseCoinbase at hcoinbase
    split at hcoinbase
    · cases hcoinbase
      assumption
    · simp at hcoinbase
  split at h
  · simp at h
  · rename_i hcommitted
    obtain ⟨body, hbody, h⟩ := Result.bind_eq_ok.mp h
    unfold sealBlock at h
    split at h
    · simp at h
    · rename_i merkle hmerkle
      cases h
      refine ⟨coinbase, body, txs, hparsed, parseTxs_eq_ok htxs, ?_, hbody,
        hmerkle, rfl, rfl⟩
      intro hany
      rw [hany, Bool.true_and, Bool.not_eq_true, Bool.not_eq_false'] at hcommitted
      exact hcommitted

/-- The body of an assembled block hashes like the coinbase it came from. -/
theorem Assembled.body_strip {parts : TemplateBlockParts} {b : Block}
    {coinbase body : Transaction} {txs : List Transaction}
    (h : Assembled btc parts b coinbase body txs) :
    body.strip = coinbase.strip := by
  have hbody := h.body_eq
  unfold witnessedCoinbase at hbody
  split at hbody
  · exact attachReserved_strip hbody
  · cases hbody
    rfl

end

end ReserveGrid.Consensus
