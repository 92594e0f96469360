import Mathlib.Data.List.Sort
import ReserveGrid.Protocol
import ReserveGrid.Support.HashMap
import ReserveGrid.TemplateManager.CoinbaseTx

/-!
# Templates from getblocktemplate

The template manager turns an answer of `getblocktemplate` into a proposal for
the verifier and the fields the gateway needs for its jobs. An answer with the
fingerprint of the last one gives no proposal. The proposal's id is a hash of
the fingerprint.
-/

namespace ReserveGrid.TemplateManager

open Support Bitcoin Consensus Protocol

/-! ## The answer -/

/-- One transaction of the answer. -/
structure GbtTransaction where
  txid : Bytes32
  fee : UInt64
  sigops : UInt32
  weight : ℕ
  rawTx : Bytes

/-- The fields of the answer that are read. -/
structure GetBlockTemplateResult where
  version : UInt32
  previousBlockHash : Bytes32
  transactions : List GbtTransaction
  coinbaseaux : HashMap String String
  coinbaseValue : UInt64
  defaultWitnessCommitment : Bytes
  height : UInt64
  bits : Bytes
  currentTime : UInt64
  minTime : UInt64

/-- A hash in display order. -/
def displayHex (h : Bytes32) : String := hexEncode h.reverse.toBytes

def bitsToNbits (bits : Bytes) : UInt32 :=
  if bits.length = 4 then UInt32.ofNat (leNat bits.reverse) else 0

/-- The decoded auxiliary values in the order of their keys. Values that are
not hexadecimal are left out. -/
def coinbaseAux (coinbaseaux : HashMap String String) : Bytes :=
  (coinbaseaux.keys.insertionSort (· ≤ ·)).flatMap fun key =>
    match coinbaseaux.lookup key with
    | none => []
    | some hexVal =>
        match hexDecode hexVal with
        | .ok bytes => bytes
        | .error _ => []

def blockSubsidySats (height : UInt32) : UInt64 :=
  let halvings := height.toNat / 210000
  if 64 ≤ halvings then 0 else UInt64.ofNat (50 * 100000000 / 2 ^ halvings)

namespace GetBlockTemplateResult

def blockHeight (tpl : GetBlockTemplateResult) : UInt32 := tpl.height.toUInt32

def txCount (tpl : GetBlockTemplateResult) : UInt32 :=
  UInt32.ofNat tpl.transactions.length

def totalFees (tpl : GetBlockTemplateResult) : UInt64 :=
  UInt64.ofNat (tpl.transactions.map fun tx => tx.fee.toNat).sum

/-- The coinbase value, with a fallback to subsidy and fees for a zero. -/
def effectiveCoinbaseValue (tpl : GetBlockTemplateResult) : UInt64 :=
  if tpl.coinbaseValue = 0 then blockSubsidySats tpl.blockHeight + tpl.totalFees
  else tpl.coinbaseValue

def templateWeight (tpl : GetBlockTemplateResult) : UInt64 :=
  UInt64.ofNat (tpl.transactions.map GbtTransaction.weight).sum

def totalSigops (tpl : GetBlockTemplateResult) : UInt32 :=
  UInt32.ofNat (tpl.transactions.map fun tx => tx.sigops.toNat).sum

def txids (tpl : GetBlockTemplateResult) : List String :=
  tpl.transactions.map fun tx => displayHex tx.txid

/-- The commitment script; an empty one stands for none. -/
def witnessCommitment (tpl : GetBlockTemplateResult) : Option Bytes :=
  if tpl.defaultWitnessCommitment.isEmpty then none
  else some tpl.defaultWitnessCommitment

end GetBlockTemplateResult

/-! ## Fingerprints -/

/-- What is fed to a hasher. -/
inductive HashWrite where
  | u64 (n : UInt64)
  | u32 (n : UInt32)
  | str (s : String)

structure TemplateFingerprint where
  height : UInt64
  prevHash : String
  txCount : UInt32
  totalFees : UInt64
  txidsHash : UInt64
  deriving DecidableEq

section

variable (hasher : List HashWrite → UInt64)

/-- A hash of the txids that does not depend on their order. -/
def hashTxids (txids : List String) : UInt64 :=
  hasher ((txids.insertionSort (· ≤ ·)).map HashWrite.str)

def fingerprint (tpl : GetBlockTemplateResult) : TemplateFingerprint where
  height := tpl.blockHeight.toUInt64
  prevHash := displayHex tpl.previousBlockHash
  txCount := tpl.txCount
  totalFees := tpl.totalFees
  txidsHash := hashTxids hasher tpl.txids

def stableTemplateId (fp : TemplateFingerprint) : UInt64 :=
  hasher [.u64 fp.height, .str fp.prevHash, .u32 fp.txCount, .u64 fp.totalFees,
    .u64 fp.txidsHash]

end

/-! ## The source -/

/-- The fields of a template that the gateway needs besides the proposal. -/
structure GbtExtras where
  blockVersion : UInt32
  nbits : UInt32
  minNtime : UInt32
  curtime : UInt32
  coinbaseTxPrefix : String
  coinbaseTxSuffix : String
  merklePath : List String

/-- The source's configuration and what it remembers between polls. -/
structure BitcoindTemplateSource where
  lastFp : Option TemplateFingerprint
  hadRpcError : Bool
  coinbaseOutputScript : Bytes
  extranonceSize : ℕ

namespace BitcoindTemplateSource

section

variable (hasher : List HashWrite → UInt64) (btc : RustBitcoin)
  (sha : Bytes → Bytes32) (nowUnixMs : UInt64)
  (source : BitcoindTemplateSource) (tpl : GetBlockTemplateResult)
  (coinbaseSigops : Option UInt32)

def coinbaseHalves : Except Failure (Bytes × Bytes) :=
  buildCoinbaseHalves tpl.blockHeight tpl.effectiveCoinbaseValue
    source.coinbaseOutputScript source.extranonceSize (coinbaseAux tpl.coinbaseaux)
    tpl.witnessCommitment

/-- The parts of the block assembled for the proposal. -/
def blockParts (halves : Bytes × Bytes) : TemplateBlockParts :=
  rawBlockParts tpl.version (bitsToNbits tpl.bits) tpl.currentTime.toUInt32
    tpl.previousBlockHash halves.1 halves.2 source.extranonceSize
    (tpl.transactions.map GbtTransaction.rawTx)

/-- The raw block shipped with the proposal. -/
def rawBlockHex (halves : Bytes × Bytes) : Option String :=
  assembleRawBlockHex btc tpl.version (bitsToNbits tpl.bits)
    tpl.currentTime.toUInt32 (displayHex tpl.previousBlockHash) halves.1 halves.2
    source.extranonceSize (tpl.transactions.map GbtTransaction.rawTx)

/-- The proposal for an answer with the given coinbase halves. -/
def propose (halves : Bytes × Bytes) : TemplatePropose where
  version := protocolVersion
  id := stableTemplateId hasher (fingerprint hasher tpl)
  blockHeight := tpl.blockHeight
  prevHash := displayHex tpl.previousBlockHash
  coinbaseValue := tpl.effectiveCoinbaseValue
  txCount := tpl.txCount
  totalFees := tpl.totalFees
  observedWeight := some tpl.templateWeight
  createdAtUnixMs := some nowUnixMs
  totalSigops := some tpl.totalSigops
  coinbaseSigops := coinbaseSigops
  templateWeight := some tpl.templateWeight
  gatewayInstanceId := none
  rawBlockHex := source.rawBlockHex btc tpl halves

def extras (halves : Bytes × Bytes) (merklePath : List String) :
    GbtExtras where
  blockVersion := tpl.version
  nbits := bitsToNbits tpl.bits
  minNtime := tpl.minTime.toUInt32
  curtime := tpl.currentTime.toUInt32
  coinbaseTxPrefix := hexEncode halves.1
  coinbaseTxSuffix := hexEncode halves.2
  merklePath := merklePath

/-- The proposal and extras of a new answer. -/
def buildTemplate : Except Failure (TemplatePropose × GbtExtras) :=
  (source.coinbaseHalves tpl).bind fun halves =>
    (computeMerkleBranch sha tpl.txids).map fun merkleBranch =>
      (source.propose hasher btc nowUnixMs tpl coinbaseSigops halves,
        extras tpl halves merkleBranch)

/-- One poll. The answer is missing when the call failed three times. -/
def nextTemplate
    (answer : Option (GetBlockTemplateResult × Option UInt32)) :
    Except Failure (Option (TemplatePropose × GbtExtras)) ×
      BitcoindTemplateSource :=
  match answer with
  | none => (.ok none, { source with hadRpcError := true })
  | some (tpl, coinbaseSigops) =>
      let fp := fingerprint hasher tpl
      if source.lastFp = some fp then
        (.ok none, { source with hadRpcError := false })
      else
        ((source.buildTemplate hasher btc sha nowUnixMs tpl coinbaseSigops).map some,
          { source with hadRpcError := false, lastFp := some fp })

end

theorem displayHexToInternal_displayHex (h : Bytes32) :
    displayHexToInternal (displayHex h) = some h := by
  simp only [displayHexToInternal, displayHex, hexDecode_hexEncode,
    Bytes32.ofBytes_toBytes, Option.map_some, Bytes32.reverse_reverse]

/-- The raw block is the serialisation of the block assembled from the parts. -/
theorem rawBlockHex_eq_some {btc : RustBitcoin}
    {source : BitcoindTemplateSource} {tpl : GetBlockTemplateResult}
    {halves : Bytes × Bytes} {hex : String}
    (h : source.rawBlockHex btc tpl halves = some hex) :
    ∃ b, assembleBlock btc (source.blockParts tpl halves) = .ok b ∧
      hexDecode hex = .ok (btc.serializeBlock b) := by
  obtain ⟨prevHash, b, hprevHash, hb, hserialized⟩ := assembleRawBlockHex_eq_some h
  rw [displayHexToInternal_displayHex] at hprevHash
  cases hprevHash
  exact ⟨b, hb, hserialized⟩

/-- A poll that gives a proposal built its coinbase halves from the answer. -/
theorem nextTemplate_eq_some {hasher : List HashWrite → UInt64}
    {btc : RustBitcoin} {sha : Bytes → Bytes32} {nowUnixMs : UInt64}
    {source source' : BitcoindTemplateSource} {tpl : GetBlockTemplateResult}
    {coinbaseSigops : Option UInt32} {t : TemplatePropose} {e : GbtExtras}
    (h : source.nextTemplate hasher btc sha nowUnixMs
      (some (tpl, coinbaseSigops)) = (.ok (some (t, e)), source')) :
    ∃ halves, source.coinbaseHalves tpl = .ok halves ∧
      t = source.propose hasher btc nowUnixMs tpl coinbaseSigops halves := by
  unfold nextTemplate at h
  dsimp only at h
  split at h
  · simp at h
  · have hbuilt := congrArg Prod.fst h
    obtain ⟨result, hresult, hsome⟩ := Result.map_eq_ok.mp hbuilt
    cases hsome
    obtain ⟨halves, hhalves, hrest⟩ := Result.bind_eq_ok.mp hresult
    obtain ⟨branch, -, heq⟩ := Result.map_eq_ok.mp hrest
    cases heq
    exact ⟨halves, hhalves, rfl⟩

end BitcoindTemplateSource

end ReserveGrid.TemplateManager
