import ReserveGrid.Consensus.Facade
import ReserveGrid.Support.Hex

/-!
# Coinbase construction

The template manager builds the coinbase in two halves, split where the
gateway puts a channel's extranonce, and the merkle branch of the coinbase from
the transaction ids of the block template. It also assembles the whole block,
with a zero extranonce, for the verifier.
-/

namespace ReserveGrid.TemplateManager

open Support Bitcoin Consensus

/-- Why a construction gave no value: an error returned to the caller, or a
panic of an assertion. -/
inductive Failure where
  | error (message : String)
  | panicked (message : String)
  deriving DecidableEq, Repr

/-! ## The height push -/

/-- The little-endian bytes of a number of at most `width` bytes, without
leading zero bytes. -/
def minimalLe : ℕ → ℕ → Bytes
  | 0, _ => []
  | width + 1, n =>
      if n = 0 then [] else UInt8.ofNat n :: minimalLe width (n / 256)

/-- A height as a minimal script number, its push opcode in front. -/
def bip34HeightPush (height : UInt32) : Bytes :=
  if height = 0 then [0x01, 0x00]
  else
    let v := minimalLe 4 height.toNat
    let v := if v.getLastD 0 &&& 0x80 ≠ 0 then v ++ [0x00] else v
    UInt8.ofNat v.length :: v

/-- A hash in display order as internal bytes. -/
def displayHexToInternal (displayHex : String) : Option Bytes32 :=
  match hexDecode displayHex with
  | .ok bytes => (Bytes32.ofBytes bytes).map Bytes32.reverse
  | .error _ => none

/-! ## The coinbase halves -/

/-- The bytes before the extranonce. -/
def coinbasePrefix (scriptsigLen : ℕ) (heightPush coinbaseAux : Bytes) :
    Bytes :=
  leBytes 4 2 ++ ([0x01] ++ (List.replicate 32 0x00 ++
    (leBytes 4 0xffffffff ++ ([UInt8.ofNat scriptsigLen] ++
      (heightPush ++ coinbaseAux)))))

/-- One output: value, script length in one byte, script. -/
def coinbaseOutput (value : ℕ) (script : Bytes) : Bytes :=
  leBytes 8 value ++ ([UInt8.ofNat script.length] ++ script)

/-- The bytes after the extranonce. -/
def coinbaseSuffix (coinbaseValue : UInt64) (coinbaseOutputScript : Bytes)
    (witnessCommitmentScript : Option Bytes) : Bytes :=
  leBytes 4 0xffffffff ++
    ([if witnessCommitmentScript.isSome then 0x02 else 0x01] ++
      (coinbaseOutput coinbaseValue.toNat coinbaseOutputScript ++
        (((witnessCommitmentScript.map (coinbaseOutput 0)).getD []) ++
          leBytes 4 0)))

/-- The two halves of the coinbase, split at the extranonce. -/
def buildCoinbaseHalves (blockHeight : UInt32) (coinbaseValue : UInt64)
    (coinbaseOutputScript : Bytes) (extranonceSize : ℕ) (coinbaseAux : Bytes)
    (witnessCommitmentScript : Option Bytes) :
    Except Failure (Bytes × Bytes) :=
  let heightPush := bip34HeightPush blockHeight
  let scriptsigLen := heightPush.length + coinbaseAux.length + extranonceSize
  if ¬ scriptsigLen ≤ 100 then
    .error (.error ("coinbase scriptSig exceeds the 100-byte consensus cap: " ++
      toString scriptsigLen ++ " (height push " ++ toString heightPush.length ++
      " + coinbaseaux " ++ toString coinbaseAux.length ++ " + extranonce " ++
      toString extranonceSize ++ ")"))
  else if ¬ scriptsigLen < 253 then
    .error (.error ("coinbase scriptSig too large for single-byte varint: " ++
      toString scriptsigLen))
  else if ¬ coinbaseOutputScript.length < 253 then
    .error (.panicked "coinbase output script too large for single-byte varint")
  else if ¬ (witnessCommitmentScript.all fun script => script.length < 253) then
    .error (.error ("witness commitment script too large for single-byte varint: " ++
      toString ((witnessCommitmentScript.map List.length).getD 0)))
  else
    .ok (coinbasePrefix scriptsigLen heightPush coinbaseAux,
      coinbaseSuffix coinbaseValue coinbaseOutputScript witnessCommitmentScript)

/-! ## The merkle branch -/

/-- The txids in internal order. -/
def parseTxids : List String → Except Failure (List Bytes32)
  | [] => .ok []
  | s :: ss =>
      match hexDecode s with
      | .error _ => .error (.error ("invalid txid hex in merkle branch: " ++ s))
      | .ok bytes =>
          match Bytes32.ofBytes bytes with
          | none => .error (.error ("txid is not 32 bytes in merkle branch (got " ++
              toString bytes.length ++ "): " ++ s))
          | some h => (parseTxids ss).map (h.reverse :: ·)

/-- The level with its last element repeated when its length is odd. -/
def padLevel (level : List Bytes32) : List Bytes32 :=
  if level.length % 2 ≠ 0 then level ++ [level.getLastD Bytes32.zero] else level

/-- The next level of an even one: elements `i` and `i + 1` combined, for every
second `i`. -/
def combinePairs (sha : Bytes → Bytes32) : List Bytes32 → List Bytes32
  | l :: r :: rest => merkleNode sha l r :: combinePairs sha rest
  | _ => []

theorem length_combinePairs (sha : Bytes → Bytes32) (level : List Bytes32) :
    (combinePairs sha level).length = level.length / 2 := by
  match level with
  | [] => rfl
  | [_] => simp [combinePairs]
  | l :: r :: rest =>
      rw [combinePairs, List.length_cons, length_combinePairs sha rest,
        List.length_cons, List.length_cons]
      omega

theorem length_padLevel (level : List Bytes32) :
    (padLevel level).length = level.length + level.length % 2 := by
  unfold padLevel
  split
  · rw [List.length_append, List.length_singleton]
    omega
  · omega

/-- The loop over the levels, with the index of the coinbase's ancestor. -/
def branchLoop (sha : Bytes → Bytes32) (level : List Bytes32) (index : ℕ) :
    List String :=
  if 1 < level.length then
    let level := padLevel level
    let siblingIdx := if index % 2 = 0 then index + 1 else index - 1
    hexEncode (level.getD siblingIdx Bytes32.zero).toBytes ::
      branchLoop sha (combinePairs sha level) (index / 2)
  else []
termination_by level.length
decreasing_by
  rw [length_combinePairs, length_padLevel]
  omega

/-- The merkle branch of the coinbase, over a placeholder in its place. -/
def computeMerkleBranch (sha : Bytes → Bytes32) (txidHexDisplay : List String) :
    Except Failure (List String) :=
  if txidHexDisplay.isEmpty then .ok []
  else do
    let txids ← parseTxids txidHexDisplay
    return branchLoop sha (Bytes32.zero :: txids) 0

/-! ## The raw block -/

/-- The parts of the block of a template, its coinbase with a zero
extranonce. -/
def rawBlockParts (blockVersion nbits curtime : UInt32) (prevHash : Bytes32)
    (cbPrefix cbSuffix : Bytes) (extranonceSize : ℕ) (txsRaw : List Bytes) :
    TemplateBlockParts where
  version := blockVersion.toInt32
  prevHash := prevHash
  time := curtime
  bits := nbits
  coinbaseLegacy := cbPrefix ++ List.replicate extranonceSize 0x00 ++ cbSuffix
  txsRaw := txsRaw

/-- The raw block of a template in hexadecimal, when it can be assembled. -/
def assembleRawBlockHex (btc : RustBitcoin) (blockVersion nbits curtime : UInt32)
    (prevHashDisplay : String) (cbPrefix cbSuffix : Bytes)
    (extranonceSize : ℕ) (txsRaw : List Bytes) : Option String :=
  match displayHexToInternal prevHashDisplay with
  | none => none
  | some prevHash =>
      match assembleTemplateBlock btc (rawBlockParts blockVersion nbits curtime
        prevHash cbPrefix cbSuffix extranonceSize txsRaw) with
      | .ok raw => some (hexEncode raw)
      | .error _ => none

/-- A raw block is the serialisation of the block assembled from the parts. -/
theorem assembleRawBlockHex_eq_some {btc : RustBitcoin}
    {blockVersion nbits curtime : UInt32} {prevHashDisplay : String}
    {cbPrefix cbSuffix : Bytes} {extranonceSize : ℕ} {txsRaw : List Bytes}
    {hex : String}
    (h : assembleRawBlockHex btc blockVersion nbits curtime prevHashDisplay
      cbPrefix cbSuffix extranonceSize txsRaw = some hex) :
    ∃ prevHash b, displayHexToInternal prevHashDisplay = some prevHash ∧
      assembleBlock btc (rawBlockParts blockVersion nbits curtime
        prevHash cbPrefix cbSuffix extranonceSize txsRaw) = .ok b ∧
      hexDecode hex = .ok (btc.serializeBlock b) := by
  unfold assembleRawBlockHex at h
  split at h
  · simp at h
  · rename_i prevHash hprevHash
    split at h
    · rename_i raw hraw
      cases h
      obtain ⟨b, hb, rfl⟩ := Result.map_eq_ok.mp hraw
      exact ⟨prevHash, b, hprevHash, hb, hexDecode_hexEncode _⟩
    · simp at h

end ReserveGrid.TemplateManager
