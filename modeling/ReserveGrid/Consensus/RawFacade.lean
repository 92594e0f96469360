import ReserveGrid.Verifier.ShieldRules

/-!
# The facade over raw bytes

The same figures are derived twice: from the raw bytes of a block, and from the
block once it is parsed. Each form has its own scan, its own fall-backs and its
own saturation. On every block with a coinbase they give the same results.
-/

namespace ReserveGrid.Consensus

open Support Bitcoin Verifier

section

variable (btc : RustBitcoin)

def reDeriveMerkleRoot (raw : Bytes) : Except ConsensusViolation Bytes32 :=
  (parseBlock btc raw).bind fun b =>
    match btc.computeMerkleRoot b with
    | none => .error (.decodeFailed "merkle_root_empty_block")
    | some root => .ok root

/-- The witness commitment of a raw block, or none when no transaction carries a
witness. The witness root is computed before the coinbase is looked at. -/
def reDeriveWitnessCommitment (sha : Bytes → Bytes32) (raw : Bytes) :
    Except ConsensusViolation (Option Bytes32) :=
  (parseBlock btc raw).bind fun b =>
    if b.txdata.any Transaction.hasWitness then
      match btc.witnessRoot b with
      | none => .error (.decodeFailed "witness_root_empty_block")
      | some root =>
          match b.txdata with
          | [] => .error (.decodeFailed "block_has_no_coinbase")
          | coinbase :: _ =>
              .ok (some (sha256d sha
                (root.toBytes ++ (reservedValue coinbase).toBytes)))
    else .ok none

/-- The inner loops of the count: the inputs of a transaction, then its
outputs. -/
def addTxSigops (total : ℕ) (tx : Transaction) : ℕ :=
  tx.output.foldl
    (fun total o => satAdd64 total (btc.countSigopsLegacy o.scriptPubkey))
    (tx.input.foldl
      (fun total i => satAdd64 total (btc.countSigopsLegacy i.scriptSig)) total)

def countSigops (raw : Bytes) : Except ConsensusViolation ℕ :=
  (parseBlock btc raw).map fun b =>
    min (b.txdata.foldl (addTxSigops btc) 0) u32Max

end

/-- The commitments of the outputs of commitment form, in output order. -/
def commitmentOutputs (coinbase : Transaction) : List Bytes32 :=
  coinbase.output.filterMap fun o => commitmentOfScript o.scriptPubkey

variable {btc : RustBitcoin} {sha : Bytes → Bytes32} {raw : Bytes} {b : Block}
  {coinbase : Transaction} {txs : List Transaction}

/-! ## Signature operations -/

theorem addTxSigops_eq (total : ℕ) (tx : Transaction) :
    addTxSigops btc total tx = (sigopScripts tx).foldl
      (fun total script => satAdd64 total (btc.countSigopsLegacy script))
      total := by
  rw [sigopScripts, List.foldl_append, List.foldl_map, List.foldl_map]
  rfl

theorem countSigops_eq (hparse : parseBlock btc raw = .ok b) :
    countSigops btc raw = .ok (totalSigops btc b) := by
  have hloops : b.txdata.foldl (addTxSigops btc) 0 =
      (b.txdata.flatMap sigopScripts).foldl
        (fun total script => satAdd64 total (btc.countSigopsLegacy script))
        0 := by
    rw [List.foldl_flatMap]
    congr 1
    funext total tx
    exact addTxSigops_eq total tx
  rw [countSigops, hparse, totalSigops, sumLegacySigops, ← hloops]
  rfl

theorem legacySigops_take_add_drop (btc : RustBitcoin) (b : Block) :
    legacySigops btc (b.txdata.take 1) + legacySigops btc (b.txdata.drop 1) =
      legacySigops btc b.txdata := by
  conv_rhs => rw [← List.take_append_drop 1 b.txdata]
  rw [legacySigops, legacySigops, legacySigops, List.flatMap_append,
    List.map_append, List.sum_append]

/-- The figures clamp one by one, so the whole is the sum of its parts up to one
more clamp. -/
theorem totalSigops_eq_min (b : Block) :
    totalSigops btc b =
      min (coinbaseSigops btc b + nonCoinbaseSigops btc b) u32Max := by
  have hsplit := legacySigops_take_add_drop btc b
  rw [totalSigops, coinbaseSigops, nonCoinbaseSigops, sumLegacySigops_eq,
    sumLegacySigops_eq, sumLegacySigops_eq]
  omega

theorem sumLegacySigops_le (txs : List Transaction) :
    sumLegacySigops btc txs ≤ legacySigops btc txs := by
  rw [sumLegacySigops_eq]
  exact Nat.min_le_left _ _

/-- Below the clamp the whole is the sum of its parts. -/
theorem totalSigops_eq_add (h : legacySigops btc b.txdata ≤ u32Max) :
    totalSigops btc b = coinbaseSigops btc b + nonCoinbaseSigops btc b := by
  have hfits : coinbaseSigops btc b + nonCoinbaseSigops btc b ≤ u32Max :=
    calc coinbaseSigops btc b + nonCoinbaseSigops btc b
        ≤ legacySigops btc (b.txdata.take 1) +
            legacySigops btc (b.txdata.drop 1) :=
          Nat.add_le_add (sumLegacySigops_le _) (sumLegacySigops_le _)
      _ = legacySigops btc b.txdata := legacySigops_take_add_drop btc b
      _ ≤ u32Max := h
  rw [totalSigops_eq_min, Nat.min_eq_left hfits]

/-! ## The merkle root -/

theorem reDeriveMerkleRoot_eq_ok {root : Bytes32}
    (hparse : parseBlock btc raw = .ok b)
    (hroot : btc.computeMerkleRoot b = some root) :
    reDeriveMerkleRoot btc raw = .ok root := by
  rw [reDeriveMerkleRoot, hparse]
  simp [Except.bind, hroot]

theorem checkMerkleRootInternal_eq {root : Bytes32}
    (hroot : btc.computeMerkleRoot b = some root) :
    checkMerkleRootInternal btc b =
      if b.header.merkleRoot = root then .ok ()
      else .error (.merkleRootMismatch b.header.merkleRoot root) := by
  rw [checkMerkleRootInternal, hroot]
  by_cases h : b.header.merkleRoot = root <;> simp [h]

/-! ## The witness commitment -/

theorem extractWitnessCommitmentFromCoinbase_eq (coinbase : Transaction) :
    extractWitnessCommitmentFromCoinbase coinbase =
      (commitmentOutputs coinbase).getLast? := by
  rw [extractWitnessCommitmentFromCoinbase, commitmentOutputs,
    ← List.head?_filterMap, List.filterMap_reverse, List.head?_reverse]

theorem reDeriveWitnessCommitment_legacy
    (hparse : parseBlock btc raw = .ok b)
    (hwitness : b.txdata.any Transaction.hasWitness = false) :
    reDeriveWitnessCommitment btc sha raw = .ok none := by
  rw [reDeriveWitnessCommitment, hparse]
  simp [Except.bind, hwitness]

theorem reDeriveWitnessCommitment_witness {root : Bytes32}
    (hparse : parseBlock btc raw = .ok b) (hb : b.txdata = coinbase :: txs)
    (hwitness : b.txdata.any Transaction.hasWitness = true)
    (hroot : btc.witnessRoot b = some root) :
    reDeriveWitnessCommitment btc sha raw = .ok (some (sha256d sha
      (root.toBytes ++ (reservedValue coinbase).toBytes))) := by
  rw [reDeriveWitnessCommitment, hparse]
  change (if b.txdata.any Transaction.hasWitness then _ else _) = _
  rw [if_pos hwitness, hroot]
  simp only [hb]

theorem checkWitnessCommitmentInternal_eq_ok {root : Bytes32}
    (hb : b.txdata = coinbase :: txs)
    (hwitness : b.txdata.any Transaction.hasWitness = true)
    (hroot : btc.witnessRoot b = some root) :
    checkWitnessCommitmentInternal btc sha b = .ok () ↔
      some (sha256d sha (root.toBytes ++ (reservedValue coinbase).toBytes)) =
        extractWitnessCommitmentFromCoinbase coinbase := by
  unfold checkWitnessCommitmentInternal
  rw [hb] at hwitness ⊢
  simp only [hwitness, if_true, hroot]
  cases extractWitnessCommitmentFromCoinbase coinbase with
  | none => simp
  | some declared =>
      by_cases h : declared = sha256d sha
          (root.toBytes ++ (reservedValue coinbase).toBytes)
      · simp [h]
      · simp [h, Ne.symm h]

theorem checkWitnessCommitmentInternal_legacy
    (hb : b.txdata = coinbase :: txs)
    (hwitness : b.txdata.any Transaction.hasWitness = false) :
    checkWitnessCommitmentInternal btc sha b = .ok () := by
  unfold checkWitnessCommitmentInternal
  rw [hb] at hwitness ⊢
  simp [hwitness]

/-- Where the raw form derives a commitment, the check passes exactly when none
is needed or the derived one is that of the coinbase's last commitment output. -/
theorem reDeriveWitnessCommitment_iff (hbtc : btc.Lawful sha)
    (hparse : parseBlock btc raw = .ok b) (hb : b.txdata = coinbase :: txs) :
    ∃ commitment, reDeriveWitnessCommitment btc sha raw = .ok commitment ∧
      (checkWitnessCommitmentInternal btc sha b = .ok () ↔
        commitment = none ∨
          commitment = (commitmentOutputs coinbase).getLast?) := by
  obtain ⟨root, hroot⟩ := witnessRootOfWtxids_isSome sha hb
  rw [← hbtc.witnessRoot_eq] at hroot
  by_cases hwitness : b.txdata.any Transaction.hasWitness = true
  · refine ⟨_, reDeriveWitnessCommitment_witness hparse hb hwitness hroot, ?_⟩
    rw [checkWitnessCommitmentInternal_eq_ok hb hwitness hroot,
      extractWitnessCommitmentFromCoinbase_eq]
    simp
  · rw [Bool.not_eq_true] at hwitness
    refine ⟨none, reDeriveWitnessCommitment_legacy hparse hwitness, ?_⟩
    simp [checkWitnessCommitmentInternal_legacy hb hwitness]

/-! ## Agreement -/

/-- The two facades agree on every block with a coinbase: on the signature
operations, on the merkle root, and on the witness commitment. Unless a figure
saturates, the signature operations of the block are those of the coinbase and
those of the other transactions. -/
theorem facades_agree (hbtc : btc.Lawful sha)
    (hparse : parseBlock btc raw = .ok b) (hb : b.txdata = coinbase :: txs) :
    countSigops btc raw = .ok (totalSigops btc b) ∧
      (∃ root, reDeriveMerkleRoot btc raw = .ok root ∧
        checkMerkleRootInternal btc b =
          if b.header.merkleRoot = root then .ok ()
          else .error (.merkleRootMismatch b.header.merkleRoot root)) ∧
      (∃ commitment, reDeriveWitnessCommitment btc sha raw = .ok commitment ∧
        (checkWitnessCommitmentInternal btc sha b = .ok () ↔
          commitment = none ∨
            commitment = (commitmentOutputs coinbase).getLast?)) ∧
      (legacySigops btc b.txdata ≤ u32Max →
        totalSigops btc b = coinbaseSigops btc b + nonCoinbaseSigops btc b) := by
  obtain ⟨root, hroot⟩ := merkleRootOfTxids_isSome sha
    (b := b) (by simp [hb])
  rw [← hbtc.computeMerkleRoot_eq] at hroot
  exact ⟨countSigops_eq hparse,
    ⟨root, reDeriveMerkleRoot_eq_ok hparse hroot,
      checkMerkleRootInternal_eq hroot⟩,
    reDeriveWitnessCommitment_iff hbtc hparse hb, totalSigops_eq_add⟩

/-- A coinbase with a reserved value and two commitment outputs. -/
def twoCommitmentsCoinbase : Transaction where
  version := 1
  input := [⟨OutPoint.null, [0x51, 0x51], 0xffffffff, [Bytes32.zero.toBytes]⟩]
  output :=
    [⟨0, commitmentHeader ++ List.replicate 32 0x01⟩,
      ⟨0, commitmentHeader ++ List.replicate 32 0x02⟩, ⟨5000000000, [0xac]⟩]
  lockTime := 0

def twoCommitments : Block where
  header :=
    { version := 4
      prevBlockhash := Bytes32.zero
      merkleRoot := Bytes32.zero
      time := 0
      bits := 0
      nonce := 0 }
  txdata := [twoCommitmentsCoinbase]

/-- The later of the two commitments is the one that counts. -/
theorem facades_agree_twoCommitments :
    ∃ commitment, reDeriveWitnessCommitment (RustBitcoin.reference sha256) sha256
        (block.encode twoCommitments) = .ok commitment ∧
      (checkWitnessCommitmentInternal (RustBitcoin.reference sha256) sha256
          twoCommitments = .ok () ↔
        commitment = none ∨
          commitment = Bytes32.ofBytes (List.replicate 32 0x02)) ∧
      totalSigops (RustBitcoin.reference sha256) twoCommitments =
        coinbaseSigops (RustBitcoin.reference sha256) twoCommitments +
          nonCoinbaseSigops (RustBitcoin.reference sha256) twoCommitments := by
  have hparse : parseBlock (RustBitcoin.reference sha256)
      (block.encode twoCommitments) = .ok twoCommitments := by
    have hdecode : (RustBitcoin.reference sha256).deserializeBlock
        (block.encode twoCommitments) = some twoCommitments := by
      decide +kernel
    rw [parseBlock, hdecode]
  obtain ⟨-, -, ⟨commitment, hderived, hcheck⟩, hsum⟩ := facades_agree
    (RustBitcoin.reference_lawful sha256) hparse rfl
  exact ⟨commitment, hderived, hcheck, hsum (by decide)⟩

end ReserveGrid.Consensus
