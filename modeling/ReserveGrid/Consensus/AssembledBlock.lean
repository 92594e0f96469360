import ReserveGrid.Consensus.Facade

/-!
# Assembled blocks are well formed

Reading an assembled block back gives the parts it was assembled from, up to
the witness of the coinbase, and a block that the checks which need no declared
value accept. The assembler decides about the coinbase witness from the other
transactions and the coinbase's outputs; the checker counts the coinbase too.
-/

namespace ReserveGrid.Consensus

open Support Bitcoin

/-! ## What the library reads -/

/-- The most bytes of a witness stack that the library reads. -/
def maxVecSize : ℕ := 4000000

/-- The most elements of a slice. -/
def maxSliceLen : ℕ := 2 ^ 63 - 1

/-- The limits of the library. Of a transaction it limits the witness stacks
only, and it reads a block one transaction after another. -/
structure StackLimited (btc : RustBitcoin) : Prop where
  deserializeTx_of_stacks : ∀ bs tx, transaction.decodeAll bs = some tx →
    (∀ i ∈ tx.input, (witnessStack.encode i.witness).length ≤ maxVecSize) →
    btc.deserializeTx bs = some tx
  deserializeBlock_of_txs : ∀ bs b, block.decodeAll bs = some b →
    (∀ tx ∈ b.txdata, btc.deserializeTx tx.encode = some tx) →
    btc.deserializeBlock bs = some b

theorem reference_stackLimited (sha : Bytes → Bytes32) :
    StackLimited (RustBitcoin.reference sha) where
  deserializeTx_of_stacks _ _ h _ := h
  deserializeBlock_of_txs _ _ h _ := h

/-- The bytes are the serialisation of a transaction that is written in the
legacy form: no input carries a witness, and there is an input. -/
def IsLegacySerialization (bs : Bytes) : Prop :=
  ∃ tx : Transaction, tx.usesSegwitSerialization = false ∧ bs = tx.encode

/-- What an assembled block keeps of its parts, and the checks it passes. -/
structure WellFormedFor (btc : RustBitcoin) (sha : Bytes → Bytes32)
    (parts : TemplateBlockParts) (b : Block) : Prop where
  version : b.header.version = parts.version
  prevHash : b.header.prevBlockhash = parts.prevHash
  time : b.header.time = parts.time
  bits : b.header.bits = parts.bits
  nonce : b.header.nonce = 0
  txdata : ∃ coinbase body txs,
    btc.deserializeTx parts.coinbaseLegacy = some coinbase ∧
      parts.txsRaw.mapM btc.deserializeTx = some txs ∧
      b.txdata = body :: txs ∧ body.strip = coinbase.strip
  merkleRoot : checkMerkleRootInternal btc b = .ok ()
  witnessCommitment :
    checkWitnessCommitmentInternal btc sha b ≠ .error .witnessCommitmentMissing

variable {btc : RustBitcoin} {sha : Bytes → Bytes32}
  {parts : TemplateBlockParts} {b : Block} {coinbase body : Transaction}
  {txs : List Transaction}

/-! ## Legacy serialisations -/

/-- A count that is not zero does not start with a zero byte. -/
theorem compactSizeEncode_head {n : ℕ} (hn : n ≠ 0) (rest : Bytes) :
    (compactSizeEncode n ++ rest)[0]? ≠ some 0x00 := by
  unfold compactSizeEncode
  split
  · rename_i hsmall
    have hbyte : UInt8.ofNat n ≠ 0x00 := by
      rw [ne_eq, ← UInt8.toNat_inj, UInt8.toNat_ofNat']
      simp only [UInt8.reduceToNat]
      omega
    simpa using hbyte
  · split
    · simp
    · split <;> simp

/-- A legacy serialisation has no marker. -/
theorem IsLegacySerialization.marker {bs : Bytes}
    (h : IsLegacySerialization bs) :
    bs[4]? ≠ some 0x00 := by
  obtain ⟨tx, htx, rfl⟩ := h
  have hinput : tx.input ≠ [] := by
    rw [Transaction.usesSegwitSerialization, Bool.or_eq_false_iff] at htx
    simpa using htx.2
  have hcount : (tx.input.map TxIn.strip).length ≠ 0 := by
    simpa using hinput
  have hversion : (Codec.u32.encode tx.version).length = 4 := rfl
  rw [Transaction.encode, if_neg (by simp [htx]), Transaction.legacyEncode,
    List.getElem?_append_right (by rw [hversion]), hversion]
  change (compactSizeEncode _ ++ _ ++ _)[0]? ≠ _
  rw [List.append_assoc]
  exact compactSizeEncode_head hcount _

theorem Assembled.coinbase_decoded (hbtc : btc.Lawful sha)
    (h : Assembled btc parts b coinbase body txs) :
    transaction.decodeAll parts.coinbaseLegacy = some coinbase :=
  hbtc.deserializeTx_canonical _ _ h.coinbase_eq

theorem Assembled.coinbase_hasWitness (hbtc : btc.Lawful sha)
    (hlegacy : IsLegacySerialization parts.coinbaseLegacy)
    (h : Assembled btc parts b coinbase body txs) :
    coinbase.hasWitness = false :=
  (legacyEncode_of_decodeAll (h.coinbase_decoded hbtc) hlegacy.marker).2

/-! ## The coinbase of the block -/

/-- The stacks the assembler leaves: none, and the reserved value. -/
theorem stack_of_witnessedCoinbase (hlegacy : coinbase.hasWitness = false)
    (h : witnessedCoinbase coinbase = .ok body) :
    ∀ i ∈ body.input, i.witness = [] ∨ i.witness = [Bytes32.zero.toBytes] := by
  have hnone : ∀ i ∈ coinbase.input, i.witness = [] := by
    intro i hi
    simpa using List.any_eq_false.mp hlegacy i hi
  unfold witnessedCoinbase at h
  split at h
  · unfold attachReserved at h
    split at h
    · simp at h
    · rename_i i is hinput
      cases h
      intro j hj
      cases List.mem_cons.mp hj with
      | inl hfirst => exact .inr (by rw [hfirst])
      | inr hrest => exact .inl (hnone j (by simp [hinput, hrest]))
  · cases h
    exact fun i hi => .inl (hnone i hi)

/-- Only a coinbase with a commitment output gets a witness. -/
theorem isSome_of_hasWitness (hlegacy : coinbase.hasWitness = false)
    (h : witnessedCoinbase coinbase = .ok body)
    (hwitness : body.hasWitness = true) :
    (extractWitnessCommitmentFromCoinbase coinbase).isSome = true := by
  by_contra hcommitment
  rw [witnessedCoinbase, if_neg hcommitment] at h
  cases h
  rw [hlegacy] at hwitness
  cases hwitness

theorem valid_stack {w : List Bytes}
    (hw : w = [] ∨ w = [Bytes32.zero.toBytes]) :
    witnessStack.Valid w ∧ (witnessStack.encode w).length ≤ maxVecSize := by
  cases hw with
  | inl hnone =>
      subst hnone
      exact ⟨⟨Nat.zero_lt_succ _, by simp⟩, by decide⟩
  | inr hreserved =>
      subst hreserved
      have hcount : 1 < 2 ^ 64 := by decide
      refine ⟨⟨hcount, ?_⟩, by decide⟩
      intro bs hbs
      cases List.mem_singleton.mp hbs
      change Bytes32.zero.toBytes.length < 2 ^ 64
      rw [Bytes32.length_toBytes]
      decide

/-- A coinbase with other stacks is read where the coinbase is: no length of it
but the stacks changes. -/
theorem encodable_of_strip (hcoinbase : coinbase.Encodable)
    (hstrip : body.strip = coinbase.strip)
    (hstacks : ∀ i ∈ body.input, witnessStack.Valid i.witness) :
    body.Encodable where
  inputs := by
    have hinput : body.input.map TxIn.strip = coinbase.input.map TxIn.strip :=
      congrArg (·.input) hstrip
    rw [hinput]
    exact hcoinbase.inputs
  outputs := by
    have houtput : body.output = coinbase.output := congrArg (·.output) hstrip
    rw [houtput]
    exact hcoinbase.outputs
  witnesses := hstacks

theorem Assembled.body_stacks (hbtc : btc.Lawful sha)
    (hlegacy : IsLegacySerialization parts.coinbaseLegacy)
    (h : Assembled btc parts b coinbase body txs) :
    ∀ i ∈ body.input, witnessStack.Valid i.witness ∧
      (witnessStack.encode i.witness).length ≤ maxVecSize := by
  intro i hi
  have hnone := h.coinbase_hasWitness hbtc hlegacy
  exact valid_stack (stack_of_witnessedCoinbase hnone h.body_eq i hi)

theorem Assembled.body_encodable (hbtc : btc.Lawful sha)
    (hlegacy : IsLegacySerialization parts.coinbaseLegacy)
    (h : Assembled btc parts b coinbase body txs) :
    body.Encodable := by
  obtain ⟨hcoinbase, -⟩ :=
    transaction.decodeAll_eq_some.mp (h.coinbase_decoded hbtc)
  refine encodable_of_strip hcoinbase h.body_strip fun i hi => ?_
  exact (h.body_stacks hbtc hlegacy i hi).1

theorem Assembled.body_read (hbtc : btc.Lawful sha) (hlimits : StackLimited btc)
    (hlegacy : IsLegacySerialization parts.coinbaseLegacy)
    (h : Assembled btc parts b coinbase body txs) :
    btc.deserializeTx body.encode = some body := by
  have hdecode : transaction.decodeAll body.encode = some body :=
    transaction.decodeAll_eq_some.mpr ⟨h.body_encodable hbtc hlegacy, rfl⟩
  refine hlimits.deserializeTx_of_stacks _ _ hdecode fun i hi => ?_
  exact (h.body_stacks hbtc hlegacy i hi).2

/-! ## The other transactions -/

/-- What was read from bytes is read again from its own serialisation. -/
theorem deserializeTx_encode (hbtc : btc.Lawful sha) {raw : Bytes}
    {tx : Transaction} (h : btc.deserializeTx raw = some tx) :
    tx.Encodable ∧ btc.deserializeTx tx.encode = some tx := by
  obtain ⟨hvalid, hraw⟩ := transaction.decodeAll_eq_some.mp
    (hbtc.deserializeTx_canonical _ _ h)
  refine ⟨hvalid, ?_⟩
  change raw = tx.encode at hraw
  rw [← hraw]
  exact h

theorem Assembled.txs_read (hbtc : btc.Lawful sha)
    (h : Assembled btc parts b coinbase body txs) :
    ∀ tx ∈ txs, tx.Encodable ∧ btc.deserializeTx tx.encode = some tx := by
  intro tx htx
  obtain ⟨raw, -, hraw⟩ := Result.exists_of_mapM h.txs_eq htx
  exact deserializeTx_encode hbtc hraw

/-! ## Reading the block back -/

theorem Assembled.length_txs (h : Assembled btc parts b coinbase body txs) :
    txs.length = parts.txsRaw.length :=
  (Result.forall₂_of_mapM h.txs_eq).length_eq.symm

theorem Assembled.block_read (hbtc : btc.Lawful sha) (hlimits : StackLimited btc)
    (hslice : parts.txsRaw.length ≤ maxSliceLen)
    (hlegacy : IsLegacySerialization parts.coinbaseLegacy)
    (h : Assembled btc parts b coinbase body txs) :
    btc.deserializeBlock (btc.serializeBlock b) = some b := by
  have hread : ∀ tx ∈ b.txdata,
      tx.Encodable ∧ btc.deserializeTx tx.encode = some tx := by
    rw [h.txdata_eq]
    refine List.forall_mem_cons.mpr ⟨?_, h.txs_read hbtc⟩
    exact ⟨h.body_encodable hbtc hlegacy, h.body_read hbtc hlimits hlegacy⟩
  have hcount : b.txdata.length < 2 ^ 64 := by
    rw [h.txdata_eq, List.length_cons, h.length_txs]
    unfold maxSliceLen at hslice
    omega
  rw [hbtc.serializeBlock_eq]
  refine hlimits.deserializeBlock_of_txs _ _ ?_ fun tx htx => (hread tx htx).2
  exact block.decodeAll_eq_some.mpr
    ⟨⟨hcount, fun tx htx => (hread tx htx).1⟩, rfl⟩

/-! ## The checks -/

/-- The root is computed over the body before it enters the header, and does
not look at the header. -/
theorem Assembled.checkMerkleRoot (hbtc : btc.Lawful sha)
    (h : Assembled btc parts b coinbase body txs) :
    checkMerkleRootInternal btc b = .ok () := by
  have hroot : btc.computeMerkleRoot b = some b.header.merkleRoot := by
    rw [← h.merkle, hbtc.computeMerkleRoot_eq, hbtc.computeMerkleRoot_eq,
      Block.merkleRootOfTxids, Block.merkleRootOfTxids, h.txdata_eq]
    rfl
  simp [checkMerkleRootInternal, hroot]

/-- A witness anywhere in the block comes with a commitment output of the
coinbase. -/
theorem Assembled.commitment_isSome (hbtc : btc.Lawful sha)
    (hlegacy : IsLegacySerialization parts.coinbaseLegacy)
    (h : Assembled btc parts b coinbase body txs)
    (hwitness : b.txdata.any Transaction.hasWitness = true) :
    (extractWitnessCommitmentFromCoinbase body).isSome = true := by
  have houtput : body.output = coinbase.output :=
    congrArg (·.output) h.body_strip
  rw [extractWitnessCommitmentFromCoinbase, houtput]
  change (extractWitnessCommitmentFromCoinbase coinbase).isSome = true
  rw [h.txdata_eq, List.any_cons, Bool.or_eq_true] at hwitness
  cases hwitness with
  | inl hbody =>
      exact isSome_of_hasWitness (h.coinbase_hasWitness hbtc hlegacy) h.body_eq
        hbody
  | inr hothers => exact h.committed hothers

theorem checkWitnessCommitmentInternal_eq_missing
    (hb : b.txdata = body :: txs)
    (h : checkWitnessCommitmentInternal btc sha b =
      .error .witnessCommitmentMissing) :
    b.txdata.any Transaction.hasWitness = true ∧
      extractWitnessCommitmentFromCoinbase body = none := by
  unfold checkWitnessCommitmentInternal at h
  rw [hb] at h ⊢
  by_cases hwitness : (body :: txs).any Transaction.hasWitness = true
  · refine ⟨hwitness, ?_⟩
    simp only [hwitness, if_true] at h
    split at h
    · assumption
    · split at h
      · simp at h
      · split at h <;> simp at h
  · simp [hwitness] at h

theorem Assembled.wellFormedFor (hbtc : btc.Lawful sha)
    (hlegacy : IsLegacySerialization parts.coinbaseLegacy)
    (h : Assembled btc parts b coinbase body txs) :
    WellFormedFor btc sha parts b where
  version := congrArg Header.version h.header_eq
  prevHash := congrArg Header.prevBlockhash h.header_eq
  time := congrArg Header.time h.header_eq
  bits := congrArg Header.bits h.header_eq
  nonce := congrArg Header.nonce h.header_eq
  txdata := ⟨coinbase, body, txs, h.coinbase_eq, h.txs_eq, h.txdata_eq,
    h.body_strip⟩
  merkleRoot := h.checkMerkleRoot hbtc
  witnessCommitment := by
    intro hmissing
    obtain ⟨hwitness, hnone⟩ :=
      checkWitnessCommitmentInternal_eq_missing h.txdata_eq hmissing
    have hsome := h.commitment_isSome hbtc hlegacy hwitness
    simp [hnone] at hsome

/-- A block assembled around a coinbase in its legacy serialisation is read
back, with the parts it was assembled from; its merkle root is right, and no
commitment is missing. -/
theorem assembleTemplateBlock_wellFormed (hbtc : btc.Lawful sha)
    (hlimits : StackLimited btc) (hslice : parts.txsRaw.length ≤ maxSliceLen)
    (hlegacy : IsLegacySerialization parts.coinbaseLegacy) {bytes : Bytes}
    (h : assembleTemplateBlock btc parts = .ok bytes) :
    ∃ b, parseBlock btc bytes = .ok b ∧ WellFormedFor btc sha parts b := by
  obtain ⟨b, hassembled, rfl⟩ := Result.map_eq_ok.mp h
  obtain ⟨coinbase, body, txs, hb⟩ := assembleBlock_eq_ok hassembled
  refine ⟨b, ?_, hb.wellFormedFor hbtc hlegacy⟩
  rw [parseBlock, hb.block_read hbtc hlimits hslice hlegacy]

/-- A coinbase with a commitment output, without a witness yet. -/
def bareCoinbase : Transaction where
  version := 1
  input := [⟨OutPoint.null, [0x51, 0x51], 0xffffffff, []⟩]
  output := [⟨0, commitmentHeader ++ List.replicate 32 0x01⟩]
  lockTime := 0

def segwitTx : Transaction where
  version := 2
  input := [⟨⟨Bytes32.zero, 0⟩, [], 0xffffffff, [[0x30]]⟩]
  output := [⟨1000, [0x51]⟩]
  lockTime := 0

def segwitParts : TemplateBlockParts where
  version := 4
  prevHash := Bytes32.zero
  time := 1713571767
  bits := 0x17034219
  coinbaseLegacy := bareCoinbase.encode
  txsRaw := [segwitTx.encode]

/-- A transaction with a witness below a coinbase with a commitment output. -/
theorem assembleTemplateBlock_wellFormed_segwitTx :
    ∃ bytes b,
      assembleTemplateBlock (RustBitcoin.reference sha256) segwitParts =
        .ok bytes ∧
      parseBlock (RustBitcoin.reference sha256) bytes = .ok b ∧
      WellFormedFor (RustBitcoin.reference sha256) sha256 segwitParts b := by
  have hcoinbase : (RustBitcoin.reference sha256).deserializeTx
      segwitParts.coinbaseLegacy = some bareCoinbase := by
    decide +kernel
  have htx : (RustBitcoin.reference sha256).deserializeTx segwitTx.encode =
      some segwitTx := by
    decide +kernel
  have hcommitment :
      (extractWitnessCommitmentFromCoinbase bareCoinbase).isSome = true := by
    decide +kernel
  obtain ⟨body, hbody⟩ : ∃ body, witnessedCoinbase bareCoinbase = .ok body := by
    rw [witnessedCoinbase, if_pos hcommitment]
    exact ⟨_, rfl⟩
  obtain ⟨root, hroot⟩ : ∃ root, (RustBitcoin.reference sha256).computeMerkleRoot
      (draftBlock segwitParts [body, segwitTx]) = some root :=
    ⟨_, Merkle.foldl_firstBranch _ Bytes32.zero _ _⟩
  have hparsed : parseTxs (RustBitcoin.reference sha256) segwitParts.txsRaw =
      .ok [segwitTx] := by
    simp [segwitParts, parseTxs, htx, Except.map]
  obtain ⟨bytes, hbytes⟩ : ∃ bytes, assembleTemplateBlock
      (RustBitcoin.reference sha256) segwitParts = .ok bytes := by
    rw [assembleTemplateBlock, assembleBlock, hparsed, parseCoinbase]
    simp [hcoinbase, hcommitment, hbody, sealBlock, hroot, Except.bind,
      Except.map]
  obtain ⟨b, hb⟩ := assembleTemplateBlock_wellFormed
    (RustBitcoin.reference_lawful sha256) (reference_stackLimited sha256)
    (by decide) ⟨bareCoinbase, rfl, rfl⟩ hbytes
  exact ⟨bytes, b, hbytes, hb⟩

end ReserveGrid.Consensus
