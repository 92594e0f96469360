import ReserveGrid.TemplateManager.Template
import ReserveGrid.Verifier.ShieldRules

/-!
# An honest producer passes the shield

The template manager and the verifier count with their own inclusion sets,
units and encodings. For a truthful answer of `getblocktemplate` they agree: the
block assembled for the proposal keeps every invariant of the shield.
-/

namespace ReserveGrid

open Support Bitcoin Consensus Protocol TemplateManager Verifier

variable {btc : RustBitcoin} {sha : Bytes → Bytes32}

/-! ## Truthful answers -/

/-- An entry of the answer tells the truth about the transaction it carries. -/
structure TruthfulEntry (btc : RustBitcoin) (entry : GbtTransaction)
    (tx : Transaction) : Prop where
  rawTx : btc.deserializeTx entry.rawTx = some tx
  txid : entry.txid = btc.computeTxid tx
  weight : entry.weight = btc.txWeight tx
  sigops : 4 * legacySigops btc [tx] ≤ entry.sigops.toNat

/-- The BIP 141 commitment of the transactions for the zero reserved value. -/
def zeroReservedCommitment (sha : Bytes → Bytes32) (txs : List Transaction) :
    Option Bytes32 :=
  (Merkle.root (merkleNode sha)
    (Bytes32.zero :: txs.map (Transaction.wtxid sha))).map fun root =>
      sha256d sha (root.toBytes ++ Bytes32.zero.toBytes)

/-- A truthful answer about the given transactions. The block version is a
signed number, and the total cost of a block's signature operations is one of
32 bits. -/
structure Truthful (btc : RustBitcoin) (sha : Bytes → Bytes32)
    (tpl : GetBlockTemplateResult) (txs : List Transaction) : Prop where
  entries : List.Forall₂ (TruthfulEntry btc) tpl.transactions txs
  distinct : (txs.map btc.computeTxid).Nodup
  prevouts : ∀ tx ∈ txs, ∀ i ∈ tx.input, i.previousOutput ≠ OutPoint.null
  commitment : tpl.defaultWitnessCommitment = [] ∧
      txs.any Transaction.hasWitness = false ∨
    ∃ c, commitmentOfScript tpl.defaultWitnessCommitment = some c ∧
      zeroReservedCommitment sha txs = some c
  version : 4 ≤ tpl.version.toInt32
  height : tpl.height.toNat < 2 ^ 31
  value_ne_zero : tpl.coinbaseValue ≠ 0
  value_le : tpl.coinbaseValue.toNat ≤ maxMoneySats
  sigops_fit : (tpl.transactions.map fun tx => tx.sigops.toNat).sum < 2 ^ 32

theorem mapM_rawTx {entries : List GbtTransaction} {txs : List Transaction}
    (h : List.Forall₂ (TruthfulEntry btc) entries txs) :
    (entries.map GbtTransaction.rawTx).mapM btc.deserializeTx = some txs := by
  induction h with
  | nil => rfl
  | cons hentry _ ih => simp [List.mapM_cons, hentry.rawTx, ih]

theorem sum_weight {entries : List GbtTransaction} {txs : List Transaction}
    (h : List.Forall₂ (TruthfulEntry btc) entries txs) :
    (entries.map GbtTransaction.weight).sum = (txs.map btc.txWeight).sum := by
  induction h with
  | nil => rfl
  | cons hentry _ ih =>
      rw [List.map_cons, List.map_cons, List.sum_cons, List.sum_cons, ih,
        hentry.weight]

theorem legacySigops_cons (tx : Transaction) (txs : List Transaction) :
    legacySigops btc (tx :: txs) =
      legacySigops btc [tx] + legacySigops btc txs := by
  simp [legacySigops]

theorem legacySigops_le_sum {entries : List GbtTransaction}
    {txs : List Transaction}
    (h : List.Forall₂ (TruthfulEntry btc) entries txs) :
    4 * legacySigops btc txs ≤
      (entries.map fun tx => tx.sigops.toNat).sum := by
  induction h with
  | nil => simp [legacySigops]
  | cons hentry _ ih =>
      have := hentry.sigops
      rw [legacySigops_cons, List.map_cons, List.sum_cons]
      omega

theorem encodable_of_entries (hbtc : btc.Lawful sha)
    {entries : List GbtTransaction} {txs : List Transaction}
    (h : List.Forall₂ (TruthfulEntry btc) entries txs) :
    ∀ tx ∈ txs, tx.Encodable := by
  induction h with
  | nil => simp
  | cons hentry _ ih =>
      have hdecoded := hbtc.deserializeTx_canonical _ _ hentry.rawTx
      obtain ⟨hvalid, -⟩ := transaction.decodeAll_eq_some.mp hdecoded
      exact List.forall_mem_cons.mpr ⟨hvalid, ih⟩

/-! ## Sizes -/

theorem length_encode_block (b : Block) :
    (block.encode b).length = b.totalSize := by
  have hencode : block.encode b = header.encode b.header ++
      (compactSizeEncode b.txdata.length ++ b.txdata.flatMap Transaction.encode) :=
    rfl
  have hheader : (header.encode b.header).length = 80 := by
    have hfields : header.encode b.header =
        leBytes 4 b.header.version.toUInt32.toNat ++
        (b.header.prevBlockhash.toBytes ++ (b.header.merkleRoot.toBytes ++
          (leBytes 4 b.header.time.toNat ++ (leBytes 4 b.header.bits.toNat ++
            leBytes 4 b.header.nonce.toNat)))) := rfl
    rw [hfields]
    simp
  rw [hencode, List.length_append, List.length_append, hheader,
    List.length_flatMap, Block.totalSize]
  omega

theorem totalSize_le_weight (b : Block) : b.totalSize ≤ b.weight := by
  rw [Block.weight]
  omega

theorem sum_txWeight_le_weight (hbtc : btc.Lawful sha) (b : Block) :
    (b.txdata.map btc.txWeight).sum ≤ b.weight := by
  have hsum : (b.txdata.map btc.txWeight).sum =
      3 * (b.txdata.map fun tx => tx.legacyEncode.length).sum +
        (b.txdata.map fun tx => tx.encode.length).sum := by
    induction b.txdata with
    | nil => rfl
    | cons tx txs ih =>
        simp only [List.map_cons, List.sum_cons, ih, hbtc.txWeight_eq,
          Transaction.weight]
        ring
  rw [hsum, Block.weight, Block.baseSize, Block.totalSize]
  omega

/-! ## The coinbase in the block -/

/-- The coinbase with a witness on its input. -/
def coinbaseBody (script : Bytes) (value : UInt64) (payout : Bytes)
    (commitment : Option Bytes) (witness : List Bytes) : Transaction :=
  { coinbaseTx script value payout commitment with
    input := [⟨OutPoint.null, script, 0xffffffff, witness⟩] }

/-- The reserved value stands in the coinbase exactly when it carries a
commitment. -/
theorem witnessedCoinbase_coinbaseTx {script payout : Bytes} {value : UInt64}
    {commitment : Option Bytes} {body : Transaction}
    (h : witnessedCoinbase (coinbaseTx script value payout commitment) =
      .ok body) :
    body = coinbaseBody script value payout commitment
      (if (extractWitnessCommitmentFromCoinbase
        (coinbaseTx script value payout commitment)).isSome then
          [Bytes32.zero.toBytes] else []) := by
  unfold witnessedCoinbase at h
  split at h
  · rename_i hsome
    cases h
    rw [if_pos hsome]
    rfl
  · rename_i hnone
    cases h
    rw [if_neg hnone]
    rfl

theorem extract_coinbaseTx_none (script : Bytes) {payout : Bytes}
    {value : UInt64} (hpayout : commitmentOfScript payout = none) :
    extractWitnessCommitmentFromCoinbase (coinbaseTx script value payout none) =
      none := by
  simp [extractWitnessCommitmentFromCoinbase, coinbaseTx, hpayout]

theorem extract_coinbaseTx_some (script : Bytes) {payout wc : Bytes}
    {value : UInt64} {c : Bytes32} (hwc : commitmentOfScript wc = some c) :
    extractWitnessCommitmentFromCoinbase
      (coinbaseTx script value payout (some wc)) = some c := by
  simp [extractWitnessCommitmentFromCoinbase, coinbaseTx, hwc]

theorem encodable_coinbaseBody {script payout : Bytes} {value : UInt64}
    {commitment : Option Bytes} {witness : List Bytes}
    (h : (coinbaseTx script value payout commitment).Encodable)
    (hwitness : witnessStack.Valid witness) :
    (coinbaseBody script value payout commitment witness).Encodable where
  inputs := h.inputs
  outputs := h.outputs
  witnesses := by
    intro i hi
    cases List.mem_singleton.mp hi
    exact hwitness

/-- Legacy serialisations determine the inputs, so that one of a coinbase is no
other transaction's. -/
theorem exists_null_of_legacyEncode_eq {tx : Transaction}
    {script payout : Bytes} {value : UInt64} {commitment : Option Bytes}
    {witness : List Bytes} (htx : tx.Encodable)
    (hbody : (coinbaseBody script value payout commitment witness).Encodable)
    (h : tx.legacyEncode =
      (coinbaseBody script value payout commitment witness).legacyEncode) :
    ∃ i ∈ tx.input, i.previousOutput = OutPoint.null := by
  have hinputs : tx.input.map TxIn.strip =
      [⟨OutPoint.null, script, 0xffffffff, []⟩] :=
    congrArg Transaction.input (strip_eq_of_legacyEncode_eq htx hbody h)
  obtain ⟨i, hi, hstrip⟩ := List.mem_map.mp (hinputs ▸ List.mem_singleton_self _)
  exact ⟨i, hi, congrArg TxIn.previousOutput hstrip⟩

/-- The block shipped with a proposal: the coinbase, with its witness, in front
of the transactions. -/
structure Shipped (btc : RustBitcoin) (source : BitcoindTemplateSource)
    (tpl : GetBlockTemplateResult) (txs : List Transaction) (script : Bytes)
    (witness : List Bytes) (b : Block) : Prop where
  script_eq : script = bip34HeightPush tpl.blockHeight ++
    coinbaseAux tpl.coinbaseaux ++ List.replicate source.extranonceSize 0x00
  script_le : script.length ≤ 100
  payout_lt : source.coinbaseOutputScript.length < 253
  commitment_lt : ∀ wc ∈ tpl.witnessCommitment, wc.length < 253
  witness_eq : witness = if (extractWitnessCommitmentFromCoinbase
    (coinbaseTx script tpl.effectiveCoinbaseValue source.coinbaseOutputScript
      tpl.witnessCommitment)).isSome then [Bytes32.zero.toBytes] else []
  txdata : b.txdata = coinbaseBody script tpl.effectiveCoinbaseValue
    source.coinbaseOutputScript tpl.witnessCommitment witness :: txs
  version : b.header.version = tpl.version.toInt32
  merkleRoot : btc.computeMerkleRoot b = some b.header.merkleRoot

/-- What is in the block assembled for a truthful answer's proposal. -/
theorem shipped_of_assembleBlock (hbtc : btc.Lawful sha)
    {source : BitcoindTemplateSource} {tpl : GetBlockTemplateResult}
    {txs : List Transaction} {halves : Bytes × Bytes} {b : Block}
    (hentries : List.Forall₂ (TruthfulEntry btc) tpl.transactions txs)
    (hhalves : source.coinbaseHalves tpl = .ok halves)
    (hassembled : assembleBlock btc (source.blockParts tpl halves) = .ok b) :
    ∃ script witness, Shipped btc source tpl txs script witness b := by
  obtain ⟨hscript, hpayout, hcommitment, rfl⟩ := buildCoinbaseHalves_eq_ok hhalves
  obtain ⟨coinbase, body, txs', hb⟩ := assembleBlock_eq_ok hassembled
  have htxs : txs' = txs := by
    have := hb.txs_eq
    rw [BitcoindTemplateSource.blockParts, rawBlockParts,
      mapM_rawTx hentries] at this
    exact (Option.some.inj this).symm
  subst htxs
  set script := bip34HeightPush tpl.blockHeight ++
    coinbaseAux tpl.coinbaseaux ++ List.replicate source.extranonceSize 0x00
    with hscriptEq
  have hlength : script.length = (bip34HeightPush tpl.blockHeight).length +
      (coinbaseAux tpl.coinbaseaux).length + source.extranonceSize := by
    simp [hscriptEq]
    omega
  have hparsed : coinbase = coinbaseTx script tpl.effectiveCoinbaseValue
      source.coinbaseOutputScript tpl.witnessCommitment := by
    have hdecoded := hbtc.deserializeTx_canonical _ _ hb.coinbase_eq
    rw [BitcoindTemplateSource.blockParts, rawBlockParts, ← hlength] at hdecoded
    have hshort : script.length < 253 := by omega
    exact Option.some.inj (hdecoded.symm.trans
      (decodeAll_coinbaseTx hshort hpayout hcommitment))
  subst hparsed
  refine ⟨script, _, hscriptEq, by omega, hpayout, hcommitment, rfl, ?_, ?_, ?_⟩
  · rw [hb.txdata_eq, witnessedCoinbase_coinbaseTx hb.body_eq]
  · rw [hb.header_eq]
    rfl
  · rw [hbtc.computeMerkleRoot_eq, Block.merkleRootOfTxids, hb.txdata_eq,
      ← hb.merkle, hbtc.computeMerkleRoot_eq]
    rfl

namespace Shipped

variable {source : BitcoindTemplateSource} {tpl : GetBlockTemplateResult}
  {txs : List Transaction} {script : Bytes} {witness : List Bytes} {b : Block}

theorem coinbaseScript_eq
    (h : Shipped btc source tpl txs script witness b) :
    coinbaseScript b = some script := by
  simp [coinbaseScript, h.txdata, coinbaseBody]

theorem coinbaseTotal_eq
    (h : Shipped btc source tpl txs script witness b) :
    coinbaseTotal b = tpl.effectiveCoinbaseValue.toNat := by
  cases hwc : tpl.witnessCommitment with
  | none => simp [coinbaseTotal, h.txdata, coinbaseBody, coinbaseTx, hwc]
  | some wc => simp [coinbaseTotal, h.txdata, coinbaseBody, coinbaseTx, hwc]

theorem decodeBip34Height_eq
    (h : Shipped btc source tpl txs script witness b)
    (hheight : tpl.height.toNat < 2 ^ 31) :
    (coinbaseScript b).bind decodeBip34Height = some tpl.blockHeight := by
  have hsmall : tpl.blockHeight.toNat < 2 ^ 31 := by
    rw [GetBlockTemplateResult.blockHeight, UInt64.toNat_toUInt32]
    omega
  rw [h.coinbaseScript_eq, h.script_eq, List.append_assoc]
  exact decodeBip34Height_push hsmall _

theorem two_le_length_script
    (h : Shipped btc source tpl txs script witness b) :
    2 ≤ script.length := by
  have hpush : 2 ≤ (bip34HeightPush tpl.blockHeight).length := by
    unfold bip34HeightPush
    split
    · decide
    · rename_i hne
      have hpos : 0 < tpl.blockHeight.toNat := by
        rw [Nat.pos_iff_ne_zero]
        intro hzero
        exact hne (UInt32.toNat_inj.mp hzero)
      have hlt : tpl.blockHeight.toNat < 256 ^ 4 := tpl.blockHeight.toNat_lt
      obtain ⟨init, last, heq, -⟩ := minimalLe_eq_append hpos hlt
      dsimp only
      rw [heq]
      split <;> simp
  rw [h.script_eq, List.length_append, List.length_append]
  omega

theorem witness_valid (h : Shipped btc source tpl txs script witness b) :
    witnessStack.Valid witness := by
  rw [h.witness_eq]
  split
  · refine ⟨(by decide : 1 < 2 ^ 64), ?_⟩
    intro w hw
    cases List.mem_singleton.mp hw
    exact (by decide : 32 < 2 ^ 64)
  · exact ⟨(by decide : 0 < 2 ^ 64), by simp⟩

theorem encodable (hbtc : btc.Lawful sha)
    (h : Shipped btc source tpl txs script witness b)
    (hentries : List.Forall₂ (TruthfulEntry btc) tpl.transactions txs) :
    ∀ tx ∈ b.txdata, tx.Encodable := by
  rw [h.txdata]
  intro tx htx
  rcases List.mem_cons.mp htx with rfl | htx
  · exact encodable_coinbaseBody (encodable_coinbaseTx
      (lt_of_le_of_lt h.script_le (by decide)) h.payout_lt h.commitment_lt)
      h.witness_valid
  · exact encodable_of_entries hbtc hentries tx htx

/-- The block has an encoding, and no longer one than its weight. -/
theorem deserializeBlock_eq (hbtc : btc.Lawful sha)
    (h : Shipped btc source tpl txs script witness b)
    (hentries : List.Forall₂ (TruthfulEntry btc) tpl.transactions txs)
    (hweight : btc.blockWeight b ≤ 4000000) :
    btc.deserializeBlock (btc.serializeBlock b) = some b := by
  rw [hbtc.blockWeight_eq] at hweight
  have hsize := totalSize_le_weight b
  have hcount := length_le_weight b
  rw [hbtc.serializeBlock_eq]
  refine hbtc.deserializeBlock_complete _ _ ?_ ?_
  · rw [length_encode_block, maxBlockSize]
    omega
  · rw [block.decodeAll_eq_some]
    refine ⟨⟨by omega, ?_⟩, rfl⟩
    exact h.encodable hbtc hentries

/-- A block with witnesses carries the commitment its transactions call for. -/
theorem commitment_eq (h : Shipped btc source tpl txs script witness b)
    (htruth : Truthful btc sha tpl txs)
    (hform : commitmentOfScript source.coinbaseOutputScript = none)
    (hwitness : b.txdata.any Transaction.hasWitness = true) :
    ∃ c, declaredCommitment b = some c ∧ expectedCommitment sha b = some c := by
  have hwitnessEq := h.witness_eq
  rcases htruth.commitment with ⟨hempty, hnone⟩ | ⟨c, hc, hzero⟩
  · -- Without a commitment there is no witness anywhere in the block.
    have hwc : tpl.witnessCommitment = none := by
      simp [GetBlockTemplateResult.witnessCommitment, hempty]
    rw [hwc, extract_coinbaseTx_none script hform] at hwitnessEq
    rw [h.txdata, hwitnessEq, List.any_cons, hnone] at hwitness
    simp [Transaction.hasWitness, coinbaseBody] at hwitness
  · have hne : tpl.defaultWitnessCommitment ≠ [] := by
      intro hnil
      rw [hnil] at hc
      simp [commitmentOfScript] at hc
    have hwc : tpl.witnessCommitment = some tpl.defaultWitnessCommitment := by
      simp [GetBlockTemplateResult.witnessCommitment, hne]
    rw [hwc, extract_coinbaseTx_some script hc] at hwitnessEq
    refine ⟨c, ?_, ?_⟩
    · rw [declaredCommitment, h.txdata, hwc]
      exact extract_coinbaseTx_some script hc
    · rw [expectedCommitment, Block.witnessRootOfWtxids, h.txdata, ← hzero,
        hwitnessEq]
      simp [zeroReservedCommitment, witnessLeaves, reservedValue, coinbaseBody]

/-- No two transactions of the block share a txid, the coinbase included. -/
theorem nodup_txids (hbtc : btc.Lawful sha)
    (h : Shipped btc source tpl txs script witness b)
    (htruth : Truthful btc sha tpl txs)
    (hcollision : ∀ x ∈ b.txdata, ∀ y ∈ b.txdata, x.txid sha = y.txid sha →
      x.legacyEncode = y.legacyEncode) :
    (b.txdata.map btc.computeTxid).Nodup := by
  have hencodable := h.encodable hbtc htruth.entries
  rw [h.txdata] at hcollision hencodable ⊢
  rw [List.map_cons, List.nodup_cons]
  refine ⟨?_, htruth.distinct⟩
  intro hmem
  obtain ⟨tx, htx, heq⟩ := List.mem_map.mp hmem
  rw [hbtc.computeTxid_eq, hbtc.computeTxid_eq] at heq
  have hbytes := hcollision tx (by simp [htx]) _ (by simp) heq
  obtain ⟨i, hi, hnull⟩ := exists_null_of_legacyEncode_eq
    (hencodable tx (by simp [htx])) (hencodable _ (by simp)) hbytes
  exact htruth.prevouts tx htx i hi hnull

theorem effectiveCoinbaseValue_eq (htruth : Truthful btc sha tpl txs) :
    tpl.effectiveCoinbaseValue = tpl.coinbaseValue :=
  if_neg htruth.value_ne_zero

theorem templateWeight_eq (hbtc : btc.Lawful sha)
    (h : Shipped btc source tpl txs script witness b)
    (htruth : Truthful btc sha tpl txs)
    (hweight : btc.blockWeight b ≤ 4000000) :
    (txs.map btc.txWeight).sum = tpl.templateWeight.toNat := by
  have hsum := sum_txWeight_le_weight hbtc b
  rw [← hbtc.blockWeight_eq, h.txdata, List.map_cons, List.sum_cons] at hsum
  rw [GetBlockTemplateResult.templateWeight, sum_weight htruth.entries,
    UInt64.toNat_ofNat', Nat.mod_eq_of_lt (by omega)]

theorem txCount_eq (hbtc : btc.Lawful sha)
    (h : Shipped btc source tpl txs script witness b)
    (htruth : Truthful btc sha tpl txs)
    (hweight : btc.blockWeight b ≤ 4000000) :
    b.txdata.length = tpl.txCount.toNat + 1 := by
  have hcount := length_le_weight b
  have hlength := htruth.entries.length_eq
  rw [← hbtc.blockWeight_eq, h.txdata, List.length_cons] at hcount
  rw [h.txdata, List.length_cons, GetBlockTemplateResult.txCount,
    UInt32.toNat_ofNat', Nat.mod_eq_of_lt (by omega), hlength]

theorem totalSigops_le (htruth : Truthful btc sha tpl txs) :
    4 * legacySigops btc txs ≤ tpl.totalSigops.toNat := by
  rw [GetBlockTemplateResult.totalSigops, UInt32.toNat_ofNat',
    Nat.mod_eq_of_lt htruth.sigops_fit]
  exact legacySigops_le_sum htruth.entries

/-- The block shipped for a truthful answer conforms to the proposal. -/
theorem conforms (hbtc : btc.Lawful sha)
    (h : Shipped btc source tpl txs script witness b)
    (htruth : Truthful btc sha tpl txs)
    (hform : commitmentOfScript source.coinbaseOutputScript = none)
    (hweight : btc.blockWeight b ≤ 4000000)
    (hsigops : 4 * legacySigops btc b.txdata ≤ 80000)
    (hcollision : ∀ x ∈ b.txdata, ∀ y ∈ b.txdata, x.txid sha = y.txid sha →
      x.legacyEncode = y.legacyEncode)
    (hasher : List HashWrite → UInt64) (nowUnixMs : UInt64)
    (halves : Bytes × Bytes) :
    Conforms btc sha (source.propose hasher btc nowUnixMs tpl none halves) b where
  merkleRoot := by rw [← hbtc.computeMerkleRoot_eq, h.merkleRoot]
  witnessCommitmentPresent hwitness := by
    obtain ⟨c, hdeclared, -⟩ := h.commitment_eq htruth hform hwitness
    simp [hdeclared]
  witnessCommitment hwitness := by
    obtain ⟨c, hdeclared, hexpected⟩ := h.commitment_eq htruth hform hwitness
    rw [hdeclared, hexpected]
  bip34Present := by simp [h.decodeBip34Height_eq htruth.height]
  height := h.decodeBip34Height_eq htruth.height
  coinbaseValue := h.coinbaseTotal_eq
  coinbaseValueMax := by
    rw [h.coinbaseTotal_eq, effectiveCoinbaseValue_eq htruth]
    exact htruth.value_le
  templateWeight := by
    rintro declared ⟨⟩
    rw [h.txdata]
    exact h.templateWeight_eq hbtc htruth hweight
  txCount := h.txCount_eq hbtc htruth hweight
  totalSigops := by
    rintro declared ⟨⟩
    rw [h.txdata]
    exact totalSigops_le htruth
  coinbaseSigops := by
    intro declared hdeclared
    cases hdeclared
  scriptLength :=
    ⟨script, h.coinbaseScript_eq, h.two_le_length_script, h.script_le⟩
  outputCount := by simp [h.txdata, coinbaseBody, coinbaseTx]
  weightMax := hweight
  sigopsMax := hsigops
  coinbaseFirst := by
    refine ⟨_, by rw [h.txdata]; rfl, _, rfl, rfl⟩
  nonCoinbasePrevout := by
    rw [h.txdata]
    exact htruth.prevouts
  headerVersion := by
    rw [h.version]
    exact htruth.version
  distinctTxids := h.nodup_txids hbtc htruth hcollision

end Shipped

/-! ## The shield agrees -/

/-- An honest producer is never rejected by the shield: a proposal made from a
truthful answer, with a payout script that is no commitment, agrees with the raw
block shipped in it, when the assembled block is within the weight and
signature-operation ceilings. SHA-256 is taken not to collide on the block's
transactions. -/
theorem nextTemplate_agreed (hbtc : btc.Lawful sha)
    {hasher : List HashWrite → UInt64} {nowUnixMs : UInt64}
    {source source' : BitcoindTemplateSource} {tpl : GetBlockTemplateResult}
    {txs : List Transaction} {t : TemplatePropose} {e : GbtExtras}
    {halves : Bytes × Bytes} {b : Block} (htruth : Truthful btc sha tpl txs)
    (hform : commitmentOfScript source.coinbaseOutputScript = none)
    (hnext : source.nextTemplate hasher btc sha nowUnixMs (some (tpl, none)) =
      (.ok (some (t, e)), source'))
    (hpresent : t.rawBlockHex.isSome = true)
    (hhalves : source.coinbaseHalves tpl = .ok halves)
    (hassembled : assembleBlock btc (source.blockParts tpl halves) = .ok b)
    (hweight : btc.blockWeight b ≤ 4000000)
    (hsigops : 4 * legacySigops btc b.txdata ≤ 80000)
    (hcollision : ∀ x ∈ b.txdata, ∀ y ∈ b.txdata, x.txid sha = y.txid sha →
      x.legacyEncode = y.legacyEncode) :
    checkInvariantShield btc t sha = .agreed := by
  obtain ⟨halves', hhalves', rfl⟩ :=
    BitcoindTemplateSource.nextTemplate_eq_some hnext
  cases hhalves.symm.trans hhalves'
  obtain ⟨hex, hhex⟩ := Option.isSome_iff_exists.mp hpresent
  obtain ⟨b', hassembled', hraw⟩ :=
    BitcoindTemplateSource.rawBlockHex_eq_some hhex
  cases hassembled.symm.trans hassembled'
  obtain ⟨script, witness, hshipped⟩ :=
    shipped_of_assembleBlock hbtc htruth.entries hhalves hassembled
  have hparse := hshipped.deserializeBlock_eq hbtc htruth.entries hweight
  rw [checkInvariantShield_eq_agreed hbtc]
  exact ⟨hex, _, b, hhex, hraw, hparse, hshipped.conforms hbtc htruth hform
    hweight hsigops hcollision hasher nowUnixMs halves⟩

/-! ## An answer with a witness -/

/-- An answer with the two transactions at height 840000. -/
def spendsAnswer : GetBlockTemplateResult where
  version := 0x20000000
  previousBlockHash := Bytes32.fill 9
  transactions :=
    [⟨witnessSpend.txid sha256, 2000, 4, 379, witnessSpend.encode⟩,
      ⟨legacySpend.txid sha256, 500, 0, 248, legacySpend.encode⟩]
  coinbaseaux := ∅
  coinbaseValue := 312502500
  defaultWitnessCommitment := spendsCommitment
  height := 840000
  bits := [0x17, 0x03, 0x42, 0x19]
  currentTime := 1713571767
  minTime := 1713571000

def spendsSource : BitcoindTemplateSource where
  lastFp := none
  hadRpcError := false
  coinbaseOutputScript := [0x51]
  extranonceSize := 8

def spendsHalves : Bytes × Bytes :=
  (coinbasePrefix 12 [0x03, 0x40, 0xd1, 0x0c] [],
    coinbaseSuffix 312502500 [0x51] (some spendsCommitment))

/-- The coinbase assembled for it, before its witness is attached. -/
def bareSpendsCoinbase : Transaction :=
  coinbaseTx ([0x03, 0x40, 0xd1, 0x0c] ++ [] ++ List.replicate 8 0x00) 312502500
    [0x51] (some spendsCommitment)

theorem deserializeTx_spends :
    (RustBitcoin.reference sha256).deserializeTx witnessSpend.encode =
        some witnessSpend ∧
      (RustBitcoin.reference sha256).deserializeTx legacySpend.encode =
        some legacySpend := by
  decide +kernel

/-- The commitment of the answer is the one of the assembled block. -/
theorem zeroReservedCommitment_spends :
    ∃ c, commitmentOfScript spendsCommitment = some c ∧
      zeroReservedCommitment sha256 [witnessSpend, legacySpend] = some c := by
  have hexpected : declaredCommitment spendsBlock =
      expectedCommitment sha256 spendsBlock :=
    spendsBlock_conforms.witnessCommitment (by decide)
  have hdeclared : declaredCommitment spendsBlock =
      commitmentOfScript spendsCommitment := by
    decide +kernel
  have hsome : (commitmentOfScript spendsCommitment).isSome = true := by decide
  obtain ⟨c, hc⟩ := Option.isSome_iff_exists.mp hsome
  refine ⟨c, hc, ?_⟩
  rw [← hc, ← hdeclared, hexpected]
  rfl

theorem spendsAnswer_truthful :
    Truthful (RustBitcoin.reference sha256) sha256 spendsAnswer
      [witnessSpend, legacySpend] where
  entries := by
    refine .cons ?_ (.cons ?_ .nil)
    · exact ⟨deserializeTx_spends.1, rfl, by decide +kernel, by decide +kernel⟩
    · exact ⟨deserializeTx_spends.2, rfl, by decide +kernel, by decide +kernel⟩
  distinct := (List.nodup_cons.mp spendsBlock_conforms.distinctTxids).2
  prevouts := by decide
  commitment := .inr zeroReservedCommitment_spends
  version := by decide
  height := by decide
  value_ne_zero := by decide
  value_le := by decide
  sigops_fit := by decide

theorem spendsSource_coinbaseHalves :
    spendsSource.coinbaseHalves spendsAnswer = .ok spendsHalves := by
  rfl

theorem spendsSource_assembleBlock :
    assembleBlock (RustBitcoin.reference sha256)
      (spendsSource.blockParts spendsAnswer spendsHalves) = .ok spendsBlock := by
  have hparse : (RustBitcoin.reference sha256).deserializeTx
      (spendsHalves.1 ++ List.replicate 8 0x00 ++ spendsHalves.2) =
        some bareSpendsCoinbase := by
    decide +kernel
  have hextract :
      (extractWitnessCommitmentFromCoinbase bareSpendsCoinbase).isSome = true := by
    decide +kernel
  have hroot : (RustBitcoin.reference sha256).computeMerkleRoot
      (draftBlock (spendsSource.blockParts spendsAnswer spendsHalves)
        [spendsCoinbase, witnessSpend, legacySpend]) = some spendsRoot :=
    spendsBlock_conforms.merkleRoot
  have htxs : parseTxs (RustBitcoin.reference sha256)
      (spendsSource.blockParts spendsAnswer spendsHalves).txsRaw =
        .ok [witnessSpend, legacySpend] := by
    have hraw : (spendsSource.blockParts spendsAnswer spendsHalves).txsRaw =
        [witnessSpend.encode, legacySpend.encode] := rfl
    simp only [hraw, parseTxs, deserializeTx_spends.1, deserializeTx_spends.2, Except.map]
  have hcoinbase : parseCoinbase (RustBitcoin.reference sha256)
      (spendsSource.blockParts spendsAnswer spendsHalves).coinbaseLegacy =
        .ok bareSpendsCoinbase := by
    have hlegacy : (spendsSource.blockParts spendsAnswer spendsHalves).coinbaseLegacy =
        spendsHalves.1 ++ List.replicate 8 0x00 ++ spendsHalves.2 := rfl
    rw [parseCoinbase, hlegacy, hparse]
  have hbody : witnessedCoinbase bareSpendsCoinbase = .ok spendsCoinbase := by
    rw [witnessedCoinbase, if_pos hextract]
    rfl
  rw [assembleBlock, hcoinbase, htxs]
  simp only [Except.bind, hextract, hbody, sealBlock, hroot, Bool.not_true,
    Bool.and_false, Bool.false_eq_true, if_false]
  rfl

theorem spendsSource_rawBlockHex :
    spendsSource.rawBlockHex (RustBitcoin.reference sha256) spendsAnswer spendsHalves =
      some (hexEncode ((RustBitcoin.reference sha256).serializeBlock spendsBlock)) := by
  have hassembled := spendsSource_assembleBlock
  rw [BitcoindTemplateSource.blockParts] at hassembled
  rw [BitcoindTemplateSource.rawBlockHex, assembleRawBlockHex,
    BitcoindTemplateSource.displayHexToInternal_displayHex]
  dsimp only
  rw [assembleTemplateBlock, hassembled]
  rfl

/-- The three transactions of the block have three ids. -/
theorem spendsBlock_txids_injective : ∀ x ∈ spendsBlock.txdata, ∀ y ∈ spendsBlock.txdata,
    x.txid sha256 = y.txid sha256 → x.legacyEncode = y.legacyEncode := by
  intro x hx y hy heq
  rw [List.inj_on_of_nodup_map spendsBlock_conforms.distinctTxids hx hy heq]

theorem spendsSource_nextTemplate :
    ∃ e source', spendsSource.nextTemplate (fun _ => 0)
      (RustBitcoin.reference sha256) sha256 0 (some (spendsAnswer, none)) =
        (.ok (some (spendsSource.propose (fun _ => 0) (RustBitcoin.reference sha256) 0
          spendsAnswer none spendsHalves, e)), source') := by
  have hbranch : (computeMerkleBranch sha256 spendsAnswer.txids).toOption.isSome := by
    decide +kernel
  cases hpath : computeMerkleBranch sha256 spendsAnswer.txids with
  | error e =>
      rw [hpath] at hbranch
      cases hbranch
  | ok branch =>
      rw [BitcoindTemplateSource.nextTemplate, if_neg (by simp [spendsSource]),
        BitcoindTemplateSource.buildTemplate, spendsSource_coinbaseHalves]
      dsimp only [Except.bind]
      rw [hpath]
      exact ⟨_, _, rfl⟩

theorem nextTemplate_agreed_spends :
    ∃ t e source', spendsSource.nextTemplate (fun _ => 0)
        (RustBitcoin.reference sha256) sha256 0 (some (spendsAnswer, none)) =
          (.ok (some (t, e)), source') ∧
      checkInvariantShield (RustBitcoin.reference sha256) t sha256 = .agreed := by
  obtain ⟨e, source', hnext⟩ := spendsSource_nextTemplate
  refine ⟨_, e, source', hnext, ?_⟩
  refine nextTemplate_agreed (RustBitcoin.reference_lawful sha256)
    spendsAnswer_truthful (by decide) hnext ?_ spendsSource_coinbaseHalves
    spendsSource_assembleBlock spendsBlock_conforms.weightMax
    spendsBlock_conforms.sigopsMax spendsBlock_txids_injective
  rw [BitcoindTemplateSource.propose, spendsSource_rawBlockHex, Option.isSome_some]

end ReserveGrid
