import ReserveGrid.Verifier.Shield

/-!
# The rules of the invariant shield

The documented invariants of a block and the fields declared for it, with exact
sums and counts, and the order in which the shield looks at them. The shield
agrees exactly with the blocks that keep them all, and otherwise names the first
one broken.
-/

namespace ReserveGrid.Verifier

open Support Bitcoin Consensus Protocol

/-! ## What the rules speak of -/

/-- The sum of the coinbase outputs. -/
def coinbaseTotal (b : Block) : ℕ :=
  ((b.txdata.take 1).flatMap fun tx => tx.output.map fun o => o.value.toNat).sum

/-- The script of the coinbase's first input. -/
def coinbaseScript (b : Block) : Option Bytes :=
  b.txdata.head?.bind fun coinbase => coinbase.input.head?.map TxIn.scriptSig

/-- The witness commitment the coinbase carries. -/
def declaredCommitment (b : Block) : Option Bytes32 :=
  b.txdata.head?.bind extractWitnessCommitmentFromCoinbase

/-- The witness commitment of the block's witness tree and the coinbase's
reserved value. -/
def expectedCommitment (sha : Bytes → Bytes32) (b : Block) : Option Bytes32 :=
  b.txdata.head?.bind fun coinbase =>
    (b.witnessRootOfWtxids sha).map fun root =>
      sha256d sha (root.toBytes ++ (reservedValue coinbase).toBytes)

/-- Legacy signature operations, counted exactly. -/
def legacySigops (btc : RustBitcoin) (txs : List Transaction) : ℕ :=
  ((txs.flatMap sigopScripts).map btc.countSigopsLegacy).sum

/-- A transaction of one input, which spends no output. -/
def IsCoinbase (tx : Transaction) : Prop :=
  ∃ input, tx.input = [input] ∧ input.previousOutput = OutPoint.null

/-- The documented invariants. -/
structure Conforms (btc : RustBitcoin) (sha : Bytes → Bytes32)
    (t : TemplatePropose) (b : Block) : Prop where
  merkleRoot : b.merkleRootOfTxids sha = some b.header.merkleRoot
  witnessCommitmentPresent : b.txdata.any Transaction.hasWitness = true →
    (declaredCommitment b).isSome = true
  witnessCommitment : b.txdata.any Transaction.hasWitness = true →
    declaredCommitment b = expectedCommitment sha b
  bip34Present : ((coinbaseScript b).bind decodeBip34Height).isSome = true
  height : (coinbaseScript b).bind decodeBip34Height = some t.blockHeight
  coinbaseValue : coinbaseTotal b = t.coinbaseValue.toNat
  coinbaseValueMax : coinbaseTotal b ≤ maxMoneySats
  templateWeight : ∀ declared ∈ t.templateWeight,
    ((b.txdata.drop 1).map btc.txWeight).sum = declared.toNat
  txCount : b.txdata.length = t.txCount.toNat + 1
  totalSigops : ∀ declared ∈ t.totalSigops,
    4 * legacySigops btc (b.txdata.drop 1) ≤ declared.toNat
  coinbaseSigops : ∀ declared ∈ t.coinbaseSigops,
    4 * legacySigops btc (b.txdata.take 1) ≤ declared.toNat
  scriptLength : ∃ script ∈ coinbaseScript b,
    2 ≤ script.length ∧ script.length ≤ 100
  outputCount : ∃ coinbase ∈ b.txdata.head?, coinbase.output ≠ []
  weightMax : btc.blockWeight b ≤ 4000000
  sigopsMax : 4 * legacySigops btc b.txdata ≤ 80000
  coinbaseFirst : ∃ coinbase ∈ b.txdata.head?, IsCoinbase coinbase
  nonCoinbasePrevout : ∀ tx ∈ b.txdata.drop 1, ∀ i ∈ tx.input,
    i.previousOutput ≠ OutPoint.null
  headerVersion : 4 ≤ b.header.version
  distinctTxids : (b.txdata.map btc.computeTxid).Nodup

/-- The ceilings and structural rules, in order. -/
def tier3Rules (btc : RustBitcoin) (b : Block) : List (Rule VerdictReason) :=
  [⟨∃ script ∈ coinbaseScript b, 2 ≤ script.length ∧ script.length ≤ 100,
      .v2InvariantCoinbaseScriptLength⟩,
    ⟨∃ coinbase ∈ b.txdata.head?, coinbase.output ≠ [],
      .v2InvariantCoinbaseOutputCount⟩,
    ⟨btc.blockWeight b ≤ 4000000, .v2InvariantWeightExceedsMax⟩,
    ⟨4 * legacySigops btc b.txdata ≤ 80000, .v2InvariantSigopsExceedMax⟩,
    ⟨coinbaseTotal b ≤ maxMoneySats, .v2InvariantCoinbaseValueExceedsMax⟩,
    ⟨∀ tx ∈ b.txdata.drop 1, ∀ i ∈ tx.input,
      i.previousOutput ≠ OutPoint.null, .v2InvariantNontcbNullPrevout⟩,
    ⟨∃ coinbase ∈ b.txdata.head?, IsCoinbase coinbase,
      .v2InvariantCoinbasePrevoutNotNull⟩,
    ⟨4 ≤ b.header.version, .v2InvariantHeaderVersionLow⟩,
    ⟨(b.txdata.map btc.computeTxid).Nodup, .v2InvariantDuplicateTx⟩]

/-- The rules in the order the shield looks at them, each with its reason. A
block without a coinbase, or whose coinbase has no input, counts as undecodable,
and a coinbase sum beyond `u64` as beyond the money range. The transaction count
saturates at `u32`. -/
def shieldRules (btc : RustBitcoin) (sha : Bytes → Bytes32)
    (t : TemplatePropose) (b : Block) : List (Rule VerdictReason) :=
  ⟨b.txdata ≠ [], .v2InvariantDecodeFailed⟩ ::
  ⟨coinbaseTotal b ≤ u64Max, .v2InvariantCoinbaseValueExceedsMax⟩ ::
  ⟨coinbaseTotal b = t.coinbaseValue.toNat,
    .v2InvariantCoinbaseValueMismatch⟩ ::
  ⟨∀ declared ∈ t.templateWeight,
    ((b.txdata.drop 1).map btc.txWeight).sum = declared.toNat,
    .v2InvariantTemplateWeightMismatch⟩ ::
  ⟨b.merkleRootOfTxids sha = some b.header.merkleRoot,
    .v2InvariantMerkleRootMismatch⟩ ::
  ⟨b.txdata.any Transaction.hasWitness = true →
    (declaredCommitment b).isSome = true,
    .v2InvariantWitnessCommitmentMissing⟩ ::
  ⟨b.txdata.any Transaction.hasWitness = true →
    declaredCommitment b = expectedCommitment sha b,
    .v2InvariantWitnessCommitmentMismatch⟩ ::
  ⟨(coinbaseScript b).isSome = true, .v2InvariantDecodeFailed⟩ ::
  ⟨((coinbaseScript b).bind decodeBip34Height).isSome = true,
    .v2InvariantCoinbaseBip34Missing⟩ ::
  ⟨min b.txdata.length u32Max - 1 = t.txCount.toNat,
    .v2InvariantTxCountMismatch⟩ ::
  ⟨∀ declared ∈ t.totalSigops,
    4 * legacySigops btc (b.txdata.drop 1) ≤ declared.toNat,
    .v2InvariantSigopsMismatch⟩ ::
  ⟨∀ declared ∈ t.coinbaseSigops,
    4 * legacySigops btc (b.txdata.take 1) ≤ declared.toNat,
    .v2InvariantCoinbaseSigopsMismatch⟩ ::
  ⟨(coinbaseScript b).bind decodeBip34Height = some t.blockHeight,
    .v2InvariantCoinbaseHeightMismatch⟩ ::
  tier3Rules btc b

section

variable {btc : RustBitcoin} {sha : Bytes → Bytes32} {t : TemplatePropose}
  {b : Block}

/-! ## Exact sums behind the saturating ones -/

theorem foldl_satAdd64 {α : Type*} (f : α → ℕ) (as : List α) {total : ℕ}
    (htotal : total ≤ u64Max) :
    as.foldl (fun acc a => satAdd64 acc (f a)) total =
      min (total + (as.map f).sum) u64Max := by
  induction as generalizing total with
  | nil => simpa using htotal
  | cons a as ih =>
      have hstep : satAdd64 total (f a) ≤ u64Max := Nat.min_le_right _ _
      rw [List.foldl_cons, ih hstep, satAdd64, List.map_cons, List.sum_cons]
      omega

theorem sumLegacySigops_eq (txs : List Transaction) :
    sumLegacySigops btc txs = min (legacySigops btc txs) u32Max := by
  rw [sumLegacySigops, foldl_satAdd64 _ _ (Nat.zero_le _), legacySigops]
  unfold u64Max u32Max
  omega

theorem checkedSum_eq (vs : List UInt64) (acc : ℕ) (hacc : acc ≤ u64Max) :
    checkedSum vs acc =
      if acc + (vs.map UInt64.toNat).sum ≤ u64Max then
        some (acc + (vs.map UInt64.toNat).sum)
      else none := by
  induction vs generalizing acc with
  | nil => simp [checkedSum, hacc]
  | cons v vs ih =>
      rw [checkedSum, List.map_cons, List.sum_cons, ← Nat.add_assoc]
      split
      · rename_i hfits
        exact ih _ hfits
      · rename_i hover
        rw [if_neg (by omega)]

/-- The loop over the outputs fails exactly when the sum leaves the range. -/
theorem moneyLoop_eq_ok (vs : List UInt64) {total result : ℕ}
    (h : moneyLoop vs total = .ok result) :
    result = total + (vs.map UInt64.toNat).sum := by
  induction vs generalizing total with
  | nil =>
      cases h
      simp
  | cons v vs ih =>
      rw [moneyLoop] at h
      split at h
      · simp at h
      · split at h
        · simp at h
        · rw [ih h, List.map_cons, List.sum_cons]
          omega

theorem moneyLoop_of_le (vs : List UInt64) {total : ℕ}
    (h : total + (vs.map UInt64.toNat).sum ≤ maxMoneySats) :
    moneyLoop vs total = .ok (total + (vs.map UInt64.toNat).sum) := by
  induction vs generalizing total with
  | nil => rfl
  | cons v vs ih =>
      rw [List.map_cons, List.sum_cons] at h ⊢
      have hmoney : maxMoneySats ≤ u64Max := by decide
      rw [moneyLoop, if_neg (by omega), if_neg (by omega), ih (by omega),
        Nat.add_assoc]

theorem moneyLoop_error (vs : List UInt64) {total : ℕ} {v : ConsensusViolation}
    (h : moneyLoop vs total = .error v) :
    v = .coinbaseValueExceedsMax := by
  induction vs generalizing total with
  | nil => simp [moneyLoop] at h
  | cons w vs ih =>
      rw [moneyLoop] at h
      split at h
      · cases h
        rfl
      · split at h
        · cases h
          rfl
        · exact ih h

/-- The loop over the txids finds a repetition among them and those seen. -/
theorem duplicateLoop_eq_false (txs : List Transaction) (seen : Finset Bytes32) :
    duplicateLoop btc txs seen = false ↔
      (txs.map btc.computeTxid).Nodup ∧
        ∀ tx ∈ txs, btc.computeTxid tx ∉ seen := by
  induction txs generalizing seen with
  | nil => simp [duplicateLoop]
  | cons tx txs ih =>
      rw [duplicateLoop]
      split
      · rename_i hseen
        simp [hseen]
      · rename_i hseen
        rw [ih]
        simp only [List.map_cons, List.nodup_cons, List.mem_map, not_exists,
          not_and, Finset.mem_insert, not_or, List.mem_cons, forall_eq_or_imp]
        constructor
        · rintro ⟨hnodup, hfresh⟩
          exact ⟨⟨fun x hx => (hfresh x hx).1, hnodup⟩, hseen,
            fun x hx => (hfresh x hx).2⟩
        · rintro ⟨⟨hne, hnodup⟩, -, hfresh⟩
          exact ⟨hnodup, fun x hx => ⟨hne x hx, hfresh x hx⟩⟩

/-! ## The checks report their rules -/

theorem reports_facadeCheck {result : Except ConsensusViolation Unit}
    {holds : Prop} {k : VerdictReason} (hok : result = .ok () ↔ holds)
    (herror : ∀ v, result = .error v →
      consensusViolationToVerdictReason v = k) :
    Reports Rejection.reason [⟨holds, k⟩] (facadeCheck result) := by
  refine Reports.single ?_ ?_
  · rw [← hok]
    unfold facadeCheck
    split <;> simp_all
  · intro r hr
    unfold facadeCheck at hr
    split at hr
    · simp at hr
    · cases hr
      exact herror _ rfl

/-- A check that fails with one violation unless its condition holds. -/
theorem reports_facadeCheck_ite {c holds : Prop} [Decidable c]
    {v : ConsensusViolation} (hc : ¬ c ↔ holds) :
    Reports Rejection.reason [⟨holds, consensusViolationToVerdictReason v⟩]
      (facadeCheck (if c then .error v else .ok ())) := by
  refine reports_facadeCheck ?_ ?_
  · rw [← hc]
    split <;> simp_all
  · intro v' hv'
    split at hv'
    · cases hv'
      rfl
    · simp at hv'

/-- A comparison that rejects with one reason unless its condition holds. -/
theorem reports_ite {c holds : Prop} [Decidable c] {r : Rejection}
    (hc : ¬ c ↔ holds) :
    Reports Rejection.reason [⟨holds, r.reason⟩]
      (if c then .error r else .ok ()) := by
  refine Reports.single ?_ ?_
  · rw [← hc]
    split <;> simp_all
  · intro r' hr'
    split at hr'
    · cases hr'
      rfl
    · simp at hr'

theorem coinbaseTotal_cons {coinbase : Transaction} {rest : List Transaction}
    (hb : b.txdata = coinbase :: rest) :
    coinbaseTotal b =
      ((coinbase.output.map TxOut.value).map UInt64.toNat).sum := by
  simp [coinbaseTotal, hb, Function.comp_def]

theorem reDeriveCoinbaseValue_eq {raw : Bytes}
    (hparse : btc.deserializeBlock raw = some b) {coinbase : Transaction}
    {rest : List Transaction} (hb : b.txdata = coinbase :: rest) :
    reDeriveCoinbaseValue btc raw =
      if coinbaseTotal b ≤ u64Max then .ok (UInt64.ofNat (coinbaseTotal b))
      else .error .coinbaseValueExceedsMax := by
  have hsum := checkedSum_eq (coinbase.output.map TxOut.value) 0 (by decide)
  rw [Nat.zero_add, ← coinbaseTotal_cons hb] at hsum
  simp only [reDeriveCoinbaseValue, parseBlock, hparse, hb, bind, Except.bind,
    hsum]
  split
  · rename_i total htotal
    split at htotal
    · rename_i hfits
      cases htotal
      rw [if_pos hfits]
    · simp at htotal
  · rename_i hnone
    split at hnone
    · simp at hnone
    · rename_i hover
      rw [if_neg hover]

theorem reports_coinbaseValueCheck {raw : Bytes}
    (hparse : btc.deserializeBlock raw = some b) :
    Reports Rejection.reason
      [⟨b.txdata ≠ [], .v2InvariantDecodeFailed⟩,
        ⟨coinbaseTotal b ≤ u64Max, .v2InvariantCoinbaseValueExceedsMax⟩,
        ⟨coinbaseTotal b = t.coinbaseValue.toNat,
          .v2InvariantCoinbaseValueMismatch⟩]
      (coinbaseValueCheck btc t raw) := by
  unfold coinbaseValueCheck
  cases hb : b.txdata with
  | nil =>
      have hempty : reDeriveCoinbaseValue btc raw =
          .error (.decodeFailed "block_has_no_coinbase") := by
        simp [reDeriveCoinbaseValue, parseBlock, hparse, hb, bind, Except.bind]
      rw [hempty]
      exact FirstBroken.head (by simp)
  | cons coinbase rest =>
      rw [reDeriveCoinbaseValue_eq hparse hb]
      by_cases hfits : coinbaseTotal b ≤ u64Max
      · have hvalue : (UInt64.ofNat (coinbaseTotal b)).toNat = coinbaseTotal b := by
          rw [UInt64.toNat_ofNat', Nat.mod_eq_of_lt]
          unfold u64Max at hfits
          omega
        have heq : UInt64.ofNat (coinbaseTotal b) = t.coinbaseValue ↔
            coinbaseTotal b = t.coinbaseValue.toNat := by
          rw [← UInt64.toNat_inj, hvalue]
        rw [if_pos hfits]
        dsimp only
        split
        · rename_i hne
          refine FirstBroken.tail (by simp) (FirstBroken.tail hfits ?_)
          exact FirstBroken.head fun h => hne (heq.mpr h)
        · rename_i hdeclared
          rw [not_not] at hdeclared
          refine List.forall_mem_cons.mpr ⟨by simp, ?_⟩
          refine List.forall_mem_cons.mpr ⟨hfits, ?_⟩
          exact List.forall_mem_singleton.mpr (heq.mp hdeclared)
      · rw [if_neg hfits]
        exact FirstBroken.tail (by simp) (FirstBroken.head hfits)

theorem reports_templateWeightCheck :
    Reports Rejection.reason
      [⟨∀ declared ∈ t.templateWeight,
        ((b.txdata.drop 1).map btc.txWeight).sum = declared.toNat,
        .v2InvariantTemplateWeightMismatch⟩]
      (templateWeightCheck btc t b) := by
  unfold templateWeightCheck
  split
  · rename_i hnone
    exact List.forall_mem_singleton.mpr (by simp [hnone])
  · rename_i declared hsome
    refine reports_ite ?_
    simp [hsome, nonCoinbaseTxWeight]

theorem merkleRootOfTxids_isSome (sha : Bytes → Bytes32) (hb : b.txdata ≠ []) :
    ∃ root, b.merkleRootOfTxids sha = some root := by
  obtain ⟨coinbase, rest, hb⟩ := List.exists_cons_of_ne_nil hb
  rw [Block.merkleRootOfTxids, hb, List.map_cons,
    Merkle.foldl_firstBranch _ Bytes32.zero]
  exact ⟨_, rfl⟩

theorem reports_checkMerkleRootInternal (hbtc : btc.Lawful sha)
    (hb : b.txdata ≠ []) :
    Reports Rejection.reason
      [⟨b.merkleRootOfTxids sha = some b.header.merkleRoot,
        .v2InvariantMerkleRootMismatch⟩]
      (facadeCheck (checkMerkleRootInternal btc b)) := by
  obtain ⟨root, hroot⟩ := merkleRootOfTxids_isSome sha hb
  rw [checkMerkleRootInternal, hbtc.computeMerkleRoot_eq, hroot]
  refine reports_facadeCheck_ite ?_
  rw [not_not, Option.some.injEq, eq_comm]

theorem witnessRootOfWtxids_isSome (sha : Bytes → Bytes32)
    {coinbase : Transaction} {rest : List Transaction} (hb : b.txdata = coinbase :: rest) :
    ∃ root, b.witnessRootOfWtxids sha = some root := by
  rw [Block.witnessRootOfWtxids, hb, witnessLeaves,
    Merkle.foldl_firstBranch _ Bytes32.zero]
  exact ⟨_, rfl⟩

theorem reports_checkWitnessCommitmentInternal (hbtc : btc.Lawful sha)
    (hb : b.txdata ≠ []) :
    Reports Rejection.reason
      [⟨b.txdata.any Transaction.hasWitness = true →
          (declaredCommitment b).isSome = true,
          .v2InvariantWitnessCommitmentMissing⟩,
        ⟨b.txdata.any Transaction.hasWitness = true →
          declaredCommitment b = expectedCommitment sha b,
          .v2InvariantWitnessCommitmentMismatch⟩]
      (facadeCheck (checkWitnessCommitmentInternal btc sha b)) := by
  obtain ⟨coinbase, rest, hb⟩ := List.exists_cons_of_ne_nil hb
  obtain ⟨root, hroot⟩ := witnessRootOfWtxids_isSome sha hb
  have hdeclared : declaredCommitment b =
      extractWitnessCommitmentFromCoinbase coinbase := by
    simp [declaredCommitment, hb]
  have hexpected : expectedCommitment sha b = some (sha256d sha
      (root.toBytes ++ (reservedValue coinbase).toBytes)) := by
    simp [expectedCommitment, hb, hroot]
  rw [hdeclared, hexpected, checkWitnessCommitmentInternal]
  split
  · rename_i hnil
    simp [hb] at hnil
  · rename_i coinbase' rest' hb'
    obtain ⟨rfl, rfl⟩ := List.cons.inj (hb.symm.trans hb')
    by_cases hwitness : b.txdata.any Transaction.hasWitness = true
    · rw [if_pos hwitness]
      cases hcommitment : extractWitnessCommitmentFromCoinbase coinbase with
      | none => exact FirstBroken.head (by simp [hwitness])
      | some declared =>
          rw [hbtc.witnessRoot_eq, hroot]
          dsimp only
          split
          · rename_i heq
            refine List.forall_mem_cons.mpr ⟨by simp, ?_⟩
            exact List.forall_mem_singleton.mpr (by simp [heq])
          · rename_i hne
            refine FirstBroken.tail (by simp) (FirstBroken.head ?_)
            simpa [hwitness] using hne
    · rw [if_neg hwitness]
      refine List.forall_mem_cons.mpr ⟨fun h => absurd h hwitness, ?_⟩
      exact List.forall_mem_singleton.mpr fun h => absurd h hwitness

/-! The height push is read twice, for its presence and for its value. -/

theorem bip34Height_eq (hb : b.txdata ≠ []) :
    bip34Height b =
      match coinbaseScript b with
      | none => .error (.decodeFailed "coinbase_has_no_input")
      | some script =>
          match decodeBip34Height script with
          | some height => .ok height
          | none => .error .coinbaseBip34Missing := by
  obtain ⟨coinbase, rest, hb⟩ := List.exists_cons_of_ne_nil hb
  cases hinput : coinbase.input with
  | nil => simp [bip34Height, coinbaseScript, hb, hinput]
  | cons input inputs =>
      cases hdecode : decodeBip34Height input.scriptSig with
      | none => simp [bip34Height, coinbaseScript, hb, hinput, hdecode]
      | some height => simp [bip34Height, coinbaseScript, hb, hinput, hdecode]

theorem reports_checkCoinbaseBip34Present (hb : b.txdata ≠ []) :
    Reports Rejection.reason
      [⟨(coinbaseScript b).isSome = true, .v2InvariantDecodeFailed⟩,
        ⟨((coinbaseScript b).bind decodeBip34Height).isSome = true,
          .v2InvariantCoinbaseBip34Missing⟩]
      (facadeCheck (checkCoinbaseBip34Present b)) := by
  rw [checkCoinbaseBip34Present, bip34Height_eq hb]
  cases hscript : coinbaseScript b with
  | none => exact FirstBroken.head (by simp)
  | some script =>
      dsimp only [Option.bind_some]
      cases decodeBip34Height script with
      | none => exact FirstBroken.tail (by simp) (FirstBroken.head (by simp))
      | some height =>
          refine List.forall_mem_cons.mpr ⟨by simp, ?_⟩
          exact List.forall_mem_singleton.mpr (by simp)

theorem reports_coinbaseHeightCheck (hb : b.txdata ≠ [])
    (hpresent : ((coinbaseScript b).bind decodeBip34Height).isSome = true) :
    Reports Rejection.reason
      [⟨(coinbaseScript b).bind decodeBip34Height = some t.blockHeight,
        .v2InvariantCoinbaseHeightMismatch⟩]
      (coinbaseHeightCheck t b) := by
  obtain ⟨height, hheight⟩ := Option.isSome_iff_exists.mp hpresent
  obtain ⟨script, hscript, hdecode⟩ := Option.bind_eq_some_iff.mp hheight
  rw [coinbaseHeightCheck, bip34Height_eq hb, hscript]
  simp only [hdecode]
  refine reports_ite ?_
  rw [not_not, Option.bind_some, hdecode, Option.some.injEq]

theorem reports_txCountCheck :
    Reports Rejection.reason
      [⟨min b.txdata.length u32Max - 1 = t.txCount.toNat,
        .v2InvariantTxCountMismatch⟩]
      (txCountCheck t b) := by
  rw [txCountCheck]
  exact reports_ite not_not

/-- The saturated floor exceeds a declared `u32` exactly when the true one
does. -/
theorem reports_sigopsFloorCheck (field : String) (reason : VerdictReason)
    (declared : Option UInt32) (txs : List Transaction) :
    Reports Rejection.reason
      [⟨∀ cost ∈ declared, 4 * legacySigops btc txs ≤ cost.toNat, reason⟩]
      (sigopsFloorCheck field reason declared (sumLegacySigops btc txs)) := by
  unfold sigopsFloorCheck
  split
  · exact List.forall_mem_singleton.mpr (by simp)
  · rename_i cost
    refine reports_ite ?_
    have hcost := cost.toNat_lt
    rw [sumLegacySigops_eq]
    simp only [Option.mem_def, Option.some.injEq, forall_eq']
    unfold u64Max u32Max
    omega

theorem reports_checkCoinbaseScriptLength (hb : b.txdata ≠ [])
    (hscript : (coinbaseScript b).isSome = true) :
    Reports Rejection.reason
      [⟨∃ script ∈ coinbaseScript b, 2 ≤ script.length ∧ script.length ≤ 100,
        .v2InvariantCoinbaseScriptLength⟩]
      (facadeCheck (checkCoinbaseScriptLength b)) := by
  obtain ⟨coinbase, rest, hb⟩ := List.exists_cons_of_ne_nil hb
  cases hinput : coinbase.input with
  | nil => simp [coinbaseScript, hb, hinput] at hscript
  | cons input inputs =>
      have hinScript : coinbaseScript b = some input.scriptSig := by
        simp [coinbaseScript, hb, hinput]
      simp only [checkCoinbaseScriptLength, hb, hinput]
      split
      · rename_i hlength
        refine List.forall_mem_singleton.mpr ?_
        exact ⟨input.scriptSig, hinScript, hlength⟩
      · rename_i hlength
        refine FirstBroken.head ?_
        rintro ⟨script, hmem, hbounds⟩
        cases hinScript.symm.trans hmem
        exact hlength hbounds

theorem reports_checkCoinbaseOutputCount (hb : b.txdata ≠ []) :
    Reports Rejection.reason
      [⟨∃ coinbase ∈ b.txdata.head?, coinbase.output ≠ [],
        .v2InvariantCoinbaseOutputCount⟩]
      (facadeCheck (checkCoinbaseOutputCount b)) := by
  obtain ⟨coinbase, rest, hb⟩ := List.exists_cons_of_ne_nil hb
  simp only [checkCoinbaseOutputCount, hb]
  refine reports_facadeCheck_ite ?_
  simp

theorem reports_checkWeightMax :
    Reports Rejection.reason
      [⟨btc.blockWeight b ≤ 4000000, .v2InvariantWeightExceedsMax⟩]
      (facadeCheck (checkWeightMax btc b)) := by
  rw [checkWeightMax]
  exact reports_facadeCheck_ite (by rw [not_lt, maxBlockWeightWu])

theorem reports_checkSigopsMax :
    Reports Rejection.reason
      [⟨4 * legacySigops btc b.txdata ≤ 80000, .v2InvariantSigopsExceedMax⟩]
      (facadeCheck (checkSigopsMax btc b)) := by
  rw [checkSigopsMax]
  refine reports_facadeCheck_ite ?_
  rw [totalSigops, sumLegacySigops_eq]
  unfold maxBlockSigopsCost witnessScaleFactor u64Max u32Max
  omega

theorem reports_checkCoinbaseValueMax (hb : b.txdata ≠ []) :
    Reports Rejection.reason
      [⟨coinbaseTotal b ≤ maxMoneySats, .v2InvariantCoinbaseValueExceedsMax⟩]
      (facadeCheck (checkCoinbaseValueMax b)) := by
  obtain ⟨coinbase, rest, hb⟩ := List.exists_cons_of_ne_nil hb
  rw [coinbaseTotal_cons hb]
  simp only [checkCoinbaseValueMax, hb]
  refine reports_facadeCheck ?_ ?_
  · constructor
    · intro h
      obtain ⟨total, htotal, hle⟩ := Result.bind_eq_ok.mp h
      have hsum := moneyLoop_eq_ok _ htotal
      split at hle
      · simp at hle
      · omega
    · intro hle
      rw [← Nat.zero_add (List.sum _)] at hle
      rw [moneyLoop_of_le _ hle]
      simp only [bind, Except.bind]
      rw [if_neg (by omega)]
  · intro v hv
    rcases Result.bind_eq_error.mp hv with hv | ⟨total, -, hv⟩
    · rw [moneyLoop_error _ hv]
      rfl
    · split at hv
      · cases hv
        rfl
      · simp at hv

theorem reports_checkNonCoinbaseNullPrevout :
    Reports Rejection.reason
      [⟨∀ tx ∈ b.txdata.drop 1, ∀ i ∈ tx.input,
        i.previousOutput ≠ OutPoint.null, .v2InvariantNontcbNullPrevout⟩]
      (facadeCheck (checkNonCoinbaseNullPrevout b)) := by
  rw [checkNonCoinbaseNullPrevout]
  refine reports_facadeCheck_ite ?_
  simp [OutPoint.isNull]

theorem reports_checkCoinbaseNullPrevout (hb : b.txdata ≠ []) :
    Reports Rejection.reason
      [⟨∃ coinbase ∈ b.txdata.head?, IsCoinbase coinbase,
        .v2InvariantCoinbasePrevoutNotNull⟩]
      (facadeCheck (checkCoinbaseNullPrevout b)) := by
  obtain ⟨coinbase, rest, hb⟩ := List.exists_cons_of_ne_nil hb
  simp only [checkCoinbaseNullPrevout, hb]
  refine reports_facadeCheck ?_ ?_
  · simp only [List.head?_cons, Option.mem_def, Option.some.injEq,
      exists_eq_left', IsCoinbase]
    split
    · rename_i input hinput
      simp [hinput, OutPoint.isNull]
    · rename_i hinput
      constructor
      · simp
      · rintro ⟨input, hsingle, -⟩
        exact absurd hsingle (hinput input)
  · intro v hv
    split at hv
    · split at hv
      · simp at hv
      · cases hv
        rfl
    · cases hv
      rfl

theorem reports_checkHeaderVersion :
    Reports Rejection.reason
      [⟨4 ≤ b.header.version, .v2InvariantHeaderVersionLow⟩]
      (facadeCheck (checkHeaderVersion b)) := by
  rw [checkHeaderVersion]
  exact reports_facadeCheck_ite (by rw [Int32.not_lt, headerVersionFloor])

theorem reports_checkDuplicateTx :
    Reports Rejection.reason
      [⟨(b.txdata.map btc.computeTxid).Nodup, .v2InvariantDuplicateTx⟩]
      (facadeCheck (checkDuplicateTx btc b)) := by
  rw [checkDuplicateTx]
  refine reports_facadeCheck_ite ?_
  rw [Bool.not_eq_true, duplicateLoop_eq_false]
  simp

/-! ## The pass reports the rules -/

theorem reports_tier3Checks (hb : b.txdata ≠ [])
    (hscript : (coinbaseScript b).isSome = true) :
    Reports Rejection.reason (tier3Rules btc b)
      (firstFailure (tier3Checks btc b)) := by
  refine .firstFailure_cons_one
    (reports_checkCoinbaseScriptLength hb hscript) fun _ => ?_
  refine .firstFailure_cons_one
    (reports_checkCoinbaseOutputCount hb) fun _ => ?_
  refine .firstFailure_cons_one reports_checkWeightMax fun _ => ?_
  refine .firstFailure_cons_one reports_checkSigopsMax fun _ => ?_
  refine .firstFailure_cons_one
    (reports_checkCoinbaseValueMax hb) fun _ => ?_
  refine .firstFailure_cons_one
    reports_checkNonCoinbaseNullPrevout fun _ => ?_
  refine .firstFailure_cons_one
    (reports_checkCoinbaseNullPrevout hb) fun _ => ?_
  refine .firstFailure_cons_one reports_checkHeaderVersion fun _ => ?_
  refine .firstFailure_cons_one reports_checkDuplicateTx fun _ => ?_
  exact Reports.firstFailure_nil

/-- The checks before the mempool check report the first broken rule. -/
theorem reports_phase1Checks (hbtc : btc.Lawful sha) {raw : Bytes}
    (hparse : btc.deserializeBlock raw = some b) :
    Reports Rejection.reason (shieldRules btc sha t b)
      (firstFailure (phase1Checks btc t sha raw b)) := by
  refine .firstFailure_cons (reports_coinbaseValueCheck hparse) fun hvalue => ?_
  obtain ⟨hb, -⟩ := List.forall_mem_cons.mp hvalue
  refine .firstFailure_cons_one reports_templateWeightCheck fun _ => ?_
  refine .firstFailure_cons_one
    (reports_checkMerkleRootInternal hbtc hb) fun _ => ?_
  refine .firstFailure_cons
    (reports_checkWitnessCommitmentInternal hbtc hb) fun _ => ?_
  refine .firstFailure_cons
    (reports_checkCoinbaseBip34Present hb) fun hbip34 => ?_
  obtain ⟨hscript, hrest⟩ := List.forall_mem_cons.mp hbip34
  have hpresent := List.forall_mem_singleton.mp hrest
  refine .firstFailure_cons_one reports_txCountCheck fun _ => ?_
  refine .firstFailure_cons_one
    (reports_sigopsFloorCheck _ _ _ _) fun _ => ?_
  refine .firstFailure_cons_one
    (reports_sigopsFloorCheck _ _ _ _) fun _ => ?_
  refine .firstFailure_cons_one
    (reports_coinbaseHeightCheck hb hpresent) fun _ => ?_
  exact reports_tier3Checks hb hscript

/-! ## The documented invariants are the rules -/

theorem four_le_length_encode (tx : Transaction) : 4 ≤ tx.encode.length := by
  rw [Transaction.encode]
  split
  · rw [Transaction.segwitEncode, List.length_append]
    exact Nat.le_add_right 4 _
  · rw [Transaction.legacyEncode, List.length_append]
    exact Nat.le_add_right 4 _

/-- The weight ceiling keeps the number of transactions far below `u32`. -/
theorem length_le_weight (b : Block) : b.txdata.length ≤ b.weight := by
  have hsum : b.txdata.length ≤
      (b.txdata.map fun tx => tx.encode.length).sum := by
    induction b.txdata with
    | nil => simp
    | cons tx txs ih =>
        have htx := four_le_length_encode tx
        rw [List.map_cons, List.sum_cons, List.length_cons]
        omega
  rw [Block.weight, Block.totalSize]
  omega

theorem conforms_iff (hbtc : btc.Lawful sha) :
    Conforms btc sha t b ↔ ∀ r ∈ shieldRules btc sha t b, r.holds := by
  have hcount := length_le_weight b
  rw [← hbtc.blockWeight_eq] at hcount
  have hmoney : maxMoneySats ≤ u64Max := by decide
  have hu32 : (4000000 : ℕ) < u32Max := by decide
  simp only [shieldRules, tier3Rules, List.forall_mem_cons, List.not_mem_nil,
    IsEmpty.forall_iff, implies_true, and_true]
  constructor
  · intro h
    obtain ⟨coinbase, hcoinbase, hshape⟩ := h.coinbaseFirst
    have hne : b.txdata ≠ [] := by
      intro hnil
      simp [hnil] at hcoinbase
    have hscript : (coinbaseScript b).isSome = true := by
      obtain ⟨script, hscript, -⟩ := h.scriptLength
      exact Option.isSome_of_mem hscript
    have hmax := h.coinbaseValueMax
    have hweight := h.weightMax
    have hlength := h.txCount
    exact ⟨hne, by omega, h.coinbaseValue, h.templateWeight, h.merkleRoot,
      h.witnessCommitmentPresent, h.witnessCommitment, hscript, h.bip34Present,
      by omega, h.totalSigops, h.coinbaseSigops, h.height, h.scriptLength,
      h.outputCount, h.weightMax, h.sigopsMax, h.coinbaseValueMax,
      h.nonCoinbasePrevout, h.coinbaseFirst, h.headerVersion, h.distinctTxids⟩
  · rintro ⟨hne, -, hvalue, htemplateWeight, hmerkle, hpresent, hcommitment, -,
      hbip34, htxCount, hsigops, hcbSigops, hheight, hlength, houtput, hweight,
      hsigopsMax, hmax, hprevout, hfirst, hversion, hdistinct⟩
    have hpos : 0 < b.txdata.length := List.length_pos_iff.mpr hne
    exact ⟨hmerkle, hpresent, hcommitment, hbip34, hheight, hvalue, hmax,
      htemplateWeight, by omega, hsigops, hcbSigops, hlength, houtput, hweight,
      hsigopsMax, hfirst, hprevout, hversion, hdistinct⟩

/-! ## The shield -/

/-- The pass over a block that parses ends in the mempool check exactly when
every rule holds, and otherwise names the first broken one. -/
theorem checkInvariantShieldInner_of_parses (hbtc : btc.Lawful sha)
    {hexStr : String} {raw : Bytes} (hhex : t.rawBlockHex = some hexStr)
    (hraw : hexDecode hexStr = .ok raw)
    (hparse : btc.deserializeBlock raw = some b)
    (mempool : Option (MempoolSnapshot × Float × Bool)) :
    ((∀ r ∈ shieldRules btc sha t b, r.holds) ∧
      checkInvariantShieldInner btc t sha mempool = classM btc b mempool) ∨
    ∃ reason detail, FirstBroken (shieldRules btc sha t b) reason ∧
      checkInvariantShieldInner btc t sha mempool =
        (.rejected reason detail, .notRun) := by
  have hreports := reports_phase1Checks (t := t) hbtc hparse
  cases hresult : firstFailure (phase1Checks btc t sha raw b) with
  | ok _ =>
      rw [hresult] at hreports
      refine .inl ⟨hreports, ?_⟩
      simp only [checkInvariantShieldInner, hhex, hraw, parseBlock, hparse,
        hresult]
  | error r =>
      rw [hresult] at hreports
      refine .inr ⟨r.reason, r.detail, hreports, ?_⟩
      simp only [checkInvariantShieldInner, hhex, hraw, parseBlock, hparse,
        hresult]

theorem checkInvariantShield_eq_skipped :
    checkInvariantShield btc t sha = .skipped ↔ t.rawBlockHex = none := by
  unfold checkInvariantShield checkInvariantShieldInner
  split
  · rename_i hnone
    simp [hnone]
  · rename_i hexStr hhex
    simp only [hhex, reduceCtorEq, iff_false]
    split
    · simp
    · split
      · simp
      · split <;> simp [classM]

theorem parses_of_checkInvariantShield_eq_agreed
    (h : checkInvariantShield btc t sha = .agreed) :
    ∃ hexStr raw b, t.rawBlockHex = some hexStr ∧
      hexDecode hexStr = .ok raw ∧ btc.deserializeBlock raw = some b := by
  unfold checkInvariantShield checkInvariantShieldInner at h
  split at h
  · simp at h
  · rename_i hexStr hhex
    split at h
    · simp at h
    · rename_i raw hraw
      cases hparse : btc.deserializeBlock raw with
      | none => simp [parseBlock, hparse] at h
      | some b => exact ⟨hexStr, raw, b, hhex, hraw, hparse⟩

/-- The shield agrees exactly with the blocks that parse and conform. -/
theorem checkInvariantShield_eq_agreed (hbtc : btc.Lawful sha) :
    checkInvariantShield btc t sha = .agreed ↔
      ∃ hexStr raw b, t.rawBlockHex = some hexStr ∧
        hexDecode hexStr = .ok raw ∧ btc.deserializeBlock raw = some b ∧
        Conforms btc sha t b := by
  constructor
  · intro h
    obtain ⟨hexStr, raw, b, hhex, hraw, hparse⟩ :=
      parses_of_checkInvariantShield_eq_agreed h
    refine ⟨hexStr, raw, b, hhex, hraw, hparse, ?_⟩
    rw [conforms_iff hbtc]
    rcases checkInvariantShieldInner_of_parses hbtc hhex hraw hparse none with
      ⟨hall, -⟩ | ⟨reason, detail, -, hrejected⟩
    · exact hall
    · rw [checkInvariantShield, hrejected] at h
      simp at h
  · rintro ⟨hexStr, raw, b, hhex, hraw, hparse, hconforms⟩
    rw [conforms_iff hbtc] at hconforms
    rcases checkInvariantShieldInner_of_parses hbtc hhex hraw hparse none with
      ⟨-, hclassM⟩ | ⟨reason, detail, hbroken, -⟩
    · rw [checkInvariantShield, hclassM]
      rfl
    · exact absurd hconforms hbroken.not_all

/-- The shield is skipped exactly without a raw block, agrees exactly with the
blocks that parse and conform, and names the first broken rule of any other
block that parses. -/
theorem checkInvariantShield_sound_complete (hbtc : btc.Lawful sha)
    (t : TemplatePropose) :
    (checkInvariantShield btc t sha = .skipped ↔ t.rawBlockHex = none) ∧
    (checkInvariantShield btc t sha = .agreed ↔
      ∃ hexStr raw b, t.rawBlockHex = some hexStr ∧
        hexDecode hexStr = .ok raw ∧ btc.deserializeBlock raw = some b ∧
        Conforms btc sha t b) ∧
    ∀ hexStr raw b reason detail, t.rawBlockHex = some hexStr →
      hexDecode hexStr = .ok raw → btc.deserializeBlock raw = some b →
      checkInvariantShield btc t sha = .rejected reason detail →
      FirstBroken (shieldRules btc sha t b) reason := by
  refine ⟨checkInvariantShield_eq_skipped, checkInvariantShield_eq_agreed hbtc,
    ?_⟩
  intro hexStr raw b reason detail hhex hraw hparse h
  rcases checkInvariantShieldInner_of_parses hbtc hhex hraw hparse none with
    ⟨-, hclassM⟩ | ⟨reason', detail', hbroken, hrejected⟩
  · rw [checkInvariantShield, hclassM] at h
    simp [classM] at h
  · rw [checkInvariantShield, hrejected] at h
    cases h
    exact hbroken

end

/-! ## A block with a witness -/

/-- A transaction that spends with a witness and pays to a key hash. -/
def witnessSpend : Transaction where
  version := 2
  input := [⟨⟨Bytes32.fill 6, 0⟩, [], 0xffffffff, [[0x30], List.replicate 33 0x02]⟩]
  output := [⟨50000, [0x76, 0xa9, 0x14] ++ List.replicate 20 0x33 ++ [0x88, 0xac]⟩]
  lockTime := 0

/-- One that spends without. -/
def legacySpend : Transaction where
  version := 1
  input := [⟨⟨Bytes32.fill 5, 1⟩, [0x51], 0xffffffff, []⟩]
  output := [⟨1000, [0x51]⟩]
  lockTime := 0

/-- The script of the commitment to the two, for the zero reserved value. -/
def spendsCommitment : Bytes :=
  commitmentHeader ++
    [0x5a, 0x34, 0x1d, 0xe2, 0x47, 0xee, 0x9e, 0x6f,
     0x7e, 0xa9, 0x83, 0xe3, 0x9b, 0x14, 0x49, 0x98,
     0x21, 0xb7, 0x6c, 0x48, 0xf4, 0x8c, 0x0f, 0xc4,
     0x91, 0xdf, 0x3b, 0x95, 0x82, 0x6a, 0x1a, 0xfb]

/-- A coinbase at height 840000. -/
def spendsCoinbase : Transaction where
  version := 2
  input := [⟨OutPoint.null, [0x03, 0x40, 0xd1, 0x0c] ++ List.replicate 8 0x00,
    0xffffffff, [Bytes32.zero.toBytes]⟩]
  output := [⟨312502500, [0x51]⟩, ⟨0, spendsCommitment⟩]
  lockTime := 0

def spendsRoot : Bytes32 :=
  ⟨[0x97, 0x5c, 0x63, 0x19, 0xdd, 0xad, 0xe5, 0x90,
    0x8e, 0xde, 0x87, 0x5c, 0x80, 0x9a, 0x6a, 0x91,
    0xed, 0x27, 0x45, 0x5b, 0x22, 0x26, 0x47, 0xa0,
    0xac, 0xe6, 0x03, 0x72, 0x6a, 0x67, 0x09, 0x57], rfl⟩

def spendsBlock : Block where
  header :=
    { version := 0x20000000
      prevBlockhash := Bytes32.fill 9
      merkleRoot := spendsRoot
      time := 1713571767
      bits := 0x17034219
      nonce := 0 }
  txdata := [spendsCoinbase, witnessSpend, legacySpend]

/-- A proposal of the block for some height. -/
def spendsTemplate (blockHeight : UInt32) : TemplatePropose where
  version := protocolVersion
  id := 7
  blockHeight := blockHeight
  prevHash := hexEncode (Bytes32.fill 9).toBytes
  coinbaseValue := 312502500
  txCount := 2
  totalFees := 2500
  totalSigops := some 4
  coinbaseSigops := some 0
  rawBlockHex := some (hexEncode (block.encode spendsBlock))

theorem deserializeBlock_spendsBlock :
    (RustBitcoin.reference sha256).deserializeBlock (block.encode spendsBlock) =
      some spendsBlock := by
  decide +kernel

/-- At its own height the block keeps every invariant. -/
theorem spendsBlock_conforms :
    Conforms (RustBitcoin.reference sha256) sha256 (spendsTemplate 840000)
      spendsBlock where
  merkleRoot := by decide +kernel
  witnessCommitmentPresent := by decide +kernel
  witnessCommitment := by decide +kernel
  bip34Present := by decide +kernel
  height := by decide +kernel
  coinbaseValue := by decide
  coinbaseValueMax := by decide
  templateWeight := by simp [spendsTemplate]
  txCount := by decide
  totalSigops := by
    intro declared hdeclared
    obtain rfl := Option.some.inj hdeclared
    decide +kernel
  coinbaseSigops := by
    intro declared hdeclared
    obtain rfl := Option.some.inj hdeclared
    decide +kernel
  scriptLength := ⟨_, rfl, by decide, by decide⟩
  outputCount := ⟨_, rfl, by decide⟩
  weightMax := by decide +kernel
  sigopsMax := by decide +kernel
  coinbaseFirst := ⟨_, rfl, _, rfl, rfl⟩
  nonCoinbasePrevout := by decide
  headerVersion := by decide
  distinctTxids := by decide +kernel

theorem hexDecode_spendsTemplate :
    hexDecode (hexEncode (block.encode spendsBlock)) = .ok (block.encode spendsBlock) :=
  hexDecode_hexEncode _

/-- Another declared height changes one rule. -/
theorem shieldRules_spendsTemplate (blockHeight : UInt32) :
    shieldRules (RustBitcoin.reference sha256) sha256 (spendsTemplate blockHeight)
        spendsBlock =
      (shieldRules (RustBitcoin.reference sha256) sha256 (spendsTemplate 840000)
        spendsBlock).set 12
          ⟨(coinbaseScript spendsBlock).bind decodeBip34Height = some blockHeight,
            .v2InvariantCoinbaseHeightMismatch⟩ := rfl

theorem firstBroken_spendsTemplate {blockHeight : UInt32} {reason : VerdictReason}
    (h : FirstBroken (shieldRules (RustBitcoin.reference sha256) sha256
      (spendsTemplate blockHeight) spendsBlock) reason) :
    reason = .v2InvariantCoinbaseHeightMismatch := by
  obtain ⟨before, rule, after, hrules, -, hnot, rfl⟩ := h
  have hmem : rule ∈ shieldRules (RustBitcoin.reference sha256) sha256
      (spendsTemplate blockHeight) spendsBlock := by
    rw [hrules]
    exact List.mem_append_right _ List.mem_cons_self
  rw [shieldRules_spendsTemplate] at hmem
  rcases List.mem_or_eq_of_mem_set hmem with hold | rfl
  · have hall := (conforms_iff (RustBitcoin.reference_lawful sha256)).mp
      spendsBlock_conforms
    exact absurd (hall rule hold) hnot
  · rfl

/-- A block with a witness and its commitment that is proposed for the height
after its own: the height is the first rule it breaks. -/
theorem checkInvariantShield_sound_complete_otherHeight :
    ∃ detail, checkInvariantShield (RustBitcoin.reference sha256)
        (spendsTemplate 840001) sha256 =
          .rejected .v2InvariantCoinbaseHeightMismatch detail ∧
      FirstBroken (shieldRules (RustBitcoin.reference sha256) sha256
        (spendsTemplate 840001) spendsBlock) .v2InvariantCoinbaseHeightMismatch := by
  obtain ⟨-, hagreed, hrejects⟩ := checkInvariantShield_sound_complete
    (RustBitcoin.reference_lawful sha256) (spendsTemplate 840001)
  cases hshield : checkInvariantShield (RustBitcoin.reference sha256)
      (spendsTemplate 840001) sha256 with
  | skipped =>
      have hnone := checkInvariantShield_eq_skipped.mp hshield
      cases hnone
  | agreed =>
      obtain ⟨hexStr, raw, b, hhex, hraw, hparse, hconforms⟩ := hagreed.mp hshield
      obtain rfl := Option.some.inj hhex
      obtain rfl := Except.ok.inj (hexDecode_spendsTemplate.symm.trans hraw)
      obtain rfl := Option.some.inj (deserializeBlock_spendsBlock.symm.trans hparse)
      exact absurd (hconforms.height.symm.trans spendsBlock_conforms.height) (by decide)
  | rejected reason detail =>
      have hbroken := hrejects _ _ _ reason detail rfl hexDecode_spendsTemplate
        deserializeBlock_spendsBlock hshield
      cases firstBroken_spendsTemplate hbroken
      exact ⟨detail, rfl, hbroken⟩

end ReserveGrid.Verifier
