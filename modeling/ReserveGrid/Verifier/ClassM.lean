import ReserveGrid.Verifier.Policy

/-!
# The mempool check is additive

The mempool check is the last stage of an evaluation. It leaves every rejection
of an earlier stage as it was and turns an acceptance, at most, into the one
rejection that its attribution names.
-/

namespace ReserveGrid.Verifier

open Support Bitcoin Consensus Protocol

variable {btc : RustBitcoin} {sha : Bytes → Bytes32} {t : TemplatePropose}
  {b : Block} {raw : Bytes}

/-! ## No earlier check gives the mempool reason -/

/-- The result is no violation of the mempool tolerance. -/
def NotClassM {α : Type} (result : Except ConsensusViolation α) : Prop :=
  ∀ unknownCount total,
    result ≠ .error (.mempoolToleranceExceeded unknownCount total)

/-- A check whose rejection, if any, has another reason than the mempool
tolerance. -/
def PlainCheck (check : Except Rejection Unit) : Prop :=
  ∀ r, check = .error r → r.reason ≠ .v2InvariantMempoolToleranceExceeded

theorem rejectionOf_reason_ne {v : ConsensusViolation}
    (h : ∀ unknownCount total, v ≠ .mempoolToleranceExceeded unknownCount total) :
    (rejectionOf v).reason ≠ .v2InvariantMempoolToleranceExceeded := by
  cases v with
  | mempoolToleranceExceeded unknownCount total =>
      exact absurd rfl (h unknownCount total)
  | _ => simp [rejectionOf, consensusViolationToVerdictReason]

theorem plainCheck_facadeCheck {α : Type}
    {result : Except ConsensusViolation α} (h : NotClassM result) :
    PlainCheck (facadeCheck result) := by
  intro r hr
  unfold facadeCheck at hr
  split at hr
  · simp at hr
  · cases hr
    refine rejectionOf_reason_ne ?_
    rintro unknownCount total rfl
    exact h unknownCount total rfl

theorem plainCheck_sigopsFloorCheck {field : String} {reason : VerdictReason}
    {declared : Option UInt32} {legacy : ℕ}
    (h : reason ≠ .v2InvariantMempoolToleranceExceeded) :
    PlainCheck (sigopsFloorCheck field reason declared legacy) := by
  intro r hr
  unfold sigopsFloorCheck at hr
  split at hr
  · simp at hr
  · dsimp only at hr
    split at hr
    · cases hr
      exact h
    · simp at hr

theorem notClassM_bind {α β : Type} {x : Except ConsensusViolation α}
    {f : α → Except ConsensusViolation β} (hx : NotClassM x)
    (hf : ∀ a, NotClassM (f a)) :
    NotClassM (x.bind f) := by
  intro unknownCount total h
  rcases Result.bind_eq_error.mp h with h | ⟨a, -, h⟩
  · exact hx unknownCount total h
  · exact hf a unknownCount total h

theorem notClassM_reDeriveCoinbaseValue :
    NotClassM (reDeriveCoinbaseValue btc raw) := by
  refine notClassM_bind ?_ fun b => ?_
  · grind [NotClassM, parseBlock]
  · grind [NotClassM]

theorem notClassM_bip34Height : NotClassM (bip34Height b) := by
  grind [NotClassM, bip34Height]

theorem notClassM_checkCoinbaseValueMax :
    NotClassM (checkCoinbaseValueMax b) := by
  unfold checkCoinbaseValueMax
  split
  · grind [NotClassM]
  · refine notClassM_bind ?_ fun total => ?_
    · intro unknownCount total h
      cases moneyLoop_error _ h
    · grind [NotClassM]

theorem plainCheck_tier3Checks :
    ∀ check ∈ tier3Checks btc b, PlainCheck check := by
  have hfacade : ∀ result ∈ [checkCoinbaseScriptLength b,
      checkCoinbaseOutputCount b, checkWeightMax btc b, checkSigopsMax btc b,
      checkCoinbaseValueMax b, checkNonCoinbaseNullPrevout b,
      checkCoinbaseNullPrevout b, checkHeaderVersion b, checkDuplicateTx btc b],
      NotClassM result := by
    simp only [List.forall_mem_cons, List.not_mem_nil, IsEmpty.forall_iff,
      implies_true, and_true]
    refine ⟨?_, ?_, ?_, ?_, ?_, ?_, ?_, ?_, ?_⟩
    · grind [NotClassM, checkCoinbaseScriptLength]
    · grind [NotClassM, checkCoinbaseOutputCount]
    · grind [NotClassM, checkWeightMax]
    · grind [NotClassM, checkSigopsMax]
    · exact notClassM_checkCoinbaseValueMax
    · grind [NotClassM, checkNonCoinbaseNullPrevout]
    · grind [NotClassM, checkCoinbaseNullPrevout]
    · grind [NotClassM, checkHeaderVersion]
    · grind [NotClassM, checkDuplicateTx]
  intro check hcheck
  obtain ⟨result, hresult, rfl⟩ := List.mem_map.mp hcheck
  exact plainCheck_facadeCheck (hfacade result hresult)

theorem plainCheck_phase1Checks :
    ∀ check ∈ phase1Checks btc t sha raw b, PlainCheck check := by
  simp only [phase1Checks, List.forall_mem_cons]
  refine ⟨?_, ?_, ?_, ?_, ?_, ?_, ?_, ?_, ?_, plainCheck_tier3Checks⟩
  · intro r hr
    unfold coinbaseValueCheck at hr
    split at hr
    · rename_i v hv
      cases hr
      refine rejectionOf_reason_ne ?_
      rintro unknownCount total rfl
      exact notClassM_reDeriveCoinbaseValue unknownCount total hv
    · grind
  · grind [PlainCheck, templateWeightCheck]
  · refine plainCheck_facadeCheck ?_
    grind [NotClassM, checkMerkleRootInternal]
  · refine plainCheck_facadeCheck ?_
    grind [NotClassM, checkWitnessCommitmentInternal]
  · refine plainCheck_facadeCheck ?_
    intro unknownCount total h
    exact notClassM_bip34Height unknownCount total (Result.map_eq_error.mp h)
  · grind [PlainCheck, txCountCheck]
  · exact plainCheck_sigopsFloorCheck (by decide)
  · exact plainCheck_sigopsFloorCheck (by decide)
  · intro r hr
    unfold coinbaseHeightCheck at hr
    split at hr
    · rename_i v hv
      cases hr
      refine rejectionOf_reason_ne ?_
      rintro unknownCount total rfl
      exact notClassM_bip34Height unknownCount total hv
    · grind

/-! ## The last check of the shield -/

/-- The pass with a mempool view ends like the one without, in another outcome
than agreement and without the mempool check, or every earlier check passed and
the mempool check decides. -/
theorem checkInvariantShieldInner_cases (btc : RustBitcoin)
    (sha : Bytes → Bytes32) (t : TemplatePropose) :
    (∀ mempool, checkInvariantShieldInner btc t sha mempool =
      (.skipped, .notRun)) ∨
    (∃ reason detail, reason ≠ .v2InvariantMempoolToleranceExceeded ∧
      ∀ mempool, checkInvariantShieldInner btc t sha mempool =
        (.rejected reason detail, .notRun)) ∨
    ∃ hexStr raw b, t.rawBlockHex = some hexStr ∧
      hexDecode hexStr = .ok raw ∧ btc.deserializeBlock raw = some b ∧
      ∀ mempool, checkInvariantShieldInner btc t sha mempool =
        classM btc b mempool := by
  unfold checkInvariantShieldInner
  cases hhex : t.rawBlockHex with
  | none => exact .inl fun _ => rfl
  | some hexStr =>
      refine .inr ?_
      dsimp only
      cases hraw : hexDecode hexStr with
      | error e => exact .inl ⟨_, _, by decide, fun _ => rfl⟩
      | ok raw =>
          dsimp only [parseBlock]
          cases hparse : btc.deserializeBlock raw with
          | none => exact .inl ⟨_, _, by decide, fun _ => rfl⟩
          | some b =>
              dsimp only
              cases hchecks : firstFailure (phase1Checks btc t sha raw b) with
              | error r =>
                  have hmem := mem_of_firstFailure_eq_error hchecks
                  refine .inl ⟨r.reason, r.detail, ?_, fun _ => rfl⟩
                  exact plainCheck_phase1Checks _ hmem r rfl
              | ok _ =>
                  exact .inr ⟨hexStr, raw, b, rfl, hraw, hparse, fun _ => rfl⟩

/-- The detail of a Class M rejection. -/
def classMDetail (perTxDetail : Bool) (unknown : List Bytes32)
    (total : UInt32) : String :=
  formatMempoolToleranceDetailBounded (u32TryFrom unknown.length) total
    (unknown.take (if perTxDetail then unknown.length
      else min unknown.length sampleUnknownCap))

/-- The mempool check agrees and attributes no rejection, or rejects with the
txids that the view does not hold. -/
theorem classM_cases (btc : RustBitcoin) (b : Block)
    (snapshot : MempoolSnapshot) (tolerancePct : Float) (perTxDetail : Bool) :
    (∃ phase2, classM btc b (some (snapshot, tolerancePct, perTxDetail)) =
        (.agreed, phase2) ∧ ∀ unknown total, phase2 ≠ .rejected unknown total) ∨
    ∃ total, classM btc b (some (snapshot, tolerancePct, perTxDetail)) =
      (.rejected .v2InvariantMempoolToleranceExceeded
        (classMDetail perTxDetail
          (unknownTxids snapshot (templateTxids btc b)) total),
        .rejected (unknownTxids snapshot (templateTxids btc b)) total) := by
  unfold classM
  dsimp only
  cases houtcome : evaluate snapshot (templateTxids btc b) tolerancePct with
  | agreed unknownCount total => exact .inl ⟨_, rfl, by simp⟩
  | stale ageSecs => exact .inl ⟨_, rfl, by simp⟩
  | skipped =>
      refine .inl ⟨_, rfl, ?_⟩
      intro unknown total
      split <;> simp
  | toleranceExceeded unknown total =>
      obtain ⟨rfl, -, -⟩ := evaluate_eq_toleranceExceeded houtcome
      exact .inr ⟨total, rfl⟩

/-! ## Two evaluations of one template -/

/-- How an evaluation with a snapshot relates to the one without. -/
structure Additive (btc : RustBitcoin) (t : TemplatePropose)
    (cfg : PolicyConfig) (snapshot : MempoolSnapshot)
    (phase1 phase2 : EvalResult) : Prop where
  /-- A rejection stands, with everything else in the result. -/
  rejection : phase1.reason ≠ none → phase2 = phase1
  /-- An acceptance stands, or becomes the Class M rejection. -/
  acceptance : phase1.reason = none →
    phase2 = { phase1 with phase2 := phase2.phase2 } ∨
    ∃ unknown total, phase2 =
      { phase1 with
        reason := some .v2InvariantMempoolToleranceExceeded
        detail := some (classMDetail cfg.mempool.perTxDetail unknown total)
        phase2 := .rejected unknown total }
  /-- The attribution names that rejection alone. -/
  attribution : (∃ unknown total, phase2.phase2 = .rejected unknown total) ↔
    phase2.reason = some .v2InvariantMempoolToleranceExceeded
  /-- It lists the template's txids the snapshot does not hold, in block
  order. -/
  unknown : ∀ unknown total, phase2.phase2 = .rejected unknown total →
    ∃ hexStr raw b, t.rawBlockHex = some hexStr ∧
      hexDecode hexStr = .ok raw ∧ btc.deserializeBlock raw = some b ∧
      unknown = (templateTxids btc b).filter (· ∉ snapshot.txids)

theorem additive_self {cfg : PolicyConfig} {snapshot : MempoolSnapshot}
    {r : EvalResult} (hphase2 : r.phase2 = .notRun)
    (hreason : r.reason ≠ some .v2InvariantMempoolToleranceExceeded) :
    Additive btc t cfg snapshot r r where
  rejection _ := rfl
  acceptance _ := .inl rfl
  attribution := by simp [hphase2, hreason]
  unknown := by simp [hphase2]

/-- The shield stage of a pass with a known end. -/
theorem shieldStage_of_rejected (cfg : PolicyConfig)
    (snapshot : Option MempoolSnapshot) {feeTier : FeeTier}
    {minAvgFeeUsed : UInt64} {warnings : List SafetyWarning}
    {reason : VerdictReason} {detail : String} {phase2 : Phase2Attribution}
    (h : checkInvariantShieldInner btc t sha (snapshot.map fun snap =>
      (snap, cfg.mempool.tolerancePct, cfg.mempool.perTxDetail)) =
        (.rejected reason detail, phase2)) :
    shieldStage btc sha t cfg snapshot feeTier minAvgFeeUsed warnings =
      ⟨some reason, some detail, feeTier, minAvgFeeUsed, warnings, false,
        phase2⟩ := by
  simp only [shieldStage, h]

theorem shieldStage_of_agreed (cfg : PolicyConfig)
    (snapshot : Option MempoolSnapshot) {feeTier : FeeTier}
    {minAvgFeeUsed : UInt64} {warnings : List SafetyWarning}
    {phase2 : Phase2Attribution}
    (h : checkInvariantShieldInner btc t sha (snapshot.map fun snap =>
      (snap, cfg.mempool.tolerancePct, cfg.mempool.perTxDetail)) =
        (.agreed, phase2)) :
    shieldStage btc sha t cfg snapshot feeTier minAvgFeeUsed warnings =
      ⟨none, none, feeTier, minAvgFeeUsed, warnings, false, phase2⟩ := by
  simp [shieldStage, h]

theorem shieldStage_of_skipped (cfg : PolicyConfig)
    (snapshot : Option MempoolSnapshot) {feeTier : FeeTier}
    {minAvgFeeUsed : UInt64} {warnings : List SafetyWarning}
    {phase2 : Phase2Attribution}
    (h : checkInvariantShieldInner btc t sha (snapshot.map fun snap =>
      (snap, cfg.mempool.tolerancePct, cfg.mempool.perTxDetail)) =
        (.skipped, phase2)) :
    shieldStage btc sha t cfg snapshot feeTier minAvgFeeUsed warnings =
      ⟨none, none, feeTier, minAvgFeeUsed, warnings, true, phase2⟩ := by
  simp [shieldStage, h]

theorem additive_shieldStage (cfg : PolicyConfig) (snapshot : MempoolSnapshot)
    (feeTier : FeeTier) (minAvgFeeUsed : UInt64)
    (warnings : List SafetyWarning) :
    Additive btc t cfg snapshot
      (shieldStage btc sha t cfg none feeTier minAvgFeeUsed warnings)
      (shieldStage btc sha t cfg (some snapshot) feeTier minAvgFeeUsed
        warnings) := by
  rcases checkInvariantShieldInner_cases btc sha t with
    hskipped | ⟨reason, detail, hne, hrejected⟩ |
      ⟨hexStr, raw, b, hhex, hraw, hparse, hclassM⟩
  · rw [shieldStage_of_skipped cfg _ (hskipped _),
      shieldStage_of_skipped cfg _ (hskipped _)]
    exact additive_self rfl (by simp)
  · rw [shieldStage_of_rejected cfg _ (hrejected _),
      shieldStage_of_rejected cfg _ (hrejected _)]
    exact additive_self rfl (by simpa using hne)
  · rw [shieldStage_of_agreed cfg none (hclassM none)]
    rcases classM_cases btc b snapshot cfg.mempool.tolerancePct
      cfg.mempool.perTxDetail with ⟨phase2, hagreed, hnot⟩ | ⟨total, hrejected⟩
    · rw [shieldStage_of_agreed cfg (some snapshot) ((hclassM _).trans hagreed)]
      exact
        { rejection := by simp
          acceptance := fun _ => .inl rfl
          attribution := by simpa using hnot
          unknown := fun unknown total h => absurd h (hnot unknown total) }
    · rw [shieldStage_of_rejected cfg (some snapshot)
        ((hclassM _).trans hrejected)]
      exact
        { rejection := by simp
          acceptance := fun _ => .inr ⟨_, total, rfl⟩
          attribution := by simp
          unknown := by
            rintro unknown total' ⟨⟩
            exact ⟨hexStr, raw, b, hhex, hraw, hparse, rfl⟩ }

/-- The mempool check is strictly additive, for every template, configuration,
clock, mempool depth and snapshot. -/
theorem evaluateDynamicPhase2_additive (btc : RustBitcoin)
    (sha : Bytes → Bytes32) (t : TemplatePropose) (cfg : PolicyConfig)
    (snapshot : MempoolSnapshot) (mempoolTx : Option UInt64) (nowMs : UInt64) :
    Additive btc t cfg snapshot
      (evaluateDynamic btc sha t cfg mempoolTx nowMs)
      (evaluateDynamicPhase2 btc sha t cfg (some snapshot) mempoolTx nowMs) := by
  unfold evaluateDynamic evaluateDynamicPhase2
  rcases evaluateDynamicInner_cases btc sha t cfg mempoolTx nowMs with
    ⟨r, hplain, heval⟩ | ⟨warnings, -, heval⟩
  · obtain ⟨reason, hreason, hne⟩ := hplain.reason
    rw [heval, heval]
    exact additive_self hplain.phase2 (by simpa [hreason] using hne)
  · rw [heval, heval]
    exact additive_shieldStage cfg snapshot _ _ warnings

end ReserveGrid.Verifier
