import ReserveGrid.Verifier.ClassM

/-!
# Ingress: from a proposal to a verdict

Ingress reads the policy, evaluates the proposal, puts a Class M rejection to
bitcoind and answers with a verdict. A poisoned policy lock rejects.
-/

namespace ReserveGrid.Verifier

open Support Bitcoin Consensus Protocol

/-- How bitcoind is asked about the unknown transactions of a template at a
height. -/
abbrev SecondChance := UInt32 → List Bytes32 →
  Except SecondChanceError BitcoindAnswer

/-- A lookup that gave no adjudication. -/
def lookupFailed (total unknownBefore unadjudicated : UInt32)
    (reason : SecondChanceError) : SecondChanceOutcome :=
  .lookupFailed total unknownBefore reason.message reason.asLabel unadjudicated

/-- Put a Class M rejection to bitcoind. There is nothing to do without such a
rejection or without a bitcoind to ask. -/
def runSecondChance (lookup : Option SecondChance) (phase2 : Phase2Attribution)
    (templateHeight : UInt32) (tolerancePct : Float) :
    Option SecondChanceOutcome :=
  match phase2, lookup with
  | .rejected unknown total, some ask =>
      let unknownBefore := u32TryFrom unknown.length
      match ask templateHeight unknown with
      | .error e => some (lookupFailed total unknownBefore 0 e)
      | .ok answer =>
          let adjudication := adjudicate total unknown answer
          if ¬ adjudication.stillExceeds tolerancePct then
            some (.withdrawn adjudication)
          else if 0 < adjudication.unadjudicated then
            some (lookupFailed total unknownBefore adjudication.unadjudicated
              (.mempoolProbeIncomplete
                (toString adjudication.unadjudicated ++ " of " ++
                  toString unknownBefore ++
                  " unknown transactions had no usable probe answer")))
          else
            match answer.blockWalkShortfall with
            | some shortfall =>
                some (lookupFailed total unknownBefore adjudication.unadjudicated
                  (.blockWalkIncomplete shortfall))
            | none => some (.upheld adjudication)
  | _, _ => none

/-- A withdrawn rejection is cleared together with its detail. -/
def withdraw (eval : EvalResult) : Option SecondChanceOutcome → EvalResult
  | some (.withdrawn _) => { eval with reason := none, detail := none }
  | _ => eval

/-- What ingress reads besides the proposal: the policy, unless its lock is
poisoned, the depth of the mempool, the clock, the mempool view and the way to
bitcoind. -/
structure IngressContext where
  policy : Option PolicyConfig
  mempoolTxCount : Option UInt64
  nowMs : UInt64
  mempoolSnap : Option MempoolSnapshot
  secondChance : Option SecondChance

section

variable (btc : RustBitcoin) (sha : Bytes → Bytes32)

/-- The evaluation before the second chance. -/
def evaluatePropose (ctx : IngressContext) (cfg : PolicyConfig)
    (propose : TemplatePropose) : EvalResult :=
  match ctx.mempoolSnap with
  | some snap =>
      evaluateDynamicPhase2 btc sha propose cfg (some snap) ctx.mempoolTxCount
        ctx.nowMs
  | none => evaluateDynamic btc sha propose cfg ctx.mempoolTxCount ctx.nowMs

/-- What the second chance did to the evaluation. -/
def secondChanceOf (ctx : IngressContext) (cfg : PolicyConfig)
    (propose : TemplatePropose) : Option SecondChanceOutcome :=
  runSecondChance ctx.secondChance (evaluatePropose btc sha ctx cfg propose).phase2
    propose.blockHeight cfg.mempool.tolerancePct

/-- The verdict sent for a proposal. -/
def verdictFor (ctx : IngressContext) (propose : TemplatePropose) :
    TemplateVerdict :=
  match ctx.policy with
  | none =>
      { version := protocolVersion
        id := propose.id
        accepted := false
        reasonCode := some .policyLoadError
        reasonDetail := some "policy lock poisoned"
        policyContext := none }
  | some cfg =>
      let eval := withdraw (evaluatePropose btc sha ctx cfg propose)
        (secondChanceOf btc sha ctx cfg propose)
      { version := protocolVersion
        id := propose.id
        accepted := eval.reason.isNone
        reasonCode := eval.reason
        reasonDetail := eval.detail
        policyContext := some
          { feeTier := some eval.feeTier.asStr
            minAvgFeeUsed := some eval.minAvgFeeUsed
            minTotalFeesUsed := some cfg.minTotalFees
            rejectCoinbaseZero := some cfg.rejectCoinbaseZero
            unknownMempoolAsHigh := some cfg.unknownMempoolAsHigh
            maxWeightRatio := some cfg.safety.maxWeightRatio
            maxTemplateAgeMs := cfg.safety.maxTemplateAgeMs } }

end

/-! ## Accepting verdicts -/

variable {btc : RustBitcoin} {sha : Bytes → Bytes32}

theorem evaluatePropose_eq (ctx : IngressContext) (cfg : PolicyConfig)
    (propose : TemplatePropose) :
    evaluatePropose btc sha ctx cfg propose =
      evaluateDynamicInner btc sha propose cfg ctx.mempoolSnap
        ctx.mempoolTxCount ctx.nowMs := by
  unfold evaluatePropose
  split <;> simp_all [evaluateDynamic, evaluateDynamicPhase2]

/-- The second chance withdraws Class M rejections only. -/
theorem runSecondChance_eq_withdrawn {lookup : Option SecondChance}
    {phase2 : Phase2Attribution} {templateHeight : UInt32} {tolerancePct : Float}
    {adjudication : Adjudication}
    (h : runSecondChance lookup phase2 templateHeight tolerancePct =
      some (.withdrawn adjudication)) :
    ∃ unknown total, phase2 = .rejected unknown total := by
  unfold runSecondChance at h
  split at h
  · exact ⟨_, _, rfl⟩
  · simp at h

theorem runSecondChance_of_within {ask : SecondChance} {unknown : List Bytes32}
    {total height : UInt32} {tolerancePct : Float} {answer : BitcoindAnswer}
    (hask : ask height unknown = .ok answer)
    (h : (adjudicate total unknown answer).stillExceeds tolerancePct = false) :
    runSecondChance (some ask) (.rejected unknown total) height tolerancePct =
      some (.withdrawn (adjudicate total unknown answer)) := by
  simp only [runSecondChance, hask]
  rw [if_pos]
  rw [h]
  exact Bool.false_ne_true

theorem classM_agrees_or_rejects (btc : RustBitcoin) (b : Block)
    (mempool : Option (MempoolSnapshot × Float × Bool)) :
    (∃ phase2, classM btc b mempool = (.agreed, phase2) ∧
      ∀ unknown total, phase2 ≠ .rejected unknown total) ∨
    ∃ detail unknown total, classM btc b mempool =
      (.rejected .v2InvariantMempoolToleranceExceeded detail,
        .rejected unknown total) := by
  rcases mempool with _ | ⟨snapshot, tolerancePct, perTxDetail⟩
  · exact .inl ⟨.notRun, rfl, by simp⟩
  · rcases classM_cases btc b snapshot tolerancePct perTxDetail with
      hagreed | ⟨total, hrejected⟩
    · exact .inl hagreed
    · exact .inr ⟨_, _, total, hrejected⟩

/-- Every check before the mempool check passed. -/
structure PassesPhase1 (btc : RustBitcoin) (sha : Bytes → Bytes32)
    (t : TemplatePropose) (cfg : PolicyConfig) (mempoolTx : Option UInt64)
    (nowMs : UInt64) : Prop where
  policy : ∃ warnings, PassesPolicy t cfg
    (cfg.effectiveMinAvgFeeDynamic mempoolTx).2
    (cfg.effectiveMinAvgFeeDynamic mempoolTx).1 nowMs warnings
  shield : checkInvariantShield btc t sha = .skipped ∨
    checkInvariantShield btc t sha = .agreed

/-- An evaluation is a rejection without the mempool check, or passes every
other check and is an acceptance or the Class M rejection. -/
theorem evaluateDynamicInner_trichotomy (btc : RustBitcoin)
    (sha : Bytes → Bytes32) (t : TemplatePropose) (cfg : PolicyConfig)
    (snapshot : Option MempoolSnapshot) (mempoolTx : Option UInt64)
    (nowMs : UInt64) :
    let eval := evaluateDynamicInner btc sha t cfg snapshot mempoolTx nowMs
    PlainRejection eval ∨
    PassesPhase1 btc sha t cfg mempoolTx nowMs ∧
      (eval.reason = none ∧ (∀ unknown total,
        eval.phase2 ≠ .rejected unknown total) ∨
      eval.reason = some .v2InvariantMempoolToleranceExceeded ∧
        ∃ unknown total, eval.phase2 = .rejected unknown total) := by
  intro eval
  rcases evaluateDynamicInner_cases btc sha t cfg mempoolTx nowMs with
    ⟨r, hplain, heval⟩ | ⟨warnings, hpolicy, heval⟩
  · left
    rwa [show eval = r from heval snapshot]
  · have heval := heval snapshot
    rcases checkInvariantShieldInner_cases btc sha t with
      hskipped | ⟨reason, detail, hne, hrejected⟩ |
        ⟨hexStr, raw, b, -, -, -, hclassM⟩
    · right
      rw [shieldStage_of_skipped cfg snapshot (hskipped _)] at heval
      refine ⟨⟨⟨warnings, hpolicy⟩, .inl ?_⟩, .inl ?_⟩
      · rw [checkInvariantShield, hskipped]
      · exact ⟨congrArg EvalResult.reason heval, by simp [eval, heval]⟩
    · left
      rw [shieldStage_of_rejected cfg snapshot (hrejected _)] at heval
      exact ⟨⟨reason, congrArg EvalResult.reason heval, hne⟩,
        congrArg EvalResult.phase2 heval⟩
    · right
      have hagreed : checkInvariantShield btc t sha = .agreed := by
        rw [checkInvariantShield, hclassM]
        rfl
      refine ⟨⟨⟨warnings, hpolicy⟩, .inr hagreed⟩, ?_⟩
      rcases classM_agrees_or_rejects btc b _ with
        ⟨phase2, hagreed, hnot⟩ | ⟨detail, unknown, total, hrejected⟩
      · rw [shieldStage_of_agreed cfg snapshot
          ((hclassM _).trans hagreed)] at heval
        exact .inl ⟨congrArg EvalResult.reason heval, by simpa [eval, heval]⟩
      · rw [shieldStage_of_rejected cfg snapshot
          ((hclassM _).trans hrejected)] at heval
        exact .inr ⟨congrArg EvalResult.reason heval, unknown, total,
          congrArg EvalResult.phase2 heval⟩

theorem withdraw_reason_eq_none {eval : EvalResult}
    {outcome : Option SecondChanceOutcome}
    (h : (withdraw eval outcome).reason = none) :
    eval.reason = none ∨ ∃ adjudication, outcome = some (.withdrawn adjudication) := by
  unfold withdraw at h
  split at h
  · exact .inr ⟨_, rfl⟩
  · exact .inl h

/-- A withdrawal is of a Class M rejection. -/
theorem secondChanceOf_eq_withdrawn {ctx : IngressContext} {cfg : PolicyConfig}
    {t : TemplatePropose} {adjudication : Adjudication}
    (h : secondChanceOf btc sha ctx cfg t = some (.withdrawn adjudication)) :
    PassesPhase1 btc sha t cfg ctx.mempoolTxCount ctx.nowMs ∧
      (evaluatePropose btc sha ctx cfg t).reason =
        some .v2InvariantMempoolToleranceExceeded := by
  obtain ⟨unknown, total, hphase2⟩ := runSecondChance_eq_withdrawn h
  rw [evaluatePropose_eq] at hphase2 ⊢
  rcases evaluateDynamicInner_trichotomy btc sha t cfg ctx.mempoolSnap
    ctx.mempoolTxCount ctx.nowMs with
      hplain | ⟨hpasses, ⟨-, hnot⟩ | ⟨hreason, -⟩⟩
  · rw [hplain.phase2] at hphase2
    simp at hphase2
  · exact absurd hphase2 (hnot unknown total)
  · exact ⟨hpasses, hreason⟩

theorem verdictFor_of_policy {ctx : IngressContext} {cfg : PolicyConfig}
    {t : TemplatePropose} (hpolicy : ctx.policy = some cfg) :
    (verdictFor btc sha ctx t).accepted =
      (withdraw (evaluatePropose btc sha ctx cfg t)
        (secondChanceOf btc sha ctx cfg t)).reason.isNone := by
  rw [verdictFor, hpolicy]

theorem accepted_cases {ctx : IngressContext} {cfg : PolicyConfig}
    {t : TemplatePropose} (hpolicy : ctx.policy = some cfg)
    (h : (verdictFor btc sha ctx t).accepted = true) :
    (evaluatePropose btc sha ctx cfg t).reason = none ∨
      ∃ adjudication, secondChanceOf btc sha ctx cfg t =
        some (.withdrawn adjudication) := by
  rw [verdictFor_of_policy hpolicy] at h
  exact withdraw_reason_eq_none (Option.isNone_iff_eq_none.mp h)

/-- What an accepting verdict says of the evaluation behind it. -/
theorem passesPhase1_of_accepted {ctx : IngressContext} {cfg : PolicyConfig}
    {t : TemplatePropose} (hpolicy : ctx.policy = some cfg)
    (h : (verdictFor btc sha ctx t).accepted = true) :
    PassesPhase1 btc sha t cfg ctx.mempoolTxCount ctx.nowMs ∧
      ((∀ unknown total, (evaluatePropose btc sha ctx cfg t).phase2 ≠
          .rejected unknown total) ∨
        ∃ adjudication, secondChanceOf btc sha ctx cfg t =
          some (.withdrawn adjudication)) := by
  rcases accepted_cases hpolicy h with hnone | ⟨adjudication, hout⟩
  · rw [evaluatePropose_eq] at hnone ⊢
    rcases evaluateDynamicInner_trichotomy btc sha t cfg ctx.mempoolSnap
      ctx.mempoolTxCount ctx.nowMs with
        hplain | ⟨hpasses, ⟨-, hnot⟩ | ⟨hreason, -⟩⟩
    · obtain ⟨reason, hreason, -⟩ := hplain.reason
      simp [hreason] at hnone
    · exact ⟨hpasses, .inl hnot⟩
    · simp [hreason] at hnone
  · exact ⟨(secondChanceOf_eq_withdrawn hout).1, .inr ⟨adjudication, hout⟩⟩

/-- Only a Class M rejection is withdrawn. -/
theorem withdraw_secondChanceOf {ctx : IngressContext} {cfg : PolicyConfig}
    {t : TemplatePropose} (h : (evaluatePropose btc sha ctx cfg t).reason ≠
      some .v2InvariantMempoolToleranceExceeded) :
    withdraw (evaluatePropose btc sha ctx cfg t)
      (secondChanceOf btc sha ctx cfg t) =
        evaluatePropose btc sha ctx cfg t := by
  unfold withdraw
  split
  · rename_i adjudication hout
    exact absurd (secondChanceOf_eq_withdrawn hout).2 h
  · rfl

/-- Every accepting verdict passed every check. The proposal passes each policy
stage and every invariant of the shield under the configuration read for it, and
Class M did not reject it unless the second chance withdrew the rejection. A
rejection for any other reason than the mempool tolerance stays one. -/
theorem verdictFor_accepted (hbtc : btc.Lawful sha) (ctx : IngressContext)
    (t : TemplatePropose) :
    ((verdictFor btc sha ctx t).accepted = true →
      ∃ cfg, ctx.policy = some cfg ∧
        (∃ warnings, PassesPolicy t cfg
          (cfg.effectiveMinAvgFeeDynamic ctx.mempoolTxCount).2
          (cfg.effectiveMinAvgFeeDynamic ctx.mempoolTxCount).1 ctx.nowMs
          warnings) ∧
        (t.rawBlockHex = none ∨
          ∃ hexStr raw b, t.rawBlockHex = some hexStr ∧
            hexDecode hexStr = .ok raw ∧ btc.deserializeBlock raw = some b ∧
            Conforms btc sha t b) ∧
        ((∀ unknown total, (evaluatePropose btc sha ctx cfg t).phase2 ≠
            .rejected unknown total) ∨
          ∃ adjudication, secondChanceOf btc sha ctx cfg t =
            some (.withdrawn adjudication))) ∧
    ∀ cfg reason, ctx.policy = some cfg →
      (evaluatePropose btc sha ctx cfg t).reason = some reason →
      reason ≠ .v2InvariantMempoolToleranceExceeded →
      (verdictFor btc sha ctx t).accepted = false ∧
        (verdictFor btc sha ctx t).reasonCode = some reason := by
  constructor
  · intro haccepted
    obtain ⟨cfg, hpolicy⟩ : ∃ cfg, ctx.policy = some cfg := by
      rcases hpolicy : ctx.policy with _ | cfg
      · simp [verdictFor, hpolicy] at haccepted
      · exact ⟨cfg, rfl⟩
    obtain ⟨hpasses, hclassM⟩ := passesPhase1_of_accepted hpolicy haccepted
    refine ⟨cfg, hpolicy, hpasses.policy, ?_, hclassM⟩
    rcases hpasses.shield with hskipped | hagreed
    · exact .inl (checkInvariantShield_eq_skipped.mp hskipped)
    · exact .inr ((checkInvariantShield_eq_agreed hbtc).mp hagreed)
  · intro cfg reason hpolicy hreason hne
    have hother : (evaluatePropose btc sha ctx cfg t).reason ≠
        some .v2InvariantMempoolToleranceExceeded := by
      simpa [hreason] using hne
    rw [verdictFor, hpolicy]
    simp [withdraw_secondChanceOf hother, hreason]

/-! ## A withdrawn rejection -/

/-- The mempool view when `spendsBlock` is proposed holds one of its
transactions. -/
def viewOfOne : MempoolSnapshot where
  state := .fresh
  txids := {(RustBitcoin.reference sha256).computeTxid witnessSpend}
  ageSecs := 3
  size := 1

def degradedView : MempoolSnapshot := { viewOfOne with state := .degraded }

/-- By the time bitcoind is asked it has the other one too. -/
def answerOfOne : BitcoindAnswer where
  presentInMempool := {(RustBitcoin.reference sha256).computeTxid legacySpend}
  unadjudicated := ∅
  recentBlockTxids := ∅
  blocksScanned := 1
  blockWalkTruncated := false
  tipHeight := some 839999
  blockWalkShortfall := none

def spendsPolicy (tolerancePct : Float) : PolicyConfig where
  mempool := { tolerancePct := tolerancePct }

def spendsContext (view : MempoolSnapshot) (tolerancePct : Float) : IngressContext where
  policy := some (spendsPolicy tolerancePct)
  mempoolTxCount := some 120
  nowMs := 1713571768000
  mempoolSnap := some view
  secondChance := some fun _ _ => .ok answerOfOne

theorem passesPolicy_spendsTemplate (tolerancePct : Float) :
    PassesPolicy (spendsTemplate 840000) (spendsPolicy tolerancePct) .mid 0
      1713571768000 [] where
  basicValidity := by
    change checkBasicValidity (spendsTemplate 840000) {} .mid 0 = none
    decide +kernel
  templateConstraints := by
    change checkTemplateConstraints (spendsTemplate 840000) {} .mid 0 = none
    decide +kernel
  safetyConstraints := by
    change checkSafetyConstraints (spendsTemplate 840000) {} .mid 0 1713571768000 [] = .ok []
    rfl

/-- The block keeps every invariant, so the mempool check decides. -/
theorem checkInvariantShieldInner_spendsTemplate
    (mempool : Option (MempoolSnapshot × Float × Bool)) :
    checkInvariantShieldInner (RustBitcoin.reference sha256) (spendsTemplate 840000) sha256
      mempool = classM (RustBitcoin.reference sha256) spendsBlock mempool := by
  have hhex : (spendsTemplate 840000).rawBlockHex =
      some (hexEncode (block.encode spendsBlock)) := rfl
  rcases checkInvariantShieldInner_of_parses (RustBitcoin.reference_lawful sha256) hhex
    hexDecode_spendsTemplate deserializeBlock_spendsBlock mempool with
      ⟨-, hend⟩ | ⟨_, _, hbroken, -⟩
  · exact hend
  · exact absurd ((conforms_iff (RustBitcoin.reference_lawful sha256)).mp
      spendsBlock_conforms) hbroken.not_all

theorem evaluatePropose_spendsTemplate (view : MempoolSnapshot) (tolerancePct : Float) :
    evaluatePropose (RustBitcoin.reference sha256) sha256 (spendsContext view tolerancePct)
        (spendsPolicy tolerancePct) (spendsTemplate 840000) =
      shieldStage (RustBitcoin.reference sha256) sha256 (spendsTemplate 840000)
        (spendsPolicy tolerancePct) (some view) .mid 0 [] := by
  have hfees : (spendsPolicy tolerancePct).effectiveMinAvgFeeDynamic (some 120) =
      (0, .mid) := rfl
  rw [evaluatePropose_eq]
  change evaluateDynamicInner _ _ _ _ (some view) (some 120) 1713571768000 = _
  rw [PassesPolicy.evaluateDynamicInner_eq (passesPolicy_spendsTemplate tolerancePct)]
  rw [hfees]

theorem reason_degradedView (tolerancePct : Float) :
    (evaluatePropose (RustBitcoin.reference sha256) sha256
      (spendsContext degradedView tolerancePct) (spendsPolicy tolerancePct)
      (spendsTemplate 840000)).reason = none := by
  have hinner : checkInvariantShieldInner (RustBitcoin.reference sha256)
      (spendsTemplate 840000) sha256 (some (degradedView, tolerancePct, false)) =
        (.agreed, .skippedDegraded) := by
    rw [checkInvariantShieldInner_spendsTemplate]
    rfl
  rw [evaluatePropose_spendsTemplate]
  rw [shieldStage_of_agreed (spendsPolicy tolerancePct) (some degradedView) hinner]

theorem classM_spendsBlock {tolerancePct : Float}
    (hexceeds : exceedsTolerance 1 2 tolerancePct = true) :
    ∃ detail, classM (RustBitcoin.reference sha256) spendsBlock
      (some (viewOfOne, tolerancePct, false)) =
        (.rejected .v2InvariantMempoolToleranceExceeded detail,
          .rejected [(RustBitcoin.reference sha256).computeTxid legacySpend] 2) := by
  have hunknown : unknownTxids viewOfOne
      (templateTxids (RustBitcoin.reference sha256) spendsBlock) =
        [(RustBitcoin.reference sha256).computeTxid legacySpend] := by
    decide +kernel
  have houtcome : evaluate viewOfOne
      (templateTxids (RustBitcoin.reference sha256) spendsBlock) tolerancePct =
        .toleranceExceeded [(RustBitcoin.reference sha256).computeTxid legacySpend] 2 := by
    unfold evaluate
    dsimp only [viewOfOne]
    rw [← viewOfOne, hunknown]
    exact if_pos hexceeds
  rw [classM]
  simp only [houtcome]
  exact ⟨_, rfl⟩

theorem evaluatePropose_viewOfOne {tolerancePct : Float}
    (hexceeds : exceedsTolerance 1 2 tolerancePct = true) :
    ∃ detail, evaluatePropose (RustBitcoin.reference sha256) sha256
        (spendsContext viewOfOne tolerancePct) (spendsPolicy tolerancePct)
        (spendsTemplate 840000) =
      ⟨some .v2InvariantMempoolToleranceExceeded, some detail, .mid, 0, [], false,
        .rejected [(RustBitcoin.reference sha256).computeTxid legacySpend] 2⟩ := by
  obtain ⟨detail, hclassM⟩ := classM_spendsBlock hexceeds
  have hinner : checkInvariantShieldInner (RustBitcoin.reference sha256)
      (spendsTemplate 840000) sha256 (some (viewOfOne, tolerancePct, false)) =
        (.rejected .v2InvariantMempoolToleranceExceeded detail,
          .rejected [(RustBitcoin.reference sha256).computeTxid legacySpend] 2) := by
    rw [checkInvariantShieldInner_spendsTemplate, hclassM]
  refine ⟨detail, ?_⟩
  rw [evaluatePropose_spendsTemplate]
  exact shieldStage_of_rejected (spendsPolicy tolerancePct) (some viewOfOne) hinner

theorem secondChanceOf_viewOfOne {tolerancePct : Float}
    (hexceeds : exceedsTolerance 1 2 tolerancePct = true)
    (hwithin : exceedsTolerance 0 2 tolerancePct = false) :
    secondChanceOf (RustBitcoin.reference sha256) sha256
        (spendsContext viewOfOne tolerancePct) (spendsPolicy tolerancePct)
        (spendsTemplate 840000) =
      some (.withdrawn (adjudicate 2
        [(RustBitcoin.reference sha256).computeTxid legacySpend] answerOfOne)) := by
  have hcount : (adjudicate 2 [(RustBitcoin.reference sha256).computeTxid legacySpend]
      answerOfOne).notProvenKnown = 0 := by
    decide +kernel
  have htotal : (adjudicate 2 [(RustBitcoin.reference sha256).computeTxid legacySpend]
      answerOfOne).total = 2 := by
    decide +kernel
  have hstill : (adjudicate 2 [(RustBitcoin.reference sha256).computeTxid legacySpend]
      answerOfOne).stillExceeds tolerancePct = false := by
    rw [Adjudication.stillExceeds, hcount, htotal]
    exact hwithin
  obtain ⟨detail, heval⟩ := evaluatePropose_viewOfOne hexceeds
  rw [secondChanceOf, heval]
  exact runSecondChance_of_within rfl hstill

/-- The block of `spendsTemplate` is accepted under a degraded view, and under one
that lacks a transaction of it when that exceeds the tolerance until bitcoind is
asked. -/
theorem verdictFor_accepted_withdrawn :
    ((verdictFor (RustBitcoin.reference sha256) sha256 (spendsContext degradedView 10.0)
        (spendsTemplate 840000)).accepted = true ∧
      (∃ warnings, PassesPolicy (spendsTemplate 840000) (spendsPolicy 10.0) .mid 0
        1713571768000 warnings) ∧
      Conforms (RustBitcoin.reference sha256) sha256 (spendsTemplate 840000) spendsBlock) ∧
    ∀ tolerancePct, exceedsTolerance 1 2 tolerancePct = true →
      exceedsTolerance 0 2 tolerancePct = false →
      (verdictFor (RustBitcoin.reference sha256) sha256
        (spendsContext viewOfOne tolerancePct) (spendsTemplate 840000)).accepted = true ∧
      ∃ adjudication, secondChanceOf (RustBitcoin.reference sha256) sha256
        (spendsContext viewOfOne tolerancePct) (spendsPolicy tolerancePct)
        (spendsTemplate 840000) = some (.withdrawn adjudication) := by
  constructor
  · have haccepted : (verdictFor (RustBitcoin.reference sha256) sha256
        (spendsContext degradedView 10.0) (spendsTemplate 840000)).accepted = true := by
      have hreason := reason_degradedView 10.0
      rw [verdictFor_of_policy rfl, withdraw_secondChanceOf (by simp [hreason]), hreason]
      rfl
    obtain ⟨cfg, hcfg, hpolicy, hshield, -⟩ := (verdictFor_accepted
      (RustBitcoin.reference_lawful sha256) (spendsContext degradedView 10.0)
      (spendsTemplate 840000)).1 haccepted
    obtain rfl := Option.some.inj hcfg
    refine ⟨haccepted, hpolicy, ?_⟩
    rcases hshield with hnone | ⟨hexStr, raw, b, hhex, hraw, hparse, hconforms⟩
    · cases hnone
    · obtain rfl := Option.some.inj hhex
      obtain rfl := Except.ok.inj (hexDecode_spendsTemplate.symm.trans hraw)
      obtain rfl := Option.some.inj (deserializeBlock_spendsBlock.symm.trans hparse)
      exact hconforms
  · intro tolerancePct hexceeds hwithin
    obtain ⟨detail, heval⟩ := evaluatePropose_viewOfOne hexceeds
    have haccepted : (verdictFor (RustBitcoin.reference sha256) sha256
        (spendsContext viewOfOne tolerancePct) (spendsTemplate 840000)).accepted = true := by
      rw [verdictFor_of_policy rfl, secondChanceOf_viewOfOne hexceeds hwithin]
      rfl
    obtain ⟨cfg, hcfg, -, -, hclassM⟩ := (verdictFor_accepted
      (RustBitcoin.reference_lawful sha256) (spendsContext viewOfOne tolerancePct)
      (spendsTemplate 840000)).1 haccepted
    obtain rfl := Option.some.inj hcfg
    refine ⟨haccepted, ?_⟩
    rcases hclassM with hnot | hwithdrawn
    · rw [heval] at hnot
      exact absurd rfl (hnot _ _)
    · exact hwithdrawn

end ReserveGrid.Verifier
