import ReserveGrid.Support.FloatText
import ReserveGrid.Verifier.ShieldRules

/-!
# Policy evaluation

A proposal is evaluated in stages: basic validity, template constraints, safety
constraints and the invariant shield, with the mempool check at its end. The
first stage that rejects decides. Safety findings that are not enforced are
recorded as warnings.
-/

namespace ReserveGrid.Verifier

open Support Bitcoin Consensus Protocol

/-! ## Configuration -/

def maxBlockWeight : UInt64 := 4000000

def maxBlockSigops : UInt32 := 80000

inductive FeeTier where
  | low
  | mid
  | high
  deriving DecidableEq, Repr

def FeeTier.asStr : FeeTier → String
  | .low => "low"
  | .mid => "mid"
  | .high => "high"

structure PolicySafety where
  maxWeightRatio : Float := 0.999
  enforceWeightRatio : Bool := false
  maxTemplateAgeMs : Option UInt64 := none
  enforceTemplateAge : Bool := false
  warnSigopsRatio : Float := 0.95
  warnCoinbaseSigopsMax : UInt32 := 400

/-- The keys of the mempool check that an evaluation reads. -/
structure PolicyMempool where
  tolerancePct : Float := 4.0
  perTxDetail : Bool := false

structure PolicyConfig where
  protocolVersion : UInt16 := Protocol.protocolVersion
  requiredPrevhashLen : ℕ := 64
  minTotalFees : UInt64 := 0
  maxTxCount : UInt32 := 10000
  lowMempoolTx : UInt64 := 50
  highMempoolTx : UInt64 := 500
  minAvgFeeLo : UInt64 := 0
  minAvgFeeMid : UInt64 := 0
  minAvgFeeHi : UInt64 := 0
  rejectEmptyTemplates : Bool := true
  rejectCoinbaseZero : Bool := false
  unknownMempoolAsHigh : Bool := true
  safety : PolicySafety := {}
  mempool : PolicyMempool := {}

/-- The fee threshold and the tier it comes from. -/
def PolicyConfig.effectiveMinAvgFeeDynamic (cfg : PolicyConfig)
    (mempoolTx : Option UInt64) : UInt64 × FeeTier :=
  match mempoolTx with
  | some tx =>
      if tx < cfg.lowMempoolTx then (cfg.minAvgFeeLo, .low)
      else if tx < cfg.highMempoolTx then (cfg.minAvgFeeMid, .mid)
      else (cfg.minAvgFeeHi, .high)
  | none =>
      if cfg.unknownMempoolAsHigh then (cfg.minAvgFeeHi, .high)
      else (cfg.minAvgFeeMid, .mid)

/-! ## Results -/

/-- A safety finding that did not reject. -/
structure SafetyWarning where
  reason : VerdictReason
  detail : String
  deriving DecidableEq

/-- The result of an evaluation; without a reason it is an acceptance. -/
structure EvalResult where
  reason : Option VerdictReason
  detail : Option String
  feeTier : FeeTier
  minAvgFeeUsed : UInt64
  warnings : List SafetyWarning
  shieldSkipped : Bool
  phase2 : Phase2Attribution
  deriving DecidableEq

section

variable (template : TemplatePropose) (cfg : PolicyConfig) (feeTier : FeeTier)
  (minAvgFeeUsed : UInt64)

/-- A rejection before the shield. -/
def rejectBeforeShield (warnings : List SafetyWarning) (reason : VerdictReason)
    (detail : String) : EvalResult where
  reason := some reason
  detail := some detail
  feeTier := feeTier
  minAvgFeeUsed := minAvgFeeUsed
  warnings := warnings
  shieldSkipped := false
  phase2 := .notRun

/-! ## The stages before the shield -/

def isHex (s : String) : Bool := s.toList.all fun c => (hexVal c).isSome

def checkBasicValidity : Option EvalResult :=
  let reject := rejectBeforeShield feeTier minAvgFeeUsed []
  if template.version ≠ cfg.protocolVersion then
    some (reject .protocolVersionMismatch
      ("protocol_version got=" ++ toString template.version ++ " expected=" ++
        toString cfg.protocolVersion))
  else if template.prevHash.utf8ByteSize ≠ cfg.requiredPrevhashLen then
    some (reject .prevHashLenMismatch
      ("prev_hash len=" ++ toString template.prevHash.utf8ByteSize ++
        " expected=" ++ toString cfg.requiredPrevhashLen))
  else if ¬ isHex template.prevHash then
    some (reject .invalidPrevHash "prev_hash contains non-hex characters")
  else none

def checkTemplateConstraints : Option EvalResult :=
  let reject := rejectBeforeShield feeTier minAvgFeeUsed []
  if cfg.rejectEmptyTemplates ∧ template.txCount = 0 then
    some (reject .emptyTemplateRejected "empty template rejected by policy")
  else if cfg.rejectCoinbaseZero ∧ template.coinbaseValue = 0 ∧
      0 < template.txCount then
    some (reject .coinbaseValueZeroRejected "coinbase_value=0 rejected by policy")
  else if cfg.maxTxCount < template.txCount then
    some (reject .txCountExceeded
      ("tx_count=" ++ toString template.txCount ++ " > max_tx_count=" ++
        toString cfg.maxTxCount))
  else if template.totalFees < cfg.minTotalFees then
    some (reject .totalFeesBelowMinimum
      ("total_fees=" ++ toString template.totalFees ++ " < min_total_fees=" ++
        toString cfg.minTotalFees))
  else if 0 < minAvgFeeUsed ∧ 0 < template.txCount then
    let avg := template.totalFees / template.txCount.toUInt64
    if avg < minAvgFeeUsed then
      some (reject .avgFeeBelowMinimum
        ("avg_fee=" ++ toString avg ++ " < min_avg_fee_used=" ++
          toString minAvgFeeUsed))
    else none
  else none

/-- A finding: enforced it rejects, otherwise it is recorded. -/
def finding (enforce : Bool) (warnings : List SafetyWarning)
    (reason : VerdictReason) (detail : String) :
    Except EvalResult (List SafetyWarning) :=
  if enforce then
    .error (rejectBeforeShield feeTier minAvgFeeUsed warnings reason detail)
  else .ok (warnings ++ [⟨reason, detail⟩])

/-- Weight ratio of the declared weight, the canonical field first. -/
def weightRatioStep (warnings : List SafetyWarning) :
    Except EvalResult (List SafetyWarning) :=
  match template.templateWeight.or template.observedWeight with
  | none => .ok warnings
  | some weight =>
      let ratio := weight.toFloat / maxBlockWeight.toFloat
      if cfg.safety.maxWeightRatio < ratio then
        finding feeTier minAvgFeeUsed cfg.safety.enforceWeightRatio warnings
          .weightRatioExceeded
          ("weight_ratio=" ++ formatFixed 4 ratio ++ " > max_weight_ratio=" ++
            formatFixed 4 cfg.safety.maxWeightRatio ++ " (weight=" ++
            toString weight ++ " max=" ++ toString maxBlockWeight ++ ")")
      else .ok warnings

def templateAgeStep (nowMs : UInt64) (warnings : List SafetyWarning) :
    Except EvalResult (List SafetyWarning) :=
  match template.createdAtUnixMs, cfg.safety.maxTemplateAgeMs with
  | some created, some maxAge =>
      let ageMs := nowMs.toNat - created.toNat
      if maxAge.toNat < ageMs then
        finding feeTier minAvgFeeUsed cfg.safety.enforceTemplateAge warnings
          .templateStale
          ("template_age_ms=" ++ toString ageMs ++ " > max_template_age_ms=" ++
            toString maxAge)
      else .ok warnings
  | _, _ => .ok warnings

/-- The observe-only findings on signature operations. -/
def sigopsWarnings : List SafetyWarning :=
  (match template.totalSigops with
    | some sigops =>
        let ratio := sigops.toFloat / maxBlockSigops.toFloat
        if cfg.safety.warnSigopsRatio < ratio then
          [⟨.sigopsBudgetWarning,
            "sigops_ratio=" ++ formatFixed 4 ratio ++ " > warn_sigops_ratio=" ++
              formatFixed 4 cfg.safety.warnSigopsRatio ++ " (sigops=" ++
              toString sigops ++ " max=" ++ toString maxBlockSigops ++ ")"⟩]
        else []
    | none => []) ++
  (match template.coinbaseSigops with
    | some cbSigops =>
        if cfg.safety.warnCoinbaseSigopsMax < cbSigops then
          [⟨.coinbaseSigopsAbnormal,
            "coinbase_sigops=" ++ toString cbSigops ++
              " > warn_coinbase_sigops_max=" ++
              toString cfg.safety.warnCoinbaseSigopsMax⟩]
        else []
    | none => [])

/-- The safety stage: a rejection, or the warnings it leaves. -/
def checkSafetyConstraints (nowMs : UInt64) (warnings : List SafetyWarning) :
    Except EvalResult (List SafetyWarning) := do
  let warnings ← weightRatioStep template cfg feeTier minAvgFeeUsed warnings
  let warnings ← templateAgeStep template cfg feeTier minAvgFeeUsed nowMs warnings
  return warnings ++ sigopsWarnings template cfg

end

/-! ## The evaluation -/

section

variable (btc : RustBitcoin) (sha : Bytes → Bytes32)

/-- The shield as the last stage. -/
def shieldStage (template : TemplatePropose) (cfg : PolicyConfig)
    (mempoolSnapshot : Option MempoolSnapshot) (feeTier : FeeTier)
    (minAvgFeeUsed : UInt64) (warnings : List SafetyWarning) : EvalResult :=
  let pass := checkInvariantShieldInner btc template sha
    (mempoolSnapshot.map fun snap =>
      (snap, cfg.mempool.tolerancePct, cfg.mempool.perTxDetail))
  match pass.1 with
  | .rejected reason detail =>
      { reason := some reason
        detail := some detail
        feeTier := feeTier
        minAvgFeeUsed := minAvgFeeUsed
        warnings := warnings
        shieldSkipped := false
        phase2 := pass.2 }
  | outcome =>
      { reason := none
        detail := none
        feeTier := feeTier
        minAvgFeeUsed := minAvgFeeUsed
        warnings := warnings
        shieldSkipped := outcome = .skipped
        phase2 := pass.2 }

def evaluateDynamicInner (template : TemplatePropose) (cfg : PolicyConfig)
    (mempoolSnapshot : Option MempoolSnapshot) (mempoolTx : Option UInt64)
    (nowMs : UInt64) : EvalResult :=
  let (minAvgFeeUsed, feeTier) := cfg.effectiveMinAvgFeeDynamic mempoolTx
  match checkBasicValidity template cfg feeTier minAvgFeeUsed with
  | some result => result
  | none =>
      match checkTemplateConstraints template cfg feeTier minAvgFeeUsed with
      | some result => result
      | none =>
          match checkSafetyConstraints template cfg feeTier minAvgFeeUsed nowMs []
          with
          | .error result => result
          | .ok warnings =>
              shieldStage btc sha template cfg mempoolSnapshot feeTier
                minAvgFeeUsed warnings

/-- Evaluation with the mempool check when a snapshot is given. -/
def evaluateDynamicPhase2 (template : TemplatePropose) (cfg : PolicyConfig)
    (mempoolSnapshot : Option MempoolSnapshot) (mempoolTx : Option UInt64)
    (nowMs : UInt64) : EvalResult :=
  evaluateDynamicInner btc sha template cfg mempoolSnapshot mempoolTx nowMs

/-- Evaluation without the mempool check. -/
def evaluateDynamic (template : TemplatePropose) (cfg : PolicyConfig)
    (mempoolTx : Option UInt64) (nowMs : UInt64) : EvalResult :=
  evaluateDynamicInner btc sha template cfg none mempoolTx nowMs

end

/-! ## What a stage can return -/

section

variable {btc : RustBitcoin} {sha : Bytes → Bytes32} {t : TemplatePropose}
  {cfg : PolicyConfig} {feeTier : FeeTier} {minAvgFeeUsed : UInt64}

/-- A rejection that the mempool check had no part in. -/
structure PlainRejection (r : EvalResult) : Prop where
  reason : ∃ reason, r.reason = some reason ∧
    reason ≠ .v2InvariantMempoolToleranceExceeded
  phase2 : r.phase2 = .notRun

theorem plainRejection_rejectBeforeShield {warnings : List SafetyWarning}
    {reason : VerdictReason} {detail : String}
    (h : reason ≠ .v2InvariantMempoolToleranceExceeded) :
    PlainRejection
      (rejectBeforeShield feeTier minAvgFeeUsed warnings reason detail) :=
  ⟨⟨reason, rfl, h⟩, rfl⟩

theorem plainRejection_checkBasicValidity {r : EvalResult}
    (h : checkBasicValidity t cfg feeTier minAvgFeeUsed = some r) :
    PlainRejection r := by
  unfold checkBasicValidity at h
  dsimp only at h
  split at h
  · cases h
    exact plainRejection_rejectBeforeShield (by decide)
  · split at h
    · cases h
      exact plainRejection_rejectBeforeShield (by decide)
    · split at h
      · cases h
        exact plainRejection_rejectBeforeShield (by decide)
      · simp at h

theorem plainRejection_checkTemplateConstraints {r : EvalResult}
    (h : checkTemplateConstraints t cfg feeTier minAvgFeeUsed = some r) :
    PlainRejection r := by
  unfold checkTemplateConstraints at h
  dsimp only at h
  split at h
  · cases h
    exact plainRejection_rejectBeforeShield (by decide)
  split at h
  · cases h
    exact plainRejection_rejectBeforeShield (by decide)
  split at h
  · cases h
    exact plainRejection_rejectBeforeShield (by decide)
  split at h
  · cases h
    exact plainRejection_rejectBeforeShield (by decide)
  split at h
  · split at h
    · cases h
      exact plainRejection_rejectBeforeShield (by decide)
    · simp at h
  · simp at h

theorem plainRejection_finding {enforce : Bool} {warnings : List SafetyWarning}
    {reason : VerdictReason} {detail : String} {r : EvalResult}
    (hreason : reason ≠ .v2InvariantMempoolToleranceExceeded)
    (h : finding feeTier minAvgFeeUsed enforce warnings reason detail =
      .error r) :
    PlainRejection r := by
  unfold finding at h
  split at h
  · cases h
    exact plainRejection_rejectBeforeShield hreason
  · simp at h

theorem plainRejection_checkSafetyConstraints {nowMs : UInt64}
    {warnings : List SafetyWarning} {r : EvalResult}
    (h : checkSafetyConstraints t cfg feeTier minAvgFeeUsed nowMs warnings =
      .error r) :
    PlainRejection r := by
  rcases Result.bind_eq_error.mp h with hweight | ⟨warnings', -, h⟩
  · unfold weightRatioStep at hweight
    split at hweight
    · simp at hweight
    · dsimp only at hweight
      split at hweight
      · exact plainRejection_finding (by decide) hweight
      · simp at hweight
  · rcases Result.bind_eq_error.mp h with hage | ⟨warnings', -, h⟩
    · unfold templateAgeStep at hage
      split at hage
      · dsimp only at hage
        split at hage
        · exact plainRejection_finding (by decide) hage
        · simp at hage
      · simp at hage
    · simp [pure, Except.pure] at h

/-- Every stage before the shield passes, leaving the given warnings. -/
structure PassesPolicy (t : TemplatePropose) (cfg : PolicyConfig)
    (feeTier : FeeTier) (minAvgFeeUsed nowMs : UInt64)
    (warnings : List SafetyWarning) : Prop where
  basicValidity : checkBasicValidity t cfg feeTier minAvgFeeUsed = none
  templateConstraints :
    checkTemplateConstraints t cfg feeTier minAvgFeeUsed = none
  safetyConstraints :
    checkSafetyConstraints t cfg feeTier minAvgFeeUsed nowMs [] = .ok warnings

/-- An evaluation ends before the shield, in the same way for every snapshot, or
every earlier stage passes and the shield decides. -/
theorem evaluateDynamicInner_cases (btc : RustBitcoin) (sha : Bytes → Bytes32)
    (t : TemplatePropose) (cfg : PolicyConfig) (mempoolTx : Option UInt64)
    (nowMs : UInt64) :
    (∃ r, PlainRejection r ∧ ∀ snapshot,
      evaluateDynamicInner btc sha t cfg snapshot mempoolTx nowMs = r) ∨
    ∃ warnings, PassesPolicy t cfg (cfg.effectiveMinAvgFeeDynamic mempoolTx).2
        (cfg.effectiveMinAvgFeeDynamic mempoolTx).1 nowMs warnings ∧
      ∀ snapshot, evaluateDynamicInner btc sha t cfg snapshot mempoolTx nowMs =
        shieldStage btc sha t cfg snapshot
          (cfg.effectiveMinAvgFeeDynamic mempoolTx).2
          (cfg.effectiveMinAvgFeeDynamic mempoolTx).1 warnings := by
  unfold evaluateDynamicInner
  obtain ⟨minAvgFeeUsed, feeTier⟩ := cfg.effectiveMinAvgFeeDynamic mempoolTx
  dsimp only
  cases hbasic : checkBasicValidity t cfg feeTier minAvgFeeUsed with
  | some r =>
      exact .inl ⟨r, plainRejection_checkBasicValidity hbasic, fun _ => rfl⟩
  | none =>
      cases hconstraints :
          checkTemplateConstraints t cfg feeTier minAvgFeeUsed with
      | some r =>
          exact .inl ⟨r, plainRejection_checkTemplateConstraints hconstraints,
            fun _ => rfl⟩
      | none =>
          cases hsafety :
              checkSafetyConstraints t cfg feeTier minAvgFeeUsed nowMs [] with
          | error r =>
              exact .inl ⟨r, plainRejection_checkSafetyConstraints hsafety,
                fun _ => rfl⟩
          | ok warnings =>
              exact .inr ⟨warnings, ⟨hbasic, hconstraints, hsafety⟩,
                fun _ => rfl⟩

theorem PassesPolicy.evaluateDynamicInner_eq {btc : RustBitcoin}
    {sha : Bytes → Bytes32} {mempoolTx : Option UInt64} {nowMs : UInt64}
    {warnings : List SafetyWarning}
    (h : PassesPolicy t cfg (cfg.effectiveMinAvgFeeDynamic mempoolTx).2
      (cfg.effectiveMinAvgFeeDynamic mempoolTx).1 nowMs warnings)
    (snapshot : Option MempoolSnapshot) :
    evaluateDynamicInner btc sha t cfg snapshot mempoolTx nowMs =
      shieldStage btc sha t cfg snapshot
        (cfg.effectiveMinAvgFeeDynamic mempoolTx).2
        (cfg.effectiveMinAvgFeeDynamic mempoolTx).1 warnings := by
  obtain ⟨hbasic, hconstraints, hsafety⟩ := h
  unfold evaluateDynamicInner
  generalize cfg.effectiveMinAvgFeeDynamic mempoolTx = fees
    at hbasic hconstraints hsafety ⊢
  dsimp only
  rw [hbasic, hconstraints, hsafety]

end

end ReserveGrid.Verifier
