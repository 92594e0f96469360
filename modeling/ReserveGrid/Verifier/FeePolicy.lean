import ReserveGrid.Verifier.PolicyUpdates

/-!
# The fee policy is monotone

Under a policy that was checked, the fee thresholds grow with the depth of the
mempool, and an unknown depth is treated as the deepest when the policy says so.
The average fee is compared by floor division, which is the comparison of the
total fees with the threshold times the number of transactions.
-/

namespace ReserveGrid.Verifier

open Support Protocol

/-- The template passes the constraints under the threshold for a depth of the
mempool. -/
def PolicyConfig.Passes (cfg : PolicyConfig) (template : TemplatePropose)
    (mempoolTx : Option UInt64) : Prop :=
  checkTemplateConstraints template cfg (cfg.effectiveMinAvgFeeDynamic mempoolTx).2
    (cfg.effectiveMinAvgFeeDynamic mempoolTx).1 = none

section

variable {libs : PolicyLibs} {cfg : PolicyConfig} {template : TemplatePropose}
  {feeTier : FeeTier} {minAvgFeeUsed : UInt64}

/-! ## The constraints -/

/-- What a template that passes the constraints meets. -/
structure MeetsConstraints (template : TemplatePropose) (cfg : PolicyConfig)
    (minAvgFeeUsed : UInt64) : Prop where
  notEmpty : ¬ (cfg.rejectEmptyTemplates ∧ template.txCount = 0)
  coinbaseValue : ¬ (cfg.rejectCoinbaseZero ∧ template.coinbaseValue = 0 ∧
    0 < template.txCount)
  txCount : template.txCount ≤ cfg.maxTxCount
  totalFees : cfg.minTotalFees ≤ template.totalFees
  avgFee : minAvgFeeUsed.toNat * template.txCount.toNat ≤ template.totalFees.toNat

/-- Floor division compares the total with the product, which needs no word of
its own. -/
theorem avg_lt_iff (totalFees minAvgFeeUsed : UInt64) {txCount : UInt32}
    (hpos : 0 < txCount) :
    totalFees / txCount.toUInt64 < minAvgFeeUsed ↔
      totalFees.toNat < minAvgFeeUsed.toNat * txCount.toNat := by
  rw [UInt32.lt_iff_toNat_lt, UInt32.toNat_zero] at hpos
  rw [UInt64.lt_iff_toNat_lt, UInt64.toNat_div, UInt32.toNat_toUInt64]
  exact Nat.div_lt_iff_lt_mul hpos

/-- The average is too low exactly when the total is less than the product. -/
theorem avgFee_low_iff :
    ((0 < minAvgFeeUsed ∧ 0 < template.txCount) ∧
      template.totalFees / template.txCount.toUInt64 < minAvgFeeUsed) ↔
      template.totalFees.toNat < minAvgFeeUsed.toNat * template.txCount.toNat := by
  constructor
  · rintro ⟨⟨-, hcount⟩, hlow⟩
    exact (avg_lt_iff _ _ hcount).mp hlow
  · intro hlow
    have hproduct : 0 < minAvgFeeUsed.toNat * template.txCount.toNat := by omega
    have hfee : 0 < minAvgFeeUsed := by
      rw [UInt64.lt_iff_toNat_lt]
      exact Nat.pos_of_mul_pos_right hproduct
    have hcount : 0 < template.txCount := by
      rw [UInt32.lt_iff_toNat_lt]
      exact Nat.pos_of_mul_pos_left hproduct
    exact ⟨⟨hfee, hcount⟩, (avg_lt_iff _ _ hcount).mpr hlow⟩

/-- How the constraints end: a rejection before the average fee is looked at, a
rejection for the average fee, or a pass. -/
theorem checkTemplateConstraints_cases (template : TemplatePropose) (cfg : PolicyConfig)
    (feeTier : FeeTier) (minAvgFeeUsed : UInt64) :
    (¬ MeetsConstraints template cfg 0 ∧ ∃ reason detail,
      reason ≠ .avgFeeBelowMinimum ∧
      checkTemplateConstraints template cfg feeTier minAvgFeeUsed =
        some (rejectBeforeShield feeTier minAvgFeeUsed [] reason detail)) ∨
    (MeetsConstraints template cfg 0 ∧
      template.totalFees.toNat < minAvgFeeUsed.toNat * template.txCount.toNat ∧
      ∃ detail, checkTemplateConstraints template cfg feeTier minAvgFeeUsed =
        some (rejectBeforeShield feeTier minAvgFeeUsed [] .avgFeeBelowMinimum detail)) ∨
    (MeetsConstraints template cfg minAvgFeeUsed ∧
      checkTemplateConstraints template cfg feeTier minAvgFeeUsed = none) := by
  unfold checkTemplateConstraints
  dsimp only
  by_cases hempty : cfg.rejectEmptyTemplates ∧ template.txCount = 0
  · rw [if_pos hempty]
    exact .inl ⟨fun h => h.notEmpty hempty, _, _, by decide, rfl⟩
  rw [if_neg hempty]
  by_cases hcoinbase : cfg.rejectCoinbaseZero ∧ template.coinbaseValue = 0 ∧
      0 < template.txCount
  · rw [if_pos hcoinbase]
    exact .inl ⟨fun h => h.coinbaseValue hcoinbase, _, _, by decide, rfl⟩
  rw [if_neg hcoinbase]
  by_cases hcount : cfg.maxTxCount < template.txCount
  · rw [if_pos hcount]
    exact .inl ⟨fun h => UInt32.not_lt.mpr h.txCount hcount, _, _, by decide, rfl⟩
  rw [if_neg hcount]
  by_cases htotal : template.totalFees < cfg.minTotalFees
  · rw [if_pos htotal]
    exact .inl ⟨fun h => UInt64.not_lt.mpr h.totalFees htotal, _, _, by decide, rfl⟩
  rw [if_neg htotal]
  right
  have hmeets : ∀ {used : UInt64},
      used.toNat * template.txCount.toNat ≤ template.totalFees.toNat →
        MeetsConstraints template cfg used := fun hused =>
    ⟨hempty, hcoinbase, UInt32.not_lt.mp hcount, UInt64.not_lt.mp htotal, hused⟩
  have hzero : MeetsConstraints template cfg 0 := hmeets (by simp)
  by_cases hchecked : 0 < minAvgFeeUsed ∧ 0 < template.txCount
  · rw [if_pos hchecked]
    by_cases hlow : template.totalFees / template.txCount.toUInt64 < minAvgFeeUsed
    · rw [if_pos hlow]
      exact .inl ⟨hzero, avgFee_low_iff.mp ⟨hchecked, hlow⟩, _, rfl⟩
    · rw [if_neg hlow]
      refine .inr ⟨hmeets (Nat.le_of_not_lt fun h => ?_), rfl⟩
      exact hlow (avgFee_low_iff.mpr h).2
  · rw [if_neg hchecked]
    refine .inr ⟨hmeets (Nat.le_of_not_lt fun h => ?_), rfl⟩
    exact hchecked (avgFee_low_iff.mpr h).1

theorem MeetsConstraints.zero (h : MeetsConstraints template cfg minAvgFeeUsed) :
    MeetsConstraints template cfg 0 :=
  ⟨h.notEmpty, h.coinbaseValue, h.txCount, h.totalFees, by simp⟩

theorem checkTemplateConstraints_eq_none_iff :
    checkTemplateConstraints template cfg feeTier minAvgFeeUsed = none ↔
      MeetsConstraints template cfg minAvgFeeUsed := by
  rcases checkTemplateConstraints_cases template cfg feeTier minAvgFeeUsed with
    ⟨hfails, reason, detail, -, hresult⟩ | ⟨-, hlow, detail, hresult⟩ | ⟨hmeets, hresult⟩
  · rw [hresult]
    exact iff_of_false (by simp) fun h => hfails h.zero
  · rw [hresult]
    exact iff_of_false (by simp) fun h => Nat.not_lt.mpr h.avgFee hlow
  · exact iff_of_true hresult hmeets

/-- The average fee is looked at last, and rejects exactly when the total is
less than the product. -/
theorem avgFeeBelowMinimum_iff :
    (checkTemplateConstraints template cfg feeTier minAvgFeeUsed).bind
        EvalResult.reason = some .avgFeeBelowMinimum ↔
      MeetsConstraints template cfg 0 ∧
        template.totalFees.toNat < minAvgFeeUsed.toNat * template.txCount.toNat := by
  rcases checkTemplateConstraints_cases template cfg feeTier minAvgFeeUsed with
    ⟨hfails, reason, detail, hother, hresult⟩ | ⟨hzero, hlow, detail, hresult⟩ |
      ⟨hmeets, hresult⟩
  · rw [hresult]
    refine iff_of_false ?_ fun h => hfails h.1
    intro hreason
    exact hother (Option.some.inj hreason)
  · rw [hresult]
    exact iff_of_true rfl ⟨hzero, hlow⟩
  · rw [hresult]
    exact iff_of_false (by simp) fun h => Nat.not_lt.mpr hmeets.avgFee h.2

/-- A lower threshold and higher fees keep a pass. -/
theorem MeetsConstraints.mono {totalFees minAvgFeeUsed' : UInt64}
    (h : MeetsConstraints template cfg minAvgFeeUsed)
    (hfees : template.totalFees ≤ totalFees) (hlow : minAvgFeeUsed' ≤ minAvgFeeUsed) :
    MeetsConstraints { template with totalFees } cfg minAvgFeeUsed' := by
  refine ⟨h.notEmpty, h.coinbaseValue, h.txCount, UInt64.le_trans h.totalFees hfees, ?_⟩
  rw [UInt64.le_iff_toNat_le] at hfees hlow
  calc minAvgFeeUsed'.toNat * template.txCount.toNat
      ≤ minAvgFeeUsed.toNat * template.txCount.toNat := Nat.mul_le_mul_right _ hlow
    _ ≤ template.totalFees.toNat := h.avgFee
    _ ≤ totalFees.toNat := hfees

/-! ## The thresholds -/

/-- A policy that was checked has its fees in order. -/
theorem fees_le_of_validate (h : cfg.validate libs = .ok ()) :
    cfg.minAvgFeeLo ≤ cfg.minAvgFeeMid ∧ cfg.minAvgFeeMid ≤ cfg.minAvgFeeHi := by
  unfold PolicyConfig.validate at h
  split at h
  · cases h
  split at h
  · cases h
  split at h
  · cases h
  split at h
  · cases h
  split at h
  · cases h
  rename_i hlo
  split at h
  · cases h
  rename_i hmid
  exact ⟨UInt64.not_lt.mp hlo, UInt64.not_lt.mp hmid⟩

/-- The threshold of a deeper mempool is no lower. -/
theorem minAvgFee_mono (hlo : cfg.minAvgFeeLo ≤ cfg.minAvgFeeMid)
    (hmid : cfg.minAvgFeeMid ≤ cfg.minAvgFeeHi) {depth deeper : UInt64}
    (hdepth : depth ≤ deeper) :
    (cfg.effectiveMinAvgFeeDynamic (some depth)).1 ≤
      (cfg.effectiveMinAvgFeeDynamic (some deeper)).1 := by
  have hhi := UInt64.le_trans hlo hmid
  unfold PolicyConfig.effectiveMinAvgFeeDynamic
  dsimp only
  by_cases hlow : depth < cfg.lowMempoolTx
  · rw [if_pos hlow]
    split
    · exact UInt64.le_refl _
    · split
      · exact hlo
      · exact hhi
  · have hlow' : ¬ deeper < cfg.lowMempoolTx :=
      fun h => hlow (UInt64.lt_of_le_of_lt hdepth h)
    rw [if_neg hlow, if_neg hlow']
    by_cases hhigh : depth < cfg.highMempoolTx
    · rw [if_pos hhigh]
      split
      · exact UInt64.le_refl _
      · exact hmid
    · have hhigh' : ¬ deeper < cfg.highMempoolTx :=
        fun h => hhigh (UInt64.lt_of_le_of_lt hdepth h)
      rw [if_neg hhigh, if_neg hhigh']
      exact UInt64.le_refl _

/-- No threshold is above the highest one. -/
theorem minAvgFee_le_hi (hlo : cfg.minAvgFeeLo ≤ cfg.minAvgFeeMid)
    (hmid : cfg.minAvgFeeMid ≤ cfg.minAvgFeeHi) (mempoolTx : Option UInt64) :
    (cfg.effectiveMinAvgFeeDynamic mempoolTx).1 ≤ cfg.minAvgFeeHi := by
  have hhi := UInt64.le_trans hlo hmid
  unfold PolicyConfig.effectiveMinAvgFeeDynamic
  cases mempoolTx with
  | some depth =>
      dsimp only
      split
      · exact hhi
      · split
        · exact hmid
        · exact UInt64.le_refl _
  | none =>
      dsimp only
      split
      · exact UInt64.le_refl _
      · exact hmid

theorem passes_iff {mempoolTx : Option UInt64} :
    cfg.Passes template mempoolTx ↔ MeetsConstraints template cfg
      (cfg.effectiveMinAvgFeeDynamic mempoolTx).1 :=
  checkTemplateConstraints_eq_none_iff

end

/-- Under a policy that was checked: higher fees keep a pass, and so does a lower
mempool; an unknown depth that counts as high is as strict as any known one; and
the average-fee check, which comes last, rejects exactly when the total fees are
less than the threshold times the number of transactions. -/
theorem feePolicy_mono (libs : PolicyLibs) (cfg : PolicyConfig)
    (hvalid : cfg.validate libs = .ok ()) (template : TemplatePropose) :
    (∀ mempoolTx totalFees, template.totalFees ≤ totalFees →
      cfg.Passes template mempoolTx →
        cfg.Passes { template with totalFees } mempoolTx) ∧
    (∀ depth lower, lower ≤ depth →
      cfg.Passes template (some depth) → cfg.Passes template (some lower)) ∧
    (cfg.unknownMempoolAsHigh = true → ∀ depth,
      (cfg.effectiveMinAvgFeeDynamic (some depth)).1 ≤
        (cfg.effectiveMinAvgFeeDynamic none).1 ∧
      (cfg.Passes template none → cfg.Passes template (some depth))) ∧
    ∀ feeTier minAvgFeeUsed,
      ((checkTemplateConstraints template cfg feeTier minAvgFeeUsed).bind
          EvalResult.reason = some .avgFeeBelowMinimum ↔
        checkTemplateConstraints template cfg feeTier 0 = none ∧
          template.totalFees.toNat <
            minAvgFeeUsed.toNat * template.txCount.toNat) := by
  obtain ⟨hlo, hmid⟩ := fees_le_of_validate hvalid
  refine ⟨?_, ?_, ?_, ?_⟩
  · intro mempoolTx totalFees hfees hpass
    exact passes_iff.mpr ((passes_iff.mp hpass).mono hfees (UInt64.le_refl _))
  · intro depth lower hlower hpass
    exact passes_iff.mpr ((passes_iff.mp hpass).mono (UInt64.le_refl _)
      (minAvgFee_mono hlo hmid hlower))
  · intro hunknown depth
    have hnone : (cfg.effectiveMinAvgFeeDynamic none).1 = cfg.minAvgFeeHi := by
      simp [PolicyConfig.effectiveMinAvgFeeDynamic, hunknown]
    have hle : (cfg.effectiveMinAvgFeeDynamic (some depth)).1 ≤
        (cfg.effectiveMinAvgFeeDynamic none).1 := by
      rw [hnone]
      exact minAvgFee_le_hi hlo hmid (some depth)
    refine ⟨hle, fun hpass => ?_⟩
    exact passes_iff.mpr ((passes_iff.mp hpass).mono (UInt64.le_refl _) hle)
  · intro feeTier minAvgFeeUsed
    rw [checkTemplateConstraints_eq_none_iff]
    exact avgFeeBelowMinimum_iff

/-- A true average of 5000 and a third. -/
def thirdBelow : TemplatePropose where
  version := 1
  id := 1
  blockHeight := 1
  prevHash := ""
  coinbaseValue := 1
  txCount := 3
  totalFees := 15001

theorem feePolicy_mono_thirdBelow :
    (checkTemplateConstraints thirdBelow {} .high 5001).bind EvalResult.reason =
        some .avgFeeBelowMinimum ∧
      ({} : PolicyConfig).Passes { thirdBelow with totalFees := 15003 } none := by
  have hmono := feePolicy_mono patchLibs {} rfl thirdBelow
  constructor
  · exact (hmono.2.2.2 .high 5001).mpr ⟨rfl, by decide⟩
  · exact hmono.1 none 15003 (by decide) rfl

end ReserveGrid.Verifier
