import Mathlib.Data.List.Count
import ReserveGrid.Verifier.Ingress

/-!
# Adjudicating the unknown transactions

Every unknown transaction falls into one of four classes, and the rejection is
decided on how many fell into the last two. The module relates the counters of
`adjudicate` to the classes and says when a rejection is upheld or withdrawn.
-/

namespace ReserveGrid.Verifier

open Support Consensus

theorem u32TryFrom_toNat {n : ℕ} (h : n < 2 ^ 32) :
    (u32TryFrom n).toNat = n := by
  have hmin : min n u32Max = n := by
    rw [u32Max]
    omega
  rw [u32TryFrom, hmin, UInt32.toNat_ofNat_of_lt' h]

theorem satAdd32_toNat {a b : UInt32} (h : a.toNat + b.toNat < 2 ^ 32) :
    (satAdd32 a b).toNat = a.toNat + b.toNat := by
  rw [satAdd32, u32TryFrom_toNat h]

/-! ## The classes -/

/-- The transactions of a list that fall into a class. -/
def inClass (answer : BitcoindAnswer) (c : TxAdjudication)
    (txids : List Bytes32) : List Bytes32 :=
  txids.filter fun txid => classify txid answer = c

variable {answer : BitcoindAnswer}

theorem mem_inClass {c : TxAdjudication} {txid : Bytes32}
    {txids : List Bytes32} :
    txid ∈ inClass answer c txids ↔
      txid ∈ txids ∧ classify txid answer = c := by
  simp [inClass]

/-- No transaction is in two classes. -/
theorem inClass_disjoint {c d : TxAdjudication} (h : c ≠ d)
    (txids : List Bytes32) :
    (inClass answer c txids).Disjoint (inClass answer d txids) := by
  intro txid hc hd
  apply h
  rw [← (mem_inClass.mp hc).2, (mem_inClass.mp hd).2]

theorem inClass_concat (c : TxAdjudication) (txids : List Bytes32)
    (txid : Bytes32) :
    inClass answer c (txids ++ [txid]) =
      if classify txid answer = c then inClass answer c txids ++ [txid]
      else inClass answer c txids := by
  by_cases h : classify txid answer = c
  · simp [inClass, h]
  · simp [inClass, h]

/-- Every transaction is in a class. -/
theorem inClass_length_sum (txids : List Bytes32) :
    (inClass answer .inMempool txids).length +
        (inClass answer .mined txids).length +
        (inClass answer .absent txids).length +
        (inClass answer .unadjudicated txids).length =
      txids.length := by
  induction txids using List.reverseRecOn with
  | nil => rfl
  | append_singleton txids txid ih =>
      simp only [inClass_concat, List.length_append, List.length_singleton]
      cases classify txid answer <;> simp <;> omega

/-- The last two classes hold what bitcoind did not prove known. -/
theorem not_known_iff {txid : Bytes32} :
    classify txid answer = .absent ∨ classify txid answer = .unadjudicated ↔
      txid ∉ answer.presentInMempool ∧ txid ∉ answer.recentBlockTxids := by
  unfold classify
  by_cases hp : txid ∈ answer.presentInMempool
  · simp [hp]
  · by_cases hm : txid ∈ answer.recentBlockTxids
    · simp [hp, hm]
    · by_cases hu : txid ∈ answer.unadjudicated <;> simp [hp, hm, hu]

theorem classify_eq_absent {txid : Bytes32} :
    classify txid answer = .absent ↔
      txid ∉ answer.presentInMempool ∧ txid ∉ answer.recentBlockTxids ∧
        txid ∉ answer.unadjudicated := by
  unfold classify
  by_cases hp : txid ∈ answer.presentInMempool
  · simp [hp]
  · by_cases hm : txid ∈ answer.recentBlockTxids
    · simp [hp, hm]
    · by_cases hu : txid ∈ answer.unadjudicated <;> simp [hp, hm, hu]

/-- The unknown transactions bitcoind did not prove known. -/
def notKnown (answer : BitcoindAnswer) (txids : List Bytes32) :
    List Bytes32 :=
  txids.filter fun txid =>
    txid ∉ answer.presentInMempool ∧ txid ∉ answer.recentBlockTxids

theorem notKnown_concat (txids : List Bytes32) (txid : Bytes32) :
    notKnown answer (txids ++ [txid]) =
      if classify txid answer = .absent ∨
          classify txid answer = .unadjudicated then
        notKnown answer txids ++ [txid]
      else notKnown answer txids := by
  by_cases h : txid ∉ answer.presentInMempool ∧ txid ∉ answer.recentBlockTxids
  · rw [if_pos (not_known_iff.mpr h)]
    simp [notKnown, h]
  · rw [if_neg (mt not_known_iff.mp h)]
    simp [notKnown, h]

theorem notKnown_length (txids : List Bytes32) :
    (notKnown answer txids).length =
      (inClass answer .absent txids).length +
        (inClass answer .unadjudicated txids).length := by
  induction txids using List.reverseRecOn with
  | nil => rfl
  | append_singleton txids txid ih =>
      rw [notKnown_concat, inClass_concat, inClass_concat]
      cases classify txid answer <;> simp <;> omega

/-- A larger answer leaves fewer transactions unproven. -/
theorem notKnown_sublist {answer' : BitcoindAnswer}
    (hpresent : answer.presentInMempool ⊆ answer'.presentInMempool)
    (hmined : answer.recentBlockTxids ⊆ answer'.recentBlockTxids)
    (txids : List Bytes32) :
    List.Sublist (notKnown answer' txids) (notKnown answer txids) := by
  apply List.monotone_filter_right
  intro txid h
  simp only [decide_eq_true_eq] at h ⊢
  exact ⟨fun hp => h.1 (hpresent hp), fun hm => h.2 (hmined hm)⟩

/-! ## The counters -/

/-- The counter of a class. -/
def Adjudication.count (acc : Adjudication) : TxAdjudication → UInt32
  | .inMempool => acc.inMempool
  | .mined => acc.mined
  | .unadjudicated => acc.unadjudicated
  | .absent => acc.stillAbsent

theorem tally_count (acc : Adjudication) (txid : Bytes32)
    (c : TxAdjudication) :
    (tally answer acc txid).count c =
      if classify txid answer = c then satAdd32 (acc.count c) 1
      else acc.count c := by
  unfold tally
  cases classify txid answer <;> cases c <;> rfl

theorem tally_sample (acc : Adjudication) (txid : Bytes32) :
    (tally answer acc txid).stillAbsentSample =
      if classify txid answer = .absent ∧
          acc.stillAbsentSample.length < absentSampleCap then
        acc.stillAbsentSample ++ [txid]
      else acc.stillAbsentSample := by
  unfold tally
  cases classify txid answer <;> simp

theorem tally_total (acc : Adjudication) (txid : Bytes32) :
    (tally answer acc txid).total = acc.total ∧
      (tally answer acc txid).unknownBefore = acc.unknownBefore := by
  unfold tally
  cases classify txid answer <;> exact ⟨rfl, rfl⟩

/-- The counters describe the transactions scored so far. -/
structure Counted (answer : BitcoindAnswer) (scored : List Bytes32)
    (acc : Adjudication) : Prop where
  count : ∀ c, (acc.count c).toNat = (inClass answer c scored).length
  sample : acc.stillAbsentSample =
    (inClass answer .absent scored).take absentSampleCap

theorem take_concat {α : Type*} (n : ℕ) (xs : List α) (x : α) :
    (xs ++ [x]).take n =
      if (xs.take n).length < n then xs.take n ++ [x] else xs.take n := by
  by_cases h : xs.length < n
  · have hle : (xs ++ [x]).length ≤ n := by
      rw [List.length_append, List.length_singleton]
      omega
    rw [List.take_of_length_le hle, List.take_of_length_le h.le, if_pos h]
  · have hge : n ≤ xs.length := by omega
    have hfull : ¬ (xs.take n).length < n := by
      rw [List.length_take]
      omega
    rw [if_neg hfull, List.take_append_of_le_length hge]

/-- One turn of the loop scores one more transaction. -/
theorem Counted.tally {scored : List Bytes32} {acc : Adjudication}
    (h : Counted answer scored acc) (hlen : scored.length + 1 < 2 ^ 32)
    (txid : Bytes32) :
    Counted answer (scored ++ [txid]) (tally answer acc txid) := by
  constructor
  · intro c
    rw [tally_count, inClass_concat]
    by_cases hc : classify txid answer = c
    · have hle : (inClass answer c scored).length ≤ scored.length :=
        List.length_filter_le _ _
      have hlt : (acc.count c).toNat + (1 : UInt32).toNat < 2 ^ 32 := by
        rw [h.count c, UInt32.toNat_one]
        omega
      rw [if_pos hc, if_pos hc, satAdd32_toNat hlt, h.count c,
        List.length_append]
      rfl
    · rw [if_neg hc, if_neg hc, h.count c]
  · rw [tally_sample, inClass_concat, h.sample]
    by_cases hc : classify txid answer = .absent
    · rw [if_pos hc, take_concat]
      simp only [hc, true_and]
    · rw [if_neg hc, if_neg fun habs => hc habs.1]

/-- The loop scores every transaction it is given. -/
theorem Counted.foldl {scored : List Bytes32} {acc : Adjudication}
    (h : Counted answer scored acc) (txids : List Bytes32)
    (hlen : scored.length + txids.length < 2 ^ 32) :
    Counted answer (scored ++ txids) (txids.foldl (Verifier.tally answer) acc) := by
  induction txids generalizing scored acc with
  | nil =>
      rw [List.append_nil]
      exact h
  | cons txid txids ih =>
      rw [List.length_cons] at hlen
      have hstep := h.tally (by omega) txid
      have hrest := ih hstep (by
        rw [List.length_append, List.length_singleton]
        omega)
      rw [List.append_assoc] at hrest
      exact hrest

theorem foldl_total (txids : List Bytes32) (acc : Adjudication) :
    (txids.foldl (tally answer) acc).total = acc.total ∧
      (txids.foldl (tally answer) acc).unknownBefore = acc.unknownBefore := by
  induction txids generalizing acc with
  | nil => exact ⟨rfl, rfl⟩
  | cons txid txids ih =>
      rw [List.foldl_cons, (ih _).1, (ih _).2]
      exact tally_total acc txid

theorem adjudicate_total (total : UInt32) (unknown : List Bytes32) :
    (adjudicate total unknown answer).total = total ∧
      (adjudicate total unknown answer).unknownBefore =
        u32TryFrom unknown.length :=
  foldl_total unknown _

theorem adjudicate_counted (total : UInt32) {unknown : List Bytes32}
    (hlen : unknown.length < 2 ^ 32) :
    Counted answer unknown (adjudicate total unknown answer) := by
  have hempty : Counted answer []
      { total := total
        unknownBefore := u32TryFrom unknown.length
        inMempool := 0
        mined := 0
        stillAbsent := 0
        unadjudicated := 0
        stillAbsentSample := []
        blocksScanned := answer.blocksScanned
        blockWalkTruncated := answer.blockWalkTruncated
        tipHeight := answer.tipHeight
        blockWalkShortfall := answer.blockWalkShortfall } := by
    constructor
    · intro c
      cases c <;> rfl
    · rfl
  apply hempty.foldl unknown
  rw [List.length_nil]
  omega

/-- The count the decision uses. -/
theorem adjudicate_notProvenKnown (total : UInt32) {unknown : List Bytes32}
    (hlen : unknown.length < 2 ^ 32) :
    (adjudicate total unknown answer).notProvenKnown.toNat =
      (notKnown answer unknown).length := by
  have hcounted : Counted answer unknown (adjudicate total unknown answer) :=
    adjudicate_counted total hlen
  have habsent := hcounted.count .absent
  have hunadjudicated := hcounted.count .unadjudicated
  have hle : (notKnown answer unknown).length ≤ unknown.length :=
    List.length_filter_le _ _
  simp only [Adjudication.count] at habsent hunadjudicated
  rw [notKnown_length] at hle ⊢
  rw [Adjudication.notProvenKnown, satAdd32_toNat, habsent, hunadjudicated]
  rw [habsent, hunadjudicated]
  omega

/-! ## The decision -/

variable {ask : SecondChance} {unknown : List Bytes32}
  {total height : UInt32} {tolerancePct : Float}

/-- The three ways out of an answered lookup. -/
theorem runSecondChance_of_ok (total : UInt32) (tolerancePct : Float)
    {answer : BitcoindAnswer} (hask : ask height unknown = .ok answer) :
    ((adjudicate total unknown answer).stillExceeds tolerancePct = false ∧
        runSecondChance (some ask) (.rejected unknown total) height
          tolerancePct = some (.withdrawn (adjudicate total unknown answer))) ∨
      ((adjudicate total unknown answer).stillExceeds tolerancePct = true ∧
        (adjudicate total unknown answer).unadjudicated = 0 ∧
        answer.blockWalkShortfall = none ∧
        runSecondChance (some ask) (.rejected unknown total) height
          tolerancePct = some (.upheld (adjudicate total unknown answer))) ∨
      ((adjudicate total unknown answer).stillExceeds tolerancePct = true ∧
        ((adjudicate total unknown answer).unadjudicated ≠ 0 ∨
          answer.blockWalkShortfall ≠ none) ∧
        ∃ n e, runSecondChance (some ask) (.rejected unknown total) height
          tolerancePct =
            some (lookupFailed total (u32TryFrom unknown.length) n e)) := by
  by_cases hexceeds :
      (adjudicate total unknown answer).stillExceeds tolerancePct = true
  · simp only [runSecondChance, hask]
    rw [if_neg (not_not.mpr hexceeds)]
    by_cases hpos : 0 < (adjudicate total unknown answer).unadjudicated
    · rw [if_pos hpos]
      refine .inr (.inr ⟨hexceeds, .inl ?_, _, _, rfl⟩)
      intro hzero
      rw [hzero] at hpos
      exact absurd hpos (by decide)
    · have hzero : (adjudicate total unknown answer).unadjudicated = 0 := by
        rw [UInt32.lt_iff_toNat_lt] at hpos
        apply UInt32.toNat_inj.mp
        exact Nat.eq_zero_of_not_pos hpos
      rw [if_neg hpos]
      cases hshort : answer.blockWalkShortfall with
      | some shortfall =>
          exact .inr (.inr ⟨hexceeds, .inr (by simp), _, _, rfl⟩)
      | none => exact .inr (.inl ⟨hexceeds, hzero, rfl, rfl⟩)
  · rw [Bool.not_eq_true] at hexceeds
    exact .inl ⟨hexceeds, runSecondChance_of_within hask hexceeds⟩

theorem runSecondChance_of_error {e : SecondChanceError}
    (hask : ask height unknown = .error e) :
    runSecondChance (some ask) (.rejected unknown total) height tolerancePct =
      some (lookupFailed total (u32TryFrom unknown.length) 0 e) := by
  simp only [runSecondChance, hask]

/-- A rejection is upheld when the count still exceeds the tolerance, every
probe was answered and the walk was complete. -/
theorem runSecondChance_upheld {adjudication : Adjudication} :
    runSecondChance (some ask) (.rejected unknown total) height tolerancePct =
        some (.upheld adjudication) ↔
      ∃ answer, ask height unknown = .ok answer ∧
        adjudication = adjudicate total unknown answer ∧
        adjudication.stillExceeds tolerancePct = true ∧
        adjudication.unadjudicated = 0 ∧
        answer.blockWalkShortfall = none := by
  cases hask : ask height unknown with
  | error e => simp [runSecondChance_of_error hask, lookupFailed]
  | ok answer =>
      obtain ⟨hexceeds, hrun⟩ | ⟨hexceeds, hzero, hshort, hrun⟩ |
        ⟨-, hfail, n, e, hrun⟩ :=
          runSecondChance_of_ok total tolerancePct hask
      · rw [hrun]
        constructor
        · intro h
          cases h
        · rintro ⟨answer', hok, rfl, h, -⟩
          cases hok
          rw [hexceeds] at h
          cases h
      · rw [hrun]
        constructor
        · intro h
          cases h
          exact ⟨answer, rfl, rfl, hexceeds, hzero, hshort⟩
        · rintro ⟨answer', hok, rfl, -⟩
          cases hok
          rfl
      · rw [hrun]
        constructor
        · intro h
          cases h
        · rintro ⟨answer', hok, rfl, -, hzero, hshort⟩
          cases hok
          exact hfail.elim (absurd hzero) (absurd hshort)

/-- A rejection is withdrawn when the count no longer exceeds the tolerance. -/
theorem runSecondChance_withdrawn {adjudication : Adjudication} :
    runSecondChance (some ask) (.rejected unknown total) height tolerancePct =
        some (.withdrawn adjudication) ↔
      ∃ answer, ask height unknown = .ok answer ∧
        adjudication = adjudicate total unknown answer ∧
        adjudication.stillExceeds tolerancePct = false := by
  cases hask : ask height unknown with
  | error e => simp [runSecondChance_of_error hask, lookupFailed]
  | ok answer =>
      obtain ⟨hexceeds, hrun⟩ | ⟨hexceeds, -, -, hrun⟩ |
        ⟨hexceeds, -, n, e, hrun⟩ :=
          runSecondChance_of_ok total tolerancePct hask
      · rw [hrun]
        constructor
        · intro h
          cases h
          exact ⟨answer, rfl, rfl, hexceeds⟩
        · rintro ⟨answer', hok, rfl, -⟩
          cases hok
          rfl
      all_goals
        rw [hrun]
        constructor
        · intro h
          cases h
        · rintro ⟨answer', hok, rfl, h⟩
          cases hok
          rw [hexceeds] at h
          cases h

/-- The tolerance at a total is monotone in the count. -/
def ToleranceMonotone (total : UInt32) (tolerancePct : Float) : Prop :=
  ∀ a b : UInt32, a.toNat ≤ b.toNat →
    exceedsTolerance a total tolerancePct = true →
      exceedsTolerance b total tolerancePct = true

/-- A larger answer does not bring a withdrawn rejection back. -/
theorem stillExceeds_of_larger (hmono : ToleranceMonotone total tolerancePct)
    (hlen : unknown.length < 2 ^ 32) {answer answer' : BitcoindAnswer}
    (hpresent : answer.presentInMempool ⊆ answer'.presentInMempool)
    (hmined : answer.recentBlockTxids ⊆ answer'.recentBlockTxids)
    (h : (adjudicate total unknown answer').stillExceeds tolerancePct = true) :
    (adjudicate total unknown answer).stillExceeds tolerancePct = true := by
  unfold Adjudication.stillExceeds at h ⊢
  rw [(adjudicate_total total unknown).1] at h ⊢
  apply hmono _ _ _ h
  rw [adjudicate_notProvenKnown total hlen, adjudicate_notProvenKnown total hlen]
  exact (notKnown_sublist hpresent hmined unknown).length_le

/-- The counts of every answer describe four disjoint classes that make up the
unknown list, a rejection is upheld exactly on full evidence, and a larger
answer keeps a withdrawal. -/
theorem second_chance_conserves (total height : UInt32) (tolerancePct : Float)
    (unknown : List Bytes32) (hlen : unknown.length < 2 ^ 32) :
    (∀ answer : BitcoindAnswer,
      let result := adjudicate total unknown answer
      (∀ c d, c ≠ d →
          (inClass answer c unknown).Disjoint (inClass answer d unknown)) ∧
        result.inMempool.toNat =
          (inClass answer .inMempool unknown).length ∧
        result.mined.toNat = (inClass answer .mined unknown).length ∧
        result.stillAbsent.toNat = (inClass answer .absent unknown).length ∧
        result.unadjudicated.toNat =
          (inClass answer .unadjudicated unknown).length ∧
        result.inMempool.toNat + result.mined.toNat +
            result.stillAbsent.toNat + result.unadjudicated.toNat =
          unknown.length ∧
        result.unknownBefore.toNat = unknown.length ∧
        result.stillAbsentSample.length ≤ 32 ∧
        ∀ txid ∈ result.stillAbsentSample, txid ∈ unknown ∧
          txid ∉ answer.presentInMempool ∧ txid ∉ answer.recentBlockTxids ∧
          txid ∉ answer.unadjudicated) ∧
      (∀ (ask : SecondChance) (result : Adjudication),
        runSecondChance (some ask) (.rejected unknown total) height
            tolerancePct = some (.upheld result) ↔
          ∃ answer, ask height unknown = .ok answer ∧
            result = adjudicate total unknown answer ∧
            result.stillExceeds tolerancePct = true ∧
            result.unadjudicated = 0 ∧ answer.blockWalkShortfall = none) ∧
      (ToleranceMonotone total tolerancePct →
        ∀ (ask ask' : SecondChance) (answer answer' : BitcoindAnswer),
          ask height unknown = .ok answer →
          ask' height unknown = .ok answer' →
          answer.presentInMempool ⊆ answer'.presentInMempool →
          answer.recentBlockTxids ⊆ answer'.recentBlockTxids →
          runSecondChance (some ask) (.rejected unknown total) height
              tolerancePct =
            some (.withdrawn (adjudicate total unknown answer)) →
          runSecondChance (some ask') (.rejected unknown total) height
              tolerancePct =
            some (.withdrawn (adjudicate total unknown answer'))) := by
  refine ⟨?_, ?_, ?_⟩
  · intro answer result
    have hcounted : Counted answer unknown result :=
      adjudicate_counted total hlen
    have hinMempool := hcounted.count .inMempool
    have hmined := hcounted.count .mined
    have habsent := hcounted.count .absent
    have hunadjudicated := hcounted.count .unadjudicated
    simp only [Adjudication.count] at hinMempool hmined habsent hunadjudicated
    have hbefore : result.unknownBefore.toNat = unknown.length := by
      rw [(adjudicate_total total unknown).2, u32TryFrom_toNat hlen]
    refine ⟨fun c d h => inClass_disjoint h unknown, hinMempool, hmined,
      habsent, hunadjudicated, ?_, hbefore, ?_, ?_⟩
    · rw [hinMempool, hmined, habsent, hunadjudicated]
      exact inClass_length_sum unknown
    · rw [hcounted.sample]
      exact List.length_take_le _ _
    · intro txid hmem
      rw [hcounted.sample] at hmem
      obtain ⟨hunknown, hclass⟩ := mem_inClass.mp (List.mem_of_mem_take hmem)
      exact ⟨hunknown, classify_eq_absent.mp hclass⟩
  · intro ask result
    exact runSecondChance_upheld
  · intro hmono ask ask' answer answer' hask hask' hpresent hmined hrun
    obtain ⟨answer₀, hask₀, -, hexceeds⟩ := runSecondChance_withdrawn.mp hrun
    cases hask.symm.trans hask₀
    apply runSecondChance_withdrawn.mpr
    refine ⟨answer', hask', rfl, ?_⟩
    by_contra hstill
    rw [Bool.not_eq_false] at hstill
    rw [stillExceeds_of_larger hmono hlen hpresent hmined hstill] at hexceeds
    cases hexceeds

/-- One transaction probed present, one not answered, and a walk that found
`mined`. -/
def mixedAnswer (mined : Finset Bytes32) : BitcoindAnswer where
  presentInMempool := {Bytes32.fill 1}
  unadjudicated := {Bytes32.fill 2}
  recentBlockTxids := mined
  blocksScanned := 1
  blockWalkTruncated := false
  tipHeight := some 900000
  blockWalkShortfall := none

/-- Three unknown transactions. -/
def threeUnknown : List Bytes32 :=
  [Bytes32.fill 1, Bytes32.fill 2, Bytes32.fill 3]

theorem second_chance_conserves_mixedAnswer :
    (adjudicate 100 threeUnknown (mixedAnswer ∅)).stillAbsent.toNat = 1 ∧
      ToleranceMonotone 0 4.0 ∧
      runSecondChance (some fun _ _ => .ok (mixedAnswer {Bytes32.fill 3}))
          (.rejected threeUnknown 0) 900000 4.0 =
        some (.withdrawn
          (adjudicate 0 threeUnknown (mixedAnswer {Bytes32.fill 3}))) := by
  have hmono : ToleranceMonotone 0 4.0 := by
    intro a b _ h
    have hzero : exceedsTolerance a 0 4.0 = false := rfl
    rw [hzero] at h
    cases h
  obtain ⟨hcounts, -, -⟩ :=
    second_chance_conserves 100 900000 4.0 threeUnknown (by decide)
  obtain ⟨-, -, hkeeps⟩ :=
    second_chance_conserves 0 900000 4.0 threeUnknown (by decide)
  refine ⟨?_, hmono, ?_⟩
  · obtain ⟨-, -, -, habsent, -⟩ := hcounts (mixedAnswer ∅)
    rw [habsent]
    decide
  · apply hkeeps hmono (fun _ _ => .ok (mixedAnswer ∅)) _ (mixedAnswer ∅)
      (mixedAnswer {Bytes32.fill 3}) rfl rfl (Finset.Subset.refl _)
      (Finset.empty_subset _)
    apply runSecondChance_withdrawn.mpr
    exact ⟨mixedAnswer ∅, rfl, rfl, rfl⟩

end ReserveGrid.Verifier
