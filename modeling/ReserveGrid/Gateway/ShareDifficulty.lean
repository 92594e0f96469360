import Mathlib.Data.Nat.Size
import ReserveGrid.Gateway.Shares
import ReserveGrid.Support.LongDivision

/-!
# Difficulties and targets

A target and a difficulty are turned into each other by dividing the target of
difficulty one, by binary long division over numbers kept in two 128-bit
halves. The target of a difficulty is the exact quotient. So is the difficulty
of a target, except where the number of shifts cuts the division short: a
target of 160 bits is held at the largest difficulty, although the quotient of
most of them is smaller.
-/

namespace ReserveGrid.Gateway

open Support Support.LongDivision Bitcoin

namespace U256

/-! ## The value of two halves -/

def toNat (v : U256) : ℕ := v.lo.toNat + 2 ^ 128 * v.hi.toNat

theorem toNat_lt (v : U256) : v.toNat < 2 ^ 256 := by
  have hlo := v.lo.isLt
  have hhi := v.hi.isLt
  unfold toNat
  omega

theorem toNat_inj {a b : U256} : a.toNat = b.toNat ↔ a = b := by
  constructor
  · intro h
    have halo := a.lo.isLt
    have hblo := b.lo.isLt
    unfold toNat at h
    obtain ⟨alo, ahi⟩ := a
    obtain ⟨blo, bhi⟩ := b
    have hlo : alo = blo := BitVec.eq_of_toNat_eq (by dsimp only at *; omega)
    have hhi : ahi = bhi := BitVec.eq_of_toNat_eq (by dsimp only at *; omega)
    rw [hlo, hhi]
  · rintro rfl
    rfl

theorem toNat_ofLe (bytes : Bytes32) : (ofLe bytes).toNat = leNat bytes.toBytes := by
  have hlen := bytes.length_toBytes
  have hlow := leNat_lt (bytes.toBytes.take 16)
  have hhigh := leNat_lt (bytes.toBytes.drop 16)
  have hsplit := leNat_append (bytes.toBytes.take 16) (bytes.toBytes.drop 16)
  rw [List.take_append_drop] at hsplit
  have hwidth : (256 : ℕ) ^ 16 = 2 ^ 128 := by norm_num
  rw [List.length_take, hlen, min_eq_left (by decide), hwidth] at hlow hsplit
  rw [List.length_drop, hlen] at hhigh
  change _ < 256 ^ 16 at hhigh
  rw [hwidth] at hhigh
  rw [hsplit]
  simp only [toNat, ofLe, BitVec.toNat_ofNat]
  rw [Nat.mod_eq_of_lt hlow, Nat.mod_eq_of_lt hhigh]

theorem leNat_toLe (v : U256) : leNat v.toLe.toBytes = v.toNat := by
  change leNat (leBytes 16 v.lo.toNat ++ leBytes 16 v.hi.toNat) = _
  have hlo := v.lo.isLt
  have hhi := v.hi.isLt
  rw [leNat_append, leNat_leBytes_of_lt (by omega), leNat_leBytes_of_lt (by omega),
    length_leBytes]
  rfl

theorem gte_iff (a b : U256) : a.gte b = true ↔ b.toNat ≤ a.toNat := by
  have halo := a.lo.isLt
  have hblo := b.lo.isLt
  simp only [gte, toNat, BitVec.lt_def, BitVec.le_def]
  split
  · simp only [true_iff]
    omega
  · split
    · simp only [Bool.false_eq_true, false_iff]
      omega
    · simp only [decide_eq_true_eq]
      omega

theorem gt_iff (a b : U256) : a.gt b = true ↔ b.toNat < a.toNat := by
  have halo := a.lo.isLt
  have hblo := b.lo.isLt
  simp only [gt, toNat, BitVec.lt_def]
  split
  · simp only [true_iff]
    omega
  · split
    · simp only [Bool.false_eq_true, false_iff]
      omega
    · simp only [decide_eq_true_eq]
      omega

/-- A subtraction that does not go below zero loses no borrow. -/
theorem toNat_sub {a b : U256} (h : b.toNat ≤ a.toNat) :
    (a.sub b).toNat = a.toNat - b.toNat := by
  have halo := a.lo.isLt
  have hblo := b.lo.isLt
  have hone : (1 : BitVec 128).toNat = 1 := rfl
  simp only [toNat] at h ⊢
  by_cases hborrow : a.lo < b.lo
  · have hlt : a.lo.toNat < b.lo.toNat := hborrow
    have hhi : b.hi ≤ a.hi := by
      rw [BitVec.le_def]
      omega
    have hrest : (1 : BitVec 128) ≤ a.hi - b.hi := by
      rw [BitVec.le_def, BitVec.toNat_sub_of_le hhi, hone]
      omega
    simp only [sub, if_pos hborrow]
    rw [BitVec.toNat_sub_of_lt hborrow, BitVec.toNat_sub_of_le hrest,
      BitVec.toNat_sub_of_le hhi, hone]
    omega
  · have hle : b.lo.toNat ≤ a.lo.toNat := Nat.le_of_not_lt hborrow
    have hhi : b.hi ≤ a.hi := by
      rw [BitVec.le_def]
      omega
    have hzero : a.hi - b.hi - 0 = a.hi - b.hi := BitVec.sub_zero _
    simp only [sub, if_neg hborrow]
    rw [BitVec.toNat_sub_of_le hle, hzero, BitVec.toNat_sub_of_le hhi]
    omega

/-- A shift by at least a half moves the low half up, and the high half was
empty. -/
theorem toNat_shl_high {v : U256} {k : ℕ} (hk : k + 128 < 256)
    (h : v.toNat * 2 ^ (k + 128) < 2 ^ 256) :
    (v.shl (k + 128)).toNat = v.toNat * 2 ^ (k + 128) := by
  have hpow : v.toNat * 2 ^ (k + 128) = 2 ^ 128 * (v.toNat * 2 ^ k) := by
    rw [Nat.pow_add]
    ring
  have hfits : v.toNat * 2 ^ k < 2 ^ 128 := by
    rw [hpow] at h
    omega
  have hgrows : v.toNat ≤ v.toNat * 2 ^ k :=
    Nat.le_mul_of_pos_right _ (Nat.two_pow_pos k)
  have hlow : v.toNat = v.lo.toNat := by
    have hv : v.toNat = v.lo.toNat + 2 ^ 128 * v.hi.toNat := rfl
    omega
  have hshifted : (v.lo <<< k).toNat = v.toNat * 2 ^ k := by
    rw [BitVec.toNat_shiftLeft, Nat.shiftLeft_eq, ← hlow, Nat.mod_eq_of_lt hfits]
  rw [hpow, shl, if_neg (by omega), if_neg (by omega), if_pos (by omega),
    Nat.add_sub_cancel]
  change 0 + 2 ^ 128 * (v.lo <<< k).toNat = _
  rw [hshifted, Nat.zero_add]

/-- A shift by less than a half carries the top of the low half over. -/
theorem toNat_shl_low {v : U256} {shift : ℕ} (hpos : shift ≠ 0)
    (hhalf : shift < 128) (h : v.toNat * 2 ^ shift < 2 ^ 256) :
    (v.shl shift).toNat = v.toNat * 2 ^ shift := by
  have hlo := v.lo.isLt
  have hsplit : v.toNat * 2 ^ shift =
      v.lo.toNat * 2 ^ shift + 2 ^ 128 * (v.hi.toNat * 2 ^ shift) := by
    unfold toNat
    ring
  have hwidth : 2 ^ (128 - shift) * 2 ^ shift = 2 ^ 128 := by
    rw [← Nat.pow_add, Nat.sub_add_cancel hhalf.le]
  have hcarry : v.lo.toNat / 2 ^ (128 - shift) =
      v.lo.toNat * 2 ^ shift / 2 ^ 128 := by
    rw [← hwidth, Nat.mul_div_mul_right _ _ (Nat.two_pow_pos shift)]
  have hcarry_lt : v.lo.toNat / 2 ^ (128 - shift) < 2 ^ shift := by
    rw [Nat.div_lt_iff_lt_mul (Nat.two_pow_pos _), Nat.mul_comm, hwidth]
    exact hlo
  have hhi : v.hi.toNat * 2 ^ shift < 2 ^ 128 := by omega
  have hlow : (v.lo <<< shift).toNat = v.lo.toNat * 2 ^ shift % 2 ^ 128 := by
    rw [BitVec.toNat_shiftLeft, Nat.shiftLeft_eq]
  have hhigh : (v.hi <<< shift ||| v.lo >>> (128 - shift)).toNat =
      v.hi.toNat * 2 ^ shift + v.lo.toNat * 2 ^ shift / 2 ^ 128 := by
    rw [BitVec.toNat_or, BitVec.toNat_shiftLeft, BitVec.toNat_ushiftRight,
      Nat.shiftRight_eq_div_pow,
      Nat.mod_eq_of_lt (by rw [Nat.shiftLeft_eq]; exact hhi),
      ← Nat.shiftLeft_add_eq_or_of_lt hcarry_lt, Nat.shiftLeft_eq, hcarry]
  rw [shl, if_neg hpos, if_neg (by omega), if_neg (by omega), hsplit]
  change (v.lo <<< shift).toNat +
    2 ^ 128 * (v.hi <<< shift ||| v.lo >>> (128 - shift)).toNat = _
  rw [hlow, hhigh]
  omega

/-- A shift whose result fits loses no bit. -/
theorem toNat_shl {v : U256} {shift : ℕ} (h : v.toNat * 2 ^ shift < 2 ^ 256) :
    (v.shl shift).toNat = v.toNat * 2 ^ shift := by
  by_cases hzero : shift = 0
  · rw [hzero, shl, if_pos rfl, Nat.pow_zero, Nat.mul_one]
  · by_cases hhalf : shift < 128
    · exact toNat_shl_low hzero hhalf h
    · obtain ⟨k, rfl⟩ : ∃ k, shift = k + 128 := ⟨shift - 128, by omega⟩
      by_cases hall : 256 ≤ k + 128
      · -- Only zero may be shifted by the whole width.
        have hpow : 2 ^ 256 ≤ 2 ^ (k + 128) := Nat.pow_le_pow_right (by decide) hall
        have hv : v.toNat = 0 := by
          by_contra hne
          have := Nat.le_mul_of_pos_left (2 ^ (k + 128)) (Nat.pos_of_ne_zero hne)
          omega
        rw [shl, if_neg hzero, if_pos hall, hv, Nat.zero_mul]
        rfl
      · exact toNat_shl_high (by omega) h

/-! ## Widths -/

theorem halfBits_spec (v : BitVec 128) (k : ℕ) :
    halfBits v ≤ k ↔ v.toNat < 2 ^ k := by
  unfold halfBits
  by_cases hv : v = 0
  · have hzero : v.toNat = 0 := by rw [hv]; rfl
    rw [if_pos hv, hzero]
    exact ⟨fun _ => Nat.two_pow_pos k, fun _ => Nat.zero_le k⟩
  · have hne : v.toNat ≠ 0 := fun h => hv (BitVec.eq_of_toNat_eq h)
    rw [if_neg hv, Nat.succ_le_iff, Nat.log2_lt hne]

/-- The width of a number is the least one that holds it. -/
theorem bits_le_iff (v : U256) (k : ℕ) : v.bits ≤ k ↔ v.toNat < 2 ^ k := by
  have hlo := v.lo.isLt
  unfold bits
  by_cases hhi : v.hi = 0
  · have hv : v.toNat = v.lo.toNat := by
      rw [toNat, hhi]
      rfl
    rw [if_neg (not_not.mpr hhi), halfBits_spec, hv]
  · have hne : v.hi.toNat ≠ 0 := fun h => hhi (BitVec.eq_of_toNat_eq h)
    rw [if_pos hhi]
    by_cases hk : 128 ≤ k
    · obtain ⟨j, rfl⟩ : ∃ j, k = 128 + j := ⟨k - 128, by omega⟩
      rw [Nat.add_le_add_iff_left, halfBits_spec, Nat.pow_add, toNat]
      omega
    · have hpow : 2 ^ k ≤ 2 ^ 128 := Nat.pow_le_pow_right (by decide) (by omega)
      have hv : v.toNat = v.lo.toNat + 2 ^ 128 * v.hi.toNat := rfl
      constructor
      · intro h
        omega
      · intro h
        omega

theorem bits_le_width (v : U256) : v.bits ≤ 256 :=
  (bits_le_iff v 256).mpr v.toNat_lt

/-- Setting a bit below all bits that are set adds it. -/
theorem two_pow_mul_or (k a : ℕ) :
    2 ^ (k + 1) * a ||| 2 ^ k = 2 ^ (k + 1) * a + 2 ^ k :=
  (Nat.two_pow_add_eq_or_of_lt
    (Nat.pow_lt_pow_right (by decide) (Nat.lt_succ_self k)) a).symm

theorem toNat_or (a b : U256) : (a.or b).toNat = a.toNat ||| b.toNat := by
  have hor : ∀ v : U256, v.toNat = v.hi.toNat <<< 128 ||| v.lo.toNat := by
    intro v
    rw [← Nat.shiftLeft_add_eq_or_of_lt v.lo.isLt, Nat.shiftLeft_eq, toNat]
    ring
  rw [hor a, hor b, hor (a.or b)]
  change (a.hi.toNat ||| b.hi.toNat) <<< 128 ||| (a.lo.toNat ||| b.lo.toNat) = _
  rw [Nat.shiftLeft_or_distrib]
  generalize a.hi.toNat <<< 128 = ahi
  generalize b.hi.toNat <<< 128 = bhi
  ac_rfl

end U256

/-! ## The divisions -/

/-- The target of difficulty one. -/
def diff1Target : ℕ := leNat diff1TargetBe.reverse.toBytes

theorem diff1Target_eq : diff1Target = 0xffff * 2 ^ 208 := by
  decide +kernel

theorem diff1Target_lt : diff1Target < 2 ^ 224 := by
  rw [diff1Target_eq]
  norm_num

theorem le_diff1Target : 2 ^ 223 ≤ diff1Target := by
  rw [diff1Target_eq]
  norm_num

theorem toNat_diff1 : (U256.ofLe diff1TargetBe.reverse).toNat = diff1Target :=
  U256.toNat_ofLe _

theorem bits_diff1 : (U256.ofLe diff1TargetBe.reverse).bits = 224 := by
  apply le_antisymm
  · rw [U256.bits_le_iff, toNat_diff1]
    exact diff1Target_lt
  · by_contra h
    have hlt : (U256.ofLe diff1TargetBe.reverse).bits ≤ 223 := by omega
    rw [U256.bits_le_iff, toNat_diff1] at hlt
    exact absurd hlt (not_lt_of_ge le_diff1Target)

/-- The shifted divisor has all its bits, and what is left after subtracting
it, wherever the loop does so, is the exact difference. -/
def LosslessAt (d : U256) (shift : ℕ) : Prop :=
  (d.shl shift).toNat = d.toNat * 2 ^ shift ∧
    ∀ r : U256, r.gte (d.shl shift) = true →
      (r.sub (d.shl shift)).toNat + d.toNat * 2 ^ shift = r.toNat

theorem losslessAt_of_lt {d : U256} {shift : ℕ}
    (h : d.toNat * 2 ^ shift < 2 ^ 256) :
    LosslessAt d shift := by
  have hshl := U256.toNat_shl h
  refine ⟨hshl, fun r hr => ?_⟩
  rw [U256.gte_iff] at hr
  rw [U256.toNat_sub hr, ← hshl, Nat.sub_add_cancel hr]

theorem mem_shifts {maxShift shift : ℕ} :
    shift ∈ shifts maxShift ↔ shift ≤ maxShift := by
  simp [shifts]

/-- While the divisor is shifted no further than to the width of the
numerator, no step of the division loses a bit. -/
theorem losslessAt_shifts {n d : U256} {shift : ℕ} (hd : d.bits ≤ n.bits)
    (hshift : shift ∈ shifts (n.bits - d.bits)) :
    LosslessAt d shift := by
  have hle : shift ≤ n.bits - d.bits := mem_shifts.mp hshift
  apply losslessAt_of_lt
  calc
    d.toNat * 2 ^ shift < 2 ^ d.bits * 2 ^ shift :=
      Nat.mul_lt_mul_of_pos_right ((U256.bits_le_iff d _).mp le_rfl)
        (Nat.two_pow_pos shift)
    _ = 2 ^ (d.bits + shift) := (Nat.pow_add 2 _ _).symm
    _ ≤ 2 ^ 256 := by
      refine Nat.pow_le_pow_right (by decide) ?_
      have := n.bits_le_width
      omega

/-- The highest shift of a divisor reaches over the numerator. -/
theorem lt_shifted {n d : U256} (hpos : d.toNat ≠ 0) (hd : d.bits ≤ n.bits) :
    n.toNat < d.toNat * 2 ^ (n.bits - d.bits + 1) := by
  have hbits : d.bits ≠ 0 := by
    intro h
    have hlt := (U256.bits_le_iff d 0).mp h.le
    rw [Nat.pow_zero] at hlt
    omega
  have hlow : 2 ^ (d.bits - 1) ≤ d.toNat := by
    by_contra h
    have hle := (U256.bits_le_iff d (d.bits - 1)).mpr (not_le.mp h)
    omega
  calc
    n.toNat < 2 ^ n.bits := (U256.bits_le_iff n _).mp le_rfl
    _ = 2 ^ (d.bits - 1) * 2 ^ (n.bits - d.bits + 1) := by
      rw [← Nat.pow_add]
      congr 1
      omega
    _ ≤ d.toNat * 2 ^ (n.bits - d.bits + 1) := Nat.mul_le_mul_right _ hlow

/-- A loop whose steps are those of the long division ends with its
quotient. -/
theorem quotient_of_steps {σ : Type} {step : σ → ℕ → σ} (acc : σ → ℕ × ℕ)
    {n d : U256} (hpos : d.toNat ≠ 0) (hd : d.bits ≤ n.bits)
    (hstep : ∀ k s, k ≤ n.bits - d.bits → Divides n.toNat d.toNat (k + 1) (acc s) →
      acc (step s k) = divStep d.toNat (acc s) k)
    {start : σ} (hstart : acc start = (n.toNat, 0)) :
    (acc ((shifts (n.bits - d.bits)).foldl step start)).2 =
      n.toNat / d.toNat := by
  have hkeeps : ∀ k s,
      k + 1 ≤ n.bits - d.bits + 1 ∧ Divides n.toNat d.toNat (k + 1) (acc s) →
        k ≤ n.bits - d.bits + 1 ∧ Divides n.toNat d.toNat k (acc (step s k)) := by
    rintro k s ⟨hk, hdivides⟩
    rw [hstep k s (by omega) hdivides]
    exact ⟨by omega, hdivides.step⟩
  have hfirst : Divides n.toNat d.toNat (n.bits - d.bits + 1) (acc start) :=
    hstart ▸ divides_start (lt_shifted hpos hd)
  have hlast := foldl_range_reverse
    (fun k s => k ≤ n.bits - d.bits + 1 ∧ Divides n.toNat d.toNat k (acc s))
    hkeeps ⟨le_rfl, hfirst⟩
  exact hlast.2.result.1

/-! ## The target of a difficulty -/

/-- Remainder and quotient of the loop over the target bits. -/
def targetAcc (acc : U256 × U256) : ℕ × ℕ := (acc.1.toNat, acc.2.toNat)

theorem targetStep_eq {n k : ℕ} {d : U256} {acc : U256 × U256}
    (hlossless : LosslessAt d k) (hk : k < 256)
    (h : Divides n d.toNat (k + 1) (targetAcc acc)) :
    targetAcc (targetStep d acc k) = divStep d.toNat (targetAcc acc) k := by
  obtain ⟨hshl, hsub⟩ := hlossless
  have hgte := U256.gte_iff acc.1 (d.shl k)
  rw [hshl] at hgte
  unfold targetStep divStep
  by_cases hfits : d.toNat * 2 ^ k ≤ (targetAcc acc).1
  · have hr := hsub acc.1 (hgte.mpr hfits)
    obtain ⟨a, ha⟩ := h.bits
    have hquotient : acc.2.toNat = 2 ^ (k + 1) * a := ha
    have hone : U256.toNat ⟨1, 0⟩ = 1 := rfl
    have hbit : (U256.shl ⟨1, 0⟩ k).toNat = 2 ^ k := by
      have hlt : 2 ^ k < 2 ^ 256 := Nat.pow_lt_pow_right (by decide) hk
      rw [U256.toNat_shl (by rwa [hone, Nat.one_mul]), hone, Nat.one_mul]
    have hor : (acc.2.or (U256.shl ⟨1, 0⟩ k)).toNat = acc.2.toNat + 2 ^ k := by
      rw [U256.toNat_or, hbit, hquotient, U256.two_pow_mul_or]
    rw [if_pos (hgte.mpr hfits), if_pos hfits]
    change ((acc.1.sub (d.shl k)).toNat,
      (acc.2.or (U256.shl ⟨1, 0⟩ k)).toNat) = _
    rw [hor, Nat.eq_sub_of_add_eq hr]
    rfl
  · rw [if_neg fun hle => hfits (hgte.mp hle), if_neg hfits]

/-- The divisor of a difficulty. -/
def divisorOf (difficulty : UInt64) : U256 :=
  ⟨BitVec.ofNat 128 difficulty.toNat, 0⟩

theorem toNat_divisorOf (difficulty : UInt64) :
    (divisorOf difficulty).toNat = difficulty.toNat := by
  have hlt : difficulty.toNat < 2 ^ 64 := difficulty.toNat_lt
  change difficulty.toNat % 2 ^ 128 + 2 ^ 128 * 0 = _
  rw [Nat.mod_eq_of_lt (lt_trans hlt (by decide)), Nat.mul_zero, Nat.add_zero]

theorem bits_divisorOf_le (difficulty : UInt64) :
    (divisorOf difficulty).bits ≤ 64 := by
  rw [U256.bits_le_iff, toNat_divisorOf]
  exact difficulty.toNat_lt

/-- The loop of `difficultyToTarget`. -/
def targetQuotient (n d : U256) : U256 :=
  ((shifts (n.bits - d.bits)).foldl (targetStep d) (n, ⟨0, 0⟩)).2

theorem difficultyToTarget_eq {difficulty : UInt64} (h : difficulty ≠ 0)
    (hbits : (divisorOf difficulty).bits ≤
      (U256.ofLe diff1TargetBe.reverse).bits) :
    difficultyToTarget difficulty =
      (targetQuotient (U256.ofLe diff1TargetBe.reverse)
        (divisorOf difficulty)).toLe := by
  have hunfold : difficultyToTarget difficulty =
      if difficulty = 0 then Bytes32.fill 0xff
      else if (U256.ofLe diff1TargetBe.reverse).bits < (divisorOf difficulty).bits
        then Bytes32.zero
      else (targetQuotient (U256.ofLe diff1TargetBe.reverse)
        (divisorOf difficulty)).toLe := rfl
  rw [hunfold, if_neg h, if_neg (not_lt.mpr hbits)]

/-- The target of a difficulty is the exact quotient. -/
theorem leNat_difficultyToTarget {difficulty : UInt64} (h : difficulty ≠ 0) :
    leNat (difficultyToTarget difficulty).toBytes =
      diff1Target / difficulty.toNat := by
  have hpos : (divisorOf difficulty).toNat ≠ 0 := by
    rw [toNat_divisorOf]
    exact fun hzero => h (UInt64.toNat_inj.mp hzero)
  have hbits : (divisorOf difficulty).bits ≤
      (U256.ofLe diff1TargetBe.reverse).bits := by
    rw [bits_diff1]
    exact (bits_divisorOf_le difficulty).trans (by decide)
  have hstep : ∀ k s, k ≤ (U256.ofLe diff1TargetBe.reverse).bits -
      (divisorOf difficulty).bits →
      Divides (U256.ofLe diff1TargetBe.reverse).toNat (divisorOf difficulty).toNat
        (k + 1) (targetAcc s) →
      targetAcc (targetStep (divisorOf difficulty) s k) =
        divStep (divisorOf difficulty).toNat (targetAcc s) k := by
    intro k s hk hdivides
    refine targetStep_eq (losslessAt_shifts hbits (mem_shifts.mpr hk)) ?_ hdivides
    rw [bits_diff1] at hk
    omega
  have hstart : targetAcc (U256.ofLe diff1TargetBe.reverse, ⟨0, 0⟩) =
      ((U256.ofLe diff1TargetBe.reverse).toNat, 0) := rfl
  rw [difficultyToTarget_eq h hbits, U256.leNat_toLe, ← toNat_diff1, ← toNat_divisorOf difficulty]
  exact quotient_of_steps targetAcc hpos hbits hstep hstart

theorem diff1_div_pos (difficulty : UInt64) (h : difficulty ≠ 0) :
    0 < diff1Target / difficulty.toNat := by
  have hpos : 0 < difficulty.toNat :=
    Nat.pos_of_ne_zero fun hzero => h (UInt64.toNat_inj.mp hzero)
  have hlt : difficulty.toNat < 2 ^ 64 := difficulty.toNat_lt
  have hbig : 2 ^ 64 ≤ diff1Target := le_trans (by norm_num) le_diff1Target
  exact Nat.div_pos (hlt.le.trans hbig) hpos

/-- Comparing from the most significant byte compares the numbers. -/
theorem bytesLe_reverse {as bs : Bytes} (hlen : as.length = bs.length) :
    bytesLe as bs = true ↔ leNat as.reverse ≤ leNat bs.reverse := by
  induction as generalizing bs with
  | nil =>
      cases bs with
      | nil => simp [bytesLe]
      | cons b bs => simp at hlen
  | cons a as ih =>
      cases bs with
      | nil => simp at hlen
      | cons b bs =>
          have hrest : as.length = bs.length := by simpa using hlen
          have ha := leNat_lt as.reverse
          have hb := leNat_lt bs.reverse
          rw [List.length_reverse] at ha hb
          rw [List.reverse_cons, List.reverse_cons, leNat_append, leNat_append,
            List.length_reverse, List.length_reverse, hrest]
          rw [hrest] at ha
          simp only [leNat, Nat.mul_zero, Nat.add_zero]
          rw [bytesLe]
          generalize 256 ^ bs.length = base at ha hb ⊢
          by_cases hlt : a < b
          · have hstep : a.toNat + 1 ≤ b.toNat := UInt8.lt_iff_toNat_lt.mp hlt
            have hmul := Nat.mul_le_mul_left base hstep
            rw [Nat.mul_add, Nat.mul_one] at hmul
            rw [if_pos hlt]
            simp only [true_iff]
            omega
          · by_cases hgt : b < a
            · have hstep : b.toNat + 1 ≤ a.toNat := UInt8.lt_iff_toNat_lt.mp hgt
              have hmul := Nat.mul_le_mul_left base hstep
              rw [Nat.mul_add, Nat.mul_one] at hmul
              rw [if_neg hlt, if_pos hgt]
              simp only [Bool.false_eq_true, false_iff]
              omega
            · have heq : a = b :=
                UInt8.le_antisymm (UInt8.not_lt.mp hgt) (UInt8.not_lt.mp hlt)
              rw [if_neg hlt, if_neg hgt, ih hrest, heq]
              omega

theorem validateSharePow_iff {sha : Bytes → Bytes32} {header : Bytes}
    {target : Bytes32} :
    validateSharePow sha header target = true ↔
      leNat (sha256d sha header).toBytes ≤ leNat target.toBytes := by
  unfold validateSharePow
  rw [bytesLe_reverse (by simp), List.reverse_reverse, List.reverse_reverse]

/-- Raising the difficulty lowers the target. -/
theorem leNat_difficultyToTarget_antitone {difficulty harder : UInt64}
    (h : difficulty ≠ 0) (hle : difficulty ≤ harder) :
    leNat (difficultyToTarget harder).toBytes ≤
      leNat (difficultyToTarget difficulty).toBytes := by
  have hnat : difficulty.toNat ≤ harder.toNat := UInt64.le_iff_toNat_le.mp hle
  have hpos : 0 < difficulty.toNat :=
    Nat.pos_of_ne_zero fun hzero => h (UInt64.toNat_inj.mp hzero)
  have hharder : harder ≠ 0 := by
    rintro rfl
    exact absurd hnat (not_le.mpr hpos)
  rw [leNat_difficultyToTarget h, leNat_difficultyToTarget hharder]
  exact Nat.div_le_div_left hnat hpos

/-- The target of a difficulty is the target of difficulty one divided by it,
is never zero, and goes down as the difficulty goes up, so that a share which
meets a harder target meets the easier ones. -/
theorem difficultyToTarget_exact (difficulty : UInt64) (h : difficulty ≠ 0) :
    leNat (difficultyToTarget difficulty).toBytes =
        diff1Target / difficulty.toNat ∧
      leNat (difficultyToTarget difficulty).toBytes ≠ 0 ∧
      ∀ harder, difficulty ≤ harder →
        leNat (difficultyToTarget harder).toBytes ≤
            leNat (difficultyToTarget difficulty).toBytes ∧
          ∀ sha header,
            validateSharePow sha header (difficultyToTarget harder) = true →
              validateSharePow sha header (difficultyToTarget difficulty) =
                true := by
  refine ⟨leNat_difficultyToTarget h, ?_, ?_⟩
  · rw [leNat_difficultyToTarget h]
    exact (diff1_div_pos difficulty h).ne'
  · intro harder hle
    have hantitone := leNat_difficultyToTarget_antitone h hle
    refine ⟨hantitone, fun sha header hmeets => ?_⟩
    rw [validateSharePow_iff] at hmeets ⊢
    exact hmeets.trans hantitone

theorem difficultyToTarget_exact_two :
    leNat (difficultyToTarget 2).toBytes = diff1Target / 2 :=
  (difficultyToTarget_exact 2 (by decide)).1

/-! ## The proof of work -/

/-- The loop over the bytes of a hash and of a target below an index, from the
most significant one down. -/
def meetsBelow (blockHash maximumTarget : Bytes) : ℕ → Bool
  | 0 => true
  | i + 1 =>
      match compare (blockHash.getD i 0) (maximumTarget.getD i 0) with
      | .lt => true
      | .gt => false
      | .eq => meetsBelow blockHash maximumTarget i

theorem bytesLe_cons (a b : UInt8) (as bs : Bytes) :
    bytesLe (a :: as) (b :: bs) =
      match compare a b with
      | .lt => true
      | .gt => false
      | .eq => bytesLe as bs := by
  change _ = match compareOfLessAndEq a b with
    | .lt => true
    | .gt => false
    | .eq => bytesLe as bs
  rw [bytesLe, compareOfLessAndEq]
  by_cases hlt : a < b
  · rw [if_pos hlt, if_pos hlt]
  · rw [if_neg hlt, if_neg hlt]
    by_cases heq : a = b
    · rw [if_neg (heq ▸ UInt8.lt_irrefl a), if_pos heq]
    · have hgt : b < a := UInt8.lt_of_le_of_ne (UInt8.not_lt.mp hlt) (Ne.symm heq)
      rw [if_pos hgt, if_neg heq]

/-- The bytes below an index, compared from the last one. -/
theorem bytesLe_take {as bs : Bytes} {i : ℕ} (ha : i ≤ as.length) (hb : i ≤ bs.length) :
    bytesLe (as.take i).reverse (bs.take i).reverse = meetsBelow as bs i := by
  induction i with
  | zero => rfl
  | succ i ih =>
      have hlast : ∀ {cs : Bytes}, i + 1 ≤ cs.length →
          (cs.take (i + 1)).reverse = cs.getD i 0 :: (cs.take i).reverse := by
        intro cs hc
        rw [List.take_succ_eq_append_getElem hc, List.reverse_append,
          List.getD_eq_getElem?_getD, List.getElem?_eq_getElem hc]
        rfl
      rw [hlast ha, hlast hb, bytesLe_cons, meetsBelow, ih (by omega) (by omega)]

/-- The check of the proof of work is the loop over all 32 bytes. -/
theorem validateSharePow_eq_loop (sha : Bytes → Bytes32) (header : Bytes)
    (target : Bytes32) :
    validateSharePow sha header target =
      meetsBelow (sha256d sha header).toBytes target.toBytes 32 := by
  have hhash := (sha256d sha header).length_toBytes
  have htarget := target.length_toBytes
  rw [← bytesLe_take hhash.ge htarget.ge, List.take_of_length_le hhash.le,
    List.take_of_length_le htarget.le]
  rfl

/-- Difficulty zero has the largest target there is. -/
theorem le_difficultyToTarget_zero (target : Bytes32) :
    leNat target.toBytes ≤ leNat (difficultyToTarget 0).toBytes := by
  have hlargest : leNat (difficultyToTarget 0).toBytes = 256 ^ 32 - 1 := by
    decide +kernel
  have hlt := leNat_lt target.toBytes
  rw [target.length_toBytes] at hlt
  rw [hlargest]
  exact Nat.le_sub_one_of_lt hlt

theorem leNat_difficultyToTarget_le {easier harder : UInt64} (hle : easier ≤ harder) :
    leNat (difficultyToTarget harder).toBytes ≤
      leNat (difficultyToTarget easier).toBytes := by
  by_cases hzero : easier = 0
  · rw [hzero]
    exact le_difficultyToTarget_zero _
  · exact leNat_difficultyToTarget_antitone hzero hle

/-- A share meets a target exactly when its hash is at most the target, as
numbers, so that a share which meets the target of a difficulty meets the target
of every lower one. -/
theorem validateSharePow_exact (sha : Bytes → Bytes32) (header : Bytes) :
    (∀ target : Bytes32, validateSharePow sha header target = true ↔
        leNat (sha256d sha header).toBytes ≤ leNat target.toBytes) ∧
      ∀ easier harder : UInt64, easier ≤ harder →
        validateSharePow sha header (difficultyToTarget harder) = true →
          validateSharePow sha header (difficultyToTarget easier) = true := by
  refine ⟨fun target => validateSharePow_iff, ?_⟩
  intro easier harder hle hmeets
  rw [validateSharePow_iff] at hmeets ⊢
  exact hmeets.trans (leNat_difficultyToTarget_le hle)

theorem validateSharePow_exact_two :
    validateSharePow (fun _ => Bytes32.zero) [] (difficultyToTarget 2) = true ∧
      validateSharePow (fun _ => Bytes32.zero) [] (difficultyToTarget 1) = true := by
  have hmeets :
      validateSharePow (fun _ => Bytes32.zero) [] (difficultyToTarget 2) = true := by
    decide +kernel
  exact ⟨hmeets, (validateSharePow_exact _ []).2 1 2 (by decide) hmeets⟩

/-! ## The difficulty of a target -/

/-- Setting one of the 64 bits loses nothing. -/
theorem toNat_bit {k : ℕ} (hk : k < 64) :
    (1 <<< UInt64.ofNat k : UInt64).toNat = 2 ^ k := by
  have hlt : 2 ^ k < 2 ^ 64 := Nat.pow_lt_pow_right (by decide) hk
  have hshift : (UInt64.ofNat k).toNat % 64 = k := by
    rw [UInt64.toNat_ofNat']
    omega
  rw [UInt64.toNat_shiftLeft, hshift, Nat.shiftLeft_eq]
  change 1 * 2 ^ k % 2 ^ 64 = 2 ^ k
  rw [Nat.one_mul, Nat.mod_eq_of_lt hlt]

/-- Remainder and quotient of the loop over the difficulty bits. -/
def difficultyAcc (acc : U256 × UInt64) : ℕ × ℕ := (acc.1.toNat, acc.2.toNat)

theorem difficultyStep_eq {n k : ℕ} {d : U256} {acc : U256 × UInt64}
    (hlossless : LosslessAt d k) (hk : k < 64)
    (h : Divides n d.toNat (k + 1) (difficultyAcc acc)) :
    difficultyAcc (difficultyStep d acc k) =
      divStep d.toNat (difficultyAcc acc) k := by
  obtain ⟨hshl, hsub⟩ := hlossless
  have hgte := U256.gte_iff acc.1 (d.shl k)
  rw [hshl] at hgte
  unfold difficultyStep divStep
  by_cases hfits : d.toNat * 2 ^ k ≤ (difficultyAcc acc).1
  · have hr := hsub acc.1 (hgte.mpr hfits)
    obtain ⟨a, ha⟩ := h.bits
    have hquotient : acc.2.toNat = 2 ^ (k + 1) * a := ha
    have hbit : (1 <<< UInt64.ofNat k : UInt64).toNat = 2 ^ k := toNat_bit hk
    have hor : (acc.2 ||| 1 <<< UInt64.ofNat k).toNat =
        acc.2.toNat + 2 ^ k := by
      rw [UInt64.toNat_or, hbit, hquotient, U256.two_pow_mul_or]
    rw [if_pos (hgte.mpr hfits), if_pos hfits]
    change ((acc.1.sub (d.shl k)).toNat, (acc.2 ||| 1 <<< UInt64.ofNat k).toNat) = _
    rw [hor, Nat.eq_sub_of_add_eq hr]
    rfl
  · rw [if_neg fun hle => hfits (hgte.mp hle), if_neg hfits]

/-- The loop of `targetToDifficultyU64`. -/
def difficultyQuotient (n d : U256) : UInt64 :=
  ((shifts (n.bits - d.bits)).foldl (difficultyStep d) (n, 0)).2

theorem toNat_difficultyQuotient {n d : U256} (hpos : d.toNat ≠ 0)
    (hd : d.bits ≤ n.bits) (hcap : n.bits - d.bits ≤ 63) :
    (difficultyQuotient n d).toNat = n.toNat / d.toNat := by
  have hstep : ∀ k s, k ≤ n.bits - d.bits →
      Divides n.toNat d.toNat (k + 1) (difficultyAcc s) →
      difficultyAcc (difficultyStep d s k) =
        divStep d.toNat (difficultyAcc s) k := by
    intro k s hk hdivides
    exact difficultyStep_eq (losslessAt_shifts hd (mem_shifts.mpr hk))
      (by omega) hdivides
  exact quotient_of_steps difficultyAcc hpos hd hstep rfl

theorem leNat_eq_zero_iff (bs : Bytes) :
    leNat bs = 0 ↔ bs.all (· = 0) = true := by
  induction bs with
  | nil => simp [leNat]
  | cons b bs ih =>
      have hb : b.toNat = 0 ↔ b = 0 := by
        rw [← UInt8.toNat_inj]
        rfl
      rw [leNat, List.all_cons, Bool.and_eq_true, ← ih, decide_eq_true_eq, ← hb]
      omega

/-- The branches of `targetToDifficultyU64`. -/
theorem targetToDifficultyU64_eq {target : Bytes32}
    (h : leNat target.toBytes ≠ 0) :
    targetToDifficultyU64 target =
      if diff1Target < leNat target.toBytes then 0
      else if leNat target.toBytes = diff1Target then 1
      else if leNat target.toBytes < 2 ^ 160 then 0xffffffffffffffff
      else difficultyQuotient (U256.ofLe diff1TargetBe.reverse)
        (U256.ofLe target) := by
  have hvalue : (U256.ofLe target).toNat = leNat target.toBytes :=
    U256.toNat_ofLe target
  have hgt := U256.gt_iff (U256.ofLe target) (U256.ofLe diff1TargetBe.reverse)
  rw [hvalue, toNat_diff1] at hgt
  have heq := U256.toNat_inj (a := U256.ofLe target)
    (b := U256.ofLe diff1TargetBe.reverse)
  rw [hvalue, toNat_diff1] at heq
  have hcap := U256.bits_le_iff (U256.ofLe target) 160
  rw [hvalue] at hcap
  have hwidth := U256.bits_le_iff (U256.ofLe target) 224
  rw [hvalue] at hwidth
  have hdiff1 := diff1Target_lt
  have hunfold : targetToDifficultyU64 target =
      if target.toBytes.all (· = 0) = true then 0xffffffffffffffff
      else if (U256.ofLe target).gt (U256.ofLe diff1TargetBe.reverse) = true then 0
      else if U256.ofLe target = U256.ofLe diff1TargetBe.reverse then 1
      else if (U256.ofLe diff1TargetBe.reverse).bits < (U256.ofLe target).bits then 0
      else if 63 < (U256.ofLe diff1TargetBe.reverse).bits - (U256.ofLe target).bits
        then 0xffffffffffffffff
      else difficultyQuotient (U256.ofLe diff1TargetBe.reverse)
        (U256.ofLe target) := rfl
  rw [hunfold, if_neg (fun hall => h ((leNat_eq_zero_iff _).mpr hall)), bits_diff1]
  by_cases habove : diff1Target < leNat target.toBytes
  · rw [if_pos (hgt.mpr habove), if_pos habove]
  · rw [if_neg (fun hyes => habove (hgt.mp hyes)), if_neg habove]
    by_cases hsame : leNat target.toBytes = diff1Target
    · rw [if_pos (heq.mp hsame), if_pos hsame]
    · rw [if_neg (fun hyes => hsame (heq.mpr hyes)), if_neg hsame,
        if_neg (not_lt.mpr (hwidth.mpr (by omega)))]
      by_cases hsmall : leNat target.toBytes < 2 ^ 160
      · have := hcap.mpr hsmall
        rw [if_pos (by omega), if_pos hsmall]
      · have : ¬ (U256.ofLe target).bits ≤ 160 := fun hle => hsmall (hcap.mp hle)
        rw [if_neg (by omega), if_neg hsmall]

/-- The difficulty is the quotient, held at the largest 64-bit number, and no
shift, subtraction or bit of its division is cut off. -/
structure ExactDifficulty (target : Bytes32) : Prop where
  value : (targetToDifficultyU64 target).toNat =
    min (diff1Target / leNat target.toBytes) (2 ^ 64 - 1)
  lossless :
    (U256.ofLe target).bits ≤ (U256.ofLe diff1TargetBe.reverse).bits →
      (U256.ofLe diff1TargetBe.reverse).bits - (U256.ofLe target).bits ≤ 63 →
        ∀ shift ∈ shifts ((U256.ofLe diff1TargetBe.reverse).bits -
            (U256.ofLe target).bits),
          LosslessAt (U256.ofLe target) shift ∧
            (1 <<< UInt64.ofNat shift : UInt64).toNat = 2 ^ shift

/-- The value of the difficulty: the quotient, unless the target is narrower
than 161 bits. -/
theorem toNat_targetToDifficultyU64 {target : Bytes32}
    (h : leNat target.toBytes ≠ 0) :
    (targetToDifficultyU64 target).toNat =
      if leNat target.toBytes < 2 ^ 160 then 2 ^ 64 - 1
      else diff1Target / leNat target.toBytes := by
  have hdiff1 : 2 ^ 160 ≤ diff1Target := le_trans (by norm_num) le_diff1Target
  rw [targetToDifficultyU64_eq h]
  by_cases habove : diff1Target < leNat target.toBytes
  · rw [if_pos habove, if_neg (by omega), Nat.div_eq_of_lt habove]
    rfl
  · rw [if_neg habove]
    by_cases hsame : leNat target.toBytes = diff1Target
    · rw [if_pos hsame, if_neg (by omega), hsame, Nat.div_self (by omega)]
      rfl
    · rw [if_neg hsame]
      by_cases hsmall : leNat target.toBytes < 2 ^ 160
      · rw [if_pos hsmall, if_pos hsmall]
        rfl
      · have hvalue : (U256.ofLe target).toNat = leNat target.toBytes :=
          U256.toNat_ofLe target
        have hcap : ¬ (U256.ofLe target).bits ≤ 160 := by
          rw [U256.bits_le_iff, hvalue]
          exact hsmall
        have hd : (U256.ofLe target).bits ≤
            (U256.ofLe diff1TargetBe.reverse).bits := by
          rw [bits_diff1, U256.bits_le_iff, hvalue]
          have hwidth := diff1Target_lt
          omega
        rw [if_neg hsmall, if_neg hsmall, toNat_difficultyQuotient
          (by rwa [hvalue]) hd (by rw [bits_diff1]; omega), hvalue, toNat_diff1]

/-- A target of at least 161 bits has a difficulty that fits. -/
theorem diff1_div_lt {t : ℕ} (h : 2 ^ 160 ≤ t) : diff1Target / t ≤ 2 ^ 64 - 1 := by
  have hlt : diff1Target < 2 ^ 64 * t := by
    rw [diff1Target_eq]
    calc
      0xffff * 2 ^ 208 < 2 ^ 64 * 2 ^ 160 := by norm_num
      _ ≤ 2 ^ 64 * t := Nat.mul_le_mul_left _ h
  have := Nat.div_lt_of_lt_mul (Nat.mul_comm _ _ ▸ hlt)
  omega

/-- The difficulty of a target is exact unless the target is below `2 ^ 160`
and its quotient is below the largest 64-bit number. -/
theorem exactDifficulty_iff {target : Bytes32} (h : leNat target.toBytes ≠ 0) :
    ExactDifficulty target ↔
      2 ^ 160 ≤ leNat target.toBytes ∨
        leNat target.toBytes * (2 ^ 64 - 1) ≤ diff1Target := by
  have hquotient : 2 ^ 64 - 1 ≤ diff1Target / leNat target.toBytes ↔
      leNat target.toBytes * (2 ^ 64 - 1) ≤ diff1Target := by
    rw [Nat.le_div_iff_mul_le (Nat.pos_of_ne_zero h), Nat.mul_comm]
  rw [← hquotient]
  have hvalue := toNat_targetToDifficultyU64 h
  constructor
  · intro hexact
    rw [hexact.value] at hvalue
    by_cases hsmall : leNat target.toBytes < 2 ^ 160
    · rw [if_pos hsmall] at hvalue
      right
      omega
    · exact Or.inl (not_lt.mp hsmall)
  · intro hcond
    refine ⟨?_, fun hd hcap shift hshift => ⟨losslessAt_shifts hd hshift,
      toNat_bit (lt_of_le_of_lt (mem_shifts.mp hshift) (by omega))⟩⟩
    rw [hvalue]
    by_cases hsmall : leNat target.toBytes < 2 ^ 160
    · rw [if_pos hsmall]
      omega
    · rw [if_neg hsmall, min_eq_left (diff1_div_lt (not_lt.mp hsmall))]

/-- Dividing by a quotient that is larger than the divisor gives the divisor
back. -/
theorem div_div_self_of_lt {n d : ℕ} (h : d < n / d) : n / (n / d) = d := by
  have hpos : 0 < d := by
    by_contra hzero
    have : d = 0 := by omega
    rw [this, Nat.div_zero] at h
    omega
  have hmod := Nat.div_add_mod n d
  have hrest := Nat.mod_lt n hpos
  generalize n / d = t at h hmod ⊢
  rw [Nat.mul_comm] at hmod
  rw [← hmod, Nat.mul_add_div (by omega), Nat.div_eq_of_lt (by omega), Nat.add_zero]

/-- The difficulty that a retarget sets is the one its shares are credited
with, for all difficulties but those between the last multiple of `2 ^ 48` and
the largest number. -/
theorem targetToDifficultyU64_difficultyToTarget_iff {difficulty : UInt64}
    (h : difficulty ≠ 0) :
    targetToDifficultyU64 (difficultyToTarget difficulty) = difficulty ↔
      difficulty.toNat ≤ 2 ^ 64 - 2 ^ 48 ∨ difficulty.toNat = 2 ^ 64 - 1 := by
  have hpos : 0 < difficulty.toNat :=
    Nat.pos_of_ne_zero fun hzero => h (UInt64.toNat_inj.mp hzero)
  have hlt : difficulty.toNat < 2 ^ 64 := difficulty.toNat_lt
  have htarget := leNat_difficultyToTarget h
  have hne : leNat (difficultyToTarget difficulty).toBytes ≠ 0 := by
    rw [htarget]
    exact (diff1_div_pos difficulty h).ne'
  have hnarrow : diff1Target / difficulty.toNat < 2 ^ 160 ↔
      2 ^ 64 - 2 ^ 48 < difficulty.toNat := by
    have hsplit : diff1Target = (2 ^ 64 - 2 ^ 48) * 2 ^ 160 := by
      rw [diff1Target_eq]
      norm_num
    rw [Nat.div_lt_iff_lt_mul hpos, hsplit, Nat.mul_comm (2 ^ 160)]
    exact Nat.mul_lt_mul_right (by decide)
  rw [← UInt64.toNat_inj, toNat_targetToDifficultyU64 hne, htarget]
  by_cases hsmall : diff1Target / difficulty.toNat < 2 ^ 160
  · have hbig := hnarrow.mp hsmall
    rw [if_pos hsmall]
    omega
  · have hle : difficulty.toNat ≤ 2 ^ 64 - 2 ^ 48 := by
      by_contra hgt
      exact hsmall (hnarrow.mpr (not_le.mp hgt))
    rw [if_neg hsmall, div_div_self_of_lt (by omega)]
    exact ⟨fun _ => Or.inl hle, fun _ => rfl⟩

/-- When difficulties are exact: for a target of at least 161 bits, or one so
small that its quotient is not below the largest 64-bit number; and there and
back, for every difficulty up to `2 ^ 64 - 2 ^ 48` and for the largest. -/
theorem difficulty_exact_iff (target : Bytes32) (difficulty : UInt64)
    (htarget : leNat target.toBytes ≠ 0) (hdifficulty : difficulty ≠ 0) :
    (ExactDifficulty target ↔
      2 ^ 160 ≤ leNat target.toBytes ∨
        leNat target.toBytes * (2 ^ 64 - 1) ≤ diff1Target) ∧
    (targetToDifficultyU64 (difficultyToTarget difficulty) = difficulty ↔
      difficulty.toNat ≤ 2 ^ 64 - 2 ^ 48 ∨ difficulty.toNat = 2 ^ 64 - 1) :=
  ⟨exactDifficulty_iff htarget,
    targetToDifficultyU64_difficultyToTarget_iff hdifficulty⟩

/-- The largest target of 160 bits. -/
def target160 : Bytes32 :=
  ⟨List.replicate 20 0xff ++ List.replicate 12 0x00, by simp⟩

theorem difficulty_exact_iff_million :
    ExactDifficulty (difficultyToTarget 1000000) ∧
      targetToDifficultyU64 (difficultyToTarget 1000000) = 1000000 := by
  have h := difficulty_exact_iff (difficultyToTarget 1000000) 1000000
    (by decide +kernel) (by decide)
  refine ⟨h.1.mpr (Or.inl ?_), h.2.mpr (Or.inl (by decide))⟩
  decide +kernel

/-- The quotient of that target is `2 ^ 64 - 2 ^ 48`, and its difficulty is the
largest number. -/
theorem not_exactDifficulty_target160 :
    ¬ ExactDifficulty target160 ∧
      targetToDifficultyU64 (difficultyToTarget 0xfffffffffffffffe) =
        0xffffffffffffffff := by
  refine ⟨fun h => ?_, by decide +kernel⟩
  exact absurd h.value (by decide +kernel)

end ReserveGrid.Gateway
