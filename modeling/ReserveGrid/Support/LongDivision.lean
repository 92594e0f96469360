import Mathlib.Data.List.Range
import Mathlib.Tactic.Ring

/-!
# Binary long division

A number is divided by subtracting the divisor, shifted by one place less at
each step, wherever it fits. The shifts run from the highest one down to zero.
While the shifts below `k` are still to come, the remainder is smaller than the
divisor shifted by `k` and the quotient is a multiple of `2 ^ k`, so that
setting the next bit adds it.
-/

namespace ReserveGrid.Support.LongDivision

/-- Subtract the shifted divisor when it fits, and note the bit. -/
def divStep (d : ℕ) (acc : ℕ × ℕ) (shift : ℕ) : ℕ × ℕ :=
  if d * 2 ^ shift ≤ acc.1 then (acc.1 - d * 2 ^ shift, acc.2 + 2 ^ shift)
  else acc

/-- Remainder and quotient while the shifts below `k` are still to come. -/
structure Divides (n d k : ℕ) (acc : ℕ × ℕ) : Prop where
  total : n = d * acc.2 + acc.1
  remainder_lt : acc.1 < d * 2 ^ k
  bits : 2 ^ k ∣ acc.2

theorem divides_start {n d k : ℕ} (h : n < d * 2 ^ k) :
    Divides n d k (n, 0) :=
  ⟨by simp, h, dvd_zero _⟩

theorem Divides.step {n d k : ℕ} {acc : ℕ × ℕ}
    (h : Divides n d (k + 1) acc) :
    Divides n d k (divStep d acc k) := by
  have hsplit : d * 2 ^ (k + 1) = d * 2 ^ k + d * 2 ^ k := by
    rw [Nat.pow_succ]
    ring
  have hbits : 2 ^ k ∣ acc.2 := (Nat.pow_dvd_pow 2 (Nat.le_succ k)).trans h.bits
  have hlt := h.remainder_lt
  rw [hsplit] at hlt
  unfold divStep
  by_cases hfits : d * 2 ^ k ≤ acc.1
  · rw [if_pos hfits]
    refine ⟨?_, ?_, ?_⟩
    · have htotal := h.total
      have hadd : d * (acc.2 + 2 ^ k) = d * acc.2 + d * 2 ^ k := by ring
      dsimp only
      omega
    · dsimp only
      omega
    · exact Nat.dvd_add hbits (Nat.dvd_refl _)
  · rw [if_neg hfits]
    exact ⟨h.total, not_le.mp hfits, hbits⟩

/-- With no shift left, the quotient and the remainder are those of the
division. -/
theorem Divides.result {n d : ℕ} {acc : ℕ × ℕ} (h : Divides n d 0 acc) :
    acc.2 = n / d ∧ acc.1 = n % d := by
  have hlt : acc.1 < d := by simpa using h.remainder_lt
  have htotal := h.total
  constructor
  · rw [htotal, Nat.mul_add_div (by omega), Nat.div_eq_of_lt hlt, Nat.add_zero]
  · rw [htotal, Nat.mul_add_mod, Nat.mod_eq_of_lt hlt]

/-- A loop over the shifts below `k`, from the highest down, keeps a relation
that each of its steps hands on. -/
theorem foldl_range_reverse {σ : Type*} {step : σ → ℕ → σ} (P : ℕ → σ → Prop)
    (hstep : ∀ k s, P (k + 1) s → P k (step s k)) {k : ℕ} {s : σ} (h : P k s) :
    P 0 ((List.range k).reverse.foldl step s) := by
  induction k generalizing s with
  | zero => exact h
  | succ k ih =>
      rw [List.range_succ, List.reverse_append, List.reverse_singleton,
        List.singleton_append, List.foldl_cons]
      exact ih (hstep k s h)

end ReserveGrid.Support.LongDivision
