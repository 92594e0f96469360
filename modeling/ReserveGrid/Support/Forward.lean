import Mathlib.Data.List.Basic
import Mathlib.Order.Defs.PartialOrder

/-!
# Sequences that do not go back

A sequence of things with a height and a tip goes forward when heights do not
fall and no tip comes back once another one has taken its place. What is picked
from such a sequence goes forward too when things of different heights or tips
are picked in the order of their places.
-/

namespace ReserveGrid.Support

variable {α γ β κ ι : Type*} [Preorder β]

/-- Heights do not fall, and no tip comes back once it was replaced. -/
structure Forward (height : α → β) (tip : α → κ) (xs : List α) : Prop where
  heights : ∀ (i j : ℕ) (x y : α), i ≤ j → xs[i]? = some x → xs[j]? = some y →
    height x ≤ height y
  tips : ∀ (i j k : ℕ) (x y z : α), i ≤ j → j ≤ k → xs[i]? = some x →
    xs[j]? = some y → xs[k]? = some z → tip x = tip z → tip y = tip x

namespace Forward

variable {height : α → β} {tip : α → κ} {xs : List α} {x : α}

theorem nil : Forward height tip [] where
  heights := by simp
  tips := by simp

/-- The element goes on from those before it: it is not lower, and is on the
tip of the last one or on one that none of them was on. -/
def GoesOn (height : α → β) (tip : α → κ) (xs : List α) (x : α) : Prop :=
  ∀ y ∈ xs, height y ≤ height x ∧
    (tip y = tip x → ∀ last ∈ xs.getLast?, tip last = tip x)

instance [DecidableLE β] [DecidableEq κ] (height : α → β) (tip : α → κ)
    (xs : List α) (x : α) : Decidable (GoesOn height tip xs x) :=
  inferInstanceAs (Decidable (∀ y ∈ xs, height y ≤ height x ∧
    (tip y = tip x → ∀ last ∈ xs.getLast?, tip last = tip x)))

theorem eq_of_getElem?_append {i : ℕ} {y : α} (hi : ¬ i < xs.length)
    (h : (xs ++ [x])[i]? = some y) : y = x := by
  rw [List.getElem?_append_right (by omega), List.getElem?_singleton] at h
  exact (Option.some.inj (Option.ite_none_right_eq_some.mp h).2).symm

theorem append (h : Forward height tip xs) (hnext : GoesOn height tip xs x) :
    Forward height tip (xs ++ [x]) where
  heights := by
    intro i j y z hij hy hz
    by_cases hj : j < xs.length
    · rw [List.getElem?_append_left (by omega)] at hy
      rw [List.getElem?_append_left hj] at hz
      exact h.heights i j y z hij hy hz
    obtain rfl := eq_of_getElem?_append hj hz
    by_cases hi : i < xs.length
    · rw [List.getElem?_append_left hi] at hy
      exact (hnext y (List.mem_of_getElem? hy)).1
    · obtain rfl := eq_of_getElem?_append hi hy
      exact le_refl _
  tips := by
    intro i j k y z w hij hjk hy hz hw heq
    by_cases hk : k < xs.length
    · rw [List.getElem?_append_left (by omega)] at hy hz
      rw [List.getElem?_append_left hk] at hw
      exact h.tips i j k y z w hij hjk hy hz hw heq
    obtain rfl := eq_of_getElem?_append hk hw
    by_cases hj : j < xs.length
    · rw [List.getElem?_append_left (by omega)] at hy
      rw [List.getElem?_append_left hj] at hz
      -- The tip was still the last one before, so it was the one in between.
      have hget : xs[xs.length - 1]? = some xs[xs.length - 1] :=
        List.getElem?_eq_getElem (by omega)
      have hlast : xs.getLast? = some xs[xs.length - 1] := by
        rw [List.getLast?_eq_getElem?, hget]
      have hsame := (hnext y (List.mem_of_getElem? hy)).2 heq _ hlast
      exact h.tips i j (xs.length - 1) y z _ hij (by omega) hy hz hget
        (heq.trans hsame.symm)
    · obtain rfl := eq_of_getElem?_append hj hz
      exact heq.symm

/-- The places are in order, or those of things with one height and tip. -/
def InPlace (height : α → β) (tip : α → κ) (xs : List α) (m n : ℕ) : Prop :=
  m ≤ n ∨ (xs[m]?.map height = xs[n]?.map height ∧ xs[m]?.map tip = xs[n]?.map tip)

instance [DecidableEq β] [DecidableEq κ] (height : α → β) (tip : α → κ)
    (xs : List α) (m n : ℕ) : Decidable (InPlace height tip xs m n) :=
  inferInstanceAs (Decidable (_ ∨ _ ∧ _))

omit [Preorder β] in
/-- Places stay in order when the sequence goes on. -/
theorem InPlace.append {m n : ℕ} (h : InPlace height tip xs m n)
    (hm : m < xs.length) (hn : n < xs.length) (x : α) :
    InPlace height tip (xs ++ [x]) m n := by
  unfold InPlace
  rw [List.getElem?_append_left hm, List.getElem?_append_left hn]
  exact h

theorem InPlace.height_le {m n : ℕ} {x y : α} (h : InPlace height tip xs m n)
    (hforward : Forward height tip xs) (hx : xs[m]? = some x)
    (hy : xs[n]? = some y) : height x ≤ height y := by
  rcases h with hle | ⟨hheight, -⟩
  · exact hforward.heights m n x y hle hx hy
  · rw [hx, hy] at hheight
    exact le_of_eq (Option.some.inj hheight)

theorem InPlace.tip_eq {l m n : ℕ} {x y z : α} (h : InPlace height tip xs l m)
    (h' : InPlace height tip xs m n) (hforward : Forward height tip xs)
    (hx : xs[l]? = some x) (hy : xs[m]? = some y) (hz : xs[n]? = some z)
    (heq : tip x = tip z) : tip y = tip x := by
  rcases h with hle | ⟨-, htip⟩
  · rcases h' with hle' | ⟨-, htip'⟩
    · exact hforward.tips l m n x y z hle hle' hx hy hz heq
    · rw [hy, hz] at htip'
      rw [heq]
      exact Option.some.inj htip'
  · rw [hx, hy] at htip
    exact (Option.some.inj htip).symm

omit [Preorder β] in
theorem inPlace_of_le {picks : List (ℕ × γ)}
    (hsorted : (picks.map (·.1)).Pairwise (InPlace height tip xs)) {i j : ℕ}
    {p q : ℕ × γ} (hij : i ≤ j) (hp : picks[i]? = some p) (hq : picks[j]? = some q) :
    InPlace height tip xs p.1 q.1 := by
  rw [List.pairwise_map, List.pairwise_iff_getElem] at hsorted
  obtain ⟨hi, rfl⟩ := List.getElem?_eq_some_iff.mp hp
  obtain ⟨hj, rfl⟩ := List.getElem?_eq_some_iff.mp hq
  rcases Nat.eq_or_lt_of_le hij with rfl | hlt
  · exact Or.inl (Nat.le_refl _)
  · exact hsorted i j hi hj hlt

/-- What is picked in place goes forward. -/
theorem of_picks {height' : γ → β} {tip' : γ → ι} {f : ι → κ}
    (hf : Function.Injective f) (h : Forward height tip xs) {picks : List (ℕ × γ)}
    (hsorted : (picks.map (·.1)).Pairwise (InPlace height tip xs))
    (hpicks : ∀ p ∈ picks, ∃ x, xs[p.1]? = some x ∧ height' p.2 = height x ∧
      f (tip' p.2) = tip x) :
    Forward height' tip' (picks.map (·.2)) := by
  have hpicked : ∀ (i : ℕ) (g : γ), (picks.map (·.2))[i]? = some g →
      ∃ p x, picks[i]? = some p ∧ xs[p.1]? = some x ∧ height' g = height x ∧
        f (tip' g) = tip x := by
    intro i g hg
    rw [List.getElem?_map] at hg
    obtain ⟨p, hp, rfl⟩ := Option.map_eq_some_iff.mp hg
    obtain ⟨x, hx, hheight, htip⟩ := hpicks p (List.mem_of_getElem? hp)
    exact ⟨p, x, hp, hx, hheight, htip⟩
  constructor
  · intro i j a b hij ha hb
    obtain ⟨p, x, hp, hx, hheight, -⟩ := hpicked i a ha
    obtain ⟨q, y, hq, hy, hheight', -⟩ := hpicked j b hb
    rw [hheight, hheight']
    exact (inPlace_of_le hsorted hij hp hq).height_le h hx hy
  · intro i j k a b c hij hjk ha hb hc heq
    obtain ⟨p, x, hp, hx, -, htip⟩ := hpicked i a ha
    obtain ⟨q, y, hq, hy, -, htip'⟩ := hpicked j b hb
    obtain ⟨r, z, hr, hz, -, htip''⟩ := hpicked k c hc
    apply hf
    rw [htip, htip']
    refine (inPlace_of_le hsorted hij hp hq).tip_eq (inPlace_of_le hsorted hjk hq hr) h
      hx hy hz ?_
    rw [← htip, ← htip'', heq]

end Forward

end ReserveGrid.Support
