import Mathlib.Algebra.Group.Nat.Defs
import ReserveGrid.Support.HashMap

/-!
# Maps that count a list

A map tallies a list when its keys are the entries of the list, each with the
number of times it occurs there. The counts are 32-bit numbers. Counting one
more occurrence and taking one off, with the entry removed at zero, keep the
tally of the list with an entry added or removed.
-/

namespace ReserveGrid.Support.HashMap

variable {K : Type*} [DecidableEq K]

/-- The map counts the entries of the list, and has no other key. -/
def Tallies (m : HashMap K UInt32) (l : List K) : Prop :=
  ∀ k, (m.lookup k).map UInt32.toNat = if k ∈ l then some (l.count k) else none

namespace Tallies

variable {m : HashMap K UInt32} {l : List K} {k : K} {n : UInt32}

theorem empty : Tallies (∅ : HashMap K UInt32) [] := by
  intro k
  rw [AList.lookup_empty, if_neg List.not_mem_nil]
  rfl

theorem mem_iff (h : m.Tallies l) : k ∈ m ↔ k ∈ l := by
  rw [← AList.lookup_isSome, ← Option.isSome_map (f := UInt32.toNat), h k]
  by_cases hk : k ∈ l
  · simp [hk]
  · simp [hk]

theorem toNat_getD (h : m.Tallies l) : ((m.lookup k).getD 0).toNat = l.count k := by
  have hk := h k
  cases hlookup : m.lookup k with
  | none =>
      rw [hlookup] at hk
      by_cases hmem : k ∈ l
      · rw [if_pos hmem] at hk
        cases hk
      · exact (List.count_eq_zero.mpr hmem).symm
  | some n =>
      rw [hlookup] at hk
      by_cases hmem : k ∈ l
      · rw [if_pos hmem] at hk
        exact Option.some.inj hk
      · rw [if_neg hmem] at hk
        cases hk

theorem perm {l' : List K} (h : m.Tallies l) (hperm : l.Perm l') : m.Tallies l' := by
  intro k
  rw [h k, hperm.count_eq]
  simp only [hperm.mem_iff]

/-- A key is set to the number of its occurrences. -/
theorem insert {l' : List K} (h : m.Tallies l) (hmem : k ∈ l')
    (hn : n.toNat = l'.count k)
    (hother : ∀ k', k' ≠ k → l'.count k' = l.count k') :
    HashMap.Tallies (AList.insert k n m) l' := by
  intro k'
  by_cases hk : k' = k
  · subst hk
    rw [AList.lookup_insert, if_pos hmem, Option.map_some, hn]
  · have hiff : k' ∈ l' ↔ k' ∈ l := by
      rw [← List.count_pos_iff, ← List.count_pos_iff, hother k' hk]
    rw [AList.lookup_insert_ne hk, h k', hother k' hk]
    simp only [hiff]

/-- One more occurrence of a key is counted. -/
theorem increment (h : m.Tallies l) (hroom : l.count k + 1 < 2 ^ 32) :
    HashMap.Tallies (AList.insert k ((m.lookup k).getD 0 + 1) m) (k :: l) := by
  apply h.insert List.mem_cons_self
  · have hone : (1 : UInt32).toNat = 1 := rfl
    rw [UInt32.toNat_add, h.toNat_getD, hone, Nat.mod_eq_of_lt hroom,
      List.count_cons_self]
  · intro k' hk
    exact List.count_cons_of_ne hk.symm

/-- An occurrence of a key that occurs again is taken off. -/
theorem decrement (h : m.Tallies l) (hn : n.toNat + 1 = l.count k)
    (hpos : n ≠ 0) :
    HashMap.Tallies (AList.insert k n m) (l.erase k) := by
  have hcount : (l.erase k).count k = n.toNat := by
    rw [List.count_erase_self]
    omega
  apply h.insert
  · rw [← List.count_pos_iff, hcount]
    exact Nat.pos_of_ne_zero fun hzero => hpos (UInt32.toNat_inj.mp hzero)
  · exact hcount.symm
  · intro k' hk
    exact List.count_erase_of_ne hk

/-- The last occurrence of a key takes its entry away. -/
theorem erase_last (h : m.Tallies l) (hlast : l.count k = 1) :
    HashMap.Tallies (AList.erase k m) (l.erase k) := by
  intro k'
  by_cases hk : k' = k
  · subst hk
    have hmem : k' ∉ l.erase k' := by
      rw [← List.count_eq_zero, List.count_erase_self, hlast]
    rw [AList.lookup_erase, if_neg hmem]
    rfl
  · rw [AList.lookup_erase_ne hk, h k', List.count_erase_of_ne hk]
    simp only [List.mem_erase_of_ne hk]

end Tallies

end ReserveGrid.Support.HashMap
