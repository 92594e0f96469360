import Mathlib.Data.List.Basic

/-!
# Pieces of a list

A list cut into pieces of a bounded size, and streams cut at any point.
-/

namespace ReserveGrid.Support

variable {α : Type*}

/-- The pieces of `n` elements, in order; the last one may be shorter. -/
def chunks (n : ℕ) (l : List α) : List (List α) :=
  if l = [] ∨ n = 0 then [] else l.take n :: chunks n (l.drop n)
termination_by l.length
decreasing_by
  rename_i h
  rw [not_or] at h
  have hpos : 0 < l.length := List.length_pos_iff.mpr h.1
  rw [List.length_drop]
  omega

theorem flatten_chunks {n : ℕ} (hn : 0 < n) (l : List α) :
    (chunks n l).flatten = l := by
  fun_induction chunks n l with
  | case1 l h =>
      have hl : l = [] := h.resolve_right (Nat.pos_iff_ne_zero.mp hn)
      rw [hl]
      rfl
  | case2 l h ih =>
      rw [List.flatten_cons, ih]
      exact List.take_append_drop n l

theorem chunk_bounds {n : ℕ} {l c : List α} (hc : c ∈ chunks n l) :
    c ≠ [] ∧ c.length ≤ n := by
  fun_induction chunks n l with
  | case1 l h => cases hc
  | case2 l h ih =>
      rw [not_or] at h
      rcases List.mem_cons.mp hc with rfl | hmem
      · constructor
        · intro hnil
          rcases List.take_eq_nil_iff.mp hnil with hzero | hempty
          · exact h.2 hzero
          · exact h.1 hempty
        · exact List.length_take_le n l
      · exact ih hmem

/-- Of a stream that was cut in two, the first part holds all of the first
record, or the record goes on after the cut. -/
theorem cut_cases {first rest before after : List α}
    (h : before ++ after = first ++ rest) :
    (∃ more, before = first ++ more ∧ rest = more ++ after) ∨
      before.length < first.length := by
  rcases List.append_eq_append_iff.mp h with ⟨gap, hfirst, -⟩ | ⟨more, hbefore, hrest⟩
  · by_cases hgap : gap = []
    · subst hgap
      rw [List.append_nil] at hfirst
      subst hfirst
      refine Or.inl ⟨[], (List.append_nil _).symm, ?_⟩
      exact (List.append_cancel_left h).symm
    · have hpos : 0 < gap.length := List.length_pos_iff.mpr hgap
      refine Or.inr ?_
      rw [hfirst, List.length_append]
      omega
  · exact Or.inl ⟨more, hbefore, hrest⟩

end ReserveGrid.Support
