import Mathlib.Data.List.Basic

/-!
# Lists of tasks

The tasks of a machine stand in a list, and a label names one of them by its
place. The list is cut at that place, so that what happens to the task can be
said without places.
-/

namespace ReserveGrid.Support

variable {α : Type*} {l : List α} {i : ℕ} {x : α}

/-- A list is cut at the place of one of its elements. -/
theorem exists_split_of_getElem? (h : l[i]? = some x) :
    ∃ before after, l = before ++ x :: after ∧ before.length = i := by
  obtain ⟨hi, rfl⟩ := List.getElem?_eq_some_iff.mp h
  refine ⟨l.take i, l.drop (i + 1), ?_, by rw [List.length_take]; omega⟩
  rw [List.getElem_cons_drop, List.take_append_drop]

theorem set_split (before after : List α) (x y : α) :
    (before ++ x :: after).set before.length y = before ++ y :: after := by
  rw [List.set_append_right _ _ (Nat.le_refl _), Nat.sub_self, List.set_cons_zero]

theorem eraseIdx_split (before after : List α) (x : α) :
    (before ++ x :: after).eraseIdx before.length = before ++ after := by
  rw [List.eraseIdx_append_of_length_le (Nat.le_refl _), Nat.sub_self, List.eraseIdx_cons_zero]

/-- What holds of all tasks holds after one of them was replaced by another that
has it too. -/
theorem forall_mem_set {P : α → Prop} {before after : List α} {x y : α}
    (h : ∀ z ∈ before ++ x :: after, P z) (hy : P y) :
    ∀ z ∈ before ++ y :: after, P z := by
  intro z hz
  rcases List.mem_append.mp hz with hz | hz
  · exact h z (List.mem_append_left _ hz)
  · rcases List.mem_cons.mp hz with rfl | hz
    · exact hy
    · exact h z (List.mem_append_right _ (List.mem_cons_of_mem _ hz))

/-- And after one of them was taken off. -/
theorem forall_mem_erase {P : α → Prop} {before after : List α} {x : α}
    (h : ∀ z ∈ before ++ x :: after, P z) : ∀ z ∈ before ++ after, P z := by
  intro z hz
  rcases List.mem_append.mp hz with hz | hz
  · exact h z (List.mem_append_left _ hz)
  · exact h z (List.mem_append_right _ (List.mem_cons_of_mem _ hz))

end ReserveGrid.Support
