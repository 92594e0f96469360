import Mathlib.Data.List.Forall2

/-!
# Results

Inversion of fallible computations: how a sequence of steps ended says how each
step ended.
-/

namespace ReserveGrid.Support

variable {ε α β : Type*}

theorem Result.bind_eq_ok {x : Except ε α} {f : α → Except ε β} {b : β} :
    x.bind f = .ok b ↔ ∃ a, x = .ok a ∧ f a = .ok b := by
  cases x <;> simp [Except.bind]

theorem Result.bind_eq_error {x : Except ε α} {f : α → Except ε β} {e : ε} :
    x.bind f = .error e ↔
      x = .error e ∨ ∃ a, x = .ok a ∧ f a = .error e := by
  cases x <;> simp [Except.bind]

theorem Result.isOk_iff {x : Except ε α} : x.isOk = true ↔ ∃ a, x = .ok a := by
  cases x <;> simp [Except.isOk, Except.toBool]

theorem Result.map_eq_ok {x : Except ε α} {f : α → β} {b : β} :
    x.map f = .ok b ↔ ∃ a, x = .ok a ∧ f a = b := by
  cases x <;> simp [Except.map]

theorem Result.map_eq_error {x : Except ε α} {f : α → β} {e : ε} :
    x.map f = .error e ↔ x = .error e := by
  cases x <;> simp [Except.map]

/-- A sequence of steps that all ended well ended in one result a step, each
step in its own. -/
theorem Result.forall₂_of_mapM {f : α → Option β} {as : List α} {bs : List β}
    (h : as.mapM f = some bs) :
    List.Forall₂ (fun a b => f a = some b) as bs := by
  induction as generalizing bs with
  | nil =>
      cases h
      exact .nil
  | cons a as ih =>
      rw [List.mapM_cons] at h
      obtain ⟨b, hb, hrest⟩ := Option.bind_eq_some_iff.mp h
      obtain ⟨rest, has, heq⟩ := Option.bind_eq_some_iff.mp hrest
      cases heq
      exact .cons hb (ih has)

theorem Result.exists_of_mapM {f : α → Option β} {as : List α} {bs : List β}
    (h : as.mapM f = some bs) {b : β} (hb : b ∈ bs) :
    ∃ a ∈ as, f a = some b := by
  have hsteps := Result.forall₂_of_mapM h
  obtain ⟨i, hi, rfl⟩ := List.mem_iff_getElem.mp hb
  have hi' : i < as.length := by
    rw [hsteps.length_eq]
    exact hi
  exact ⟨as[i], List.getElem_mem hi', by simpa using hsteps.get hi' hi⟩

end ReserveGrid.Support
