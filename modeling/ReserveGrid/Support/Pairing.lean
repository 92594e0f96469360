import Mathlib.Logic.Function.Basic
import Mathlib.Data.Finset.Basic

/-!
# Logs of opening and closing marks

A log pairs the opening mark of a key with its closing mark, whichever of the
two comes first. For one key the log is read by a three-state automaton: the
key is idle, opened, or closed early and waiting for its opening mark. A
component that keeps two sets of keys, the opened ones and the early ones,
follows the automaton when the sets are the fibres of the automaton's state.
-/

namespace ReserveGrid.Support.Pairing

variable {K : Type*} [DecidableEq K]

/-- A mark of a key in the log. -/
inductive Mark where
  | opening
  | closing
  deriving DecidableEq, Repr

/-- What a log says about one key. -/
inductive Phase where
  | idle
  | opened
  | early
  deriving DecidableEq, Repr

/-- One closing mark neutralises one opening mark, in either order. -/
def Phase.next : Phase → Mark → Phase
  | .idle, .opening => .opened
  | .opened, .opening => .opened
  | .early, .opening => .idle
  | .idle, .closing => .early
  | .opened, .closing => .idle
  | .early, .closing => .early

/-- The phases after one mark. -/
def advance (φ : K → Phase) (r : Mark × K) : K → Phase :=
  Function.update φ r.2 ((φ r.2).next r.1)

/-- The phases after a whole log. -/
def phaseAfter (φ : K → Phase) (log : List (Mark × K)) : K → Phase :=
  log.foldl advance φ

@[simp] theorem phaseAfter_nil (φ : K → Phase) : phaseAfter φ [] = φ := rfl

@[simp] theorem phaseAfter_cons
    (φ : K → Phase) (r : Mark × K) (log : List (Mark × K)) :
    phaseAfter φ (r :: log) = phaseAfter (advance φ r) log := rfl

theorem phaseAfter_append (φ : K → Phase) (log more : List (Mark × K)) :
    phaseAfter φ (log ++ more) = phaseAfter (phaseAfter φ log) more :=
  List.foldl_append

@[simp] theorem advance_self (φ : K → Phase) (m : Mark) (k : K) :
    advance φ (m, k) k = (φ k).next m := by
  simp [advance]

theorem advance_of_ne (φ : K → Phase) {r : Mark × K} {k : K}
    (h : k ≠ r.2) :
    advance φ r k = φ k := by
  simp [advance, h]

/-- Opening every key of a list opens the idle and the opened ones in it. -/
theorem phaseAfter_map_opening
    (φ : K → Phase) (ks : List K) (hφ : ∀ k, φ k ≠ .early) (k : K) :
    phaseAfter φ (ks.map (Mark.opening, ·)) k =
      if k ∈ ks then .opened else φ k := by
  induction ks generalizing φ with
  | nil => simp
  | cons j ks ih =>
      have hopened : (φ j).next .opening = .opened := by
        have := hφ j
        cases h : φ j <;> simp_all [Phase.next]
      have hnext : ∀ i, advance φ (.opening, j) i ≠ .early := by
        intro i
        by_cases hij : i = j
        · subst hij
          simp [hopened]
        · rw [advance_of_ne φ hij]
          exact hφ i
      rw [List.map_cons, phaseAfter_cons, ih _ hnext]
      by_cases hkj : k = j
      · subst hkj
        simp [hopened]
      · rw [advance_of_ne φ hkj]
        simp [hkj]

/-- Closing every key of a list of idle keys leaves exactly these early. -/
theorem phaseAfter_map_closing
    (φ : K → Phase) (ks : List K) (hφ : ∀ k ∈ ks, φ k ≠ .opened) (k : K) :
    phaseAfter φ (ks.map (Mark.closing, ·)) k =
      if k ∈ ks then .early else φ k := by
  induction ks generalizing φ with
  | nil => simp
  | cons j ks ih =>
      have hearly : (φ j).next .closing = .early := by
        have := hφ j (by simp)
        cases h : φ j <;> simp_all [Phase.next]
      have hnext : ∀ i ∈ ks, advance φ (.closing, j) i ≠ .opened := by
        intro i hi
        by_cases hij : i = j
        · subst hij
          simp [hearly]
        · rw [advance_of_ne φ hij]
          exact hφ i (by simp [hi])
      rw [List.map_cons, phaseAfter_cons, ih _ hnext]
      by_cases hkj : k = j
      · subst hkj
        simp [hearly]
      · rw [advance_of_ne φ hkj]
        simp [hkj]

/-- A snapshot that lists the opened keys and then the early ones leads back
to the phases it was taken from. -/
theorem phaseAfter_snapshot
    {φ : K → Phase} {opened early : List K}
    (hopened : ∀ k, k ∈ opened ↔ φ k = .opened)
    (hearly : ∀ k, k ∈ early ↔ φ k = .early) :
    phaseAfter (fun _ => .idle)
        (opened.map (Mark.opening, ·) ++ early.map (Mark.closing, ·)) =
      φ := by
  funext k
  rw [phaseAfter_append, phaseAfter_map_closing, phaseAfter_map_opening _ _
    (by simp)]
  · have ho := hopened k
    have he := hearly k
    cases hk : φ k <;> simp_all
  · intro j hj
    have ho := hopened j
    have he := hearly j
    rw [phaseAfter_map_opening _ _ (by simp)]
    simp_all

/-- A key with an opening mark and no closing mark is opened. -/
theorem phaseAfter_eq_opened
    {φ : K → Phase} {log : List (Mark × K)} {k : K}
    (hφ : φ k ≠ .early)
    (hclosing : (Mark.closing, k) ∉ log)
    (hopening : φ k = .opened ∨ (Mark.opening, k) ∈ log) :
    phaseAfter φ log k = .opened := by
  induction log generalizing φ with
  | nil => simpa using hopening
  | cons r log ih =>
      obtain ⟨m, j⟩ := r
      rw [phaseAfter_cons]
      have hrest : (Mark.closing, k) ∉ log := fun h => hclosing (by simp [h])
      by_cases hkj : k = j
      · subst hkj
        have hm : m = .opening := by
          cases m with
          | opening => rfl
          | closing => exact False.elim (hclosing (by simp))
        subst hm
        have hnext : advance φ (.opening, k) k = .opened := by
          rw [advance_self]
          cases h : φ k <;> simp_all [Phase.next]
        exact ih (by simp [hnext]) hrest (Or.inl hnext)
      · have hsame : advance φ (m, j) k = φ k := advance_of_ne φ hkj
        refine ih (by rwa [hsame]) hrest ?_
        rw [hsame]
        rcases hopening with h | h
        · exact Or.inl h
        · exact Or.inr (by simpa [hkj] using h)

/-- The two sets of a component that follows the automaton. -/
structure Follows (opened early : K → Prop) (φ : K → Phase) : Prop where
  opened_iff : ∀ k, opened k ↔ φ k = .opened
  early_iff : ∀ k, early k ↔ φ k = .early

omit [DecidableEq K] in
/-- Two disjoint sets follow the automaton in some phases. -/
theorem exists_follows {opened early : K → Prop}
    (hdisjoint : ∀ k, opened k → ¬ early k) :
    ∃ φ, Follows opened early φ := by
  classical
  refine ⟨fun k =>
    if opened k then .opened else if early k then .early else .idle, ?_, ?_⟩
  · intro k
    by_cases ho : opened k <;> by_cases he : early k <;> simp [ho, he]
  · intro k
    have := hdisjoint k
    by_cases ho : opened k <;> by_cases he : early k <;> simp_all

/-- Moving one key keeps following the automaton when the moved key ends in
the automaton's next phase and the others stay where they are. -/
theorem Follows.advance
    {opened early opened' early' : K → Prop} {φ : K → Phase}
    (h : Follows opened early φ) {m : Mark} {k : K}
    (hopened : opened' k ↔ (φ k).next m = .opened)
    (hearly : early' k ↔ (φ k).next m = .early)
    (hother : ∀ j, j ≠ k →
      (opened' j ↔ opened j) ∧ (early' j ↔ early j)) :
    Follows opened' early' (Pairing.advance φ (m, k)) := by
  constructor
  · intro j
    by_cases hj : j = k
    · subst hj
      simpa using hopened
    · rw [advance_of_ne φ hj, (hother j hj).1]
      exact h.opened_iff j
  · intro j
    by_cases hj : j = k
    · subst hj
      simpa using hearly
    · rw [advance_of_ne φ hj, (hother j hj).2]
      exact h.early_iff j

end ReserveGrid.Support.Pairing
