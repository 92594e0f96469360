import Mathlib.Data.List.AList

/-!
# Finite maps

The standard library's hash maps, as association lists without repeated keys.
Iteration over a hash map visits its entries in no fixed order; an `IterOrder`
is one choice of that order, made anew for each iteration.
-/

namespace ReserveGrid.Support

/-- A finite map from `K` to `V`. -/
abbrev HashMap (K V : Type*) := AList fun _ : K => V

namespace HashMap

variable {K V : Type*}

/-- The entries that satisfy `p`. -/
def retain (p : K → V → Bool) (m : HashMap K V) : HashMap K V :=
  ⟨m.entries.filter fun e => p e.1 e.2,
    m.nodupKeys.sublist List.filter_sublist⟩

theorem keys_retain_sublist (p : K → V → Bool) (m : HashMap K V) :
    (m.retain p).keys.Sublist m.keys :=
  List.filter_sublist.map Sigma.fst

theorem mem_of_mem_retain {p : K → V → Bool} {m : HashMap K V} {k : K}
    (h : k ∈ m.retain p) :
    k ∈ m :=
  (keys_retain_sublist p m).subset h

theorem lookup_of_lookup_retain [DecidableEq K] {p : K → V → Bool}
    {m : HashMap K V} {k : K} {v : V}
    (h : (m.retain p).lookup k = some v) :
    m.lookup k = some v := by
  have hmem := AList.mem_lookup_iff.mp h
  exact AList.mem_lookup_iff.mpr (List.mem_of_mem_filter hmem)

/-- What is left of a key's entry. -/
theorem lookup_retain [DecidableEq K] (p : K → V → Bool) (m : HashMap K V)
    (k : K) :
    (m.retain p).lookup k = (m.lookup k).filter (p k) := by
  apply Option.ext
  intro v
  rw [← Option.mem_def, ← Option.mem_def, AList.mem_lookup_iff,
    Option.mem_filter_iff, AList.mem_lookup_iff]
  exact List.mem_filter

/-- A key that is left has its entry. -/
theorem lookup_retain_of_mem [DecidableEq K] {p : K → V → Bool} {m : HashMap K V}
    {k : K} (h : k ∈ m.retain p) :
    (m.retain p).lookup k = m.lookup k := by
  obtain ⟨v, hv⟩ := Option.isSome_iff_exists.mp (AList.lookup_isSome.mpr h)
  rw [hv, lookup_of_lookup_retain hv]

theorem lookup_of_lookup_erase [DecidableEq K] {m : HashMap K V} {k k' : K}
    {v : V} (h : (m.erase k).lookup k' = some v) :
    m.lookup k' = some v := by
  by_cases hk : k' = k
  · subst hk
    rw [AList.lookup_erase] at h
    cases h
  · rwa [AList.lookup_erase_ne hk] at h

/-- An entry of a map after one of its keys was set. -/
theorem lookup_insert_cases [DecidableEq K] {m : HashMap K V} {k k' : K} {v w : V}
    (h : (AList.insert k v m).lookup k' = some w) :
    (k' = k ∧ w = v) ∨ (k' ≠ k ∧ m.lookup k' = some w) := by
  by_cases hk : k' = k
  · subst hk
    rw [AList.lookup_insert, Option.some.injEq] at h
    exact Or.inl ⟨rfl, h.symm⟩
  · rw [AList.lookup_insert_ne hk] at h
    exact Or.inr ⟨hk, h⟩

/-- The map with the entry of a key changed, if it has one. -/
def modify [DecidableEq K] (k : K) (f : V → V) (m : HashMap K V) :
    HashMap K V :=
  match m.lookup k with
  | some v => m.insert k (f v)
  | none => m

theorem lookup_modify [DecidableEq K] (m : HashMap K V) (k k' : K) (f : V → V) :
    (m.modify k f).lookup k' =
      if k' = k then (m.lookup k).map f else m.lookup k' := by
  unfold modify
  cases hk : m.lookup k with
  | none =>
      by_cases heq : k' = k
      · rw [if_pos heq, heq, hk]
        rfl
      · rw [if_neg heq]
  | some v =>
      by_cases heq : k' = k
      · rw [if_pos heq, heq, AList.lookup_insert]
        rfl
      · rw [if_neg heq, AList.lookup_insert_ne heq]

theorem mem_modify [DecidableEq K] {m : HashMap K V} {k k' : K} {f : V → V} :
    k' ∈ m.modify k f ↔ k' ∈ m := by
  rw [← AList.lookup_isSome, ← AList.lookup_isSome, lookup_modify]
  by_cases heq : k' = k
  · rw [if_pos heq, heq, Option.isSome_map]
  · rw [if_neg heq]

end HashMap

/-- An order in which an iteration visits the entries of a collection. -/
structure IterOrder (α : Type*) where
  visit : List α → List α
  perm : ∀ l, (visit l).Perm l

namespace IterOrder

variable {α : Type*}

@[simp] theorem mem_visit (o : IterOrder α) {l : List α} {a : α} :
    a ∈ o.visit l ↔ a ∈ l :=
  (o.perm l).mem_iff

/-- The order in which the entries happen to be stored. -/
def stored (α : Type*) : IterOrder α where
  visit := id
  perm _ := List.Perm.refl _

end IterOrder

end ReserveGrid.Support
