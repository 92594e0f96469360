import ReserveGrid.Support.HashMap
import Mathlib.Data.Finset.Card
import Mathlib.Data.Finset.Filter
import Mathlib.Data.Finset.Dedup

/-!
# Maps with a cap

A capped map sets a key only while it holds fewer keys than its cap, a key that
it already holds included. The facts below compare the map after one pass over
a list of keys with the map after a second pass over a longer list.
-/

namespace ReserveGrid.Support.HashMap

variable {K V : Type*} [DecidableEq K]

/-- The map without the keys of a list. -/
def eraseAll (m : HashMap K V) (ks : List K) : HashMap K V :=
  ks.foldl (fun m k => m.erase k) m

/-- Set a key while there is room. -/
def insertBelow (cap : ℕ) (v : V) (m : HashMap K V) (k : K) : HashMap K V :=
  if m.keys.length < cap then m.insert k v else m

/-- Set the keys of a list, one after the other. -/
def insertAllBelow (cap : ℕ) (v : V) (m : HashMap K V) (ks : List K) :
    HashMap K V :=
  ks.foldl (insertBelow cap v) m

/-- The keys of a list that the map does not hold. -/
def fresh (m : HashMap K V) (ks : List K) : Finset K :=
  ks.toFinset.filter fun k => k ∉ m

theorem erase_of_not_mem {m : HashMap K V} {k : K} (h : k ∉ m) :
    m.erase k = m :=
  AList.ext (List.kerase_of_notMem_keys h)

theorem mem_eraseAll {m : HashMap K V} {ks : List K} {k : K} :
    k ∈ m.eraseAll ks ↔ k ∈ m ∧ k ∉ ks := by
  induction ks generalizing m with
  | nil => simp [eraseAll]
  | cons j ks ih =>
      change k ∈ HashMap.eraseAll (m.erase j) ks ↔ _
      rw [ih, AList.mem_erase, List.mem_cons]
      tauto

theorem eraseAll_of_disjoint {m : HashMap K V} {ks : List K}
    (h : ∀ k ∈ ks, k ∉ m) :
    m.eraseAll ks = m := by
  induction ks with
  | nil => rfl
  | cons k ks ih =>
      change HashMap.eraseAll (m.erase k) ks = m
      rw [erase_of_not_mem (h k List.mem_cons_self)]
      exact ih fun j hj => h j (List.mem_cons_of_mem k hj)

/-- Erasing a list twice is erasing it once. -/
theorem eraseAll_eraseAll (m : HashMap K V) (ks : List K) :
    (m.eraseAll ks).eraseAll ks = m.eraseAll ks :=
  eraseAll_of_disjoint fun _ hk hmem => (mem_eraseAll.mp hmem).2 hk

theorem mem_retain_iff {p : K → V → Bool} {m : HashMap K V} {k : K} :
    k ∈ m.retain p ↔ ∃ v, m.lookup k = some v ∧ p k v = true := by
  rw [← AList.lookup_isSome, lookup_retain, Option.isSome_filter]
  cases m.lookup k <;> simp

theorem mem_fresh {m : HashMap K V} {ks : List K} {k : K} :
    k ∈ m.fresh ks ↔ k ∈ ks ∧ k ∉ m := by
  rw [fresh, Finset.mem_filter, List.mem_toFinset]

theorem length_keys_insert (m : HashMap K V) (k : K) (v : V) :
    (m.insert k v).keys.length =
      if k ∈ m then m.keys.length else m.keys.length + 1 := by
  rw [AList.keys_insert, List.length_cons]
  split
  · rename_i hk
    exact List.length_erase_add_one (AList.mem_keys.mp hk)
  · rename_i hk
    rw [List.erase_of_not_mem fun h => hk (AList.mem_keys.mpr h)]

/-! ## One pass -/

variable {cap : ℕ} {v w : V} {m : HashMap K V} {k : K} {ks : List K}

theorem insertBelow_of_full (h : cap ≤ m.keys.length) :
    m.insertBelow cap v k = m :=
  if_neg (Nat.not_lt.mpr h)

theorem insertBelow_of_room (h : m.keys.length < cap) :
    m.insertBelow cap v k = m.insert k v :=
  if_pos h

theorem insertAllBelow_of_full (h : cap ≤ m.keys.length) :
    m.insertAllBelow cap v ks = m := by
  induction ks with
  | nil => rfl
  | cons k ks ih =>
      change (m.insertBelow cap v k).insertAllBelow cap v ks = m
      rw [insertBelow_of_full h, ih]

theorem insertAllBelow_cons_of_room (h : m.keys.length < cap) :
    m.insertAllBelow cap v (k :: ks) =
      HashMap.insertAllBelow cap v (m.insert k v) ks := by
  change (m.insertBelow cap v k).insertAllBelow cap v ks = _
  rw [insertBelow_of_room h]

/-- Setting a key moves it from the fresh ones to the map. -/
theorem length_add_card_fresh (m : HashMap K V) (k : K) (v : V) (ks : List K) :
    (m.insert k v).keys.length + (HashMap.fresh (m.insert k v) ks).card =
      m.keys.length + (m.fresh (k :: ks)).card := by
  rw [length_keys_insert]
  by_cases hk : k ∈ m
  · have hsame : HashMap.fresh (m.insert k v) ks = m.fresh (k :: ks) := by
      ext j
      rw [mem_fresh, mem_fresh, AList.mem_insert, List.mem_cons]
      constructor
      · rintro ⟨hj, hne⟩
        exact ⟨.inr hj, fun h => hne (.inr h)⟩
      · rintro ⟨rfl | hj, hne⟩
        · exact absurd hk hne
        · exact ⟨hj, fun h => h.elim (fun h => hne (h ▸ hk)) hne⟩
    rw [if_pos hk, hsame]
  · have hnew : m.fresh (k :: ks) =
        insert k (HashMap.fresh (m.insert k v) ks) := by
      ext j
      rw [Finset.mem_insert, mem_fresh, mem_fresh, AList.mem_insert,
        List.mem_cons]
      by_cases hj : j = k
      · subst hj
        simp [hk]
      · simp [hj]
    have hnot : k ∉ HashMap.fresh (m.insert k v) ks := by
      rw [mem_fresh, AList.mem_insert]
      exact fun h => h.2 (.inl rfl)
    rw [if_neg hk, hnew, Finset.card_insert_of_notMem hnot]
    omega

/-- With room to spare, every key of the list is set. -/
theorem lookup_insertAllBelow_of_room
    (h : m.keys.length + (m.fresh ks).card < cap) (k : K) :
    (m.insertAllBelow cap v ks).lookup k =
      if k ∈ ks then some v else m.lookup k := by
  induction ks generalizing m with
  | nil => rfl
  | cons j ks ih =>
      rw [insertAllBelow_cons_of_room (by omega),
        ih (by rw [length_add_card_fresh]; exact h)]
      by_cases hk : k ∈ ks
      · rw [if_pos hk, if_pos (List.mem_cons_of_mem j hk)]
      · rw [if_neg hk]
        by_cases hj : k = j
        · subst hj
          rw [AList.lookup_insert, if_pos List.mem_cons_self]
        · rw [AList.lookup_insert_ne hj, if_neg (by simp [hj, hk])]

theorem length_insertAllBelow_of_room
    (h : m.keys.length + (m.fresh ks).card < cap) :
    (m.insertAllBelow cap v ks).keys.length =
      m.keys.length + (m.fresh ks).card := by
  induction ks generalizing m with
  | nil => rfl
  | cons k ks ih =>
      rw [insertAllBelow_cons_of_room (by omega),
        ih (by rw [length_add_card_fresh]; exact h), length_add_card_fresh]

/-- Without room for all fresh keys, the map is full in the end. -/
theorem full_insertAllBelow (h : cap ≤ m.keys.length + (m.fresh ks).card) :
    cap ≤ (m.insertAllBelow cap v ks).keys.length := by
  induction ks generalizing m with
  | nil => exact h
  | cons k ks ih =>
      by_cases hroom : m.keys.length < cap
      · rw [insertAllBelow_cons_of_room hroom]
        exact ih (by rw [length_add_card_fresh]; exact h)
      · rw [insertAllBelow_of_full (Nat.not_lt.mp hroom)]
        exact Nat.not_lt.mp hroom

/-- An entry is one of the pass or one of before. -/
theorem lookup_insertAllBelow_cases (cap : ℕ) (v : V) (m : HashMap K V)
    (ks : List K) (k : K) :
    (k ∈ ks ∧ (m.insertAllBelow cap v ks).lookup k = some v) ∨
      (m.insertAllBelow cap v ks).lookup k = m.lookup k := by
  induction ks generalizing m with
  | nil => exact .inr rfl
  | cons j ks ih =>
      by_cases hroom : m.keys.length < cap
      · rw [insertAllBelow_cons_of_room hroom]
        rcases ih (m.insert j v) with ⟨hk, h⟩ | h
        · exact .inl ⟨List.mem_cons_of_mem j hk, h⟩
        · by_cases hj : k = j
          · subst hj
            exact .inl ⟨List.mem_cons_self, h.trans (AList.lookup_insert m)⟩
          · exact .inr (h.trans (AList.lookup_insert_ne hj))
      · exact .inr (by rw [insertAllBelow_of_full (Nat.not_lt.mp hroom)])

theorem lookup_insertAllBelow_of_eq (h : m.lookup k = some v) :
    (m.insertAllBelow cap v ks).lookup k = some v := by
  rcases lookup_insertAllBelow_cases cap v m ks k with ⟨-, h'⟩ | h'
  · exact h'
  · exact h'.trans h

/-- While there is room, the first fresh key is set. -/
theorem exists_fresh_lookup (hroom : m.keys.length < cap)
    (hfresh : ∃ k ∈ ks, k ∉ m) :
    ∃ k ∈ ks, k ∉ m ∧ (m.insertAllBelow cap w ks).lookup k = some w := by
  induction ks generalizing m with
  | nil =>
      obtain ⟨k, hk, -⟩ := hfresh
      cases hk
  | cons j ks ih =>
      rw [insertAllBelow_cons_of_room hroom]
      by_cases hj : j ∈ m
      · have hmem : ∀ k, k ∈ (m.insert j w) ↔ k ∈ m := by
          intro k
          rw [AList.mem_insert]
          exact ⟨fun h => h.elim (fun h => h ▸ hj) id, .inr⟩
        have hroom' : (m.insert j w).keys.length < cap := by
          rw [length_keys_insert, if_pos hj]
          exact hroom
        obtain ⟨k, hk, hnot⟩ := hfresh
        have hk' : k ∈ ks := by
          rcases List.mem_cons.mp hk with rfl | hk
          · exact absurd hj hnot
          · exact hk
        obtain ⟨i, hi, hnot', hlookup⟩ :=
          ih hroom' ⟨k, hk', fun h => hnot ((hmem k).mp h)⟩
        exact ⟨i, List.mem_cons_of_mem j hi, fun h => hnot' ((hmem i).mpr h),
          hlookup⟩
      · exact ⟨j, List.mem_cons_self, hj,
          lookup_insertAllBelow_of_eq (AList.lookup_insert m)⟩

/-! ## Two passes -/

/-- After a pass that filled the map, a second one changes nothing. -/
theorem insertAllBelow_twice_of_full {js : List K}
    (h : cap ≤ m.keys.length + (m.fresh ks).card) :
    (m.insertAllBelow cap v ks).insertAllBelow cap w js =
      m.insertAllBelow cap v ks :=
  insertAllBelow_of_full (full_insertAllBelow h)

/-- With room to spare, a second pass over the same keys does what it would
have done alone. -/
theorem lookup_insertAllBelow_twice {js : List K}
    (hroom : m.keys.length + (m.fresh ks).card < cap)
    (hsame : ∀ k, k ∈ js ↔ k ∈ ks) (k : K) :
    ((m.insertAllBelow cap v ks).insertAllBelow cap w js).lookup k =
      (m.insertAllBelow cap w ks).lookup k := by
  have hfresh : (m.insertAllBelow cap v ks).fresh js = ∅ := by
    apply Finset.eq_empty_of_forall_notMem
    intro j hj
    obtain ⟨hjs, hnot⟩ := mem_fresh.mp hj
    apply hnot
    rw [← AList.lookup_isSome, lookup_insertAllBelow_of_room hroom,
      if_pos ((hsame j).mp hjs)]
    rfl
  have hroom' : (m.insertAllBelow cap v ks).keys.length +
      ((m.insertAllBelow cap v ks).fresh js).card < cap := by
    rw [hfresh, Finset.card_empty, length_insertAllBelow_of_room hroom]
    exact hroom
  rw [lookup_insertAllBelow_of_room hroom', lookup_insertAllBelow_of_room hroom,
    lookup_insertAllBelow_of_room hroom]
  by_cases hk : k ∈ ks
  · rw [if_pos ((hsame k).mpr hk), if_pos hk]
  · rw [if_neg fun h => hk ((hsame k).mp h), if_neg hk, if_neg hk]

/-- With room to spare, a second pass over more keys sets one that the first
pass did not. -/
theorem exists_lookup_insertAllBelow_twice {js : List K}
    (hroom : m.keys.length + (m.fresh ks).card < cap)
    (hmore : ∃ k ∈ js, k ∉ m ∧ k ∉ ks) :
    ∃ k, k ∉ m.insertAllBelow cap w ks ∧
      ((m.insertAllBelow cap v ks).insertAllBelow cap w js).lookup k =
        some w := by
  have hmem : ∀ (u : V) (k : K),
      k ∈ m.insertAllBelow cap u ks ↔ k ∈ ks ∨ k ∈ m := by
    intro u k
    rw [← AList.lookup_isSome, lookup_insertAllBelow_of_room hroom,
      ← AList.lookup_isSome]
    by_cases hk : k ∈ ks <;> simp [hk]
  have hlength := length_insertAllBelow_of_room (v := v) hroom
  obtain ⟨k, hk, hnot, hnot'⟩ := hmore
  obtain ⟨j, -, hfresh, hlookup⟩ := exists_fresh_lookup (w := w)
    (hlength ▸ hroom) ⟨k, hk, fun h => ((hmem v k).mp h).elim hnot' hnot⟩
  exact ⟨j, fun h => hfresh ((hmem v j).mpr ((hmem w j).mp h)), hlookup⟩

/-- Two maps that differ from `m` at the same keys, where one holds `v` and the
other one `w`. -/
structure SetAlike (v w : V) (m a b : HashMap K V) : Prop where
  length : a.keys.length = b.keys.length
  lookup : ∀ k, (a.lookup k = m.lookup k ∧ b.lookup k = m.lookup k) ∨
    (a.lookup k = some v ∧ b.lookup k = some w)

theorem SetAlike.mem_iff {a b : HashMap K V} (h : SetAlike v w m a b) (k : K) :
    k ∈ a ↔ k ∈ b := by
  rw [← AList.lookup_isSome, ← AList.lookup_isSome]
  rcases h.lookup k with ⟨ha, hb⟩ | ⟨ha, hb⟩
  · rw [ha, hb]
  · rw [ha, hb]
    rfl

theorem SetAlike.insert {a b : HashMap K V} (h : SetAlike v w m a b) (k : K) :
    SetAlike v w m (AList.insert k v a) (AList.insert k w b) where
  length := by
    rw [length_keys_insert, length_keys_insert, h.length]
    by_cases hk : k ∈ a
    · rw [if_pos hk, if_pos ((h.mem_iff k).mp hk)]
    · rw [if_neg hk, if_neg fun hb => hk ((h.mem_iff k).mpr hb)]
  lookup j := by
    by_cases hj : j = k
    · subst hj
      exact .inr ⟨AList.lookup_insert a, AList.lookup_insert b⟩
    · rw [AList.lookup_insert_ne hj, AList.lookup_insert_ne hj]
      exact h.lookup j

/-- Which keys a pass sets does not depend on the value it sets. -/
theorem SetAlike.insertAllBelow {a b : HashMap K V} (h : SetAlike v w m a b)
    (cap : ℕ) (ks : List K) :
    SetAlike v w m (a.insertAllBelow cap v ks) (b.insertAllBelow cap w ks) := by
  induction ks generalizing a b with
  | nil => exact h
  | cons k ks ih =>
      by_cases hroom : a.keys.length < cap
      · rw [insertAllBelow_cons_of_room hroom,
          insertAllBelow_cons_of_room (h.length ▸ hroom)]
        exact ih (h.insert k)
      · rw [insertAllBelow_of_full (Nat.not_lt.mp hroom),
          insertAllBelow_of_full (h.length ▸ Nat.not_lt.mp hroom)]
        exact h

theorem setAlike_insertAllBelow (cap : ℕ) (v w : V) (m : HashMap K V)
    (ks : List K) :
    SetAlike v w m (m.insertAllBelow cap v ks) (m.insertAllBelow cap w ks) :=
  SetAlike.insertAllBelow ⟨rfl, fun _ => .inl ⟨rfl, rfl⟩⟩ cap ks

end ReserveGrid.Support.HashMap
