import ReserveGrid.Support.HashMap
import Mathlib.Data.List.Sort

/-!
# Maps in key order

A map whose values carry their own keys is a list of values in the order of the
keys. Filtering the map filters the list, removing the least key drops the head,
and a value whose key is above all others goes to the end.
-/

namespace ReserveGrid.Support.HashMap

variable {K V : Type*}

/-- The values in the order of their keys. -/
def valuesInOrder [LE K] [DecidableLE K] (m : HashMap K V) : List V :=
  (m.entries.insertionSort fun a b => a.1 ≤ b.1).map Sigma.snd

variable [DecidableEq K] [LT K]

/-- The map has the values of the list, each under its own key, and the list is
in the order of the keys. -/
structure Lists (key : V → K) (m : HashMap K V) (l : List V) : Prop where
  sorted : l.Pairwise fun a b => key a < key b
  lookup_iff : ∀ k v, m.lookup k = some v ↔ v ∈ l ∧ key v = k

namespace Lists

variable {key : V → K} {m : HashMap K V} {l : List V}

theorem empty (key : V → K) : Lists key (∅ : HashMap K V) [] where
  sorted := List.Pairwise.nil
  lookup_iff k v := by simp

theorem lookup_key (h : Lists key m l) {v : V} (hv : v ∈ l) :
    m.lookup (key v) = some v :=
  (h.lookup_iff _ _).mpr ⟨hv, rfl⟩

theorem mem_keys_iff (h : Lists key m l) (k : K) : k ∈ m.keys ↔ k ∈ l.map key := by
  rw [← AList.mem_keys, ← AList.lookup_isSome, Option.isSome_iff_exists,
    List.mem_map]
  constructor
  · rintro ⟨v, hv⟩
    exact ⟨v, (h.lookup_iff k v).mp hv⟩
  · rintro ⟨v, hv⟩
    exact ⟨v, (h.lookup_iff k v).mpr hv⟩

/-- The values that satisfy a condition. -/
theorem retain (h : Lists key m l) (p : V → Bool) :
    Lists key (m.retain fun _ => p) (l.filter p) where
  sorted := h.sorted.sublist List.filter_sublist
  lookup_iff k v := by
    rw [lookup_retain, Option.filter_eq_some_iff, h.lookup_iff, List.mem_filter]
    tauto

variable [LE K] [Std.LawfulOrderLT K]

theorem nodup_keys (h : Lists key m l) : (l.map key).Nodup := by
  rw [List.nodup_iff_pairwise_ne, List.pairwise_map]
  apply h.sorted.imp
  intro a b hlt heq
  rw [heq] at hlt
  exact Std.lt_irrefl hlt

theorem length_keys (h : Lists key m l) : m.keys.length = l.length := by
  have hperm := (List.perm_ext_iff_of_nodup m.keys_nodup h.nodup_keys).mpr
    h.mem_keys_iff
  rw [hperm.length_eq, List.length_map]

/-- Without its least key the map has the rest of the list. -/
theorem erase_head {v : V} {rest : List V} (h : Lists key m (v :: rest)) :
    Lists key (m.erase (key v)) rest where
  sorted := (List.pairwise_cons.mp h.sorted).2
  lookup_iff k w := by
    by_cases hk : k = key v
    · subst hk
      have hnodup := h.nodup_keys
      rw [List.map_cons, List.nodup_cons] at hnodup
      constructor
      · intro hsome
        rw [AList.lookup_erase] at hsome
        cases hsome
      · rintro ⟨hw, hkey⟩
        exact absurd (List.mem_map.mpr ⟨w, hw, hkey⟩) hnodup.1
    · rw [AList.lookup_erase_ne hk, h.lookup_iff, List.mem_cons]
      constructor
      · rintro ⟨rfl | hw, hkey⟩
        · exact absurd hkey.symm hk
        · exact ⟨hw, hkey⟩
      · rintro ⟨hw, hkey⟩
        exact ⟨Or.inr hw, hkey⟩

/-- A value whose key is above all others goes to the end. -/
theorem insert_last (h : Lists key m l) {v : V} (hv : ∀ w ∈ l, key w < key v) :
    Lists key (AList.insert (key v) v m) (l ++ [v]) where
  sorted := by
    rw [List.pairwise_append]
    refine ⟨h.sorted, List.pairwise_singleton _ _, ?_⟩
    intro w hw u hu
    rw [List.mem_singleton.mp hu]
    exact hv w hw
  lookup_iff k w := by
    rw [List.mem_append, List.mem_singleton]
    by_cases hk : k = key v
    · subst hk
      rw [AList.lookup_insert, Option.some.injEq]
      constructor
      · rintro rfl
        exact ⟨Or.inr rfl, rfl⟩
      · rintro ⟨hw | rfl, hkey⟩
        · have hlt := hv w hw
          rw [hkey] at hlt
          exact absurd hlt Std.lt_irrefl
        · rfl
    · rw [AList.lookup_insert_ne hk, h.lookup_iff]
      constructor
      · rintro ⟨hw, hkey⟩
        exact ⟨Or.inl hw, hkey⟩
      · rintro ⟨hw | rfl, hkey⟩
        · exact ⟨hw, hkey⟩
        · exact absurd hkey.symm hk

/-- The entries are those of the list, in some order. -/
theorem entries_perm (h : Lists key m l) :
    m.entries.Perm (l.map fun v => ⟨key v, v⟩) := by
  rw [List.perm_ext_iff_of_nodup]
  · rintro ⟨k, v⟩
    rw [← AList.mem_lookup_iff, Option.mem_def, h.lookup_iff, List.mem_map]
    constructor
    · rintro ⟨hv, rfl⟩
      exact ⟨v, hv, rfl⟩
    · rintro ⟨w, hw, heq⟩
      cases heq
      exact ⟨hw, rfl⟩
  · exact List.NodupKeys.nodup m.nodupKeys
  · rw [List.nodup_iff_pairwise_ne, List.pairwise_map]
    apply h.sorted.imp
    intro a b hlt heq
    rw [(Sigma.mk.inj heq).1] at hlt
    exact Std.lt_irrefl hlt

variable [Std.IsLinearOrder K]

/-- The least key is that of the head. -/
theorem min?_keys [Min K] [Std.LawfulOrderMin K] (h : Lists key m l) :
    m.keys.min? = l.head?.map key := by
  match l, h with
  | [], h =>
      have hnil : m.keys = [] := List.eq_nil_of_length_eq_zero h.length_keys
      rw [hnil]
      rfl
  | v :: rest, h =>
      rw [List.head?_cons, Option.map_some, List.min?_eq_some_iff]
      constructor
      · exact (h.mem_keys_iff _).mpr List.mem_cons_self
      · intro k hk
        obtain ⟨w, hw, rfl⟩ := List.mem_map.mp ((h.mem_keys_iff k).mp hk)
        rcases List.mem_cons.mp hw with rfl | hw
        · exact Std.le_refl _
        · exact Std.le_of_lt ((List.pairwise_cons.mp h.sorted).1 w hw)

/-- The values in key order are the list. -/
theorem values_eq [DecidableLE K] (h : Lists key m l) : m.valuesInOrder = l := by
  have htotal : Std.Total fun a b : Sigma fun _ : K => V => a.1 ≤ b.1 :=
    ⟨fun _ _ => Std.le_total⟩
  have htrans : IsTrans (Sigma fun _ : K => V) fun a b => a.1 ≤ b.1 :=
    ⟨fun _ _ _ => Std.le_trans⟩
  have hperm := (List.perm_insertionSort (fun a b => a.1 ≤ b.1) m.entries).trans
    h.entries_perm
  have hkeyed : (l.map fun v => (⟨key v, v⟩ : Sigma fun _ : K => V)).Pairwise
      fun a b => a.1 ≤ b.1 := by
    rw [List.pairwise_map]
    exact h.sorted.imp Std.le_of_lt
  have hentries : m.entries.insertionSort (fun a b => a.1 ≤ b.1) =
      l.map fun v => ⟨key v, v⟩ := by
    refine List.Perm.eq_of_pairwise ?_ (List.pairwise_insertionSort _ _) hkeyed hperm
    intro a b ha hb hab hba
    rw [hperm.mem_iff] at ha
    obtain ⟨v, hv, rfl⟩ := List.mem_map.mp ha
    obtain ⟨w, hw, rfl⟩ := List.mem_map.mp hb
    have hkey : key v = key w := Std.le_antisymm hab hba
    have hsame := h.lookup_key hv
    rw [hkey, h.lookup_key hw, Option.some.injEq] at hsame
    rw [hsame]
  rw [valuesInOrder, hentries, List.map_map]
  exact List.map_id l

/-- The last value in key order that satisfies a condition is the one of largest
key among those that do. -/
theorem find?_reverse_values_eq_some [DecidableLE K] (h : Lists key m l)
    (p : V → Bool) (v : V) :
    m.valuesInOrder.reverse.find? p = some v ↔
      m.lookup (key v) = some v ∧ p v = true ∧
        ∀ k w, m.lookup k = some w → p w = true → k ≤ key v := by
  rw [h.values_eq, List.find?_eq_some_iff_append]
  constructor
  · rintro ⟨hp, after, before, hsplit, hnone⟩
    have hlist : l = before.reverse ++ v :: after.reverse := by
      rw [← List.reverse_reverse l, hsplit]
      simp
    refine ⟨h.lookup_key (by rw [hlist]; simp), hp, ?_⟩
    intro k w hw hpw
    obtain ⟨hmem, rfl⟩ := (h.lookup_iff k w).mp hw
    have hsorted := h.sorted
    rw [hlist, List.pairwise_append] at hsorted
    rw [hlist, List.mem_append, List.mem_cons] at hmem
    rcases hmem with hbefore | rfl | hafter
    · exact Std.le_of_lt (hsorted.2.2 w hbefore v List.mem_cons_self)
    · exact Std.le_refl _
    · have hnot := hnone w (List.mem_reverse.mp hafter)
      rw [hpw] at hnot
      cases hnot
  · rintro ⟨hv, hp, hlargest⟩
    obtain ⟨before, after, hsplit⟩ := List.append_of_mem ((h.lookup_iff _ _).mp hv).1
    refine ⟨hp, after.reverse, before.reverse, by rw [hsplit]; simp, ?_⟩
    intro w hw
    rw [List.mem_reverse] at hw
    have hsorted := h.sorted
    rw [hsplit, List.pairwise_append, List.pairwise_cons] at hsorted
    have hlt := hsorted.2.1.1 w hw
    have hwl : w ∈ l := by
      rw [hsplit]
      exact List.mem_append_right _ (List.mem_cons_of_mem _ hw)
    rw [Bool.not_eq_true']
    apply Bool.eq_false_iff.mpr
    intro hpw
    exact Std.not_lt_of_ge (hlargest _ w (h.lookup_key hwl) hpw) hlt

end Lists

end ReserveGrid.Support.HashMap
