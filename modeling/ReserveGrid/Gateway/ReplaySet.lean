import Mathlib.Data.List.DropRight
import ReserveGrid.Gateway.Shares

/-!
# The window of the replay set

The replay set keeps its ids twice: a set to look them up and a queue for the
order of eviction. Over any sequence of checks both hold the last ids that were
found fresh, as many as the capacity. A replay does not move an id back to the
end of the queue.
-/

namespace ReserveGrid.Gateway

open Support

namespace ShareDedupSet

/-- The replay set of a new session. -/
def new (maxEntries : ℕ) : ShareDedupSet where
  maxEntries := maxEntries

/-- The replay set after a sequence of checks. -/
def afterChecks (dedup : ShareDedupSet) (shareIds : List Bytes32) : ShareDedupSet :=
  shareIds.foldl (fun dedup shareId => (dedup.checkAndInsert shareId).2) dedup

/-- The ids of a sequence for which the check returned false, oldest first. -/
def freshIds (dedup : ShareDedupSet) : List Bytes32 → List Bytes32
  | [] => []
  | shareId :: shareIds =>
      if (dedup.checkAndInsert shareId).1 then
        freshIds (dedup.checkAndInsert shareId).2 shareIds
      else shareId :: freshIds (dedup.checkAndInsert shareId).2 shareIds

/-- The set and the queue hold the last of the fresh ids, each of them once. -/
structure Window (dedup : ShareDedupSet) (fresh : List Bytes32) : Prop where
  order_eq : dedup.order = fresh.rtake dedup.maxEntries
  set_eq : dedup.set = dedup.order.toFinset
  nodup : dedup.order.Nodup

section Window

variable {dedup : ShareDedupSet} {fresh order : List Bytes32} {shareId : Bytes32}

theorem window_new (maxEntries : ℕ) : Window (new maxEntries) [] where
  order_eq := by simp [new]
  set_eq := by simp [new]
  nodup := List.nodup_nil

theorem Window.length_order_le (h : Window dedup fresh) :
    dedup.order.length ≤ dedup.maxEntries := by
  rw [h.order_eq, List.rtake, List.length_drop]
  omega

theorem Window.card_set (h : Window dedup fresh) :
    dedup.set.card = dedup.order.length := by
  rw [h.set_eq]
  exact List.toFinset_card_of_nodup h.nodup

theorem Window.mem_set_iff (h : Window dedup fresh) :
    shareId ∈ dedup.set ↔ shareId ∈ fresh.rtake dedup.maxEntries := by
  rw [h.set_eq, List.mem_toFinset, h.order_eq]

/-- Eviction leaves one place free. -/
theorem evict_eq (maxEntries : ℕ) (hnodup : order.Nodup) :
    evict maxEntries order order.toFinset =
      (order.rtake (maxEntries - 1), (order.rtake (maxEntries - 1)).toFinset) := by
  induction order with
  | nil => simp [evict]
  | cons oldest order ih =>
      have hcard : (oldest :: order).toFinset.card = order.length + 1 :=
        List.toFinset_card_of_nodup hnodup
      rw [List.nodup_cons] at hnodup
      by_cases hroom : order.length + 1 < maxEntries
      · have hall : (oldest :: order).rtake (maxEntries - 1) = oldest :: order := by
          rw [List.rtake, List.length_cons,
            Nat.sub_eq_zero_of_le (by omega : order.length + 1 ≤ maxEntries - 1)]
          rfl
        rw [evict, if_pos (by omega), hall]
      · have hrest : (oldest :: order).rtake (maxEntries - 1) =
            order.rtake (maxEntries - 1) := by
          have hdrop : order.length + 1 - (maxEntries - 1) =
              order.length - (maxEntries - 1) + 1 := by omega
          rw [List.rtake, List.length_cons, hdrop]
          rfl
        have herase : (oldest :: order).toFinset.erase oldest = order.toFinset := by
          rw [List.toFinset_cons]
          exact Finset.erase_insert (by simpa using hnodup.1)
        rw [evict, if_neg (by omega), herase, ih hnodup.2, hrest]

/-- The last entries of the last entries. -/
theorem rtake_rtake_pred (ids : List Bytes32) {n : ℕ} (hn : 1 ≤ n) (shareId : Bytes32) :
    (ids.rtake n).rtake (n - 1) ++ [shareId] = (ids ++ [shareId]).rtake n := by
  obtain ⟨m, rfl⟩ := Nat.exists_eq_add_of_le' hn
  have hdrop : ids.length - (m + 1) + (ids.length - (ids.length - (m + 1)) - m) =
      ids.length - m := by omega
  rw [List.rtake_concat_succ, Nat.add_sub_cancel]
  simp only [List.rtake, List.length_drop, List.drop_drop, hdrop]

/-- A replay leaves everything as it is. -/
theorem checkAndInsert_of_mem (h : shareId ∈ dedup.set) :
    dedup.checkAndInsert shareId = (true, dedup) := by
  simp [checkAndInsert, h]

/-- The answer of a check. -/
theorem checkAndInsert_fst (dedup : ShareDedupSet) (shareId : Bytes32) :
    (dedup.checkAndInsert shareId).1 = true ↔ shareId ∈ dedup.set := by
  by_cases h : shareId ∈ dedup.set
  · simp [checkAndInsert, h]
  · simp [checkAndInsert, h]

theorem maxEntries_checkAndInsert (dedup : ShareDedupSet) (shareId : Bytes32) :
    (dedup.checkAndInsert shareId).2.maxEntries = dedup.maxEntries := by
  by_cases h : shareId ∈ dedup.set
  · simp [checkAndInsert, h]
  · simp [checkAndInsert, h]

/-- A fresh id moves the window by one. -/
theorem Window.checkAndInsert_fresh (h : Window dedup fresh)
    (hroom : 1 ≤ dedup.maxEntries) (hfresh : shareId ∉ dedup.set) :
    Window (dedup.checkAndInsert shareId).2 (fresh ++ [shareId]) := by
  have hnew : shareId ∉ dedup.order := by
    rw [h.set_eq, List.mem_toFinset] at hfresh
    exact hfresh
  have hkept := evict_eq dedup.maxEntries h.nodup
  rw [← h.set_eq] at hkept
  have hcheck : (dedup.checkAndInsert shareId).2 =
      { dedup with
        set := insert shareId (dedup.order.rtake (dedup.maxEntries - 1)).toFinset
        order := dedup.order.rtake (dedup.maxEntries - 1) ++ [shareId] } := by
    simp [checkAndInsert, hfresh, hkept]
  have hsub : (dedup.order.rtake (dedup.maxEntries - 1)).Sublist dedup.order :=
    List.drop_sublist _ _
  rw [hcheck]
  constructor
  · rw [← rtake_rtake_pred fresh hroom shareId, ← h.order_eq]
  · ext other
    simp
  · apply List.Nodup.append (h.nodup.sublist hsub) (List.nodup_singleton shareId)
    rw [List.disjoint_singleton]
    exact fun hmem => hnew (hsub.subset hmem)

/-- Over a sequence of checks the window is that of all ids found fresh. -/
theorem Window.afterChecks (h : Window dedup fresh) (hroom : 1 ≤ dedup.maxEntries)
    (shareIds : List Bytes32) :
    Window (dedup.afterChecks shareIds) (fresh ++ dedup.freshIds shareIds) := by
  induction shareIds generalizing dedup fresh with
  | nil => simpa [ShareDedupSet.afterChecks, freshIds] using h
  | cons shareId shareIds ih =>
      by_cases hseen : shareId ∈ dedup.set
      · simpa [ShareDedupSet.afterChecks, freshIds, checkAndInsert_of_mem hseen]
          using ih h hroom
      · have hanswer : (dedup.checkAndInsert shareId).1 = false := by
          simp [checkAndInsert, hseen]
        have hstep := h.checkAndInsert_fresh hroom hseen
        rw [← maxEntries_checkAndInsert dedup shareId] at hroom
        simpa [ShareDedupSet.afterChecks, freshIds, hanswer] using ih hstep hroom

end Window

theorem maxEntries_afterChecks (dedup : ShareDedupSet) (shareIds : List Bytes32) :
    (dedup.afterChecks shareIds).maxEntries = dedup.maxEntries := by
  induction shareIds generalizing dedup with
  | nil => rfl
  | cons shareId shareIds ih =>
      exact (ih _).trans (maxEntries_checkAndInsert dedup shareId)

/-- After any sequence of checks the set and the queue hold the same distinct
ids, at most as many as the capacity, and the next check finds a replay exactly
when the id is one of the last fresh ones. -/
theorem replay_window (maxEntries : ℕ) (hroom : 1 ≤ maxEntries)
    (shareIds : List Bytes32) :
    ((new maxEntries).afterChecks shareIds).order.Nodup ∧
      ((new maxEntries).afterChecks shareIds).order.toFinset =
        ((new maxEntries).afterChecks shareIds).set ∧
      ((new maxEntries).afterChecks shareIds).order.length ≤ maxEntries ∧
      ((new maxEntries).afterChecks shareIds).set.card ≤ maxEntries ∧
      ∀ shareId,
        (((new maxEntries).afterChecks shareIds).checkAndInsert shareId).1 = true ↔
          shareId ∈ ((new maxEntries).freshIds shareIds).rtake maxEntries := by
  have hwindow := (window_new maxEntries).afterChecks hroom shareIds
  have hmax : ((new maxEntries).afterChecks shareIds).maxEntries = maxEntries :=
    maxEntries_afterChecks (new maxEntries) shareIds
  have hlength := hwindow.length_order_le
  have hcard := hwindow.card_set
  refine ⟨hwindow.nodup, hwindow.set_eq.symm, by omega, by omega, fun shareId => ?_⟩
  rw [checkAndInsert_fst, hwindow.mem_set_iff, hmax, List.nil_append]

/-- With room for two ids, an id that was replayed and then pushed out by two
others is fresh again: its replay did not refresh it. -/
theorem replay_window_two :
    let shareIds := [Bytes32.fill 1, .fill 2, .fill 1, .fill 3]
    ((new 2).freshIds shareIds).rtake 2 = [Bytes32.fill 2, .fill 3] ∧
      ((((new 2).afterChecks shareIds).checkAndInsert (Bytes32.fill 1)).1 = true ↔
        Bytes32.fill 1 ∈ ((new 2).freshIds shareIds).rtake 2) :=
  ⟨by decide +kernel,
    (replay_window 2 (by decide)
      [Bytes32.fill 1, .fill 2, .fill 1, .fill 3]).2.2.2.2 (Bytes32.fill 1)⟩

end ShareDedupSet

end ReserveGrid.Gateway
