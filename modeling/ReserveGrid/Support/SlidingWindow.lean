import Mathlib.Data.List.Basic
import Mathlib.Order.Nat

/-!
# Sliding windows over a record of times

A sliding window counts the times of a record that are less than one window
old. An implementation keeps only some of the times and drops the old ones from
the front; `Tracks` says what such a deque still knows of the whole record.
-/

namespace ReserveGrid.Support

namespace SlidingWindow

variable {window now clock : ℕ} {record kept : List ℕ}

/-- The times of a record less than one window old. -/
def live (window now : ℕ) (record : List ℕ) : List ℕ :=
  record.filter fun s => now < s + window

/-- The times of a record inside the window that ends at `now`. -/
def within (window now : ℕ) (record : List ℕ) : List ℕ :=
  record.filter fun s => s ≤ now ∧ now < s + window

/-- Drop the times at least one window old from the front. -/
def prune (window now : ℕ) (deque : List ℕ) : List ℕ :=
  deque.dropWhile fun front => window ≤ now - front

theorem live_append (xs ys : List ℕ) :
    live window now (xs ++ ys) = live window now xs ++ live window now ys :=
  List.filter_append ..

theorem live_eq_nil (h : ∀ s ∈ record, s + window ≤ now) :
    live window now record = [] := by
  apply List.filter_eq_nil_iff.mpr
  intro s hs
  simpa using h s hs

theorem live_eq_self (h : ∀ s ∈ record, now < s + window) :
    live window now record = record := by
  apply List.filter_eq_self.mpr
  intro s hs
  simpa using h s hs

theorem mem_live {s : ℕ} :
    s ∈ live window now record ↔ s ∈ record ∧ now < s + window := by
  simp [live]

/-- What is live later was live before. -/
theorem live_live {later : ℕ} (h : now ≤ later) :
    live window later (live window now record) = live window later record := by
  unfold live
  rw [List.filter_filter]
  apply List.filter_congr
  intro s _
  apply Bool.eq_iff_iff.mpr
  simp only [Bool.and_eq_true, decide_eq_true_eq]
  omega

/-- On a sorted deque the pruned entries are exactly the expired ones. -/
theorem prune_eq_live (hwindow : 0 < window) {deque : List ℕ}
    (hsorted : deque.Pairwise (· ≤ ·)) :
    prune window now deque = live window now deque := by
  induction deque with
  | nil => rfl
  | cons front rest ih =>
      rw [List.pairwise_cons] at hsorted
      by_cases hold : window ≤ now - front
      · have hexpired : ¬ now < front + window := by omega
        rw [prune, List.dropWhile_cons_of_pos (by simpa using hold), live,
          List.filter_cons_of_neg (by simpa using hexpired)]
        exact ih hsorted.2
      · have hall : ∀ s ∈ front :: rest, now < s + window := by
          intro s hs
          have hle : front ≤ s := by
            rcases List.mem_cons.mp hs with rfl | hs
            · exact le_rfl
            · exact hsorted.1 s hs
          omega
        rw [prune, List.dropWhile_cons_of_neg (by simpa using hold),
          live_eq_self hall]

/-! ## What a deque knows of the record -/

/-- The deque holds the end of a sorted record; what is missing from it had
expired by `clock`. -/
structure Tracks (window clock : ℕ) (record kept : List ℕ) : Prop where
  sorted : record.Pairwise (· ≤ ·)
  le_clock : ∀ s ∈ record, s ≤ clock
  split : ∃ dropped, record = dropped ++ kept ∧
    ∀ s ∈ dropped, s + window ≤ clock

theorem Tracks.nil : Tracks window clock [] [] :=
  ⟨List.Pairwise.nil, by simp, [], rfl, by simp⟩

theorem Tracks.later (h : Tracks window clock record kept)
    (hclock : clock ≤ now) :
    Tracks window now record kept := by
  obtain ⟨dropped, hsplit, hexpired⟩ := h.split
  refine ⟨h.sorted, fun s hs => (h.le_clock s hs).trans hclock, dropped, hsplit,
    fun s hs => (hexpired s hs).trans hclock⟩

theorem Tracks.kept_sorted (h : Tracks window clock record kept) :
    kept.Pairwise (· ≤ ·) := by
  obtain ⟨dropped, rfl, -⟩ := h.split
  exact (List.pairwise_append.mp h.sorted).2.1

/-- Pruning leaves the live part of the whole record. -/
theorem Tracks.prune_eq (h : Tracks window clock record kept)
    (hwindow : 0 < window) :
    prune window clock kept = live window clock record := by
  rw [prune_eq_live hwindow h.kept_sorted]
  obtain ⟨dropped, rfl, hexpired⟩ := h.split
  rw [live_append, live_eq_nil hexpired, List.nil_append]

theorem Tracks.prune (h : Tracks window clock record kept) :
    Tracks window clock record (prune window clock kept) := by
  obtain ⟨dropped, rfl, hexpired⟩ := h.split
  refine ⟨h.sorted, h.le_clock,
    dropped ++ kept.takeWhile fun front => window ≤ clock - front, ?_, ?_⟩
  · rw [List.append_assoc, SlidingWindow.prune, List.takeWhile_append_dropWhile]
  · intro s hs
    rcases List.mem_append.mp hs with hs | hs
    · exact hexpired s hs
    · have hold := List.all_eq_true.mp List.all_takeWhile s hs
      have hle := h.le_clock s (List.mem_append_right _
        (List.takeWhile_sublist _ |>.subset hs))
      simp only [decide_eq_true_eq] at hold
      omega

theorem Tracks.push (h : Tracks window clock record kept) :
    Tracks window clock (record ++ [clock]) (kept ++ [clock]) := by
  obtain ⟨dropped, rfl, hexpired⟩ := h.split
  refine ⟨?_, ?_, dropped, List.append_assoc _ _ _, hexpired⟩
  · apply List.pairwise_append.mpr
    refine ⟨h.sorted, List.pairwise_singleton _ _, ?_⟩
    intro s hs t ht
    rw [List.mem_singleton] at ht
    exact ht ▸ h.le_clock s hs
  · intro s hs
    rcases List.mem_append.mp hs with hs | hs
    · exact h.le_clock s hs
    · exact (List.mem_singleton.mp hs).le

/-- A deque whose newest time has expired may be forgotten. -/
theorem Tracks.forget (h : Tracks window clock record kept)
    (hnewest : ∀ s ∈ kept.getLast?, s + window ≤ clock) :
    Tracks window clock record [] := by
  refine ⟨h.sorted, h.le_clock, record, (List.append_nil _).symm, ?_⟩
  obtain ⟨dropped, rfl, hexpired⟩ := h.split
  intro s hs
  rcases List.mem_append.mp hs with hs | hs
  · exact hexpired s hs
  · obtain ⟨newest, hlast⟩ := Option.isSome_iff_exists.mp
      (List.getLast?_isSome.mpr (List.ne_nil_of_mem hs))
    have hle : s ≤ newest := by
      obtain ⟨front, rfl⟩ := List.getLast?_eq_some_iff.mp hlast
      have hsorted := h.kept_sorted
      rcases List.mem_append.mp hs with hs | hs
      · exact (List.pairwise_append.mp hsorted).2.2 s hs newest
          (List.mem_singleton_self _)
      · exact (List.mem_singleton.mp hs).le
    have hold := hnewest newest hlast
    omega

/-! ## Bounded windows -/

/-- No window holds more than `m` times of the record. -/
def Bounded (window m : ℕ) (record : List ℕ) : Prop :=
  ∀ now, (within window now record).length ≤ m

theorem Bounded.nil (m : ℕ) : Bounded window m [] :=
  fun _ => Nat.zero_le m

/-- A window that does not reach back a whole window from `now` is part of the
live times. -/
theorem within_sublist_live (window : ℕ) (record : List ℕ) {later : ℕ}
    (h : now ≤ later) :
    List.Sublist (within window later record) (live window now record) := by
  apply List.monotone_filter_right
  intro s hs
  simp only [decide_eq_true_eq] at hs ⊢
  omega

theorem within_eq_live (hle : ∀ s ∈ record, s ≤ now) :
    within window now record = live window now record := by
  apply List.filter_congr
  intro s hs
  simp [hle s hs]

/-- Recording a time keeps the bound when fewer than `m` are live. -/
theorem Bounded.push {m : ℕ} (h : Bounded window m record)
    (hlive : (live window now record).length < m) :
    Bounded window m (record ++ [now]) := by
  intro later
  rw [within, List.filter_append, List.length_append]
  by_cases hin : now ≤ later ∧ later < now + window
  · have hle := (within_sublist_live window record hin.1).length_le
    rw [List.filter_cons_of_pos (by simpa using hin), List.filter_nil,
      List.length_singleton]
    unfold within at hle
    omega
  · rw [List.filter_cons_of_neg (by simpa using hin), List.filter_nil,
      List.length_nil]
    exact h later

/-! ## Waiting -/

/-- How long until the front of a deque leaves the window. -/
def untilFrontExpires (window now : ℕ) (deque : List ℕ) : ℕ :=
  deque.head?.elim window fun front => window - (now - front)

/-- The wait is positive and at most a window when every entry is live. -/
theorem untilFrontExpires_bounds (now : ℕ) (record : List ℕ)
    (hwindow : 0 < window) :
    0 < untilFrontExpires window now (live window now record) ∧
      untilFrontExpires window now (live window now record) ≤ window := by
  unfold untilFrontExpires
  cases hlive : live window now record with
  | nil => exact ⟨hwindow, le_rfl⟩
  | cons front rest =>
      have hfront : front ∈ live window now record := by
        rw [hlive]
        exact List.mem_cons_self
      have hlt := (mem_live.mp hfront).2
      simp only [List.head?_cons, Option.elim_some]
      omega

/-- The live times become fewer exactly when the wait is over. -/
theorem live_length_lt_iff {later : ℕ} (hsorted : record.Pairwise (· ≤ ·))
    (hle : ∀ s ∈ record, s ≤ now) (hlater : now ≤ later)
    (hne : live window now record ≠ []) :
    (live window later record).length < (live window now record).length ↔
      now + untilFrontExpires window now (live window now record) ≤ later := by
  rw [← live_live hlater]
  have hlivesorted : (live window now record).Pairwise (· ≤ ·) :=
    hsorted.sublist List.filter_sublist
  have hmem : ∀ s ∈ live window now record, s ≤ now ∧ now < s + window :=
    fun s hs => ⟨hle s (mem_live.mp hs).1, (mem_live.mp hs).2⟩
  unfold untilFrontExpires
  cases hlive : live window now record with
  | nil => exact absurd hlive hne
  | cons front rest =>
      rw [hlive] at hmem hlivesorted
      have hfront := hmem front List.mem_cons_self
      simp only [List.head?_cons, Option.elim_some]
      by_cases hexpired : front + window ≤ later
      · have hneg : ¬ later < front + window := by omega
        have hrest := List.length_filter_le
          (fun s => decide (later < s + window)) rest
        rw [live, List.filter_cons_of_neg (by simpa using hneg),
          List.length_cons]
        omega
      · have hall : ∀ s ∈ front :: rest, later < s + window := by
          intro s hs
          have hge : front ≤ s := by
            rcases List.mem_cons.mp hs with rfl | hs
            · exact le_rfl
            · exact (List.pairwise_cons.mp hlivesorted).1 s hs
          omega
        rw [live_eq_self hall]
        omega

end SlidingWindow

end ReserveGrid.Support
