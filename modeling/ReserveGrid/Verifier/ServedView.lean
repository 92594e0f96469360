import Mathlib.Data.Finset.Card
import ReserveGrid.Verifier.MempoolView

/-!
# The served mempool view

The polling task installs what `getrawmempool` returned, and every template
reads the view through a snapshot. The view is held behind one lock, so a run
is a list of installs and snapshots, each with the clock reading it took. The
module relates what a snapshot says to the installs before it.
-/

namespace ReserveGrid.Verifier

open Support Consensus

/-! ## The view and its operations -/

/-- The part of the view behind the lock. -/
structure MempoolViewInner where
  txids : Finset Bytes32
  lastRefreshUnixMs : Option UInt64
  maxStaleSecs : UInt64
  primed : Bool
  deriving DecidableEq

/-- The view, with the number of refused responses since start-up. -/
structure MempoolView where
  inner : MempoolViewInner
  emptyResponses : UInt64
  deriving DecidableEq

/-- The size a set must have to become the served view. -/
def minInstallableMempoolSize : ℕ := 1

/-- Saturating multiplication of `u64`. -/
def saturatingMul64 (a b : UInt64) : UInt64 :=
  UInt64.ofNat (min (a.toNat * b.toNat) (2 ^ 64 - 1))

/-- Saturating subtraction of `u64`. -/
def saturatingSub64 (a b : UInt64) : UInt64 :=
  UInt64.ofNat (a.toNat - b.toNat)

namespace MempoolView

/-- The view before any refresh. -/
def new (maxStaleSecs : UInt64) : MempoolView where
  inner :=
    { txids := ∅
      lastRefreshUnixMs := none
      maxStaleSecs := maxStaleSecs
      primed := false }
  emptyResponses := 0

/-- The state of a primed view of the given age. -/
def stateAt (maxStaleSecs ageSecs : UInt64) : MempoolState :=
  if saturatingMul64 maxStaleSecs 2 < ageSecs then .degraded
  else if maxStaleSecs < ageSecs then .stale
  else .fresh

/-- The state and the age a snapshot reports. -/
def stateAndAge (inner : MempoolViewInner) (nowMs : UInt64) :
    MempoolState × UInt64 :=
  match inner.lastRefreshUnixMs, inner.primed with
  | some last, true =>
      let ageMs := saturatingSub64 nowMs last
      let ageSecs := ageMs / 1000
      (stateAt inner.maxStaleSecs ageSecs, ageSecs)
  | _, _ => (.unprimed, 0)

/-- Read the view. -/
def snapshot (view : MempoolView) (nowMs : UInt64) : MempoolSnapshot where
  state := (stateAndAge view.inner nowMs).1
  txids := view.inner.txids
  ageSecs := (stateAndAge view.inner nowMs).2
  size := view.inner.txids.card

/-- Replace the set and its refresh time, or refuse a set that is too small.
The answer says whether the set was installed. -/
def installAt (view : MempoolView) (txids : Finset Bytes32)
    (lastRefreshUnixMs : UInt64) : Bool × MempoolView :=
  if txids.card < minInstallableMempoolSize then
    (false, { view with emptyResponses := view.emptyResponses + 1 })
  else
    (true,
      { view with
        inner :=
          { view.inner with
            txids := txids
            lastRefreshUnixMs := some lastRefreshUnixMs
            primed := true } })

theorem installAt_of_nonempty (view : MempoolView) {txids : Finset Bytes32}
    (h : txids.Nonempty) (nowMs : UInt64) :
    view.installAt txids nowMs =
      (true,
        { view with
          inner :=
            { view.inner with
              txids := txids
              lastRefreshUnixMs := some nowMs
              primed := true } }) := by
  have hcard : ¬ txids.card < minInstallableMempoolSize := by
    rw [minInstallableMempoolSize, Nat.lt_one_iff, Finset.card_eq_zero]
    exact h.ne_empty
  rw [installAt, if_neg hcard]

/-- A snapshot depends on what is behind the lock only. -/
theorem snapshot_congr {view view' : MempoolView}
    (h : view.inner = view'.inner) (nowMs : UInt64) :
    view.snapshot nowMs = view'.snapshot nowMs := by
  rw [snapshot, snapshot, h]

end MempoolView

/-! ## Ages -/

theorem saturatingMul64_two_toNat (a : UInt64) :
    (saturatingMul64 a 2).toNat = min (2 * a.toNat) (2 ^ 64 - 1) := by
  have htwo : UInt64.toNat 2 = 2 := rfl
  have hlt : min (a.toNat * 2) (2 ^ 64 - 1) < 2 ^ 64 := by omega
  rw [saturatingMul64, htwo, UInt64.toNat_ofNat_of_lt' hlt, Nat.mul_comm 2]

theorem saturatingSub64_toNat (a b : UInt64) :
    (saturatingSub64 a b).toNat = a.toNat - b.toNat := by
  have hlt : a.toNat - b.toNat < 2 ^ 64 := by
    have := a.toNat_lt
    omega
  rw [saturatingSub64, UInt64.toNat_ofNat_of_lt' hlt]

/-- An age in seconds is too small for the saturated bound to matter. -/
theorem ageSecs_toNat (now last : UInt64) :
    (saturatingSub64 now last / 1000).toNat =
        (now.toNat - last.toNat) / 1000 ∧
      (saturatingSub64 now last / 1000).toNat < 2 ^ 64 - 1 := by
  have hlt := now.toNat_lt
  have hage : (saturatingSub64 now last / 1000).toNat =
      (now.toNat - last.toNat) / 1000 := by
    rw [UInt64.toNat_div, saturatingSub64_toNat]
    rfl
  refine ⟨hage, ?_⟩
  rw [hage]
  omega

namespace MempoolView

/-- The state of a primed view, with the bounds read as natural numbers. -/
theorem stateAt_iff (maxStaleSecs : UInt64) {ageSecs : UInt64}
    (hage : ageSecs.toNat < 2 ^ 64 - 1) :
    (stateAt maxStaleSecs ageSecs = .fresh ↔
        ageSecs.toNat ≤ maxStaleSecs.toNat) ∧
      (stateAt maxStaleSecs ageSecs = .stale ↔
        maxStaleSecs.toNat < ageSecs.toNat ∧
          ageSecs.toNat ≤ 2 * maxStaleSecs.toNat) ∧
      (stateAt maxStaleSecs ageSecs = .degraded ↔
        2 * maxStaleSecs.toNat < ageSecs.toNat) := by
  have htwice : saturatingMul64 maxStaleSecs 2 < ageSecs ↔
      2 * maxStaleSecs.toNat < ageSecs.toNat := by
    rw [UInt64.lt_iff_toNat_lt, saturatingMul64_two_toNat]
    omega
  have honce : maxStaleSecs < ageSecs ↔
      maxStaleSecs.toNat < ageSecs.toNat := UInt64.lt_iff_toNat_lt
  unfold stateAt
  by_cases h2 : saturatingMul64 maxStaleSecs 2 < ageSecs
  · have hdegraded := htwice.mp h2
    rw [if_pos h2]
    simp only [reduceCtorEq, false_iff, true_iff]
    omega
  · have hnot := mt htwice.mpr h2
    rw [if_neg h2]
    by_cases h1 : maxStaleSecs < ageSecs
    · have hstale := honce.mp h1
      rw [if_pos h1]
      simp only [reduceCtorEq, false_iff, true_iff]
      omega
    · have hfresh := mt honce.mpr h1
      rw [if_neg h1]
      simp only [reduceCtorEq, false_iff, true_iff]
      omega

end MempoolView

/-! ## Runs -/

/-- What the polling task and the readers do to the view. -/
inductive ViewEvent where
  | install (txids : Finset Bytes32) (nowMs : UInt64)
  | snapshot (nowMs : UInt64)

namespace ViewEvent

/-- The clock reading an event took. -/
def nowMs : ViewEvent → UInt64
  | .install _ nowMs => nowMs
  | .snapshot nowMs => nowMs

/-- The view after an event. -/
def apply (view : MempoolView) : ViewEvent → MempoolView
  | .install txids nowMs => (view.installAt txids nowMs).2
  | .snapshot _ => view

/-- The set an event offered, when it has a member. -/
def offered : ViewEvent → Option (Finset Bytes32 × UInt64)
  | .install txids nowMs =>
      if txids.Nonempty then some (txids, nowMs) else none
  | .snapshot _ => none

end ViewEvent

/-- The view after a list of events, from an unprimed one. -/
def viewAfter (maxStaleSecs : UInt64) (history : List ViewEvent) :
    MempoolView :=
  history.foldl ViewEvent.apply (MempoolView.new maxStaleSecs)

/-- Clock readings do not decrease along the list. -/
def ClockOrdered (history : List ViewEvent) : Prop :=
  history.Pairwise fun a b => a.nowMs.toNat ≤ b.nowMs.toNat

/-- The last non-empty set offered, with its clock reading. -/
def lastOffered (history : List ViewEvent) :
    Option (Finset Bytes32 × UInt64) :=
  (history.filterMap ViewEvent.offered).getLast?

/-- What the lock guards when `last` was the last non-empty set. -/
def innerFor (maxStaleSecs : UInt64) :
    Option (Finset Bytes32 × UInt64) → MempoolViewInner
  | none => (MempoolView.new maxStaleSecs).inner
  | some (txids, nowMs) =>
      { txids := txids
        lastRefreshUnixMs := some nowMs
        maxStaleSecs := maxStaleSecs
        primed := true }

/-- One event moves the guarded part from the old last set to the new one. -/
theorem apply_inner {maxStaleSecs : UInt64} {view : MempoolView}
    {last : Option (Finset Bytes32 × UInt64)}
    (h : view.inner = innerFor maxStaleSecs last) (event : ViewEvent) :
    (event.apply view).inner =
      innerFor maxStaleSecs (event.offered.or last) := by
  cases event with
  | snapshot nowMs => exact h
  | install txids nowMs =>
      by_cases hne : txids.Nonempty
      · have hmax : view.inner.maxStaleSecs = maxStaleSecs := by
          rw [h]
          cases last <;> rfl
        rw [ViewEvent.apply, view.installAt_of_nonempty hne,
          ViewEvent.offered, if_pos hne]
        simp only [innerFor, Option.some_or, hmax]
      · rw [Finset.not_nonempty_iff_eq_empty] at hne
        subst hne
        exact h

theorem lastOffered_append (history : List ViewEvent) (event : ViewEvent) :
    lastOffered (history ++ [event]) =
      event.offered.or (lastOffered history) := by
  unfold lastOffered
  rw [List.filterMap_append, List.getLast?_append]
  cases h : event.offered with
  | none => simp [h]
  | some offer => simp [h]

/-- After any run the guarded part is that of the last non-empty set. -/
theorem viewAfter_inner (maxStaleSecs : UInt64) (history : List ViewEvent) :
    (viewAfter maxStaleSecs history).inner =
      innerFor maxStaleSecs (lastOffered history) := by
  induction history using List.reverseRecOn with
  | nil => rfl
  | append_singleton history event ih =>
      rw [lastOffered_append, viewAfter, List.foldl_append]
      exact apply_inner ih event

theorem offered_eq_some {event : ViewEvent} {txids : Finset Bytes32}
    {nowMs : UInt64} :
    event.offered = some (txids, nowMs) ↔
      event = .install txids nowMs ∧ txids.Nonempty := by
  cases event with
  | snapshot t => simp [ViewEvent.offered]
  | install xs t =>
      by_cases hne : xs.Nonempty
      · simp only [ViewEvent.offered, if_pos hne, Option.some.injEq,
          Prod.mk.injEq, ViewEvent.install.injEq]
        constructor
        · rintro ⟨rfl, rfl⟩
          exact ⟨⟨rfl, rfl⟩, hne⟩
        · exact And.left
      · simp only [ViewEvent.offered, if_neg hne, ViewEvent.install.injEq]
        constructor
        · intro h
          cases h
        · rintro ⟨⟨rfl, -⟩, h⟩
          exact absurd h hne

theorem lastOffered_eq_none {history : List ViewEvent} :
    lastOffered history = none ↔
      ∀ txids nowMs, .install txids nowMs ∈ history → txids = ∅ := by
  rw [lastOffered, List.getLast?_eq_none_iff, List.filterMap_eq_nil_iff]
  constructor
  · intro h txids nowMs hmem
    by_contra hne
    have hsome : ViewEvent.offered (.install txids nowMs) =
        some (txids, nowMs) :=
      offered_eq_some.mpr ⟨rfl, Finset.nonempty_iff_ne_empty.mpr hne⟩
    rw [h (.install txids nowMs) hmem] at hsome
    cases hsome
  · intro h event hmem
    by_contra hne
    obtain ⟨⟨txids, nowMs⟩, hoffer⟩ := Option.ne_none_iff_exists'.mp hne
    obtain ⟨rfl, hxs⟩ := offered_eq_some.mp hoffer
    exact hxs.ne_empty (h txids nowMs hmem)

theorem lastOffered_mem {history : List ViewEvent} {txids : Finset Bytes32}
    {nowMs : UInt64} (h : lastOffered history = some (txids, nowMs)) :
    .install txids nowMs ∈ history ∧ txids.Nonempty := by
  obtain ⟨event, hmem, hoffer⟩ :=
    List.mem_filterMap.mp (List.mem_of_getLast? h)
  obtain ⟨rfl, hne⟩ := offered_eq_some.mp hoffer
  exact ⟨hmem, hne⟩

/-- A primed view is never reported as unprimed. -/
theorem stateAt_ne_unprimed (maxStaleSecs ageSecs : UInt64) :
    MempoolView.stateAt maxStaleSecs ageSecs ≠ .unprimed := by
  unfold MempoolView.stateAt
  split
  · simp
  · split <;> simp

/-- What a snapshot says, for every run of installs and snapshots before it.
Refused installs leave every later snapshot as it was. -/
theorem snapshot_after_run (maxStaleSecs : UInt64) (history : List ViewEvent)
    (now : UInt64) (hclock : ClockOrdered (history ++ [.snapshot now])) :
    (((viewAfter maxStaleSecs history).snapshot now).state = .unprimed ↔
        ∀ txids nowMs, .install txids nowMs ∈ history → txids = ∅) ∧
      (∀ txids last, lastOffered history = some (txids, last) →
        let served := (viewAfter maxStaleSecs history).snapshot now
        let ageSecs := (now.toNat - last.toNat) / 1000
        last.toNat ≤ now.toNat ∧
          served.txids = txids ∧ served.size = txids.card ∧
          served.txids.Nonempty ∧ served.ageSecs.toNat = ageSecs ∧
          (served.state = .fresh ↔ ageSecs ≤ maxStaleSecs.toNat) ∧
          (served.state = .stale ↔ maxStaleSecs.toNat < ageSecs ∧
            ageSecs ≤ 2 * maxStaleSecs.toNat) ∧
          (served.state = .degraded ↔ 2 * maxStaleSecs.toNat < ageSecs)) ∧
      (∀ before after nowMs,
        history = before ++ .install ∅ nowMs :: after →
          ((viewAfter maxStaleSecs before).installAt ∅ nowMs).1 = false ∧
          (viewAfter maxStaleSecs history).snapshot now =
            (viewAfter maxStaleSecs (before ++ after)).snapshot now) := by
  have hinner := viewAfter_inner maxStaleSecs history
  refine ⟨?_, ?_, ?_⟩
  · rw [← lastOffered_eq_none]
    simp only [MempoolView.snapshot, hinner]
    cases lastOffered history with
    | none => simp [innerFor, MempoolView.stateAndAge, MempoolView.new]
    | some last =>
        simp [innerFor, MempoolView.stateAndAge, stateAt_ne_unprimed]
  · intro txids last hlast
    obtain ⟨hmem, hne⟩ := lastOffered_mem hlast
    obtain ⟨hage, hbound⟩ := ageSecs_toNat now last
    obtain ⟨hfresh, hstale, hdegraded⟩ :=
      MempoolView.stateAt_iff maxStaleSecs hbound
    rw [hage] at hfresh hstale hdegraded
    have hle : last.toNat ≤ now.toNat :=
      (List.pairwise_append.mp hclock).2.2 _ hmem _ (List.mem_singleton_self _)
    simp only [MempoolView.snapshot, hinner, hlast, innerFor,
      MempoolView.stateAndAge]
    exact ⟨hle, trivial, trivial, hne, hage, hfresh, hstale, hdegraded⟩
  · intro before after nowMs hsplit
    refine ⟨rfl, MempoolView.snapshot_congr ?_ now⟩
    rw [hinner, viewAfter_inner, hsplit]
    simp [lastOffered, ViewEvent.offered]

/-- One set installed at one second, an empty answer at forty seconds, and a
snapshot at fifty: the set is served as stale. -/
def staleRun (txid : Bytes32) : List ViewEvent :=
  [.install {txid} 1000, .install ∅ 40000]

theorem snapshot_after_staleRun :
    ((viewAfter 30 (staleRun Bytes32.zero)).snapshot 50000).state = .stale ∧
      ((viewAfter 30 (staleRun Bytes32.zero)).snapshot 50000).txids =
        {Bytes32.zero} := by
  have hclock : ClockOrdered (staleRun Bytes32.zero ++ [.snapshot 50000]) := by
    simp [ClockOrdered, staleRun, ViewEvent.nowMs]
  obtain ⟨-, hserved, -⟩ := snapshot_after_run 30 _ 50000 hclock
  obtain ⟨-, htxids, -, -, -, -, hstale, -⟩ := hserved _ 1000 rfl
  exact ⟨hstale.mpr (by decide), htxids⟩

end ReserveGrid.Verifier
