import ReserveGrid.Support.IpAddr
import ReserveGrid.Support.Run
import ReserveGrid.Support.Tally

/-!
# Connections per address

The tracker counts the connections of each address. A connection that is
accepted holds a permit; dropping the permit takes the connection off the count,
whenever that happens, and the entry of the address off the map at zero. The
tracker and its clones share one map, which is locked for the whole of each
call, so calls from any number of tasks come one after another.
-/

namespace ReserveGrid.Common

open Support

/-- The tracker. Its lock is poisoned once a holder has panicked. -/
structure PerIpConnectionTracker where
  maxPerIp : UInt32
  poisoned : Bool := false
  counts : HashMap IpAddr UInt32 := ∅

/-- What an accepted connection holds until it ends. -/
structure PerIpPermit where
  ip : IpAddr
  deriving DecidableEq

/-- The drop of a permit. A poisoned lock leaks the entry. -/
def PerIpPermit.drop (permit : PerIpPermit) (tracker : PerIpConnectionTracker) :
    PerIpConnectionTracker :=
  if tracker.poisoned then tracker
  else
    match tracker.counts.lookup permit.ip with
    | none => tracker
    | some count =>
        let count := if count = 0 then 0 else count - 1
        { tracker with
          counts :=
            if count = 0 then tracker.counts.erase permit.ip
            else tracker.counts.insert permit.ip count }

namespace PerIpConnectionTracker

def new (maxPerIp : UInt32) : PerIpConnectionTracker where
  maxPerIp

def isDisabled (tracker : PerIpConnectionTracker) : Bool :=
  tracker.maxPerIp = 0

/-- Accept a connection unless its address holds as many as it may. A poisoned
lock refuses everything. -/
def tryAccept (ip : IpAddr) (tracker : PerIpConnectionTracker) :
    Option PerIpPermit × PerIpConnectionTracker :=
  if tracker.isDisabled then (some ⟨ip⟩, tracker)
  else if tracker.poisoned then (none, tracker)
  else
    let current := (tracker.counts.lookup ip).getD 0
    if tracker.maxPerIp ≤ current then (none, tracker)
    else
      (some ⟨ip⟩,
        { tracker with counts := tracker.counts.insert ip (current + 1) })

/-- The connections of an address. A poisoned lock reads as zero. -/
def countFor (ip : IpAddr) (tracker : PerIpConnectionTracker) : UInt32 :=
  if tracker.poisoned then 0 else (tracker.counts.lookup ip).getD 0

end PerIpConnectionTracker

/-! ## Any order of calls -/

/-- A tracker with the permits that were given out and not dropped yet. -/
structure Connections where
  tracker : PerIpConnectionTracker
  live : List PerIpPermit := []

inductive ConnectionCall where
  | tryAccept (ip : IpAddr)
  | drop (permit : PerIpPermit)

namespace Connections

def new (maxPerIp : UInt32) : Connections where
  tracker := .new maxPerIp

/-- One call. Only a live permit can be dropped, and it is dropped once. -/
def step (s : Connections) : ConnectionCall → Option Connections
  | .tryAccept ip =>
      match s.tracker.tryAccept ip with
      | (none, tracker) => some { s with tracker }
      | (some permit, tracker) => some { tracker, live := permit :: s.live }
  | .drop permit =>
      if permit ∈ s.live then
        some { tracker := permit.drop s.tracker, live := s.live.erase permit }
      else none

/-- The addresses of the live permits, once for each permit. -/
def addresses (s : Connections) : List IpAddr := s.live.map PerIpPermit.ip

/-- The number of live permits of an address. -/
def permitsOf (s : Connections) (ip : IpAddr) : ℕ := s.addresses.count ip

/-- The map counts the live permits, none of the addresses over the limit. -/
structure Counted (maxPerIp : UInt32) (s : Connections) : Prop where
  limit : s.tracker.maxPerIp = maxPerIp
  sound : s.tracker.poisoned = false
  tallies : s.tracker.counts.Tallies s.addresses
  within : ∀ ip, s.permitsOf ip ≤ maxPerIp.toNat

section

variable {maxPerIp : UInt32} {s t : Connections} {call : ConnectionCall} {ip : IpAddr}

theorem counted_new (maxPerIp : UInt32) : (new maxPerIp).Counted maxPerIp where
  limit := rfl
  sound := rfl
  tallies := .empty
  within _ := Nat.zero_le _

/-- A connection is refused at the limit; otherwise it is counted. -/
theorem Counted.tryAccept_eq (h : s.Counted maxPerIp) (hmax : maxPerIp ≠ 0) (ip : IpAddr) :
    s.tracker.tryAccept ip =
      if s.permitsOf ip = maxPerIp.toNat then (none, s.tracker)
      else
        (some ⟨ip⟩,
          { s.tracker with
            counts := s.tracker.counts.insert ip
              ((s.tracker.counts.lookup ip).getD 0 + 1) }) := by
  have henabled : ¬ s.tracker.isDisabled = true := by
    simp [PerIpConnectionTracker.isDisabled, h.limit, hmax]
  have hsound : ¬ s.tracker.poisoned = true := by simp [h.sound]
  have hwithin := h.within ip
  have hfull : s.tracker.maxPerIp ≤ (s.tracker.counts.lookup ip).getD 0 ↔
      s.permitsOf ip = maxPerIp.toNat := by
    rw [UInt32.le_iff_toNat_le, h.tallies.toNat_getD, h.limit]
    change _ ≤ s.permitsOf ip ↔ _
    omega
  rw [PerIpConnectionTracker.tryAccept, if_neg henabled, if_neg hsound]
  simp only [hfull]

/-- The connections of an address are its live permits. -/
theorem Counted.toNat_countFor (h : s.Counted maxPerIp) (ip : IpAddr) :
    (s.tracker.countFor ip).toNat = s.permitsOf ip := by
  have hsound : ¬ s.tracker.poisoned = true := by simp [h.sound]
  rw [PerIpConnectionTracker.countFor, if_neg hsound]
  exact h.tallies.toNat_getD

theorem Counted.mem_counts_iff (h : s.Counted maxPerIp) (ip : IpAddr) :
    ip ∈ s.tracker.counts ↔ 0 < s.permitsOf ip := by
  rw [h.tallies.mem_iff, permitsOf, List.count_pos_iff]

/-- A drop changes the counts at most. -/
theorem drop_frame (permit : PerIpPermit) (tracker : PerIpConnectionTracker) :
    (permit.drop tracker).maxPerIp = tracker.maxPerIp ∧
      (permit.drop tracker).poisoned = tracker.poisoned := by
  unfold PerIpPermit.drop
  split
  · exact ⟨rfl, rfl⟩
  · split
    · exact ⟨rfl, rfl⟩
    · exact ⟨rfl, rfl⟩

/-- A permit that is dropped is taken off the count of its address. -/
theorem Counted.tallies_drop (h : s.Counted maxPerIp) {permit : PerIpPermit}
    (hlive : permit ∈ s.live) :
    (permit.drop s.tracker).counts.Tallies (s.addresses.erase permit.ip) := by
  have hmem : permit.ip ∈ s.addresses := List.mem_map_of_mem hlive
  have hpos : 0 < s.addresses.count permit.ip := List.count_pos_iff.mpr hmem
  have hcount := h.tallies permit.ip
  have hsound : ¬ s.tracker.poisoned = true := by simp [h.sound]
  rw [if_pos hmem, Option.map_eq_some_iff] at hcount
  obtain ⟨count, hlookup, hcount⟩ := hcount
  have hne : count ≠ 0 := by
    rintro rfl
    rw [← hcount] at hpos
    exact absurd hpos (Nat.lt_irrefl 0)
  have hone : (1 : UInt32) ≤ count := by
    rw [UInt32.le_iff_toNat_le]
    change 1 ≤ count.toNat
    omega
  have hpred : (count - 1).toNat + 1 = s.addresses.count permit.ip := by
    rw [UInt32.toNat_sub_of_le count 1 hone, ← hcount]
    change count.toNat - 1 + 1 = count.toNat
    omega
  rw [PerIpPermit.drop, if_neg hsound, hlookup]
  dsimp only
  rw [if_neg hne]
  by_cases hlast : count - 1 = 0
  · rw [if_pos hlast]
    apply h.tallies.erase_last
    rw [← hpred, hlast]
    rfl
  · rw [if_neg hlast]
    exact h.tallies.decrement hpred hlast

/-- Dropping a permit takes its address off once. -/
theorem addresses_erase (s : Connections) {permit : PerIpPermit}
    (hlive : permit ∈ s.live) :
    (s.addresses.erase permit.ip).Perm ((s.live.erase permit).map PerIpPermit.ip) := by
  have hperm := ((List.perm_cons_erase hlive).map PerIpPermit.ip).erase permit.ip
  rwa [List.map_cons, List.erase_cons_head] at hperm

/-- A refused connection leaves the tracker as it is. -/
theorem step_tryAccept (h : s.Counted maxPerIp) (hmax : maxPerIp ≠ 0)
    (hstep : s.step (.tryAccept ip) = some t) :
    t = s ∨ s.permitsOf ip ≠ maxPerIp.toNat ∧
      t = { tracker := { s.tracker with
              counts := s.tracker.counts.insert ip
                ((s.tracker.counts.lookup ip).getD 0 + 1) }
            live := ⟨ip⟩ :: s.live } := by
  rw [step, h.tryAccept_eq hmax] at hstep
  by_cases hfull : s.permitsOf ip = maxPerIp.toNat
  · rw [if_pos hfull] at hstep
    exact .inl (Option.some.inj hstep).symm
  · rw [if_neg hfull] at hstep
    exact .inr ⟨hfull, (Option.some.inj hstep).symm⟩

theorem Counted.tryAccept (h : s.Counted maxPerIp) (hmax : maxPerIp ≠ 0)
    (hstep : s.step (.tryAccept ip) = some t) :
    t.Counted maxPerIp := by
  rcases step_tryAccept h hmax hstep with rfl | ⟨hroom, rfl⟩
  · exact h
  have hwithin := h.within ip
  have hlimit : maxPerIp.toNat < 2 ^ 32 := maxPerIp.toNat_lt
  refine ⟨h.limit, h.sound, ?_, ?_⟩
  · apply h.tallies.increment
    change s.permitsOf ip + 1 < 2 ^ 32
    omega
  · intro ip'
    change (ip :: s.addresses).count ip' ≤ _
    by_cases hip : ip' = ip
    · subst hip
      rw [List.count_cons_self]
      change s.permitsOf ip' + 1 ≤ _
      omega
    · rw [List.count_cons_of_ne (Ne.symm hip)]
      exact h.within ip'

theorem Counted.drop (h : s.Counted maxPerIp) {permit : PerIpPermit}
    (hstep : s.step (.drop permit) = some t) :
    t.Counted maxPerIp := by
  by_cases hlive : permit ∈ s.live
  · have ht : t = { tracker := permit.drop s.tracker, live := s.live.erase permit } := by
      rw [step, if_pos hlive] at hstep
      exact (Option.some.inj hstep).symm
    subst ht
    have hperm := addresses_erase s hlive
    obtain ⟨hlimit, hpoisoned⟩ := drop_frame permit s.tracker
    refine ⟨hlimit.trans h.limit, hpoisoned.trans h.sound,
      (h.tallies_drop hlive).perm hperm, ?_⟩
    intro ip
    have hcount : ((s.live.erase permit).map PerIpPermit.ip).count ip ≤
        s.addresses.count ip := by
      rw [← hperm.count_eq]
      exact (List.erase_sublist).count_le ip
    exact hcount.trans (h.within ip)
  · rw [step, if_neg hlive] at hstep
    cases hstep

/-- Every call keeps the tally. -/
theorem Counted.step (hmax : maxPerIp ≠ 0) (h : s.Counted maxPerIp)
    (hstep : s.step call = some t) :
    t.Counted maxPerIp := by
  cases call with
  | tryAccept ip => exact h.tryAccept hmax hstep
  | drop permit => exact h.drop hstep

theorem counted_of_run (hmax : maxPerIp ≠ 0) {calls : List ConnectionCall}
    (hrun : run Connections.step (new maxPerIp) calls = some s) :
    s.Counted maxPerIp :=
  invariant_of_run (fun _ _ _ h hstep => h.step hmax hstep) (counted_new maxPerIp) hrun

end

/-- After any calls in any order, a connection is refused exactly when its
address holds as many live permits as it may, the count of an address is the
number of its live permits, which is within the limit, and an address has an
entry exactly while it has a live permit: one without is neither kept in the map
nor refused. -/
theorem connections_counted (maxPerIp : UInt32) (hmax : maxPerIp ≠ 0)
    (calls : List ConnectionCall) (s : Connections)
    (hrun : run step (new maxPerIp) calls = some s) (ip : IpAddr) :
    ((s.tracker.tryAccept ip).1 = none ↔ s.permitsOf ip = maxPerIp.toNat) ∧
      (s.tracker.countFor ip).toNat = s.permitsOf ip ∧
      s.permitsOf ip ≤ maxPerIp.toNat ∧
      (ip ∈ s.tracker.counts ↔ 0 < s.permitsOf ip) ∧
      (s.permitsOf ip = 0 →
        ip ∉ s.tracker.counts ∧ (s.tracker.tryAccept ip).1 = some ⟨ip⟩) := by
  have h := counted_of_run hmax hrun
  have haccept := h.tryAccept_eq hmax ip
  have hentry := h.mem_counts_iff ip
  refine ⟨?_, h.toNat_countFor ip, h.within ip, hentry, ?_⟩
  · rw [haccept]
    by_cases hfull : s.permitsOf ip = maxPerIp.toNat
    · simp [hfull]
    · simp [hfull]
  · intro hnone
    have hpos : maxPerIp.toNat ≠ 0 := fun hzero => hmax (UInt32.toNat_inj.mp hzero)
    have hroom : s.permitsOf ip ≠ maxPerIp.toNat := by omega
    refine ⟨fun hmem => by have := hentry.mp hmem; omega, ?_⟩
    rw [haccept, if_neg hroom]

/-- An address that holds both of its two connections is refused a third. -/
theorem connections_counted_two :
    let ip : IpAddr := .v4 ⟨10, 0, 0, 1⟩
    let full : Connections :=
      { tracker := { maxPerIp := 2, counts := (∅ : HashMap IpAddr UInt32).insert ip 2 }
        live := [⟨ip⟩, ⟨ip⟩] }
    run step (new 2) [.tryAccept ip, .tryAccept ip] = some full ∧
      ((full.tracker.tryAccept ip).1 = none ↔ full.permitsOf ip = (2 : UInt32).toNat) := by
  intro ip full
  have hrun : run step (new 2) [.tryAccept ip, .tryAccept ip] = some full := rfl
  exact ⟨hrun, (connections_counted 2 (by decide) _ full hrun ip).1⟩

end Connections

end ReserveGrid.Common
