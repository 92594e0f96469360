import ReserveGrid.Common.PerIp

/-!
# Two gates before a connection

A listener admits a connection when it has a permit of the listener's semaphore
and a permit of its address. The gates are balanced while every semaphore permit
that is out has a holder and every address counts its permits. Each way of
taking a permit or giving it back keeps them balanced.
-/

namespace ReserveGrid.Common

open Support

/-- The semaphore of a listener and the tracker of its addresses. -/
structure Gates where
  permits : ℕ
  tracker : PerIpConnectionTracker

namespace Gates

def new (maxConnections : ℕ) (maxPerIp : UInt32) : Gates where
  permits := maxConnections
  tracker := .new maxPerIp

/-- Take a permit of the semaphore, if there is one. -/
def tryAcquire (g : Gates) : Option Gates :=
  if 0 < g.permits then some { g with permits := g.permits - 1 } else none

def release (g : Gates) : Gates := { g with permits := g.permits + 1 }

/-- Take a permit of an address, if it may have one more. -/
def tryAccept (g : Gates) (ip : IpAddr) : Option Gates :=
  match g.tracker.tryAccept ip with
  | (none, _) => none
  | (some _, tracker) => some { g with tracker := tracker }

/-- Drop a permit of an address. -/
def dropIp (g : Gates) (ip : IpAddr) : Gates :=
  { g with tracker := (PerIpPermit.mk ip).drop g.tracker }

/-- So many hold a permit of the semaphore, and these addresses one of their
own. An address without a limit is not counted. -/
structure Balanced (maxConnections : ℕ) (maxPerIp : UInt32) (holders : ℕ)
    (addresses : List IpAddr) (g : Gates) : Prop where
  permits : g.permits + holders = maxConnections
  disabled : maxPerIp = 0 → g.tracker = .new 0
  counted : maxPerIp ≠ 0 →
    (Connections.mk g.tracker (addresses.map PerIpPermit.mk)).Counted maxPerIp

section

variable {maxConnections holders : ℕ} {maxPerIp : UInt32} {g g' : Gates}
  {addresses addresses' : List IpAddr} {ip : IpAddr}

theorem balanced_new (maxConnections : ℕ) (maxPerIp : UInt32) :
    (new maxConnections maxPerIp).Balanced maxConnections maxPerIp 0 [] where
  permits := rfl
  disabled h := by rw [h]; rfl
  counted _ := Connections.counted_new maxPerIp

theorem addresses_mk (tracker : PerIpConnectionTracker) (addresses : List IpAddr) :
    (Connections.mk tracker (addresses.map PerIpPermit.mk)).addresses = addresses := by
  simp [Connections.addresses, Function.comp_def]

theorem Balanced.holders_le (h : g.Balanced maxConnections maxPerIp holders addresses) :
    holders ≤ maxConnections := by
  have hsum := h.permits
  omega

theorem Balanced.count_le (h : g.Balanced maxConnections maxPerIp holders addresses)
    (hmax : maxPerIp ≠ 0) (ip : IpAddr) : addresses.count ip ≤ maxPerIp.toNat := by
  have hwithin := (h.counted hmax).within ip
  rwa [Connections.permitsOf, addresses_mk] at hwithin

theorem Balanced.perm (h : g.Balanced maxConnections maxPerIp holders addresses)
    (hperm : addresses.Perm addresses') :
    g.Balanced maxConnections maxPerIp holders addresses' := by
  refine { h with counted := fun hmax => ?_ }
  obtain ⟨hlimit, hsound, htallies, hwithin⟩ := h.counted hmax
  refine ⟨hlimit, hsound, ?_, fun ip => ?_⟩
  · rw [addresses_mk] at htallies ⊢
    exact htallies.perm hperm
  · have hle := hwithin ip
    rw [Connections.permitsOf, addresses_mk] at hle ⊢
    rwa [← hperm.count_eq]

theorem Balanced.tryAcquire (h : g.Balanced maxConnections maxPerIp holders addresses)
    (heq : g.tryAcquire = some g') :
    g'.Balanced maxConnections maxPerIp (holders + 1) addresses := by
  rw [Gates.tryAcquire] at heq
  split at heq
  · cases heq
    have hsum := h.permits
    exact { h with permits := by dsimp only; omega }
  · cases heq

/-- The semaphore refuses when as many permits are out as there are. -/
theorem Balanced.tryAcquire_eq_none_iff
    (h : g.Balanced maxConnections maxPerIp holders addresses) :
    g.tryAcquire = none ↔ holders = maxConnections := by
  have hsum := h.permits
  rw [Gates.tryAcquire]
  split
  · simp only [reduceCtorEq, false_iff]
    omega
  · simp only [true_iff]
    omega

theorem Balanced.release
    (h : g.Balanced maxConnections maxPerIp (holders + 1) addresses) :
    g.release.Balanced maxConnections maxPerIp holders addresses := by
  have hsum := h.permits
  exact { h with permits := by rw [Gates.release]; dsimp only; omega }

/-- A permit is for the address that asked for it. -/
theorem permit_of_tryAccept {tracker tracker' : PerIpConnectionTracker}
    {permit : PerIpPermit} (h : tracker.tryAccept ip = (some permit, tracker')) :
    permit = ⟨ip⟩ := by
  rw [PerIpConnectionTracker.tryAccept] at h
  dsimp only at h
  split at h
  · exact (Option.some.inj (congrArg Prod.fst h)).symm
  · split at h
    · cases h
    · split at h
      · cases h
      · exact (Option.some.inj (congrArg Prod.fst h)).symm

theorem tryAccept_step (g : Gates) (addresses : List IpAddr)
    (heq : g.tryAccept ip = some g') :
    (Connections.mk g.tracker (addresses.map PerIpPermit.mk)).step (.tryAccept ip) =
        some ⟨g'.tracker, (ip :: addresses).map PerIpPermit.mk⟩ ∧
      g'.permits = g.permits := by
  rw [Gates.tryAccept] at heq
  rcases haccept : g.tracker.tryAccept ip with ⟨_ | permit, tracker⟩
  · rw [haccept] at heq
    cases heq
  · rw [haccept] at heq
    cases heq
    simp [Connections.step, haccept, permit_of_tryAccept haccept]

theorem Balanced.tryAccept (h : g.Balanced maxConnections maxPerIp holders addresses)
    (heq : g.tryAccept ip = some g') :
    g'.Balanced maxConnections maxPerIp holders (ip :: addresses) := by
  obtain ⟨hstep, hpermits⟩ := tryAccept_step g addresses heq
  refine ⟨hpermits ▸ h.permits, fun hzero => ?_, fun hmax => ?_⟩
  · have hnew := h.disabled hzero
    rw [Gates.tryAccept, hnew] at heq
    cases heq
    rfl
  · exact (h.counted hmax).step hmax hstep

/-- An address is refused when it holds as many permits as it may. -/
theorem Balanced.tryAccept_eq_none_iff
    (h : g.Balanced maxConnections maxPerIp holders addresses) :
    g.tryAccept ip = none ↔ maxPerIp ≠ 0 ∧ addresses.count ip = maxPerIp.toNat := by
  by_cases hzero : maxPerIp = 0
  · have hnew := h.disabled hzero
    have haccept : (PerIpConnectionTracker.new 0).tryAccept ip =
        (some ⟨ip⟩, PerIpConnectionTracker.new 0) := rfl
    simp [Gates.tryAccept, hnew, haccept, hzero]
  · have haccept := (h.counted hzero).tryAccept_eq hzero ip
    rw [Connections.permitsOf, addresses_mk] at haccept
    rw [Gates.tryAccept, haccept]
    by_cases hfull : addresses.count ip = maxPerIp.toNat
    · simp [hfull, hzero]
    · simp [hfull]

theorem Balanced.dropIp (h : g.Balanced maxConnections maxPerIp holders addresses)
    (hmem : ip ∈ addresses) :
    (g.dropIp ip).Balanced maxConnections maxPerIp holders (addresses.erase ip) := by
  refine ⟨h.permits, fun hzero => ?_, fun hmax => ?_⟩
  · rw [Gates.dropIp, h.disabled hzero]
    rfl
  · have hlive : PerIpPermit.mk ip ∈ addresses.map PerIpPermit.mk :=
      List.mem_map_of_mem hmem
    have herase : (addresses.map PerIpPermit.mk).erase (PerIpPermit.mk ip) =
        (addresses.erase ip).map PerIpPermit.mk := by
      rw [List.map_erase]
      intro a b hab
      exact congrArg PerIpPermit.ip hab
    have hstep : Connections.step ⟨g.tracker, addresses.map PerIpPermit.mk⟩ (.drop ⟨ip⟩) =
        some ⟨(g.dropIp ip).tracker, (addresses.erase ip).map PerIpPermit.mk⟩ := by
      rw [Connections.step, if_pos hlive, herase]
      rfl
    exact (h.counted hmax).step hmax hstep

/-- When nobody holds a permit any more the gates are as they were at first. -/
theorem Balanced.permits_of_idle (h : g.Balanced maxConnections maxPerIp 0 []) :
    g.permits = maxConnections ∧ ∀ ip, ip ∉ g.tracker.counts := by
  refine ⟨h.permits, fun ip hmem => ?_⟩
  by_cases hzero : maxPerIp = 0
  · rw [h.disabled hzero] at hmem
    simp [PerIpConnectionTracker.new] at hmem
  · have hcount := ((h.counted hzero).mem_counts_iff ip).mp hmem
    rw [Connections.permitsOf, addresses_mk] at hcount
    simp at hcount

end

end Gates

end ReserveGrid.Common
