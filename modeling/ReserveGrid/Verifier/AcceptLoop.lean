import Mathlib.Algebra.Order.Ring.Int
import ReserveGrid.Common.Admission
import ReserveGrid.Support.Run
import ReserveGrid.Support.Tasks

/-!
# The accept loop of the ingress

A connection is admitted with a permit of the global cap and then one of its
address. What it holds is given back when its task ends, in the order in which
the slot drops: the gauge, the permit, the permit of the address. Other tasks
and the loop itself may run between any two of these.
-/

namespace ReserveGrid.Verifier

open Support Common

/-- What a slot still holds: everything, all but its place in the gauge, or only
the permit of its address. -/
inductive SlotPhase where
  | serving
  | uncounted
  | unpermitted
  deriving DecidableEq

/-- The things one admitted ingress connection holds. -/
structure AdmittedSlot where
  ip : IpAddr
  phase : SlotPhase := .serving
  deriving DecidableEq

def AdmittedSlot.isServing (slot : AdmittedSlot) : Bool := slot.phase = .serving

def AdmittedSlot.holdsPermit (slot : AdmittedSlot) : Bool := slot.phase ≠ .unpermitted

/-- Where the accept loop stands: at the listener, or with the permit of a
connection whose address is still to be asked. -/
inductive AcceptPc where
  | accepting
  | permitted (ip : IpAddr)
  deriving DecidableEq

def AcceptPc.holders : AcceptPc → ℕ
  | .accepting => 0
  | .permitted _ => 1

/-- The accept loop with its gates, its slots and its metrics. -/
structure IngressListener where
  gates : Gates
  pc : AcceptPc := .accepting
  slots : List AdmittedSlot := []
  connectionsActive : ℤ := 0
  connectionsRefusedTotal : ℕ := 0
  connectionsRefusedPerIpTotal : ℕ := 0
  arrived : ℕ := 0
  admitted : ℕ := 0

inductive AcceptLabel where
  /-- A connection arrives and asks the global cap. -/
  | accept (ip : IpAddr)
  /-- It asks its address. -/
  | tryAccept
  /-- The task of a connection ends. -/
  | finish (slot : ℕ)
  | dropPermit (slot : ℕ)
  | dropIpPermit (slot : ℕ)

namespace IngressListener

def new (maxConnections maxPerIp : UInt32) : IngressListener where
  gates := .new maxConnections.toNat maxPerIp

/-- A refused connection is counted and closed. The permit it had for a moment
goes back. -/
def step (s : IngressListener) : AcceptLabel → Option IngressListener
  | .accept ip =>
      match s.pc with
      | .permitted _ => none
      | .accepting =>
          match s.gates.tryAcquire with
          | none =>
              some { s with
                connectionsRefusedTotal := s.connectionsRefusedTotal + 1
                arrived := s.arrived + 1 }
          | some gates =>
              some { s with
                gates := gates
                pc := .permitted ip
                arrived := s.arrived + 1 }
  | .tryAccept =>
      match s.pc with
      | .accepting => none
      | .permitted ip =>
          match s.gates.tryAccept ip with
          | none =>
              some { s with
                gates := s.gates.release
                pc := .accepting
                connectionsRefusedPerIpTotal := s.connectionsRefusedPerIpTotal + 1 }
          | some gates =>
              some { s with
                gates := gates
                pc := .accepting
                slots := s.slots ++ [{ ip := ip }]
                connectionsActive := s.connectionsActive + 1
                admitted := s.admitted + 1 }
  | .finish i =>
      match s.slots[i]? with
      | some ⟨ip, .serving⟩ =>
          some { s with
            slots := s.slots.set i ⟨ip, .uncounted⟩
            connectionsActive := s.connectionsActive - 1 }
      | _ => none
  | .dropPermit i =>
      match s.slots[i]? with
      | some ⟨ip, .uncounted⟩ =>
          some { s with
            slots := s.slots.set i ⟨ip, .unpermitted⟩
            gates := s.gates.release }
      | _ => none
  | .dropIpPermit i =>
      match s.slots[i]? with
      | some ⟨ip, .unpermitted⟩ =>
          some { s with
            slots := s.slots.eraseIdx i
            gates := s.gates.dropIp ip }
      | _ => none

/-- Every permit that is out has its slot, or is with the loop, and the metrics
count what they say. -/
structure Sound (maxConnections maxPerIp : UInt32) (s : IngressListener) : Prop where
  balanced : s.gates.Balanced maxConnections.toNat maxPerIp
    (s.slots.countP AdmittedSlot.holdsPermit + s.pc.holders)
    (s.slots.map AdmittedSlot.ip)
  active : s.connectionsActive = s.slots.countP AdmittedSlot.isServing
  arrived : s.arrived = s.connectionsRefusedTotal + s.connectionsRefusedPerIpTotal +
    s.admitted + s.pc.holders

section

variable {maxConnections maxPerIp : UInt32} {s t : IngressListener} {a : AcceptLabel}
  {labels : List AcceptLabel} {ip : IpAddr}

theorem sound_new (maxConnections maxPerIp : UInt32) :
    (new maxConnections maxPerIp).Sound maxConnections maxPerIp where
  balanced := Gates.balanced_new _ _
  active := rfl
  arrived := rfl

theorem Sound.accept (h : s.Sound maxConnections maxPerIp)
    (hstep : s.step (.accept ip) = some t) : t.Sound maxConnections maxPerIp := by
  rw [step] at hstep
  rcases hpc : s.pc with _ | ip'
  · rw [hpc] at hstep
    have hbalanced := h.balanced
    have harrived := h.arrived
    rw [hpc] at hbalanced harrived
    rcases hgate : s.gates.tryAcquire with _ | gates
    · simp only [hgate, Option.some.injEq] at hstep
      subst hstep
      exact ⟨hbalanced, h.active, by dsimp only; omega⟩
    · simp only [hgate, Option.some.injEq] at hstep
      subst hstep
      exact ⟨hbalanced.tryAcquire hgate, h.active, by dsimp only; rw [harrived]; rfl⟩
  · rw [hpc] at hstep
    cases hstep

theorem Sound.tryAccept (h : s.Sound maxConnections maxPerIp)
    (hstep : s.step .tryAccept = some t) : t.Sound maxConnections maxPerIp := by
  rw [step] at hstep
  rcases hpc : s.pc with _ | ip
  · rw [hpc] at hstep
    cases hstep
  · rw [hpc] at hstep
    have hbalanced := h.balanced
    have harrived := h.arrived
    rw [hpc] at hbalanced harrived
    rcases hgate : s.gates.tryAccept ip with _ | gates
    · simp only [hgate, Option.some.injEq] at hstep
      subst hstep
      refine ⟨hbalanced.release, h.active, ?_⟩
      simp only [AcceptPc.holders] at harrived ⊢
      omega
    · simp only [hgate, Option.some.injEq] at hstep
      subst hstep
      have hmore := (hbalanced.tryAccept hgate).perm
        (List.perm_append_singleton ip (s.slots.map AdmittedSlot.ip)).symm
      refine ⟨?_, ?_, ?_⟩
      · simpa [AdmittedSlot.holdsPermit, AcceptPc.holders, List.countP_append] using hmore
      · simp [h.active, AdmittedSlot.isServing, List.countP_append]
      · simp only [AcceptPc.holders] at harrived ⊢
        omega

/-- A slot that goes on to a later phase. -/
theorem step_slot (hstep : s.step a = some t)
    (ha : ∀ ip, a ≠ .accept ip) (ha' : a ≠ .tryAccept) :
    ∃ before ip after, (s.slots = before ++ ⟨ip, .serving⟩ :: after ∧
        t = { s with
          slots := before ++ ⟨ip, .uncounted⟩ :: after
          connectionsActive := s.connectionsActive - 1 }) ∨
      (s.slots = before ++ ⟨ip, .uncounted⟩ :: after ∧
        t = { s with
          slots := before ++ ⟨ip, .unpermitted⟩ :: after
          gates := s.gates.release }) ∨
      (s.slots = before ++ ⟨ip, .unpermitted⟩ :: after ∧
        t = { s with slots := before ++ after, gates := s.gates.dropIp ip }) := by
  rcases a with ip | _ | i | i | i
  · exact absurd rfl (ha ip)
  · exact absurd rfl ha'
  all_goals
    rw [step] at hstep
    split at hstep
    · rename_i ip hslot
      obtain ⟨before, after, hsplit, rfl⟩ := exists_split_of_getElem? hslot
      rw [hsplit] at hstep
      simp only [set_split, eraseIdx_split, Option.some.injEq] at hstep
      refine ⟨before, ip, after, ?_⟩
      subst hstep
      simp [hsplit]
    · cases hstep

theorem Sound.step (h : s.Sound maxConnections maxPerIp) (hstep : s.step a = some t) :
    t.Sound maxConnections maxPerIp := by
  by_cases haccept : ∃ ip, a = .accept ip
  · obtain ⟨ip, rfl⟩ := haccept
    exact h.accept hstep
  by_cases htry : a = .tryAccept
  · subst htry
    exact h.tryAccept hstep
  have hbalanced := h.balanced
  have hactive := h.active
  obtain ⟨before, ip, after, ⟨hslots, rfl⟩ | ⟨hslots, rfl⟩ | ⟨hslots, rfl⟩⟩ :=
    step_slot hstep (fun ip heq => haccept ⟨ip, heq⟩) htry
  · rw [hslots] at hbalanced hactive
    refine ⟨?_, ?_, h.arrived⟩
    · simpa [AdmittedSlot.holdsPermit, List.countP_append] using hbalanced
    · simp [hactive, AdmittedSlot.isServing, List.countP_append]
      omega
  · rw [hslots] at hbalanced hactive
    refine ⟨?_, ?_, h.arrived⟩
    · have hholders :
          (before ++ (⟨ip, .uncounted⟩ : AdmittedSlot) :: after).countP
              AdmittedSlot.holdsPermit + s.pc.holders =
            (before ++ (⟨ip, .unpermitted⟩ : AdmittedSlot) :: after).countP
              AdmittedSlot.holdsPermit + s.pc.holders + 1 := by
        simp [AdmittedSlot.holdsPermit, List.countP_append]
        omega
      rw [hholders] at hbalanced
      simpa using hbalanced.release
    · simpa [AdmittedSlot.isServing, List.countP_append] using hactive
  · rw [hslots] at hbalanced hactive
    refine ⟨?_, ?_, h.arrived⟩
    · have hmem : ip ∈ (before ++ (⟨ip, .unpermitted⟩ : AdmittedSlot) :: after).map
          AdmittedSlot.ip := by
        simp
      have hperm : ((before ++ (⟨ip, .unpermitted⟩ : AdmittedSlot) :: after).map
          AdmittedSlot.ip).erase ip |>.Perm ((before ++ after).map AdmittedSlot.ip) := by
        rw [List.map_append, List.map_append, List.map_cons]
        have hmiddle : (before.map AdmittedSlot.ip ++ ip :: after.map AdmittedSlot.ip).Perm
            (ip :: (before.map AdmittedSlot.ip ++ after.map AdmittedSlot.ip)) :=
          List.perm_middle
        have herased := hmiddle.erase ip
        rwa [List.erase_cons_head] at herased
      have hdropped := (hbalanced.dropIp hmem).perm hperm
      simpa [AdmittedSlot.holdsPermit, List.countP_append] using hdropped
    · simpa [AdmittedSlot.isServing, List.countP_append] using hactive

theorem sound_of_run (hrun : run step (new maxConnections maxPerIp) labels = some s) :
    s.Sound maxConnections maxPerIp :=
  invariant_of_run (fun _ _ _ h hstep => h.step hstep)
    (sound_new maxConnections maxPerIp) hrun

theorem serving_le_holding (slots : List AdmittedSlot) :
    slots.countP AdmittedSlot.isServing ≤ slots.countP AdmittedSlot.holdsPermit := by
  apply List.countP_mono_left
  intro slot _ hserving
  simp_all [AdmittedSlot.isServing, AdmittedSlot.holdsPermit]

/-- The global cap refuses a connection when all its permits are out. -/
theorem Sound.accept_refused_iff (h : s.Sound maxConnections maxPerIp)
    (hstep : s.step (.accept ip) = some t) :
    t.connectionsRefusedTotal = s.connectionsRefusedTotal + 1 ↔
      s.slots.countP AdmittedSlot.holdsPermit = maxConnections.toNat := by
  rw [IngressListener.step] at hstep
  rcases hpc : s.pc with _ | ip'
  · have hbalanced := h.balanced
    rw [hpc] at hstep hbalanced
    have hfull := hbalanced.tryAcquire_eq_none_iff
    simp only [AcceptPc.holders, Nat.add_zero] at hfull
    rw [← hfull]
    rcases hgate : s.gates.tryAcquire with _ | gates
    · simp only [hgate, Option.some.injEq] at hstep
      subst hstep
      simp
    · simp only [hgate, Option.some.injEq] at hstep
      subst hstep
      simp
  · rw [hpc] at hstep
    cases hstep

/-- An address refuses a connection when it has as many as it may. -/
theorem Sound.tryAccept_refused_iff (h : s.Sound maxConnections maxPerIp)
    (hpc : s.pc = .permitted ip) (hstep : s.step .tryAccept = some t) :
    t.connectionsRefusedPerIpTotal = s.connectionsRefusedPerIpTotal + 1 ↔
      maxPerIp ≠ 0 ∧ (s.slots.map AdmittedSlot.ip).count ip = maxPerIp.toNat := by
  rw [IngressListener.step, hpc] at hstep
  rw [← h.balanced.tryAccept_eq_none_iff]
  rcases hgate : s.gates.tryAccept ip with _ | gates
  · simp only [hgate, Option.some.injEq] at hstep
    subst hstep
    simp
  · simp only [hgate, Option.some.injEq] at hstep
    subst hstep
    simp

/-- Whatever order connections arrive and end in, no more are served than the
cap allows, nor more of one address than its own, and the gauge counts those
served. A connection is refused only at a cap, every one that arrived is refused
or admitted, and what a connection held comes back when it has ended. -/
theorem ingress_admission (labels : List AcceptLabel)
    (hrun : run step (new maxConnections maxPerIp) labels = some s) :
    s.connectionsActive = s.slots.countP AdmittedSlot.isServing ∧
      s.slots.countP AdmittedSlot.isServing ≤ maxConnections.toNat ∧
      (maxPerIp ≠ 0 → ∀ ip, (s.slots.map AdmittedSlot.ip).count ip ≤ maxPerIp.toNat) ∧
      s.arrived = s.connectionsRefusedTotal + s.connectionsRefusedPerIpTotal +
        s.admitted + s.pc.holders ∧
      (∀ ip t, s.step (.accept ip) = some t →
        (t.connectionsRefusedTotal = s.connectionsRefusedTotal + 1 ↔
          s.slots.countP AdmittedSlot.holdsPermit = maxConnections.toNat)) ∧
      (∀ ip t, s.pc = .permitted ip → s.step .tryAccept = some t →
        (t.connectionsRefusedPerIpTotal = s.connectionsRefusedPerIpTotal + 1 ↔
          maxPerIp ≠ 0 ∧ (s.slots.map AdmittedSlot.ip).count ip = maxPerIp.toNat)) ∧
      (s.slots = [] → s.pc = .accepting →
        s.gates.permits = maxConnections.toNat ∧
          ∀ ip, ip ∉ s.gates.tracker.counts) := by
  have h := sound_of_run hrun
  have hholders := h.balanced.holders_le
  have hserving := serving_le_holding s.slots
  refine ⟨h.active, by omega, h.balanced.count_le, h.arrived,
    fun ip t hstep => h.accept_refused_iff hstep,
    fun ip t hpc hstep => h.tryAccept_refused_iff hpc hstep, fun hslots hpc => ?_⟩
  have hbalanced := h.balanced
  rw [hslots, hpc] at hbalanced
  exact hbalanced.permits_of_idle

/-- One slot for two peers: the second is refused until the first has dropped its
permit. -/
def twoPeers : List AcceptLabel :=
  [.accept (.v4 ⟨10, 0, 0, 1⟩), .tryAccept, .accept (.v4 ⟨10, 0, 0, 2⟩), .finish 0]

theorem ingress_admission_two_peers :
    ∃ s, run step (new 1 1) twoPeers = some s ∧ s.connectionsRefusedTotal = 1 ∧
      s.connectionsActive = s.slots.countP AdmittedSlot.isServing :=
  ⟨_, rfl, rfl, (@ingress_admission 1 1 _ twoPeers rfl).1⟩

end

end IngressListener

end ReserveGrid.Verifier
