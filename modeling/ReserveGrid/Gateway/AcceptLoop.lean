import Mathlib.Algebra.Order.Ring.Int
import ReserveGrid.Common.Admission
import ReserveGrid.Support.Run
import ReserveGrid.Support.Tasks

/-!
# The accept loop of the miner listener

A miner is admitted with a permit of its address and then one of the connection
limiter. Its task shakes hands and runs the session. How the task ends decides
what is given back and in which order; the gauge of active connections is taken
down only after a session that returned.
-/

namespace ReserveGrid.Gateway

open Support Common

/-- What the task of a connection gives back, one after another. -/
inductive GivenBack where
  | permit
  | gauge
  | ipPermit
  deriving DecidableEq

/-- An admitted connection. Once its task ends it has a list of what is still to
be given back. -/
structure MinerConnection where
  ip : IpAddr
  handshaken : Bool := false
  ending : Option (List GivenBack) := none
  deriving DecidableEq

namespace MinerConnection

/-- The session takes the permit with it, the gauge comes next, and the permit of
the address is dropped with the task. -/
def afterReturn : List GivenBack := [.permit, .gauge, .ipPermit]

/-- A failed handshake leaves the task at once, and the gauge is not taken
down. -/
def afterFailedHandshake : List GivenBack := [.ipPermit, .permit]

/-- Nor is it by a panic of the session. -/
def afterPanic : List GivenBack := [.permit, .ipPermit]

def holds (c : MinerConnection) (what : GivenBack) : Bool :=
  match c.ending with
  | none => true
  | some todo => what ∈ todo

end MinerConnection

/-- Where the accept loop stands: at the listener, or with the permit of an
address whose connection has not asked the limiter yet. -/
inductive MinerAcceptPc where
  | accepting
  | addressed (ip : IpAddr)
  deriving DecidableEq

def MinerAcceptPc.addresses : MinerAcceptPc → List IpAddr
  | .accepting => []
  | .addressed ip => [ip]

/-- The accept loop with its gates, its connections and its gauge. The handshakes
that failed and the sessions that panicked are counted for the history. -/
structure MinerListener where
  gates : Gates
  pc : MinerAcceptPc := .accepting
  connections : List MinerConnection := []
  connectionsActive : ℤ := 0
  connectionsTotal : ℕ := 0
  abandoned : ℕ := 0

inductive MinerAcceptLabel where
  /-- A miner connects and asks its address. -/
  | accept (ip : IpAddr)
  /-- It asks the limiter. -/
  | tryAcquire
  | handshake (connection : ℕ) (succeeded : Bool)
  | sessionReturned (connection : ℕ)
  | sessionPanicked (connection : ℕ)
  /-- The task gives back the next thing it holds. -/
  | giveBack (connection : ℕ)

namespace MinerListener

def new (maxConnections maxConnectionsPerIp : UInt32) : MinerListener where
  gates := .new maxConnections.toNat maxConnectionsPerIp

/-- The number of currently active connections, as the limiter reads it. -/
def activeCount (maxConnections : UInt32) (s : MinerListener) : ℕ :=
  maxConnections.toNat - s.gates.permits

/-- What is given back goes to its gate, or off the gauge. -/
def credit (s : MinerListener) (ip : IpAddr) : GivenBack → MinerListener
  | .permit => { s with gates := s.gates.release }
  | .gauge => { s with connectionsActive := s.connectionsActive - 1 }
  | .ipPermit => { s with gates := s.gates.dropIp ip }

def step (s : MinerListener) : MinerAcceptLabel → Option MinerListener
  | .accept ip =>
      match s.pc with
      | .addressed _ => none
      | .accepting =>
          match s.gates.tryAccept ip with
          | none => some s
          | some gates => some { s with gates := gates, pc := .addressed ip }
  | .tryAcquire =>
      match s.pc with
      | .accepting => none
      | .addressed ip =>
          match s.gates.tryAcquire with
          | none => some { s with gates := s.gates.dropIp ip, pc := .accepting }
          | some gates =>
              some { s with
                gates := gates
                pc := .accepting
                connections := s.connections ++ [{ ip := ip }]
                connectionsActive := s.connectionsActive + 1
                connectionsTotal := s.connectionsTotal + 1 }
  | .handshake i succeeded =>
      match s.connections[i]? with
      | some ⟨ip, false, none⟩ =>
          if succeeded then
            some { s with connections := s.connections.set i ⟨ip, true, none⟩ }
          else
            some { s with
              connections := s.connections.set i
                ⟨ip, false, some MinerConnection.afterFailedHandshake⟩
              abandoned := s.abandoned + 1 }
      | _ => none
  | .sessionReturned i =>
      match s.connections[i]? with
      | some ⟨ip, true, none⟩ =>
          some { s with
            connections := s.connections.set i
              ⟨ip, true, some MinerConnection.afterReturn⟩ }
      | _ => none
  | .sessionPanicked i =>
      match s.connections[i]? with
      | some ⟨ip, true, none⟩ =>
          some { s with
            connections := s.connections.set i
              ⟨ip, true, some MinerConnection.afterPanic⟩
            abandoned := s.abandoned + 1 }
      | _ => none
  | .giveBack i =>
      match s.connections[i]? with
      | some ⟨ip, handshaken, some (what :: todo)⟩ =>
          some ({ s with
            connections := s.connections.set i ⟨ip, handshaken, some todo⟩ }.credit ip what)
      | _ => none

/-- The addresses of the connections that hold something. -/
def holding (connections : List MinerConnection) (what : GivenBack) : List IpAddr :=
  (connections.filter fun c => c.holds what).map MinerConnection.ip

/-- The addresses whose permits are out. -/
def addresses (s : MinerListener) : List IpAddr :=
  s.pc.addresses ++ holding s.connections .ipPermit

/-- Every permit that is out has its connection, or is with the loop. The gauge
stands above the connections that it counts by those that were abandoned. -/
structure Sound (maxConnections maxConnectionsPerIp : UInt32) (s : MinerListener) :
    Prop where
  balanced : s.gates.Balanced maxConnections.toNat maxConnectionsPerIp
    (holding s.connections .permit).length s.addresses
  active : s.connectionsActive = (holding s.connections .gauge).length + s.abandoned
  todo : ∀ c ∈ s.connections, ∀ todo, c.ending = some todo → todo.Nodup

section

variable {maxConnections maxConnectionsPerIp : UInt32} {s t : MinerListener}
  {a : MinerAcceptLabel} {labels : List MinerAcceptLabel} {ip : IpAddr}

theorem holding_split (before after : List MinerConnection) (c : MinerConnection)
    (what : GivenBack) :
    holding (before ++ c :: after) what = holding before what ++
      ((if c.holds what then [c.ip] else []) ++ holding after what) := by
  rw [holding, List.filter_append, List.map_append, List.filter_cons]
  split
  · simp [holding]
  · simp [holding]

theorem sound_new (maxConnections maxConnectionsPerIp : UInt32) :
    (new maxConnections maxConnectionsPerIp).Sound maxConnections maxConnectionsPerIp where
  balanced := Gates.balanced_new _ _
  active := rfl
  todo := by simp [new]

theorem Sound.accept (h : s.Sound maxConnections maxConnectionsPerIp)
    (hstep : s.step (.accept ip) = some t) :
    t.Sound maxConnections maxConnectionsPerIp := by
  rw [step] at hstep
  rcases hpc : s.pc with _ | ip'
  · rw [hpc] at hstep
    rcases hgate : s.gates.tryAccept ip with _ | gates
    · simp only [hgate, Option.some.injEq] at hstep
      exact hstep ▸ h
    · simp only [hgate, Option.some.injEq] at hstep
      subst hstep
      have hmore := h.balanced.tryAccept hgate
      rw [addresses, hpc] at hmore
      exact ⟨hmore, h.active, h.todo⟩
  · rw [hpc] at hstep
    cases hstep

theorem Sound.tryAcquire (h : s.Sound maxConnections maxConnectionsPerIp)
    (hstep : s.step .tryAcquire = some t) :
    t.Sound maxConnections maxConnectionsPerIp := by
  rw [step] at hstep
  rcases hpc : s.pc with _ | ip
  · rw [hpc] at hstep
    cases hstep
  · rw [hpc] at hstep
    have hbalanced := h.balanced
    rw [addresses, hpc] at hbalanced
    rcases hgate : s.gates.tryAcquire with _ | gates
    · simp only [hgate, Option.some.injEq] at hstep
      subst hstep
      have hmem : ip ∈ MinerAcceptPc.addresses (.addressed ip) ++
          holding s.connections .ipPermit := List.mem_append_left _ List.mem_cons_self
      have hless := hbalanced.dropIp hmem
      simp only [MinerAcceptPc.addresses, List.singleton_append,
        List.erase_cons_head] at hless
      exact ⟨by simpa [addresses, holding, MinerAcceptPc.addresses] using hless,
        h.active, h.todo⟩
    · simp only [hgate, Option.some.injEq] at hstep
      subst hstep
      have hmore := (hbalanced.tryAcquire hgate).perm
        (List.perm_append_singleton ip _).symm
      have hheld (what : GivenBack) :
          ({ ip := ip } : MinerConnection).holds what = true := rfl
      refine ⟨?_, ?_, ?_⟩
      · simpa [addresses, holding, MinerAcceptPc.addresses, List.filter_append, hheld]
          using hmore
      · have hactive := h.active
        simp only [holding, List.filter_append, List.length_map, List.length_append] at hactive ⊢
        simp [hheld]
        omega
      · intro c hc todo htodo
        rcases List.mem_append.mp hc with hc | hc
        · exact h.todo c hc todo htodo
        · rw [List.mem_singleton] at hc
          subst hc
          cases htodo

/-- The task of a connection goes on: it ends in one of its ways, or it gives
back the next thing it holds. -/
theorem step_connection (hstep : s.step a = some t)
    (ha : ∀ ip, a ≠ .accept ip) (ha' : a ≠ .tryAcquire) :
    (∃ before c c' after gone, s.connections = before ++ c :: after ∧
      t = { s with
        connections := before ++ c' :: after
        abandoned := s.abandoned + gone } ∧
      c'.ip = c.ip ∧ c.ending = none ∧ c'.holds .permit = true ∧
      c'.holds .ipPermit = true ∧ (if c'.holds .gauge then 1 else 0) + gone = 1 ∧
      ∀ todo, c'.ending = some todo → todo.Nodup) ∨
    ∃ before ip handshaken what todo after,
      s.connections =
        before ++ (⟨ip, handshaken, some (what :: todo)⟩ : MinerConnection) :: after ∧
      t = { s with
        connections := before ++ (⟨ip, handshaken, some todo⟩ : MinerConnection) :: after }.credit ip what := by
  rcases a with ip | _ | ⟨i, succeeded⟩ | i | i | i
  · exact absurd rfl (ha ip)
  · exact absurd rfl ha'
  · left
    rw [step] at hstep
    split at hstep
    · rename_i ip hc
      obtain ⟨before, after, hsplit, rfl⟩ := exists_split_of_getElem? hc
      rw [hsplit, set_split, set_split] at hstep
      rcases succeeded with _ | _
      · cases hstep
        refine ⟨before, _, _, after, 1, hsplit, rfl, rfl, rfl, rfl, rfl, rfl, ?_⟩
        simp [MinerConnection.afterFailedHandshake]
      · cases hstep
        exact ⟨before, _, _, after, 0, hsplit, rfl, rfl, rfl, rfl, rfl, rfl, by simp⟩
    · cases hstep
  · left
    rw [step] at hstep
    split at hstep
    · rename_i ip hc
      obtain ⟨before, after, hsplit, rfl⟩ := exists_split_of_getElem? hc
      rw [hsplit, set_split] at hstep
      cases hstep
      refine ⟨before, _, _, after, 0, hsplit, rfl, rfl, rfl, rfl, rfl, rfl, ?_⟩
      simp [MinerConnection.afterReturn]
    · cases hstep
  · left
    rw [step] at hstep
    split at hstep
    · rename_i ip hc
      obtain ⟨before, after, hsplit, rfl⟩ := exists_split_of_getElem? hc
      rw [hsplit, set_split] at hstep
      cases hstep
      refine ⟨before, _, _, after, 1, hsplit, rfl, rfl, rfl, rfl, rfl, rfl, ?_⟩
      simp [MinerConnection.afterPanic]
    · cases hstep
  · right
    rw [step] at hstep
    split at hstep
    · rename_i ip handshaken what todo hc
      obtain ⟨before, after, hsplit, rfl⟩ := exists_split_of_getElem? hc
      rw [hsplit, set_split] at hstep
      cases hstep
      exact ⟨before, ip, handshaken, what, todo, after, hsplit, rfl⟩
    · cases hstep

/-- Giving one thing back leaves a connection with the others. -/
theorem holds_rest (ip : IpAddr) (handshaken : Bool) {what : GivenBack}
    (what' : GivenBack) {todo : List GivenBack} (hnodup : (what :: todo).Nodup) :
    (MinerConnection.mk ip handshaken (some todo)).holds what' =
      ((MinerConnection.mk ip handshaken (some (what :: todo))).holds what' &&
        what' ≠ what) := by
  have hnot := (List.nodup_cons.mp hnodup).1
  by_cases heq : what' = what
  · subst heq
    simp [MinerConnection.holds, hnot]
  · simp [MinerConnection.holds, heq]

theorem Sound.giveBack (h : s.Sound maxConnections maxConnectionsPerIp)
    {before after : List MinerConnection} {handshaken : Bool} {what : GivenBack}
    {todo : List GivenBack}
    (hsplit : s.connections =
      before ++ (⟨ip, handshaken, some (what :: todo)⟩ : MinerConnection) :: after) :
    Sound maxConnections maxConnectionsPerIp ({ s with
      connections := before ++ (⟨ip, handshaken, some todo⟩ : MinerConnection) :: after }.credit ip what) := by
  have hnodup := h.todo ⟨ip, handshaken, some (what :: todo)⟩ (by simp [hsplit]) _ rfl
  have htodo : ∀ c ∈ before ++ (⟨ip, handshaken, some todo⟩ : MinerConnection) :: after,
      ∀ todo, c.ending = some todo → todo.Nodup := by
    refine forall_mem_set (hsplit ▸ h.todo) ?_
    intro todo' heq
    cases heq
    exact (List.nodup_cons.mp hnodup).2
  have hrest (what' : GivenBack) := holds_rest ip handshaken what' hnodup
  have hbalanced := h.balanced
  have hactive := h.active
  have hhead : (MinerConnection.mk ip handshaken (some (what :: todo))).holds what =
      true := by
    simp [MinerConnection.holds]
  rw [addresses, hsplit, holding_split, holding_split] at hbalanced
  rw [hsplit, holding_split] at hactive
  rcases what with _ | _ | _
  · rw [hhead, if_pos rfl] at hbalanced
    simp only [List.length_append, List.length_singleton] at hbalanced
    rw [Nat.add_left_comm, Nat.add_comm 1] at hbalanced
    refine ⟨?_, ?_, htodo⟩
    · have hless := Gates.Balanced.release hbalanced
      simpa [credit, addresses, holding_split, hrest] using hless
    · simpa [credit, holding_split, hrest] using hactive
  · rw [hhead, if_pos rfl] at hactive
    simp only [List.length_append, List.length_singleton] at hactive
    refine ⟨?_, ?_, htodo⟩
    · simpa [credit, addresses, holding_split, hrest] using hbalanced
    · simp only [credit, holding_split, hrest, ne_eq, not_true_eq_false, decide_false,
        Bool.and_false, Bool.false_eq_true, if_false, List.nil_append, List.length_append]
      omega
  · rw [hhead, if_pos rfl] at hbalanced
    refine ⟨?_, ?_, htodo⟩
    · -- the address moves to the front, where it is dropped
      have hfront : (s.pc.addresses ++ (holding before .ipPermit ++
          ([ip] ++ holding after .ipPermit))).Perm
          (ip :: (s.pc.addresses ++ (holding before .ipPermit ++
            holding after .ipPermit))) := by
        rw [← List.append_assoc, ← List.append_assoc s.pc.addresses]
        exact List.perm_middle
      have hless := (hbalanced.perm hfront).dropIp List.mem_cons_self
      rw [List.erase_cons_head] at hless
      simpa [credit, addresses, holding_split, hrest] using hless
    · simpa [credit, holding_split, hrest] using hactive

theorem Sound.step (h : s.Sound maxConnections maxConnectionsPerIp)
    (hstep : s.step a = some t) : t.Sound maxConnections maxConnectionsPerIp := by
  by_cases haccept : ∃ ip, a = .accept ip
  · obtain ⟨ip, rfl⟩ := haccept
    exact h.accept hstep
  by_cases htry : a = .tryAcquire
  · subst htry
    exact h.tryAcquire hstep
  rcases step_connection hstep (fun ip heq => haccept ⟨ip, heq⟩) htry with
    ⟨before, c, c', after, gone, hsplit, rfl, hip, hopen, hpermit, hipPermit, hgauge, htodo⟩ |
    ⟨before, ip, handshaken, what, todo, after, hsplit, rfl⟩
  · have hholds (what : GivenBack) : c.holds what = true := by
      rw [MinerConnection.holds, hopen]
    have hbalanced := h.balanced
    have hactive := h.active
    rw [addresses, hsplit, holding_split, holding_split, hholds, hholds, ← hip] at hbalanced
    rw [hsplit, holding_split, hholds, if_pos rfl] at hactive
    refine ⟨?_, ?_, forall_mem_set (hsplit ▸ h.todo) htodo⟩
    · rw [addresses, holding_split, holding_split, hpermit, hipPermit]
      exact hbalanced
    · simp only [holding_split, List.length_append, List.length_singleton] at hactive ⊢
      split at hgauge
      · rename_i hheld
        rw [if_pos hheld, List.length_singleton]
        omega
      · rename_i hheld
        rw [if_neg hheld, List.length_nil]
        omega
  · exact h.giveBack hsplit

theorem sound_of_run
    (hrun : run step (new maxConnections maxConnectionsPerIp) labels = some s) :
    s.Sound maxConnections maxConnectionsPerIp :=
  invariant_of_run (fun _ _ _ h hstep => h.step hstep)
    (sound_new maxConnections maxConnectionsPerIp) hrun

/-- Whatever order miners connect, fail and leave in, the limiter's permits and
those of an address are never more than allowed, the limiter counts exactly the
permits that are out, and all of them come back. The gauge does not: it stands
above the connections by one for every failed handshake and every panic. -/
theorem miner_admission (labels : List MinerAcceptLabel)
    (hrun : run step (new maxConnections maxConnectionsPerIp) labels = some s) :
    (holding s.connections .permit).length ≤ maxConnections.toNat ∧
      s.activeCount maxConnections = (holding s.connections .permit).length ∧
      (maxConnectionsPerIp ≠ 0 → ∀ ip, (holding s.connections .ipPermit).count ip ≤
        maxConnectionsPerIp.toNat) ∧
      s.connectionsActive = (holding s.connections .gauge).length + s.abandoned ∧
      ((∀ c ∈ s.connections, c.ending = some []) → s.pc = .accepting →
        s.gates.permits = maxConnections.toNat ∧
          (∀ ip, ip ∉ s.gates.tracker.counts) ∧ s.connectionsActive = s.abandoned) := by
  have h := sound_of_run hrun
  have hsum := h.balanced.permits
  refine ⟨h.balanced.holders_le, ?_, fun hmax ip => ?_, h.active, fun hended hpc => ?_⟩
  · rw [activeCount]
    omega
  · have hle := h.balanced.count_le hmax ip
    rw [addresses, List.count_append] at hle
    omega
  · have hnone (what : GivenBack) : holding s.connections what = [] := by
      have hfilter : (s.connections.filter fun c => c.holds what) = [] := by
        apply List.filter_eq_nil_iff.mpr
        intro c hc
        simp [MinerConnection.holds, hended c hc]
      rw [holding, hfilter, List.map_nil]
    have hbalanced := h.balanced
    have hactive := h.active
    rw [addresses, hpc, hnone, hnone] at hbalanced
    rw [hnone] at hactive
    obtain ⟨hpermits, hcounts⟩ := hbalanced.permits_of_idle
    exact ⟨hpermits, hcounts, by simpa using hactive⟩

/-- A miner that fails its handshake and is gone. -/
def failedHandshake : List MinerAcceptLabel :=
  [.accept (.v4 ⟨10, 0, 0, 1⟩), .tryAcquire, .handshake 0 false, .giveBack 0, .giveBack 0]

theorem miner_admission_failed_handshake :
    ∃ s, run step (new 8 2) failedHandshake = some s ∧ s.connectionsActive = 1 ∧
      s.activeCount 8 = (holding s.connections .permit).length :=
  ⟨_, rfl, rfl, (@miner_admission 8 2 _ failedHandshake rfl).2.1⟩

end

end MinerListener

end ReserveGrid.Gateway
