import Mathlib.Data.List.Induction
import ReserveGrid.Support.HashMap
import ReserveGrid.Support.IpAddr

/-!
# Idle connections

Ingress wraps a socket with a deadline that moves when bytes do. A connection
that is silent for the idle budget ends; while its address is full it ends
sooner, after a threshold that is learned from its heartbeats. One timer serves
both: each time it fires, the connection either ends or arms it again.

Times are counted in nanoseconds, of which there are arbitrarily many.
-/

namespace ReserveGrid.Verifier

open Support

def millisecond : ℕ := 1000000

def second : ℕ := 1000 * millisecond

/-- No learned threshold goes below this. -/
def shedFloor : ℕ := 3 * second

/-- How often a connection past its threshold looks again at its address. -/
def shedRecheck : ℕ := 500 * millisecond

/-- Heartbeats before a cadence is trusted. -/
def cadenceLearnAfter : UInt32 := 4

/-- The threshold of a connection without a learned cadence. -/
def shedFallback (idle : ℕ) : ℕ := max (idle / 4) (10 * second)

/-- A time in whole milliseconds, at most the largest number of 64 bits. -/
def asMillis (d : ℕ) : UInt64 :=
  UInt64.ofNat (min (d / millisecond) 0xffffffffffffffff)

/-! ## Connections per address -/

/-- The counts of live connections, of which there are none to read once their
lock is poisoned. -/
abbrev PerIpCounts := Option (HashMap IpAddr UInt32)

def PerIpCounts.countFor (counts : PerIpCounts) (ip : IpAddr) : UInt32 :=
  ((counts.bind (·.lookup ip))).getD 0

/-! ## The learned threshold -/

structure HeartbeatCadence where
  started : ℕ
  heartbeats : UInt32

namespace HeartbeatCadence

/-- The threshold that follows from the last heartbeat's arrival. -/
def threshold (started now : ℕ) (heartbeats : ℕ) : UInt64 :=
  let perInterval := (now - started) / (heartbeats - 1)
  asMillis (max (perInterval * 2) shedFloor)

/-- A heartbeat arrives. The threshold is published once enough have. -/
def observe (cadence : HeartbeatCadence) (now : ℕ) (afterMs : UInt64) :
    HeartbeatCadence × UInt64 :=
  let heartbeats :=
    if cadence.heartbeats = 0xffffffff then cadence.heartbeats
    else cadence.heartbeats + 1
  let afterMs :=
    if heartbeats < cadenceLearnAfter then afterMs
    else threshold cadence.started now heartbeats.toNat
  ({ cadence with heartbeats := heartbeats }, afterMs)

end HeartbeatCadence

/-- A heartbeat counts, up to the maximum of the counter. -/
theorem HeartbeatCadence.observe_heartbeats (cadence : HeartbeatCadence) (now : ℕ)
    (afterMs : UInt64) :
    (cadence.observe now afterMs).1.heartbeats.toNat =
      min (cadence.heartbeats.toNat + 1) 0xffffffff := by
  have hbound := cadence.heartbeats.toNat_lt
  unfold observe
  dsimp only
  split
  · rename_i hmax
    rw [hmax]
    rfl
  · rename_i hmax
    have hne : cadence.heartbeats.toNat ≠ 0xffffffff := fun h =>
      hmax (UInt32.toNat_inj.mp h)
    rw [UInt32.toNat_add]
    have hone : (1 : UInt32).toNat = 1 := rfl
    omega

/-- The threshold is published from the fourth heartbeat on. -/
theorem HeartbeatCadence.observe_afterMs (cadence : HeartbeatCadence) (now : ℕ)
    (afterMs : UInt64) :
    (cadence.observe now afterMs).2 =
      if cadence.heartbeats.toNat + 1 < 4 then afterMs
      else threshold cadence.started now
        (min (cadence.heartbeats.toNat + 1) 0xffffffff) := by
  have hcount := cadence.observe_heartbeats now afterMs
  unfold observe at hcount ⊢
  dsimp only at hcount ⊢
  rw [← hcount]
  refine if_congr ?_ rfl rfl
  rw [UInt32.lt_iff_toNat_lt, hcount]
  have hlearn : cadenceLearnAfter.toNat = 4 := rfl
  omega

/-! ## The timer -/

/-- What a connection needs to end itself at a full address. -/
structure ShedAtCap where
  maxPerIp : UInt32
  ip : IpAddr
  shed : Bool

def ShedAtCap.AddressFull (shed : ShedAtCap) (counts : PerIpCounts) : Prop :=
  shed.maxPerIp ≠ 0 ∧ shed.maxPerIp ≤ counts.countFor shed.ip

instance (shed : ShedAtCap) (counts : PerIpCounts) :
    Decidable (shed.AddressFull counts) :=
  inferInstanceAs (Decidable (_ ∧ _))

structure IdleTimeout where
  idle : ℕ
  deadline : ℕ
  lastProgress : ℕ
  reaped : Bool
  shed : Option ShedAtCap

/-- What one turn of the polling loop reads: whether the timer has fired, the
clock, and the counts per address. -/
structure Reading where
  elapsed : Bool
  now : ℕ
  counts : PerIpCounts

/-- Why a connection was ended. -/
inductive IdleEnd where
  | reaped
  | shed
  deriving DecidableEq, Repr

def IdleEnd.message : IdleEnd → String
  | .reaped => "ingress connection made no progress within the idle budget"
  | .shed => "ingress connection yielded its slot: silent at a full address"

/-- What happens to the timer: it is armed, or it ends the connection. -/
inductive IdleEffect where
  | armed (now deadline : ℕ)
  | ended (why : IdleEnd) (r : Reading)

namespace IdleTimeout

def new (idle now : ℕ) : IdleTimeout where
  idle := idle
  deadline := now + idle
  lastProgress := now
  reaped := false
  shed := none

section

variable (afterMs : UInt64)

/-- The published threshold as a time. -/
def after : ℕ := afterMs.toNat * millisecond

/-- When the deadline fires after the last progress. -/
def firstLook (t : IdleTimeout) : ℕ :=
  let idle := t.lastProgress + t.idle
  match t.shed with
  | some _ => min (t.lastProgress + after afterMs) idle
  | none => idle

def withShedAtCap (t : IdleTimeout) (shed : ShedAtCap) : IdleTimeout :=
  let t := { t with shed := some shed }
  { t with deadline := firstLook afterMs t }

/-- Bytes moved. -/
def madeProgress (t : IdleTimeout) (now : ℕ) : IdleTimeout :=
  let t := { t with lastProgress := now }
  { t with deadline := firstLook afterMs t }

/-- The timer has fired: end the connection, or arm the timer again. -/
def look (t : IdleTimeout) (r : Reading) : Option IdleEnd × IdleTimeout :=
  let silent := r.now - t.lastProgress
  if t.idle ≤ silent then (some .reaped, { t with reaped := true })
  else
    let idleAt := t.lastProgress + t.idle
    match t.shed with
    | none => (none, { t with deadline := idleAt })
    | some shed =>
        if after afterMs ≤ silent ∧ shed.AddressFull r.counts then
          (some .shed, { t with shed := some { shed with shed := true } })
        else
          let next :=
            if silent < after afterMs then t.lastProgress + after afterMs
            else r.now + shedRecheck
          (none, { t with deadline := min next idleAt })

/-- The polling loop of a stream that is not ready, over what its turns read.
It stays pending at the first turn whose timer has not fired. -/
def pollNoProgress (t : IdleTimeout) : List Reading → List IdleEffect × IdleTimeout
  | [] => ([], t)
  | r :: rs =>
      if r.elapsed ∧ t.deadline ≤ r.now then
        match look afterMs t r with
        | (some why, t) => ([.ended why r], t)
        | (none, t) =>
            let rest := pollNoProgress t rs
            (.armed r.now t.deadline :: rest.1, rest.2)
      else ([], t)

end

end IdleTimeout

/-! ## A connection -/

/-- The limits of ingress. The command line refuses an idle budget of zero. -/
structure IdleBudget where
  idleTimeout : ℕ
  positive : 0 < idleTimeout
  maxPerIp : UInt32

/-- The wrapped stream with the cadence of its message loop, and the threshold
that both share. -/
structure IngressConnection where
  stream : IdleTimeout
  cadence : HeartbeatCadence
  afterMs : UInt64

inductive IdleEvent where
  | moved (now : ℕ)
  | heartbeat (now : ℕ)
  | poll (readings : List Reading)

namespace IngressConnection

/-- A connection as it is admitted. -/
def admitted (budget : IdleBudget) (ip : IpAddr) (now cadenceStart : ℕ) :
    IngressConnection :=
  let afterMs := asMillis (shedFallback budget.idleTimeout)
  let stream := IdleTimeout.new budget.idleTimeout now
  { stream :=
      if budget.maxPerIp = 0 then stream
      else stream.withShedAtCap afterMs ⟨budget.maxPerIp, ip, false⟩
    cadence := ⟨cadenceStart, 0⟩
    afterMs := afterMs }

def step (c : IngressConnection) : IdleEvent → List IdleEffect × IngressConnection
  | .moved now =>
      let stream := c.stream.madeProgress c.afterMs now
      ([.armed now stream.deadline], { c with stream := stream })
  | .heartbeat now =>
      let next := c.cadence.observe now c.afterMs
      ([], { c with cadence := next.1, afterMs := next.2 })
  | .poll readings =>
      let next := c.stream.pollNoProgress c.afterMs readings
      (next.1, { c with stream := next.2 })

/-- The connection after a run of events. -/
def run (c : IngressConnection) (events : List IdleEvent) : IngressConnection :=
  events.foldl (fun c e => (c.step e).2) c

end IngressConnection

/-! ## One turn of the loop -/

/-- The clock at the moment of an effect. -/
def IdleEffect.now : IdleEffect → ℕ
  | .armed now _ => now
  | .ended _ r => r.now

namespace IdleTimeout

/-- The ceiling and the address that a stream looks at. -/
def address (t : IdleTimeout) : Option (UInt32 × IpAddr) :=
  t.shed.map fun shed => (shed.maxPerIp, shed.ip)

/-- What the loop leaves alone. -/
structure SameSilence (t t' : IdleTimeout) : Prop where
  idle : t'.idle = t.idle
  lastProgress : t'.lastProgress = t.lastProgress
  address : t'.address = t.address

theorem SameSilence.refl (t : IdleTimeout) : t.SameSilence t := ⟨rfl, rfl, rfl⟩

/-- Arming the timer leaves them alone too. -/
theorem SameSilence.rearm (t : IdleTimeout) (deadline : ℕ) :
    t.SameSilence { t with deadline := deadline } :=
  ⟨rfl, rfl, rfl⟩

theorem SameSilence.symm {t t' : IdleTimeout} (h : t.SameSilence t') :
    t'.SameSilence t :=
  ⟨h.idle.symm, h.lastProgress.symm, h.address.symm⟩

theorem SameSilence.trans {t t' t'' : IdleTimeout} (h : t.SameSilence t')
    (h' : t'.SameSilence t'') : t.SameSilence t'' where
  idle := h'.idle.trans h.idle
  lastProgress := h'.lastProgress.trans h.lastProgress
  address := h'.address.trans h.address

/-- An effect is in place: a connection ends after silence of its budget, or of
its threshold at a full address, and a deadline lies in the future and not
after the budget. -/
def Allows (afterMs : UInt64) (t : IdleTimeout) : IdleEffect → Prop
  | .armed now deadline =>
      now < deadline ∧ deadline ≤ t.lastProgress + t.idle
  | .ended .reaped r => t.idle ≤ r.now - t.lastProgress
  | .ended .shed r =>
      after afterMs ≤ r.now - t.lastProgress ∧
        ∃ maxPerIp ip, t.address = some (maxPerIp, ip) ∧ maxPerIp ≠ 0 ∧
          maxPerIp ≤ r.counts.countFor ip

theorem SameSilence.allows {t t' : IdleTimeout} (h : t.SameSilence t')
    {afterMs : UInt64} {effect : IdleEffect} (hallows : t'.Allows afterMs effect) :
    t.Allows afterMs effect := by
  cases effect with
  | armed now deadline =>
      rw [Allows, h.idle, h.lastProgress] at hallows
      exact hallows
  | ended why r =>
      cases why with
      | reaped =>
          rw [Allows, h.idle, h.lastProgress] at hallows
          exact hallows
      | shed =>
          rw [Allows, h.lastProgress, h.address] at hallows
          exact hallows

variable {afterMs : UInt64} {t t' : IdleTimeout} {r : Reading}

/-- The first deadline after progress. -/
theorem firstLook_bounds (afterMs : UInt64) (t : IdleTimeout) (hidle : 0 < t.idle)
    (hafter : 0 < after afterMs) :
    t.lastProgress < firstLook afterMs t ∧
      firstLook afterMs t ≤ t.lastProgress + t.idle := by
  unfold firstLook
  dsimp only
  split
  · exact ⟨lt_min (by omega) (by omega), min_le_right _ _⟩
  · exact ⟨by omega, le_refl _⟩

/-- A turn that ends the connection. -/
theorem look_eq_some {why : IdleEnd} (h : look afterMs t r = (some why, t')) :
    t.SameSilence t' ∧ t.Allows afterMs (.ended why r) := by
  unfold look at h
  dsimp only at h
  split at h
  · rename_i hsilent
    cases h
    exact ⟨⟨rfl, rfl, rfl⟩, hsilent⟩
  · split at h
    · cases h
    · rename_i shed hshed
      split at h
      · rename_i hfull
        cases h
        have haddress : t.address = some (shed.maxPerIp, shed.ip) := by
          rw [address, hshed]
          rfl
        exact ⟨⟨rfl, rfl, haddress.symm⟩, hfull.1, _, _, haddress, hfull.2⟩
      · cases h

/-- A turn that arms the timer again. -/
theorem look_eq_none (h : look afterMs t r = (none, t')) :
    t.SameSilence t' ∧ t.Allows afterMs (.armed r.now t'.deadline) := by
  have hrecheck : 0 < shedRecheck := by decide
  unfold look at h
  dsimp only at h
  split at h
  · cases h
  · rename_i hsilent
    split at h
    · cases h
      refine ⟨.rearm t _, ?_, le_refl _⟩
      dsimp only
      omega
    · split at h
      · cases h
      · cases h
        refine ⟨.rearm t _, ?_, min_le_right _ _⟩
        -- Either the threshold lies ahead, or the next look does.
        rw [lt_min_iff]
        split
        · omega
        · omega

/-- Everything that the loop does is in place. -/
theorem pollNoProgress_spec (t : IdleTimeout) (readings : List Reading) :
    t.SameSilence (pollNoProgress afterMs t readings).2 ∧
      ∀ effect ∈ (pollNoProgress afterMs t readings).1, t.Allows afterMs effect := by
  induction readings generalizing t with
  | nil => exact ⟨.refl t, by simp [pollNoProgress]⟩
  | cons r rs ih =>
      rw [pollNoProgress]
      split
      · split
        · rename_i why t' hlook
          obtain ⟨hsame, hallows⟩ := look_eq_some hlook
          refine ⟨hsame, fun effect heffect => ?_⟩
          rw [List.mem_singleton.mp heffect]
          exact hallows
        · rename_i t' hlook
          obtain ⟨hsame, hallows⟩ := look_eq_none hlook
          obtain ⟨hrest, heffects⟩ := ih t'
          refine ⟨hsame.trans hrest, fun effect heffect => ?_⟩
          rcases List.mem_cons.mp heffect with rfl | heffect
          · exact hallows
          · exact hsame.allows (heffects effect heffect)
      · exact ⟨.refl t, by simp⟩

/-- The loop does nothing before its deadline. -/
theorem deadline_le_of_mem (t : IdleTimeout) (readings : List Reading)
    {effect : IdleEffect} (h : effect ∈ (pollNoProgress afterMs t readings).1) :
    t.deadline ≤ effect.now := by
  induction readings generalizing t with
  | nil => simp [pollNoProgress] at h
  | cons r rs ih =>
      rw [pollNoProgress] at h
      split at h
      · rename_i hfired
        split at h
        · rw [List.mem_singleton.mp h]
          exact hfired.2
        · rename_i t' hlook
          obtain ⟨-, harmed, -⟩ := look_eq_none hlook
          rcases List.mem_cons.mp h with rfl | h
          · exact hfired.2
          · exact le_trans hfired.2 (le_trans (le_of_lt harmed) (ih t' h))
      · simp at h

/-- Each turn that fires comes strictly after the one before it. -/
theorem pollNoProgress_pairwise (t : IdleTimeout) (readings : List Reading) :
    (pollNoProgress afterMs t readings).1.Pairwise fun e e' => e.now < e'.now := by
  induction readings generalizing t with
  | nil => exact .nil
  | cons r rs ih =>
      rw [pollNoProgress]
      split
      · split
        · exact List.pairwise_singleton _ _
        · rename_i t' hlook
          obtain ⟨-, harmed, -⟩ := look_eq_none hlook
          refine List.pairwise_cons.mpr ⟨fun effect heffect => ?_, ih t'⟩
          exact lt_of_lt_of_le harmed (deadline_le_of_mem t' rs heffect)
      · exact .nil

end IdleTimeout

/-! ## A run and its history -/

namespace IdleEvent

def movedAt : IdleEvent → Option ℕ
  | .moved now => some now
  | _ => none

def heartbeatAt : IdleEvent → Option ℕ
  | .heartbeat now => some now
  | _ => none

/-- The readings of the clock that an event makes. -/
def moments : IdleEvent → List ℕ
  | .moved now => [now]
  | .heartbeat now => [now]
  | .poll readings => readings.map (·.now)

/-- When bytes moved, in order. -/
def movedTimes (events : List IdleEvent) : List ℕ := events.filterMap movedAt

/-- When heartbeats arrived, in order. -/
def heartbeatTimes (events : List IdleEvent) : List ℕ :=
  events.filterMap heartbeatAt

theorem movedTimes_append (events : List IdleEvent) (e : IdleEvent) :
    movedTimes (events ++ [e]) = movedTimes events ++ e.movedAt.toList := by
  rw [movedTimes, List.filterMap_append]
  cases e <;> rfl

theorem heartbeatTimes_append (events : List IdleEvent) (e : IdleEvent) :
    heartbeatTimes (events ++ [e]) =
      heartbeatTimes events ++ e.heartbeatAt.toList := by
  rw [heartbeatTimes, List.filterMap_append]
  cases e <;> rfl

end IdleEvent

/-- When the connection was admitted, and when its cadence started to count. -/
structure Admission where
  budget : IdleBudget
  ip : IpAddr
  start : ℕ
  cadenceStart : ℕ

namespace Admission

/-- The connection after the events. -/
def connection (a : Admission) (events : List IdleEvent) : IngressConnection :=
  (IngressConnection.admitted a.budget a.ip a.start a.cadenceStart).run events

/-- The clock does not go back. -/
def Ordered (a : Admission) (events : List IdleEvent) : Prop :=
  (a.start :: events.flatMap IdleEvent.moments).Pairwise (· ≤ ·)

/-- When bytes moved last, or the connection was admitted. -/
def lastMoved (a : Admission) (events : List IdleEvent) : ℕ :=
  (IdleEvent.movedTimes events).getLastD a.start

/-- Nothing moved for at least the given time. -/
def SilentFor (a : Admission) (events : List IdleEvent) (time now : ℕ) : Prop :=
  ∀ m ∈ a.start :: IdleEvent.movedTimes events, m + time ≤ now

/-- The threshold that the heartbeats have taught, or the fallback before
there were enough of them. -/
def learned (a : Admission) (events : List IdleEvent) : UInt64 :=
  let heartbeats := IdleEvent.heartbeatTimes events
  match heartbeats.getLast? with
  | none => asMillis (shedFallback a.budget.idleTimeout)
  | some last =>
      if heartbeats.length < 4 then asMillis (shedFallback a.budget.idleTimeout)
      else HeartbeatCadence.threshold a.cadenceStart last
        (min heartbeats.length 0xffffffff)

/-- The ceiling is in force and the address has reached it. -/
def AtCap (a : Admission) (counts : PerIpCounts) : Prop :=
  a.budget.maxPerIp ≠ 0 ∧ a.budget.maxPerIp ≤ counts.countFor a.ip

/-- What the connection keeps is what the history says. -/
structure Reflects (a : Admission) (events : List IdleEvent)
    (c : IngressConnection) : Prop where
  idle : c.stream.idle = a.budget.idleTimeout
  lastProgress : c.stream.lastProgress = a.lastMoved events
  address : c.stream.address =
    if a.budget.maxPerIp = 0 then none else some (a.budget.maxPerIp, a.ip)
  started : c.cadence.started = a.cadenceStart
  heartbeats : c.cadence.heartbeats.toNat =
    min (IdleEvent.heartbeatTimes events).length 0xffffffff
  afterMs : c.afterMs = a.learned events
  afterMs_ge : 3000 ≤ c.afterMs.toNat

theorem asMillis_ge {d : ℕ} (h : shedFloor ≤ d) :
    3000 ≤ (asMillis d).toNat := by
  have hfloor : shedFloor = 3000 * millisecond := by decide
  have hpos : 0 < millisecond := by decide
  have hdiv : 3000 ≤ d / millisecond := by
    rw [Nat.le_div_iff_mul_le hpos]
    exact hfloor ▸ h
  rw [asMillis, UInt64.toNat_ofNat', Nat.mod_eq_of_lt (by omega)]
  omega

theorem threshold_ge (started now heartbeats : ℕ) :
    3000 ≤ (HeartbeatCadence.threshold started now heartbeats).toNat :=
  asMillis_ge (le_max_right _ _)

theorem fallback_ge (idle : ℕ) :
    3000 ≤ (asMillis (shedFallback idle)).toNat :=
  asMillis_ge (le_trans (by decide) (le_max_right _ _))

theorem reflects_admitted (a : Admission) : a.Reflects [] (a.connection []) := by
  by_cases hdisabled : a.budget.maxPerIp = 0
  · refine ⟨?_, ?_, ?_, rfl, rfl, rfl, fallback_ge _⟩ <;>
      simp [connection, IngressConnection.run, IngressConnection.admitted,
        IdleTimeout.new, IdleTimeout.address, lastMoved, IdleEvent.movedTimes,
        hdisabled]
  · refine ⟨?_, ?_, ?_, rfl, rfl, rfl, fallback_ge _⟩ <;>
      simp [connection, IngressConnection.run, IngressConnection.admitted,
        IdleTimeout.new, IdleTimeout.withShedAtCap, IdleTimeout.address, lastMoved,
        IdleEvent.movedTimes, hdisabled]

/-- The deadline that a connection is admitted with. -/
theorem deadline_admitted (a : Admission) :
    a.start < (a.connection []).stream.deadline ∧
      (a.connection []).stream.deadline ≤ a.start + a.budget.idleTimeout := by
  have hafter : 0 < IdleTimeout.after (asMillis (shedFallback a.budget.idleTimeout)) :=
    Nat.mul_pos (lt_of_lt_of_le (by decide) (fallback_ge _)) (by decide)
  have hadmitted : a.connection [] =
      IngressConnection.admitted a.budget a.ip a.start a.cadenceStart := rfl
  rw [hadmitted, IngressConnection.admitted]
  dsimp only
  by_cases hdisabled : a.budget.maxPerIp = 0
  · rw [if_pos hdisabled]
    exact ⟨Nat.lt_add_of_pos_right a.budget.positive, le_refl _⟩
  · rw [if_neg hdisabled]
    exact IdleTimeout.firstLook_bounds _
      { IdleTimeout.new a.budget.idleTimeout a.start with
        shed := some ⟨a.budget.maxPerIp, a.ip, false⟩ } a.budget.positive hafter

variable {a : Admission} {events : List IdleEvent} {c : IngressConnection}

/-- Without a heartbeat, nothing is learned. -/
theorem learned_append_of_none {e : IdleEvent} (he : e.heartbeatAt = none) :
    a.learned (events ++ [e]) = a.learned events := by
  rw [learned, IdleEvent.heartbeatTimes_append, he, Option.toList_none,
    List.append_nil, learned]

theorem Reflects.moved (h : a.Reflects events c) (now : ℕ) :
    a.Reflects (events ++ [.moved now]) (c.step (.moved now)).2 where
  idle := h.idle
  lastProgress := by
    rw [lastMoved, IdleEvent.movedTimes_append]
    exact (List.getLastD_concat ..).symm
  address := h.address
  started := h.started
  heartbeats := by
    rw [IdleEvent.heartbeatTimes_append]
    exact (List.append_nil _).symm ▸ h.heartbeats
  afterMs := h.afterMs.trans (learned_append_of_none rfl).symm
  afterMs_ge := h.afterMs_ge

theorem Reflects.poll (h : a.Reflects events c) (readings : List Reading) :
    a.Reflects (events ++ [.poll readings]) (c.step (.poll readings)).2 := by
  obtain ⟨hsame, -⟩ :=
    @IdleTimeout.pollNoProgress_spec c.afterMs c.stream readings
  exact
    { idle := hsame.idle.trans h.idle
      lastProgress := by
        rw [lastMoved, IdleEvent.movedTimes_append]
        exact (List.append_nil _).symm ▸ hsame.lastProgress.trans h.lastProgress
      address := hsame.address.trans h.address
      started := h.started
      heartbeats := by
        rw [IdleEvent.heartbeatTimes_append]
        exact (List.append_nil _).symm ▸ h.heartbeats
      afterMs := h.afterMs.trans (learned_append_of_none rfl).symm
      afterMs_ge := h.afterMs_ge }

theorem Reflects.heartbeat (h : a.Reflects events c) (now : ℕ) :
    a.Reflects (events ++ [.heartbeat now]) (c.step (.heartbeat now)).2 := by
  have htimes : IdleEvent.heartbeatTimes (events ++ [.heartbeat now]) =
      IdleEvent.heartbeatTimes events ++ [now] :=
    IdleEvent.heartbeatTimes_append events _
  have hcount := c.cadence.observe_heartbeats now c.afterMs
  have hafter := c.cadence.observe_afterMs now c.afterMs
  rw [h.heartbeats] at hcount hafter
  rw [h.started] at hafter
  generalize hn : (IdleEvent.heartbeatTimes events).length = n at hcount hafter
  have hlearned : a.learned (events ++ [.heartbeat now]) =
      if n + 1 < 4 then asMillis (shedFallback a.budget.idleTimeout)
      else HeartbeatCadence.threshold a.cadenceStart now (min (n + 1) 0xffffffff) := by
    rw [learned, htimes]
    simp [hn]
  have hnext : (c.cadence.observe now c.afterMs).2 =
      a.learned (events ++ [.heartbeat now]) := by
    rw [hafter, hlearned]
    by_cases hfew : n + 1 < 4
    · -- Until the fourth heartbeat the fallback stays in place.
      rw [if_pos (by omega), if_pos hfew, h.afterMs, learned]
      split
      · rfl
      · rw [if_pos (by omega)]
    · rw [if_neg (by omega), if_neg hfew]
      congr 1
      omega
  exact
    { idle := h.idle
      lastProgress := by
        rw [lastMoved, IdleEvent.movedTimes_append]
        exact (List.append_nil _).symm ▸ h.lastProgress
      address := h.address
      started := h.started
      heartbeats := by
        rw [htimes, List.length_append, List.length_singleton, hn]
        exact hcount.trans (by omega)
      afterMs := hnext
      afterMs_ge := by
        change 3000 ≤ (c.cadence.observe now c.afterMs).2.toNat
        rw [hafter]
        split
        · exact h.afterMs_ge
        · exact threshold_ge .. }

theorem Reflects.step (h : a.Reflects events c) (e : IdleEvent) :
    a.Reflects (events ++ [e]) (c.step e).2 := by
  cases e with
  | moved now => exact h.moved now
  | heartbeat now => exact h.heartbeat now
  | poll readings => exact h.poll readings

theorem reflects_connection (a : Admission) (events : List IdleEvent) :
    a.Reflects events (a.connection events) := by
  induction events using List.reverseRecOn with
  | nil => exact a.reflects_admitted
  | append_singleton events e ih =>
      have hrun : a.connection (events ++ [e]) = ((a.connection events).step e).2 := by
        rw [connection, connection, IngressConnection.run, List.foldl_append]
        rfl
      rw [hrun]
      exact ih.step e

/-- On a clock that does not go back, nothing moved after the last time that
bytes did. -/
theorem le_lastMoved (h : a.Ordered events) :
    ∀ m ∈ a.start :: IdleEvent.movedTimes events, m ≤ a.lastMoved events := by
  have hsub : (IdleEvent.movedTimes events).Sublist
      (events.flatMap IdleEvent.moments) := by
    clear h
    induction events with
    | nil => exact .slnil
    | cons e events ih =>
        rw [List.flatMap_cons, IdleEvent.movedTimes, List.filterMap_cons]
        cases e with
        | moved now => exact ih.cons_cons now
        | heartbeat now => exact ih.cons now
        | poll readings => exact ih.trans (List.sublist_append_right _ _)
  have hsorted : (a.start :: IdleEvent.movedTimes events).Pairwise (· ≤ ·) :=
    h.sublist (hsub.cons_cons _)
  intro m hm
  rw [lastMoved]
  rcases List.eq_nil_or_concat' (IdleEvent.movedTimes events) with
    hnil | ⟨times, last, hlast⟩
  · rw [hnil] at hm ⊢
    exact le_of_eq (List.mem_singleton.mp hm)
  · rw [hlast] at hm hsorted ⊢
    rw [List.getLastD_concat]
    rw [← List.cons_append, List.pairwise_append] at hsorted
    rw [← List.cons_append, List.mem_append] at hm
    rcases hm with hm | hm
    · exact hsorted.2.2 m hm last (List.mem_singleton_self _)
    · exact le_of_eq (List.mem_singleton.mp hm)

/-- Silence since the last progress is silence since everything that moved. -/
theorem silentFor {time now : ℕ} (h : a.Ordered events) (hpos : 0 < time)
    (hsilent : time ≤ now - a.lastMoved events) : a.SilentFor events time now := by
  intro m hm
  have := le_lastMoved h m hm
  omega

/-- Only a polling loop ends a connection. -/
theorem lastMoved_of_ended {e : IdleEvent} {why : IdleEnd} {r : Reading}
    (h : .ended why r ∈ (c.step e).1) :
    a.lastMoved (events ++ [e]) = a.lastMoved events := by
  rw [lastMoved, IdleEvent.movedTimes_append]
  cases e with
  | moved now => simp [IngressConnection.step] at h
  | heartbeat now => simp [IngressConnection.step] at h
  | poll readings => exact congrArg (·.getLastD a.start) (List.append_nil _)

theorem Reflects.after_pos (h : a.Reflects events c) :
    0 < IdleTimeout.after c.afterMs := by
  have hpos : 0 < millisecond := by decide
  exact Nat.mul_pos (lt_of_lt_of_le (by decide) h.afterMs_ge) hpos

/-- Everything that a step does to the timer. -/
theorem Reflects.allows (h : a.Reflects events c) (e : IdleEvent) :
    ∀ effect ∈ (c.step e).1, (c.step e).2.stream.Allows (a.learned events) effect := by
  intro effect heffect
  cases e with
  | heartbeat now => simp [IngressConnection.step] at heffect
  | moved now =>
      obtain rfl := List.mem_singleton.mp heffect
      have hidle : 0 < c.stream.idle := h.idle ▸ a.budget.positive
      exact IdleTimeout.firstLook_bounds c.afterMs
        { c.stream with lastProgress := now } hidle h.after_pos
  | poll readings =>
      obtain ⟨hsame, hall⟩ :=
        @IdleTimeout.pollNoProgress_spec c.afterMs c.stream readings
      rw [← h.afterMs]
      exact hsame.symm.allows (hall effect heffect)

end Admission

/-- In every run on a clock that does not go back, the timer ends a connection
only after silence of the idle budget, or of the learned threshold with the
address at its cap. Every deadline lies strictly after the moment it is set and
not after the idle deadline, and each turn of a polling loop strictly after the
one before. -/
theorem idle_connection_contract (a : Admission) (events : List IdleEvent)
    (e : IdleEvent) (hordered : a.Ordered events) :
    (a.start < (a.connection []).stream.deadline ∧
      (a.connection []).stream.deadline ≤ a.start + a.budget.idleTimeout) ∧
    (∀ why r, .ended why r ∈ ((a.connection events).step e).1 →
      (why = .reaped ∧ a.SilentFor events a.budget.idleTimeout r.now) ∨
      (why = .shed ∧ a.AtCap r.counts ∧
        a.SilentFor events (IdleTimeout.after (a.learned events)) r.now)) ∧
    (∀ now deadline, .armed now deadline ∈ ((a.connection events).step e).1 →
      now < deadline ∧
        deadline ≤ a.lastMoved (events ++ [e]) + a.budget.idleTimeout) ∧
    ((a.connection events).step e).1.Pairwise fun f f' => f.now < f'.now := by
  have hreflects := a.reflects_connection events
  have hnext := hreflects.step e
  have hallows := hreflects.allows e
  refine ⟨a.deadline_admitted, fun why r hended => ?_,
    fun now deadline harmed => ?_, ?_⟩
  · have hends := hallows _ hended
    have hlast : a.lastMoved (events ++ [e]) = a.lastMoved events :=
      Admission.lastMoved_of_ended hended
    cases why with
    | reaped =>
        refine .inl ⟨rfl, Admission.silentFor hordered a.budget.positive ?_⟩
        rw [IdleTimeout.Allows, hnext.lastProgress, hnext.idle, hlast] at hends
        exact hends
    | shed =>
        obtain ⟨hsilent, maxPerIp, ip, haddress, hceiling, hfull⟩ := hends
        rw [hnext.lastProgress, hlast] at hsilent
        have hpos := hreflects.afterMs ▸ hreflects.after_pos
        refine .inr ⟨rfl, ?_, Admission.silentFor hordered hpos hsilent⟩
        rw [hnext.address] at haddress
        split at haddress
        · cases haddress
        · cases haddress
          exact ⟨hceiling, hfull⟩
  · have hbounds := hallows _ harmed
    rw [IdleTimeout.Allows, hnext.lastProgress, hnext.idle] at hbounds
    exact hbounds
  · cases e with
    | moved now => exact List.pairwise_singleton _ _
    | heartbeat now => exact .nil
    | poll readings => exact IdleTimeout.pollNoProgress_pairwise _ _

/-- A connection under the shipped limits, from an address that may hold one. -/
def soleAdmission : Admission where
  budget := ⟨60 * second, by decide, 1⟩
  ip := .v4 ⟨10, 0, 0, 1⟩
  start := 0
  cadenceStart := 0

/-- It yields its slot a quarter of the budget after its last byte. -/
theorem idle_connection_contract_sole :
    soleAdmission.SilentFor [.moved second] (15 * second) (16 * second) := by
  have hordered : soleAdmission.Ordered [.moved second] := by
    simp [Admission.Ordered, IdleEvent.moments, soleAdmission]
  have hcontract := idle_connection_contract soleAdmission [.moved second]
    (.poll [⟨true, 16 * second,
      some (AList.insert (.v4 ⟨10, 0, 0, 1⟩) 1 ∅)⟩]) hordered
  obtain ⟨hreaped, -⟩ | ⟨-, -, hsilent⟩ :=
    hcontract.2.1 .shed _ (List.mem_singleton.mpr rfl)
  · cases hreaped
  · exact hsilent

end ReserveGrid.Verifier
