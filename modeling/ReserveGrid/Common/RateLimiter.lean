import Mathlib.Data.List.MinMax
import ReserveGrid.Support.HashMap
import ReserveGrid.Support.IpAddr
import ReserveGrid.Support.SlidingWindow

/-!
# The sliding-window rate limiter

Each address has a deque of the times at which its requests were admitted. A
request is refused while the deque, pruned of what is a window old, is as long
as the limit. Instants and durations are numbers of nanoseconds. An address is
forgotten when a cleanup finds nothing recent, or when it is the least recently
admitted one and there are too many.
-/

namespace ReserveGrid.Common

open Support
open Support.SlidingWindow

/-- The windows of the addresses and of all of them together. -/
structure LimiterState where
  ips : HashMap IpAddr (List ℕ)
  globalTimestamps : List ℕ

/-- The limiter. Its lock is poisoned once a holder has panicked. -/
structure RateLimiter where
  maxTrackedIps : ℕ
  globalCeiling : Option UInt32
  window : ℕ
  poisoned : Bool
  state : LimiterState

/-- A call of `admitRequest`: the clock as it reads, the address, the limit, and
the order in which the addresses are visited if one has to go. -/
structure AdmitCall where
  now : ℕ
  ip : IpAddr
  maxPerWindow : UInt32
  order : IterOrder (Σ _ : IpAddr, List ℕ)

namespace RateLimiter

def withConfig (maxTrackedIps : ℕ) (globalCeiling : Option UInt32) :
    RateLimiter where
  maxTrackedIps := maxTrackedIps
  globalCeiling := globalCeiling
  window := 60 * 1000000000
  poisoned := false
  state := { ips := ∅, globalTimestamps := [] }

/-- The address with the oldest most recent time, the first one visited among
equals. An address without times is not looked at. -/
def oldestIp (order : IterOrder (Σ _ : IpAddr, List ℕ))
    (ips : HashMap IpAddr (List ℕ)) : Option IpAddr :=
  (((order.visit ips.entries).filterMap fun e =>
    e.2.getLast?.map fun t => (e.1, t)).argmin Prod.snd).map Prod.fst

def evictOldest (order : IterOrder (Σ _ : IpAddr, List ℕ))
    (ips : HashMap IpAddr (List ℕ)) : HashMap IpAddr (List ℕ) :=
  match oldestIp order ips with
  | some ip => ips.erase ip
  | none => ips

/-- The wait when the ceiling over all addresses is reached, and the limiter
with the shared window pruned. -/
def checkCeiling (now : ℕ) (limiter : RateLimiter) :
    Option ℕ × RateLimiter :=
  match limiter.globalCeiling with
  | none => (none, limiter)
  | some ceiling =>
      let global := prune limiter.window now limiter.state.globalTimestamps
      let limiter :=
        { limiter with state := { limiter.state with globalTimestamps := global } }
      if ceiling.toNat ≤ global.length then
        (some (untilFrontExpires limiter.window now global), limiter)
      else (none, limiter)

/-- Put a window in place and make room when there are too many addresses. -/
def record (call : AdmitCall) (timestamps : List ℕ) (limiter : RateLimiter) :
    RateLimiter :=
  let ips := limiter.state.ips.insert call.ip (timestamps ++ [call.now])
  let global :=
    if limiter.globalCeiling.isSome then
      limiter.state.globalTimestamps ++ [call.now]
    else limiter.state.globalTimestamps
  { limiter with
    state :=
      { ips :=
          if limiter.maxTrackedIps < ips.keys.length then
            evictOldest call.order ips
          else ips
        globalTimestamps := global } }

/-- The times of an address; none for an address that is not tracked. -/
def timestampsOf (limiter : RateLimiter) (ip : IpAddr) : List ℕ :=
  (limiter.state.ips.lookup ip).getD []

/-- Put the pruned window of an address back. -/
def setTimestamps (ip : IpAddr) (timestamps : List ℕ) (limiter : RateLimiter) :
    RateLimiter :=
  { limiter with
    state :=
      { limiter.state with ips := limiter.state.ips.insert ip timestamps } }

/-- Admit a request, or say how long until one would be admitted. -/
def admitRequest (call : AdmitCall) (limiter : RateLimiter) :
    Except ℕ Unit × RateLimiter :=
  if limiter.poisoned then (.error limiter.window, limiter)
  else
    match limiter.checkCeiling call.now with
    | (some wait, limiter) => (.error wait, limiter)
    | (none, limiter) =>
        let timestamps :=
          prune limiter.window call.now (limiter.timestampsOf call.ip)
        if call.maxPerWindow.toNat ≤ timestamps.length then
          (.error (untilFrontExpires limiter.window call.now timestamps),
            limiter.setTimestamps call.ip timestamps)
        else (.ok (), limiter.record call timestamps)

/-- Drop the addresses whose most recent request is two windows old. -/
def cleanup (now : ℕ) (limiter : RateLimiter) : RateLimiter :=
  if limiter.poisoned then limiter
  else
    { limiter with
      state :=
        { ips := limiter.state.ips.retain fun _ timestamps =>
            timestamps.getLast?.any fun t => now - t < limiter.window * 2
          globalTimestamps :=
            prune limiter.window now limiter.state.globalTimestamps } }

/-- `admitRequest` without the wait. -/
def check (call : AdmitCall) (limiter : RateLimiter) : Bool × RateLimiter :=
  ((limiter.admitRequest call).1.isOk, (limiter.admitRequest call).2)

/-! ## What a call does -/

variable {limiter : RateLimiter} {call : AdmitCall} {ip : IpAddr}

/-- The ceiling over all addresses, if there is one, is not reached. -/
def BelowCeiling (now : ℕ) (limiter : RateLimiter) : Prop :=
  ∀ ceiling ∈ limiter.globalCeiling,
    (prune limiter.window now limiter.state.globalTimestamps).length <
      ceiling.toNat

/-- The ceiling check prunes the shared window and nothing else. -/
theorem checkCeiling_snd (limiter : RateLimiter) (now : ℕ) :
    (limiter.checkCeiling now).2 =
      { limiter with
        state :=
          { limiter.state with
            globalTimestamps :=
              if limiter.globalCeiling.isSome then
                prune limiter.window now limiter.state.globalTimestamps
              else limiter.state.globalTimestamps } } := by
  obtain ⟨maxTrackedIps, globalCeiling, window, poisoned, state⟩ := limiter
  cases globalCeiling with
  | none => rfl
  | some ceiling =>
      rw [checkCeiling]
      dsimp only
      split <;> rfl

theorem timestampsOf_checkCeiling (limiter : RateLimiter) (now : ℕ)
    (ip : IpAddr) :
    (limiter.checkCeiling now).2.timestampsOf ip = limiter.timestampsOf ip := by
  rw [checkCeiling_snd]
  rfl

theorem checkCeiling_fst (limiter : RateLimiter) (now : ℕ) :
    (limiter.checkCeiling now).1 = none ↔ limiter.BelowCeiling now := by
  unfold checkCeiling BelowCeiling
  cases hceiling : limiter.globalCeiling with
  | none => simp
  | some ceiling =>
      dsimp only
      split <;> simp <;> omega

theorem isOk_error (wait : ℕ) :
    (Except.error wait : Except ℕ Unit).isOk = false := rfl

theorem isOk_ok : (Except.ok () : Except ℕ Unit).isOk = true := rfl

/-- A call is refused at the ceiling, refused for its own address, or
recorded. -/
theorem admitRequest_cases (hpoisoned : limiter.poisoned = false)
    (call : AdmitCall) :
    let checked := (limiter.checkCeiling call.now).2
    let timestamps :=
      prune limiter.window call.now (limiter.timestampsOf call.ip)
    (¬ limiter.BelowCeiling call.now ∧
        ∃ wait, limiter.admitRequest call = (.error wait, checked)) ∨
      (limiter.BelowCeiling call.now ∧
        call.maxPerWindow.toNat ≤ timestamps.length ∧
          limiter.admitRequest call =
            (.error (untilFrontExpires limiter.window call.now timestamps),
              checked.setTimestamps call.ip timestamps)) ∨
      (limiter.BelowCeiling call.now ∧
        timestamps.length < call.maxPerWindow.toNat ∧
          limiter.admitRequest call =
            (.ok (), checked.record call timestamps)) := by
  intro checked timestamps
  have hwindow : checked.window = limiter.window := by
    simp only [checked, checkCeiling_snd]
  have htimestamps : prune checked.window call.now
      (checked.timestampsOf call.ip) = timestamps := by
    simp only [hwindow, checked, timestampsOf_checkCeiling, timestamps]
  have hfst := checkCeiling_fst limiter call.now
  cases hcheck : limiter.checkCeiling call.now with
  | mk waiting after =>
      have hafter : after = checked := by simp only [checked, hcheck]
      rw [hcheck] at hfst
      subst hafter
      unfold admitRequest
      rw [if_neg (by simp [hpoisoned]), hcheck]
      cases waiting with
      | some wait =>
          exact .inl ⟨fun h => by simpa using hfst.mpr h, wait, rfl⟩
      | none =>
          have hbelow := hfst.mp rfl
          dsimp only
          rw [htimestamps, hwindow]
          by_cases hfull : call.maxPerWindow.toNat ≤ timestamps.length
          · rw [if_pos hfull]
            exact .inr (.inl ⟨hbelow, hfull, rfl⟩)
          · rw [if_neg hfull]
            exact .inr (.inr ⟨hbelow, by omega, rfl⟩)

/-- Without a ceiling, a call depends on the window of its own address. -/
theorem admitRequest_eq (hceiling : limiter.globalCeiling = none)
    (hpoisoned : limiter.poisoned = false) (call : AdmitCall) :
    let timestamps :=
      prune limiter.window call.now (limiter.timestampsOf call.ip)
    (call.maxPerWindow.toNat ≤ timestamps.length ∧
        limiter.admitRequest call =
          (.error (untilFrontExpires limiter.window call.now timestamps),
            limiter.setTimestamps call.ip timestamps)) ∨
      (timestamps.length < call.maxPerWindow.toNat ∧
        limiter.admitRequest call =
          (.ok (), limiter.record call timestamps)) := by
  intro timestamps
  have hchecked : (limiter.checkCeiling call.now).2 = limiter := by
    simp only [checkCeiling, hceiling]
  have hbelow : limiter.BelowCeiling call.now := by
    simp [BelowCeiling, hceiling]
  have hcases := admitRequest_cases hpoisoned call
  rw [hchecked] at hcases
  obtain ⟨hnot, -⟩ | ⟨-, hcase⟩ | ⟨-, hcase⟩ := hcases
  · exact absurd hbelow hnot
  · exact .inl hcase
  · exact .inr hcase

/-- An address that survives an eviction keeps its window. -/
theorem lookup_evictOldest {order : IterOrder (Σ _ : IpAddr, List ℕ)}
    {ips : HashMap IpAddr (List ℕ)} (h : ip ∈ evictOldest order ips) :
    (evictOldest order ips).lookup ip = ips.lookup ip := by
  unfold evictOldest at h ⊢
  cases hold : oldestIp order ips with
  | none => rfl
  | some oldest =>
      simp only [hold] at h ⊢
      have hne : ip ≠ oldest := by
        rintro rfl
        exact (AList.mem_erase.mp h).1 rfl
      exact AList.lookup_erase_ne hne

/-- An address that survives the recording of a call has its window. -/
theorem timestampsOf_record {timestamps : List ℕ}
    (h : ip ∈ (limiter.record call timestamps).state.ips) :
    (limiter.record call timestamps).timestampsOf ip =
      if ip = call.ip then timestamps ++ [call.now]
      else limiter.timestampsOf ip := by
  have hlookup : (limiter.record call timestamps).state.ips.lookup ip =
      (limiter.state.ips.insert call.ip (timestamps ++ [call.now])).lookup ip := by
    unfold record at h ⊢
    dsimp only at h ⊢
    split
    · rename_i hroom
      rw [if_pos hroom] at h
      exact lookup_evictOldest h
    · rfl
  unfold timestampsOf
  rw [hlookup]
  by_cases hip : ip = call.ip
  · rw [if_pos hip, hip, AList.lookup_insert, Option.getD_some]
  · rw [if_neg hip, AList.lookup_insert_ne hip]

theorem timestampsOf_setTimestamps (ip' : IpAddr) (timestamps : List ℕ) :
    (limiter.setTimestamps ip' timestamps).timestampsOf ip =
      if ip = ip' then timestamps else limiter.timestampsOf ip := by
  unfold timestampsOf setTimestamps
  by_cases hip : ip = ip'
  · rw [if_pos hip, hip, AList.lookup_insert, Option.getD_some]
  · rw [if_neg hip, AList.lookup_insert_ne hip]

/-- A cleanup forgets a window or leaves it as it is. -/
theorem timestampsOf_cleanup (hpoisoned : limiter.poisoned = false) (now : ℕ)
    (ip : IpAddr) :
    (limiter.cleanup now).timestampsOf ip = limiter.timestampsOf ip ∨
      ((limiter.cleanup now).timestampsOf ip = [] ∧
        ∀ t ∈ (limiter.timestampsOf ip).getLast?,
          limiter.window * 2 ≤ now - t) := by
  unfold timestampsOf cleanup
  rw [hpoisoned]
  simp only [Bool.false_eq_true, if_false, HashMap.lookup_retain]
  cases limiter.state.ips.lookup ip with
  | none => exact Or.inl rfl
  | some timestamps =>
      cases hrecent : timestamps.getLast?.any
          fun t => decide (now - t < limiter.window * 2) with
      | true =>
          rw [Option.filter_some, if_pos hrecent]
          exact Or.inl rfl
      | false =>
          rw [Option.filter_some, hrecent]
          refine Or.inr ⟨rfl, ?_⟩
          intro t ht
          rw [Option.getD_some, Option.mem_def] at ht
          rw [ht] at hrecent
          simpa using hrecent

theorem timestampsOf_eq_nil (h : ip ∉ limiter.state.ips) :
    limiter.timestampsOf ip = [] := by
  rw [timestampsOf, AList.lookup_eq_none.mpr h]
  rfl

end RateLimiter

/-! ## Runs -/

/-- What is done to the limiter. -/
inductive LimiterEvent where
  | request (call : AdmitCall)
  | cleanup (now : ℕ)

namespace LimiterEvent

/-- The clock reading of an event. -/
def now : LimiterEvent → ℕ
  | .request call => call.now
  | .cleanup now => now

/-- The limiter after an event. -/
def apply (limiter : RateLimiter) : LimiterEvent → RateLimiter
  | .request call => (limiter.admitRequest call).2
  | .cleanup now => limiter.cleanup now

/-- The time an event admits a request of the address at. -/
def admittedTimes (ip : IpAddr) (limiter : RateLimiter) :
    LimiterEvent → List ℕ
  | .request call =>
      if call.ip = ip ∧ (limiter.admitRequest call).1.isOk then [call.now]
      else []
  | .cleanup _ => []

/-- An admitted call makes room by forgetting the address. -/
def Evicts (ip : IpAddr) (limiter : RateLimiter) : LimiterEvent → Prop
  | .request call =>
      (limiter.admitRequest call).1.isOk = true ∧
        (ip = call.ip ∨ ip ∈ limiter.state.ips) ∧
        ip ∉ (limiter.admitRequest call).2.state.ips
  | .cleanup _ => False

end LimiterEvent

/-- The limiter after a list of events, from an empty one without a ceiling. -/
def limiterAfter (maxTrackedIps : ℕ) (history : List LimiterEvent) :
    RateLimiter :=
  history.foldl LimiterEvent.apply (.withConfig maxTrackedIps none)

/-- The times at which requests of the address are admitted, from a limiter. -/
def admittedFrom (ip : IpAddr) (limiter : RateLimiter) :
    List LimiterEvent → List ℕ
  | [] => []
  | event :: events =>
      event.admittedTimes ip limiter ++
        admittedFrom ip (event.apply limiter) events

/-- The times at which requests of the address were admitted. -/
def admitted (maxTrackedIps : ℕ) (ip : IpAddr) (history : List LimiterEvent) :
    List ℕ :=
  admittedFrom ip (.withConfig maxTrackedIps none) history

theorem limiterAfter_concat (maxTrackedIps : ℕ) (history : List LimiterEvent)
    (event : LimiterEvent) :
    limiterAfter maxTrackedIps (history ++ [event]) =
      event.apply (limiterAfter maxTrackedIps history) :=
  List.foldl_concat ..

theorem admittedFrom_append (ip : IpAddr) (limiter : RateLimiter)
    (events more : List LimiterEvent) :
    admittedFrom ip limiter (events ++ more) =
      admittedFrom ip limiter events ++
        admittedFrom ip (events.foldl LimiterEvent.apply limiter) more := by
  induction events generalizing limiter with
  | nil => rfl
  | cons event events ih =>
      rw [List.cons_append, admittedFrom, admittedFrom, ih, List.append_assoc]
      rfl

theorem admitted_concat (maxTrackedIps : ℕ) (ip : IpAddr)
    (history : List LimiterEvent) (event : LimiterEvent) :
    admitted maxTrackedIps ip (history ++ [event]) =
      admitted maxTrackedIps ip history ++
        event.admittedTimes ip (limiterAfter maxTrackedIps history) := by
  unfold admitted
  rw [admittedFrom_append, admittedFrom, admittedFrom, List.append_nil]
  rfl

/-! ## What an event preserves -/

/-- The settings of a limiter never change. -/
theorem LimiterEvent.apply_settings (limiter : RateLimiter)
    (event : LimiterEvent) :
    (event.apply limiter).maxTrackedIps = limiter.maxTrackedIps ∧
      (event.apply limiter).globalCeiling = limiter.globalCeiling ∧
      (event.apply limiter).window = limiter.window ∧
      (event.apply limiter).poisoned = limiter.poisoned := by
  by_cases hpoisoned : limiter.poisoned = true
  · have heq : event.apply limiter = limiter := by
      cases event with
      | request call =>
          rw [LimiterEvent.apply, RateLimiter.admitRequest, if_pos hpoisoned]
      | cleanup now =>
          rw [LimiterEvent.apply, RateLimiter.cleanup, if_pos hpoisoned]
    rw [heq]
    exact ⟨rfl, rfl, rfl, rfl⟩
  · cases event with
    | cleanup now =>
        rw [LimiterEvent.apply, RateLimiter.cleanup, if_neg hpoisoned]
        exact ⟨rfl, rfl, rfl, rfl⟩
    | request call =>
        rw [LimiterEvent.apply]
        rw [Bool.not_eq_true] at hpoisoned
        obtain ⟨-, wait, heq⟩ | ⟨-, -, heq⟩ | ⟨-, -, heq⟩ :=
          RateLimiter.admitRequest_cases hpoisoned call
        all_goals
          rw [heq, RateLimiter.checkCeiling_snd]
          exact ⟨rfl, rfl, rfl, rfl⟩

/-- The limiter is not poisoned, has no ceiling and the usual window. -/
structure Plain (maxTrackedIps : ℕ) (limiter : RateLimiter) : Prop where
  maxTrackedIps : limiter.maxTrackedIps = maxTrackedIps
  globalCeiling : limiter.globalCeiling = none
  window : limiter.window = 60 * 1000000000
  poisoned : limiter.poisoned = false

theorem Plain.window_pos {maxTrackedIps : ℕ} {limiter : RateLimiter}
    (h : Plain maxTrackedIps limiter) : 0 < limiter.window := by
  rw [h.window]
  decide

theorem foldl_apply_settings (limiter : RateLimiter)
    (events : List LimiterEvent) :
    let after := events.foldl LimiterEvent.apply limiter
    after.maxTrackedIps = limiter.maxTrackedIps ∧
      after.globalCeiling = limiter.globalCeiling ∧
      after.window = limiter.window ∧ after.poisoned = limiter.poisoned := by
  induction events generalizing limiter with
  | nil => exact ⟨rfl, rfl, rfl, rfl⟩
  | cons event events ih =>
      obtain ⟨hmax, hceiling, hwindow, hpoisoned⟩ := event.apply_settings limiter
      rw [List.foldl_cons, ← hmax, ← hceiling, ← hwindow, ← hpoisoned]
      exact ih _

theorem Plain.apply {maxTrackedIps : ℕ} {limiter : RateLimiter}
    (h : Plain maxTrackedIps limiter) (event : LimiterEvent) :
    Plain maxTrackedIps (event.apply limiter) := by
  obtain ⟨hmax, hceiling, hwindow, hpoisoned⟩ := event.apply_settings limiter
  exact ⟨hmax.trans h.maxTrackedIps, hceiling.trans h.globalCeiling,
    hwindow.trans h.window, hpoisoned.trans h.poisoned⟩

theorem limiterAfter_plain (maxTrackedIps : ℕ) (history : List LimiterEvent) :
    Plain maxTrackedIps (limiterAfter maxTrackedIps history) := by
  induction history using List.reverseRecOn with
  | nil => exact ⟨rfl, rfl, rfl, rfl⟩
  | append_singleton history event ih =>
      rw [limiterAfter_concat]
      exact ih.apply event

/-- A recorded call keeps the record of an address it does not evict. -/
theorem tracks_record {limiter : RateLimiter} {call : AdmitCall} {ip : IpAddr}
    {times : List ℕ}
    (h : Tracks limiter.window call.now times (limiter.timestampsOf ip))
    (hkept : (ip = call.ip ∨ ip ∈ limiter.state.ips) →
      ip ∈ (limiter.record call (prune limiter.window call.now
        (limiter.timestampsOf call.ip))).state.ips) :
    Tracks limiter.window call.now
      (times ++ if call.ip = ip then [call.now] else [])
      ((limiter.record call (prune limiter.window call.now
        (limiter.timestampsOf call.ip))).timestampsOf ip) := by
  by_cases hip : ip = call.ip
  · have hmem := hkept (.inl hip)
    subst hip
    rw [RateLimiter.timestampsOf_record hmem, if_pos rfl, if_pos rfl]
    exact h.prune.push
  rw [if_neg fun h => hip h.symm, List.append_nil]
  by_cases hmem : ip ∈ (limiter.record call (prune limiter.window call.now
      (limiter.timestampsOf call.ip))).state.ips
  · rw [RateLimiter.timestampsOf_record hmem, if_neg hip]
    exact h
  · have huntracked : ip ∉ limiter.state.ips :=
      fun htracked => hmem (hkept (.inr htracked))
    rw [RateLimiter.timestampsOf_eq_nil huntracked] at h
    rw [RateLimiter.timestampsOf_eq_nil hmem]
    exact h

/-- The window of an address after an event that does not evict it follows the
record of its admitted times. -/
theorem tracks_apply {clock : ℕ} {limiter : RateLimiter} {ip : IpAddr}
    {times : List ℕ} {event : LimiterEvent}
    (hpoisoned : limiter.poisoned = false) (hwindow : 0 < limiter.window)
    (h : Tracks limiter.window clock times (limiter.timestampsOf ip))
    (hclock : clock ≤ event.now) (hkept : ¬ event.Evicts ip limiter) :
    Tracks limiter.window event.now (times ++ event.admittedTimes ip limiter)
      ((event.apply limiter).timestampsOf ip) := by
  have hnow := h.later hclock
  cases event with
  | cleanup now =>
      rw [LimiterEvent.admittedTimes, List.append_nil, LimiterEvent.apply]
      obtain heq | ⟨heq, hold⟩ :=
        RateLimiter.timestampsOf_cleanup hpoisoned now ip
      · rw [heq]
        exact hnow
      · rw [heq]
        apply hnow.forget
        intro t ht
        have hage := hold t ht
        rw [LimiterEvent.now]
        omega
  | request call =>
      rw [LimiterEvent.now] at hnow ⊢
      rw [LimiterEvent.admittedTimes, LimiterEvent.apply]
      rw [LimiterEvent.Evicts] at hkept
      have hchecked : (limiter.checkCeiling call.now).2.window =
          limiter.window := by rw [RateLimiter.checkCeiling_snd]
      have hips : (limiter.checkCeiling call.now).2.state.ips =
          limiter.state.ips := by rw [RateLimiter.checkCeiling_snd]
      obtain ⟨-, wait, heq⟩ | ⟨-, -, heq⟩ | ⟨-, -, heq⟩ :=
        RateLimiter.admitRequest_cases hpoisoned call
      · rw [heq, if_neg (by simp [RateLimiter.isOk_error]), List.append_nil,
          RateLimiter.timestampsOf_checkCeiling]
        exact hnow
      · rw [heq, if_neg (by simp [RateLimiter.isOk_error]), List.append_nil,
          RateLimiter.timestampsOf_setTimestamps]
        by_cases hip : ip = call.ip
        · subst hip
          rw [if_pos rfl]
          exact hnow.prune
        · rw [if_neg hip, RateLimiter.timestampsOf_checkCeiling]
          exact hnow
      · rw [heq] at hkept ⊢
        simp only [RateLimiter.isOk_ok, true_and, and_true] at hkept ⊢
        have hsame := limiter.timestampsOf_checkCeiling call.now
        rw [← hchecked, ← hsame ip] at hnow
        rw [← hchecked, ← hsame call.ip] at hkept ⊢
        apply tracks_record hnow
        intro htracked
        rw [hips] at htracked
        by_contra hmem
        exact hkept ⟨htracked, hmem⟩

/-! ## Runs with any limits -/

namespace LimiterEvent

/-- The time an event admits a request of any address at. -/
def passedTimes (limiter : RateLimiter) : LimiterEvent → List ℕ
  | .request call => if (limiter.admitRequest call).1.isOk then [call.now] else []
  | .cleanup _ => []

instance (ip : IpAddr) (limiter : RateLimiter) :
    (event : LimiterEvent) → Decidable (event.Evicts ip limiter)
  | .request call =>
      inferInstanceAs (Decidable ((limiter.admitRequest call).1.isOk = true ∧
        (ip = call.ip ∨ ip ∈ limiter.state.ips) ∧
        ip ∉ (limiter.admitRequest call).2.state.ips))
  | .cleanup _ => inferInstanceAs (Decidable False)

/-- An address that is evicted has no window afterwards. -/
theorem timestampsOf_of_evicts {ip : IpAddr} {limiter : RateLimiter}
    {event : LimiterEvent} (h : event.Evicts ip limiter) :
    (event.apply limiter).timestampsOf ip = [] := by
  cases event with
  | request call => exact RateLimiter.timestampsOf_eq_nil h.2.2
  | cleanup now => exact absurd h id

end LimiterEvent

/-- The times at which requests are admitted, from a limiter. -/
def passedFrom (limiter : RateLimiter) : List LimiterEvent → List ℕ
  | [] => []
  | event :: events =>
      event.passedTimes limiter ++ passedFrom (event.apply limiter) events

/-- The times at which requests of the address are admitted, from a limiter and
the times so far. An eviction of the address forgets them. -/
def spentFrom (ip : IpAddr) (limiter : RateLimiter) (times : List ℕ) :
    List LimiterEvent → List ℕ
  | [] => times
  | event :: events =>
      spentFrom ip (event.apply limiter)
        (if event.Evicts ip limiter then []
          else times ++ event.admittedTimes ip limiter) events

/-- The window of an address follows the record of what it spent. -/
theorem tracks_spentFrom {clock later : ℕ} {limiter : RateLimiter}
    {ip : IpAddr} {times : List ℕ} {events : List LimiterEvent}
    (hpoisoned : limiter.poisoned = false) (hwindow : 0 < limiter.window)
    (hordered : events.Pairwise fun a b => a.now ≤ b.now)
    (hclock : ∀ event ∈ events, clock ≤ event.now)
    (hlater : ∀ event ∈ events, event.now ≤ later) (hle : clock ≤ later)
    (h : Tracks limiter.window clock times (limiter.timestampsOf ip)) :
    Tracks limiter.window later (spentFrom ip limiter times events)
      ((events.foldl LimiterEvent.apply limiter).timestampsOf ip) := by
  induction events generalizing limiter times clock with
  | nil => exact h.later hle
  | cons event events ih =>
      obtain ⟨-, -, hsame, hpoisoned'⟩ := event.apply_settings limiter
      rw [List.pairwise_cons] at hordered
      rw [List.forall_mem_cons] at hclock hlater
      have hstep : Tracks (event.apply limiter).window event.now
          (if event.Evicts ip limiter then []
            else times ++ event.admittedTimes ip limiter)
          ((event.apply limiter).timestampsOf ip) := by
        rw [hsame]
        by_cases hevicts : event.Evicts ip limiter
        · rw [if_pos hevicts, LimiterEvent.timestampsOf_of_evicts hevicts]
          exact Tracks.nil
        · rw [if_neg hevicts]
          exact tracks_apply hpoisoned hwindow h hclock.1 hevicts
      rw [spentFrom, ← hsame]
      exact ih (hpoisoned'.trans hpoisoned) (hwindow.trans_eq hsame.symm)
        hordered.2 hordered.1 hlater.2 hlater.1 hstep

/-- With a ceiling, the shared window after an event follows the record of all
admitted times. -/
theorem tracks_shared_apply {clock : ℕ} {limiter : RateLimiter}
    {times : List ℕ} {event : LimiterEvent}
    (hpoisoned : limiter.poisoned = false)
    (hceiling : limiter.globalCeiling.isSome = true)
    (h : Tracks limiter.window clock times limiter.state.globalTimestamps)
    (hclock : clock ≤ event.now) :
    Tracks limiter.window event.now (times ++ event.passedTimes limiter)
      (event.apply limiter).state.globalTimestamps := by
  have hpruned := (h.later hclock).prune
  cases event with
  | cleanup now =>
      rw [LimiterEvent.passedTimes, List.append_nil, LimiterEvent.apply,
        RateLimiter.cleanup, if_neg (by simp [hpoisoned])]
      exact hpruned
  | request call =>
      have hchecked :
          (limiter.checkCeiling call.now).2.state.globalTimestamps =
            prune limiter.window call.now limiter.state.globalTimestamps := by
        rw [RateLimiter.checkCeiling_snd]
        exact if_pos hceiling
      rw [LimiterEvent.passedTimes, LimiterEvent.apply]
      obtain ⟨-, wait, heq⟩ | ⟨-, -, heq⟩ | ⟨-, -, heq⟩ :=
        RateLimiter.admitRequest_cases hpoisoned call
      · rw [heq, if_neg (by simp [RateLimiter.isOk_error]), List.append_nil,
          hchecked]
        exact hpruned
      · rw [heq, if_neg (by simp [RateLimiter.isOk_error]), List.append_nil,
          RateLimiter.setTimestamps, hchecked]
        exact hpruned
      · have hsome : (limiter.checkCeiling call.now).2.globalCeiling.isSome =
            true := by
          rw [RateLimiter.checkCeiling_snd]
          exact hceiling
        rw [heq, if_pos RateLimiter.isOk_ok, RateLimiter.record]
        dsimp only
        rw [if_pos hsome, hchecked]
        exact hpruned.push

theorem tracks_passedFrom {clock later : ℕ} {limiter : RateLimiter}
    {times : List ℕ} {events : List LimiterEvent}
    (hpoisoned : limiter.poisoned = false)
    (hceiling : limiter.globalCeiling.isSome = true)
    (hordered : events.Pairwise fun a b => a.now ≤ b.now)
    (hclock : ∀ event ∈ events, clock ≤ event.now)
    (hlater : ∀ event ∈ events, event.now ≤ later) (hle : clock ≤ later)
    (h : Tracks limiter.window clock times limiter.state.globalTimestamps) :
    Tracks limiter.window later (times ++ passedFrom limiter events)
      (events.foldl LimiterEvent.apply limiter).state.globalTimestamps := by
  induction events generalizing limiter times clock with
  | nil =>
      rw [passedFrom, List.append_nil]
      exact h.later hle
  | cons event events ih =>
      obtain ⟨-, hsame, hwindow, hpoisoned'⟩ := event.apply_settings limiter
      rw [List.pairwise_cons] at hordered
      rw [List.forall_mem_cons] at hclock hlater
      have hstep := tracks_shared_apply hpoisoned hceiling h hclock.1
      rw [← hwindow] at hstep
      rw [passedFrom, ← List.append_assoc, ← hwindow]
      exact ih (hpoisoned'.trans hpoisoned) (hsame ▸ hceiling) hordered.2
        hordered.1 hlater.2 hlater.1 hstep

/-- Which calls an unpoisoned limiter admits. -/
theorem RateLimiter.admitRequest_isOk {limiter : RateLimiter}
    (hpoisoned : limiter.poisoned = false) (call : AdmitCall) :
    (limiter.admitRequest call).1.isOk = true ↔
      limiter.BelowCeiling call.now ∧
        (prune limiter.window call.now (limiter.timestampsOf call.ip)).length <
          call.maxPerWindow.toNat := by
  obtain ⟨hnot, wait, heq⟩ | ⟨-, hfull, heq⟩ | ⟨hbelow, hroom, heq⟩ :=
    admitRequest_cases hpoisoned call
  · rw [heq]
    simp [isOk_error, hnot]
  · rw [heq]
    simp [isOk_error, hfull]
  · rw [heq]
    exact iff_of_true rfl ⟨hbelow, hroom⟩

/-- After any run, a call is admitted exactly when its address has spent less
than the limit and all addresses together are below the ceiling. -/
theorem admitRequest_isOk_iff (maxTrackedIps : ℕ)
    (globalCeiling : Option UInt32) {events : List LimiterEvent}
    {call : AdmitCall}
    (hordered : events.Pairwise fun a b => a.now ≤ b.now)
    (hlater : ∀ event ∈ events, event.now ≤ call.now) :
    let limiter := RateLimiter.withConfig maxTrackedIps globalCeiling
    (((events.foldl LimiterEvent.apply limiter).admitRequest call).1.isOk = true ↔
      (within (60 * 1000000000) call.now
          (spentFrom call.ip limiter [] events)).length <
        call.maxPerWindow.toNat ∧
      ∀ ceiling ∈ globalCeiling,
        (within (60 * 1000000000) call.now (passedFrom limiter events)).length <
          ceiling.toNat) := by
  intro limiter
  have hwindow : limiter.window = 60 * 1000000000 := rfl
  have hpos : 0 < limiter.window := by
    rw [hwindow]
    decide
  obtain ⟨-, hceiling, hsame, hpoisoned⟩ := foldl_apply_settings limiter events
  have hspent : Tracks limiter.window call.now
      (spentFrom call.ip limiter [] events)
      ((events.foldl LimiterEvent.apply limiter).timestampsOf call.ip) :=
    tracks_spentFrom rfl hpos hordered (fun _ _ => Nat.zero_le _) hlater
      (Nat.zero_le _) Tracks.nil
  rw [RateLimiter.admitRequest_isOk hpoisoned, hsame, hspent.prune_eq hpos,
    ← within_eq_live hspent.le_clock, hwindow, and_comm,
    RateLimiter.BelowCeiling, hceiling, hsame]
  apply and_congr_right
  intro _
  apply forall₂_congr
  intro ceiling hmem
  have hpassed : Tracks limiter.window call.now
      ([] ++ passedFrom limiter events)
      (events.foldl LimiterEvent.apply limiter).state.globalTimestamps :=
    tracks_passedFrom rfl (Option.isSome_of_mem hmem) hordered
      (fun _ _ => Nat.zero_le _) hlater (Nat.zero_le _) Tracks.nil
  rw [hpassed.prune_eq hpos, ← within_eq_live hpassed.le_clock, hwindow,
    List.nil_append]

/-! ## Tracked addresses -/

/-- Every tracked address has a time, and there are not too many of them. -/
structure Sized (maxTrackedIps : ℕ) (ips : HashMap IpAddr (List ℕ)) : Prop where
  ne_nil : ∀ ip timestamps, ips.lookup ip = some timestamps → timestamps ≠ []
  length_le : ips.keys.length ≤ maxTrackedIps

theorem length_keys_insert (ips : HashMap IpAddr (List ℕ)) (ip : IpAddr)
    (timestamps : List ℕ) :
    (ips.insert ip timestamps).keys.length ≤ ips.keys.length + 1 := by
  rw [AList.keys_insert, List.length_cons]
  have hle : (ips.keys.erase ip).length ≤ ips.keys.length :=
    List.length_erase_le
  omega

theorem length_keys_insert_of_mem {ips : HashMap IpAddr (List ℕ)} {ip : IpAddr}
    (h : ip ∈ ips) (timestamps : List ℕ) :
    (ips.insert ip timestamps).keys.length = ips.keys.length := by
  have hpos := List.length_pos_of_mem h
  rw [AList.keys_insert, List.length_cons, List.length_erase_of_mem h]
  omega

/-- When every address has a time, one of them is the oldest. -/
theorem length_keys_evictOldest (order : IterOrder (Σ _ : IpAddr, List ℕ))
    {ips : HashMap IpAddr (List ℕ)} (hpos : 0 < ips.keys.length)
    (hne : ∀ ip timestamps, ips.lookup ip = some timestamps →
      timestamps ≠ []) :
    (RateLimiter.evictOldest order ips).keys.length + 1 = ips.keys.length := by
  have hold : RateLimiter.oldestIp order ips ≠ none := by
    intro hnone
    rw [RateLimiter.oldestIp, Option.map_eq_none_iff, List.argmin_eq_none,
      List.filterMap_eq_nil_iff] at hnone
    obtain ⟨ip, hmem⟩ := List.exists_mem_of_length_pos hpos
    obtain ⟨timestamps, hlookup⟩ :=
      Option.isSome_iff_exists.mp (AList.lookup_isSome.mpr hmem)
    have hlast := hnone ⟨ip, timestamps⟩
      ((order.mem_visit).mpr (AList.mem_lookup_iff.mp hlookup))
    rw [Option.map_eq_none_iff, List.getLast?_eq_none_iff] at hlast
    exact hne ip timestamps hlookup hlast
  obtain ⟨ip, hip⟩ := Option.ne_none_iff_exists'.mp hold
  have hmem : ip ∈ ips.keys := by
    rw [RateLimiter.oldestIp, Option.map_eq_some_iff] at hip
    obtain ⟨⟨ip', t⟩, hargmin, rfl⟩ := hip
    obtain ⟨e, he, hlast⟩ :=
      List.mem_filterMap.mp (List.argmin_mem hargmin)
    obtain ⟨t', -, heq⟩ := Option.map_eq_some_iff.mp hlast
    cases heq
    exact List.mem_map_of_mem (order.mem_visit.mp he)
  rw [RateLimiter.evictOldest, hip]
  simp only [AList.keys_erase]
  rw [List.length_erase_of_mem hmem]
  omega

theorem ne_nil_insert {ips : HashMap IpAddr (List ℕ)} (ip : IpAddr)
    {timestamps : List ℕ} (htimestamps : timestamps ≠ [])
    (h : ∀ ip timestamps, ips.lookup ip = some timestamps → timestamps ≠ []) :
    ∀ ip' timestamps', (ips.insert ip timestamps).lookup ip' =
      some timestamps' → timestamps' ≠ [] := by
  intro ip' timestamps' hlookup
  by_cases hip : ip' = ip
  · subst hip
    rw [AList.lookup_insert] at hlookup
    cases hlookup
    exact htimestamps
  · rw [AList.lookup_insert_ne hip] at hlookup
    exact h ip' timestamps' hlookup

theorem ne_nil_evictOldest {order : IterOrder (Σ _ : IpAddr, List ℕ)}
    {ips : HashMap IpAddr (List ℕ)}
    (h : ∀ ip timestamps, ips.lookup ip = some timestamps → timestamps ≠ []) :
    ∀ ip timestamps, (RateLimiter.evictOldest order ips).lookup ip =
      some timestamps → timestamps ≠ [] := by
  intro ip timestamps hlookup
  have hmem : ip ∈ RateLimiter.evictOldest order ips :=
    AList.lookup_isSome.mp (by simp [hlookup])
  rw [RateLimiter.lookup_evictOldest hmem] at hlookup
  exact h ip timestamps hlookup

/-- Recording a call makes room when the address is one too many. -/
theorem Sized.record {maxTrackedIps : ℕ} {limiter : RateLimiter}
    (h : Sized maxTrackedIps limiter.state.ips)
    (hmax : limiter.maxTrackedIps = maxTrackedIps) (call : AdmitCall)
    (timestamps : List ℕ) :
    Sized maxTrackedIps (limiter.record call timestamps).state.ips := by
  have htimestamps : timestamps ++ [call.now] ≠ [] := by simp
  have hne := ne_nil_insert call.ip htimestamps h.ne_nil
  have hlength := length_keys_insert limiter.state.ips call.ip
    (timestamps ++ [call.now])
  have hbefore := h.length_le
  unfold RateLimiter.record
  dsimp only
  by_cases hroom : limiter.maxTrackedIps <
      (limiter.state.ips.insert call.ip
        (timestamps ++ [call.now])).keys.length
  · rw [if_pos hroom]
    have hevict := length_keys_evictOldest call.order (by omega) hne
    exact ⟨ne_nil_evictOldest hne, by omega⟩
  · rw [if_neg hroom]
    exact ⟨hne, by omega⟩

/-- With limits of at least one, only an admitted call adds an address, and
then the oldest one makes room for it. -/
theorem Sized.apply {maxTrackedIps : ℕ} {limiter : RateLimiter}
    (hplain : Plain maxTrackedIps limiter)
    (h : Sized maxTrackedIps limiter.state.ips) {event : LimiterEvent}
    (hlimit : ∀ call, event = .request call → 1 ≤ call.maxPerWindow.toNat) :
    Sized maxTrackedIps (event.apply limiter).state.ips := by
  cases event with
  | cleanup now =>
      have hcleanup : ¬ limiter.poisoned = true := by simp [hplain.poisoned]
      rw [LimiterEvent.apply, RateLimiter.cleanup, if_neg hcleanup]
      constructor
      · intro ip timestamps hlookup
        exact h.ne_nil ip timestamps (HashMap.lookup_of_lookup_retain hlookup)
      · exact (HashMap.keys_retain_sublist _ _).length_le.trans h.length_le
  | request call =>
      have hpos := hlimit call rfl
      rw [LimiterEvent.apply]
      obtain ⟨hfull, heq⟩ | ⟨-, heq⟩ :=
        RateLimiter.admitRequest_eq hplain.globalCeiling hplain.poisoned call
      · -- a full window is not empty, so the address was tracked already
        have hne : prune limiter.window call.now
            (limiter.timestampsOf call.ip) ≠ [] := by
          intro hnil
          rw [hnil, List.length_nil] at hfull
          omega
        have hmem : call.ip ∈ limiter.state.ips := by
          by_contra hnot
          rw [RateLimiter.timestampsOf_eq_nil hnot] at hne
          exact hne rfl
        rw [heq]
        constructor
        · exact ne_nil_insert call.ip hne h.ne_nil
        · rw [RateLimiter.setTimestamps, length_keys_insert_of_mem hmem]
          exact h.length_le
      · rw [heq]
        exact h.record hplain.maxTrackedIps call _

/-! ## Runs with one limit -/

/-- The clock does not go back, no limit is zero, the limit of the address is
always `limit`, and the address is never evicted. -/
structure UniformRun (maxTrackedIps : ℕ) (ip : IpAddr) (limit : UInt32)
    (history : List LimiterEvent) : Prop where
  ordered : history.Pairwise fun a b => a.now ≤ b.now
  limit_pos : ∀ call, .request call ∈ history → 1 ≤ call.maxPerWindow.toNat
  limit_eq : ∀ call, .request call ∈ history → call.ip = ip →
    call.maxPerWindow = limit
  kept : ∀ before event after, history = before ++ event :: after →
    ¬ event.Evicts ip (limiterAfter maxTrackedIps before)

/-- A call of the address that may follow a history. -/
structure Follows (ip : IpAddr) (limit : UInt32) (history : List LimiterEvent)
    (call : AdmitCall) : Prop where
  ip_eq : call.ip = ip
  limit_eq : call.maxPerWindow = limit
  later : ∀ event ∈ history, event.now ≤ call.now

variable {maxTrackedIps : ℕ} {ip : IpAddr} {limit : UInt32}
  {history : List LimiterEvent} {event : LimiterEvent}

theorem UniformRun.of_concat
    (h : UniformRun maxTrackedIps ip limit (history ++ [event])) :
    UniformRun maxTrackedIps ip limit history where
  ordered := (List.pairwise_append.mp h.ordered).1
  limit_pos call hmem := h.limit_pos call (List.mem_append_left _ hmem)
  limit_eq call hmem := h.limit_eq call (List.mem_append_left _ hmem)
  kept before event' after hsplit := by
    apply h.kept before event' (after ++ [event])
    rw [hsplit, List.append_assoc]
    rfl

theorem UniformRun.last_kept
    (h : UniformRun maxTrackedIps ip limit (history ++ [event])) :
    ¬ event.Evicts ip (limiterAfter maxTrackedIps history) :=
  h.kept history event [] rfl

theorem UniformRun.last_later
    (h : UniformRun maxTrackedIps ip limit (history ++ [event])) :
    ∀ earlier ∈ history, earlier.now ≤ event.now := by
  intro earlier hmem
  exact (List.pairwise_append.mp h.ordered).2.2 earlier hmem event
    (List.mem_singleton_self _)

/-- The window of the address follows the record of its admitted times. -/
theorem UniformRun.tracks (h : UniformRun maxTrackedIps ip limit history)
    {clock : ℕ} (hclock : ∀ event ∈ history, event.now ≤ clock) :
    Tracks (60 * 1000000000) clock (admitted maxTrackedIps ip history)
      ((limiterAfter maxTrackedIps history).timestampsOf ip) := by
  induction history using List.reverseRecOn generalizing clock with
  | nil => exact Tracks.nil
  | append_singleton history event ih =>
      have hplain := limiterAfter_plain maxTrackedIps history
      have htracks := ih h.of_concat h.last_later
      rw [← hplain.window] at htracks
      have hstep := tracks_apply hplain.poisoned hplain.window_pos
        htracks le_rfl h.last_kept
      rw [hplain.window] at hstep
      rw [limiterAfter_concat, admitted_concat]
      exact hstep.later (hclock event (by simp))

/-- A call is refused when as many requests are live as the limit. -/
theorem UniformRun.admitRequest_cases
    (h : UniformRun maxTrackedIps ip limit history) {call : AdmitCall}
    (hcall : Follows ip limit history call) :
    (limit.toNat ≤ (live (60 * 1000000000) call.now
          (admitted maxTrackedIps ip history)).length ∧
        ((limiterAfter maxTrackedIps history).admitRequest call).1 =
          .error (untilFrontExpires (60 * 1000000000) call.now
            (live (60 * 1000000000) call.now
              (admitted maxTrackedIps ip history)))) ∨
      ((live (60 * 1000000000) call.now
          (admitted maxTrackedIps ip history)).length < limit.toNat ∧
        ((limiterAfter maxTrackedIps history).admitRequest call).1 = .ok ()) := by
  have hplain := limiterAfter_plain maxTrackedIps history
  have halive := (h.tracks hcall.later).prune_eq (by decide)
  obtain ⟨hfull, heq⟩ | ⟨hroom, heq⟩ :=
    RateLimiter.admitRequest_eq hplain.globalCeiling hplain.poisoned call
  · rw [hplain.window, hcall.ip_eq, halive, hcall.limit_eq] at hfull
    refine Or.inl ⟨hfull, ?_⟩
    rw [heq, hplain.window, hcall.ip_eq, halive]
  · rw [hplain.window, hcall.ip_eq, halive, hcall.limit_eq] at hroom
    refine Or.inr ⟨hroom, ?_⟩
    rw [heq]

/-- No window holds more admitted requests than the limit. -/
theorem UniformRun.bounded (h : UniformRun maxTrackedIps ip limit history) :
    Bounded (60 * 1000000000) limit.toNat
      (admitted maxTrackedIps ip history) := by
  induction history using List.reverseRecOn with
  | nil => exact Bounded.nil _
  | append_singleton history event ih =>
      have hbounded := ih h.of_concat
      rw [admitted_concat]
      cases event with
      | cleanup now =>
          rw [LimiterEvent.admittedTimes, List.append_nil]
          exact hbounded
      | request call =>
          rw [LimiterEvent.admittedTimes]
          by_cases hpassed : call.ip = ip ∧
              ((limiterAfter maxTrackedIps history).admitRequest call).1.isOk
          · rw [if_pos hpassed]
            have hcall : Follows ip limit history call :=
              ⟨hpassed.1, h.limit_eq call (by simp) hpassed.1, h.last_later⟩
            obtain ⟨-, hrefused⟩ | ⟨hroom, -⟩ :=
              h.of_concat.admitRequest_cases hcall
            · rw [hrefused] at hpassed
              exact absurd hpassed.2 (by simp [RateLimiter.isOk_error])
            · exact hbounded.push hroom
          · rw [if_neg hpassed, List.append_nil]
            exact hbounded

theorem UniformRun.sized (h : UniformRun maxTrackedIps ip limit history) :
    Sized maxTrackedIps (limiterAfter maxTrackedIps history).state.ips := by
  induction history using List.reverseRecOn with
  | nil =>
      constructor
      · intro ip timestamps hlookup
        cases hlookup
      · exact Nat.zero_le _
  | append_singleton history event ih =>
      rw [limiterAfter_concat]
      apply Sized.apply (limiterAfter_plain maxTrackedIps history)
        (ih h.of_concat)
      rintro call rfl
      exact h.limit_pos call (by simp)

/-- The wait of a refusal is positive and at most a window, and while nothing
else of the address is admitted, a call is admitted exactly when it is over. -/
theorem UniformRun.wait_least (h : UniformRun maxTrackedIps ip limit history)
    (hlimit : 1 ≤ limit.toNat) {call : AdmitCall} {wait : ℕ}
    (hcall : Follows ip limit history call)
    (hwait : ((limiterAfter maxTrackedIps history).admitRequest call).1 =
      .error wait) :
    0 < wait ∧ wait ≤ 60 * 1000000000 ∧
      ∀ more again,
        UniformRun maxTrackedIps ip limit (history ++ .request call :: more) →
        admitted maxTrackedIps ip (history ++ .request call :: more) =
          admitted maxTrackedIps ip history →
        Follows ip limit (history ++ .request call :: more) again →
        (((limiterAfter maxTrackedIps
            (history ++ .request call :: more)).admitRequest again).1 = .ok () ↔
          call.now + wait ≤ again.now) := by
  have htracks := h.tracks hcall.later
  have hmost := h.bounded call.now
  rw [within_eq_live htracks.le_clock] at hmost
  obtain ⟨hfull, hrefused⟩ | ⟨-, hok⟩ := h.admitRequest_cases hcall
  · rw [hrefused] at hwait
    cases hwait
    obtain ⟨hpos, hle⟩ := untilFrontExpires_bounds call.now
      (admitted maxTrackedIps ip history)
      (show 0 < 60 * 1000000000 by decide)
    refine ⟨hpos, hle, ?_⟩
    intro more again hmore hnothing hagain
    have hne : live (60 * 1000000000) call.now
        (admitted maxTrackedIps ip history) ≠ [] := by
      intro hnil
      rw [hnil, List.length_nil] at hfull
      omega
    have hlater : call.now ≤ again.now :=
      hagain.later (.request call) (by simp)
    rw [← live_length_lt_iff htracks.sorted htracks.le_clock hlater hne]
    have hcases := hmore.admitRequest_cases hagain
    rw [hnothing] at hcases
    obtain ⟨hstill, heq⟩ | ⟨hroom, heq⟩ := hcases
    · rw [heq]
      constructor
      · intro hcontra
        cases hcontra
      · intro hlt
        omega
    · rw [heq]
      exact ⟨fun _ => by omega, fun _ => rfl⟩
  · rw [hok] at hwait
    cases hwait

/-- The limiter is exact: a call is refused if and only if as many requests as
the limit are inside the window, the wait of a refusal is the least after which
a call is admitted when nothing else is, no window holds more than the limit,
and there are never too many tracked addresses. -/
theorem limiter_exact (maxTrackedIps : ℕ) (ip : IpAddr) (limit : UInt32)
    (hlimit : 1 ≤ limit.toNat) (history : List LimiterEvent)
    (hrun : UniformRun maxTrackedIps ip limit history) :
    let limiter := limiterAfter maxTrackedIps history
    let times := admitted maxTrackedIps ip history
    let window := 60 * 1000000000
    (∀ call, Follows ip limit history call →
      ((∃ wait, (limiter.admitRequest call).1 = .error wait) ↔
          (within window call.now times).length = limit.toNat) ∧
        ∀ wait, (limiter.admitRequest call).1 = .error wait →
          0 < wait ∧ wait ≤ window ∧
            ∀ more again, UniformRun maxTrackedIps ip limit
                (history ++ .request call :: more) →
              admitted maxTrackedIps ip (history ++ .request call :: more) =
                times →
              Follows ip limit (history ++ .request call :: more) again →
              (((limiterAfter maxTrackedIps
                  (history ++ .request call :: more)).admitRequest again).1 = .ok () ↔
                call.now + wait ≤ again.now)) ∧
      (∀ now, (within window now times).length ≤ limit.toNat) ∧
      limiter.state.ips.keys.length ≤ maxTrackedIps := by
  intro limiter times window
  have hbounded := hrun.bounded
  refine ⟨?_, hbounded, hrun.sized.length_le⟩
  intro call hcall
  refine ⟨?_, fun wait hwait => hrun.wait_least hlimit hcall hwait⟩
  have hmost := hbounded call.now
  have htimes := (hrun.tracks hcall.later).le_clock
  have hcases := hrun.admitRequest_cases hcall
  rw [← within_eq_live htimes] at hcases
  obtain ⟨hfull, hrefused⟩ | ⟨hroom, hok⟩ := hcases
  · exact ⟨fun _ => le_antisymm hmost hfull, fun _ => ⟨_, hrefused⟩⟩
  · constructor
    · rintro ⟨wait, hwait⟩
      cases hok.symm.trans hwait
    · intro hfull
      exact absurd hfull hroom.ne

/-! ## Two addresses -/

instance (ip : IpAddr) (limiter : RateLimiter) (event : LimiterEvent) :
    Decidable (event.Evicts ip limiter) :=
  match event with
  | .request _ => inferInstanceAs (Decidable (_ ∧ _ ∧ _))
  | .cleanup _ => inferInstanceAs (Decidable False)

theorem kept_of_take {maxTrackedIps : ℕ} {ip : IpAddr} {history : List LimiterEvent}
    (h : ∀ i, (hi : i < history.length) →
      ¬ (history[i]).Evicts ip (limiterAfter maxTrackedIps (history.take i))) :
    ∀ before event after, history = before ++ event :: after →
      ¬ event.Evicts ip (limiterAfter maxTrackedIps before) := by
  rintro before event after rfl
  simpa using h before.length (by simp)

/-- A call with a limit of two requests. -/
def callOf (host : UInt8) (now : ℕ) : AdmitCall where
  now := now
  ip := .v4 { a := 10, b := 0, c := 0, d := host }
  maxPerWindow := 2
  order := .stored _

/-- Two addresses call, and the limiter is cleaned up. -/
def twoAddresses : List LimiterEvent :=
  [.request (callOf 7 0), .request (callOf 8 (5 * 1000000000)),
    .request (callOf 7 (10 * 1000000000)), .cleanup (30 * 1000000000)]

/-- The third call of the first address, and another clean-up. -/
def refusedCall : List LimiterEvent :=
  twoAddresses ++ .request (callOf 7 (40 * 1000000000)) :: [.cleanup (45 * 1000000000)]

theorem limit_refusedCall (call : AdmitCall) (hmem : .request call ∈ refusedCall) :
    call.maxPerWindow = 2 := by
  simp only [refusedCall, twoAddresses, List.cons_append, List.nil_append, List.mem_cons,
    LimiterEvent.request.injEq, reduceCtorEq, List.not_mem_nil, or_false, false_or] at hmem
  rcases hmem with rfl | rfl | rfl | rfl
  · rfl
  · rfl
  · rfl
  · rfl

theorem uniformRun_refusedCall : UniformRun 10 (callOf 7 0).ip 2 refusedCall where
  ordered := by decide
  limit_pos call hmem := by
    rw [limit_refusedCall call hmem]
    decide
  limit_eq call hmem _ := limit_refusedCall call hmem
  kept := kept_of_take (by decide)

/-- Both requests of the limit are inside the window at the third call. It is refused,
and after the wait it is told an address that made no other call is admitted. -/
theorem limiter_exact_refusedCall :
    ∃ wait, ((limiterAfter 10 twoAddresses).admitRequest (callOf 7 (40 * 1000000000))).1 =
        .error wait ∧
      0 < wait ∧ wait ≤ 60 * 1000000000 ∧
      (∀ again, Follows (callOf 7 0).ip 2 refusedCall again →
        (((limiterAfter 10 refusedCall).admitRequest again).1 = .ok () ↔
          40 * 1000000000 + wait ≤ again.now)) ∧
      (limiterAfter 10 twoAddresses).state.ips.keys.length ≤ 10 := by
  have hrun : UniformRun 10 (callOf 7 0).ip 2 twoAddresses := by
    have hall : UniformRun 10 (callOf 7 0).ip 2
        ((twoAddresses ++ [.request (callOf 7 (40 * 1000000000))]) ++
          [.cleanup (45 * 1000000000)]) :=
      uniformRun_refusedCall
    exact hall.of_concat.of_concat
  have hfollows : Follows (callOf 7 0).ip 2 twoAddresses (callOf 7 (40 * 1000000000)) :=
    ⟨rfl, rfl, by decide⟩
  have hnothing : admitted 10 (callOf 7 0).ip refusedCall =
      admitted 10 (callOf 7 0).ip twoAddresses := by
    decide
  obtain ⟨hexact, -, hsized⟩ := limiter_exact 10 (callOf 7 0).ip 2 (by decide) _ hrun
  obtain ⟨hiff, hwait⟩ := hexact _ hfollows
  obtain ⟨wait, hrefused⟩ := hiff.mpr (by decide)
  obtain ⟨hpos, hle, hagain⟩ := hwait wait hrefused
  refine ⟨wait, hrefused, hpos, hle, ?_, hsized⟩
  intro again hfollowsAgain
  exact hagain [.cleanup (45 * 1000000000)] again uniformRun_refusedCall hnothing hfollowsAgain

end ReserveGrid.Common
