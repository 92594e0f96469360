import ReserveGrid.Verifier.IdleStream

/-!
# The learned threshold

A peer sends its heartbeats by a timer that is never early, so the verifier
reads none of them before its time, however late and bunched the reads are. The
mean over the whole history is then no less than the interval, and the threshold
that is learned no less than two intervals, as far as its 64 bits reach.
-/

namespace ReserveGrid.Verifier

open Support

namespace HeartbeatCadence

/-- The cadence of a new connection. -/
def new (started : ℕ) : HeartbeatCadence := ⟨started, 0⟩

/-- Heartbeats are read one after another. -/
def observeAll (s : HeartbeatCadence × UInt64) (times : List ℕ) :
    HeartbeatCadence × UInt64 :=
  times.foldl (fun s now => s.1.observe now s.2) s

/-- No heartbeat is read before it can have been sent. -/
def NotEarly (started interval : ℕ) (times : List ℕ) : Prop :=
  ∀ n now, times[n]? = some now → started + n * interval ≤ now

section

variable {started now interval heartbeats : ℕ} {afterMs : UInt64} {times : List ℕ}

theorem observeAll_append (s : HeartbeatCadence × UInt64) (times : List ℕ) (now : ℕ) :
    observeAll s (times ++ [now]) =
      (observeAll s times).1.observe now (observeAll s times).2 := by
  simp [observeAll]

theorem observe_started (cadence : HeartbeatCadence) (now : ℕ) (afterMs : UInt64) :
    (cadence.observe now afterMs).1.started = cadence.started := rfl

theorem observeAll_started (started : ℕ) (afterMs : UInt64) (times : List ℕ) :
    (observeAll (new started, afterMs) times).1.started = started := by
  induction times using List.reverseRecOn with
  | nil => rfl
  | append_singleton times now ih => rw [observeAll_append, observe_started, ih]

/-- Every heartbeat counts, up to the maximum of the counter. -/
theorem observeAll_heartbeats (started : ℕ) (afterMs : UInt64) (times : List ℕ) :
    (observeAll (new started, afterMs) times).1.heartbeats.toNat =
      min times.length 0xffffffff := by
  induction times using List.reverseRecOn with
  | nil => rfl
  | append_singleton times now ih =>
      rw [observeAll_append, observe_heartbeats, ih, List.length_append,
        List.length_singleton]
      omega

/-- From the fourth heartbeat on, the threshold is that of the last one. -/
theorem observeAll_afterMs (started now : ℕ) (afterMs : UInt64) {times : List ℕ}
    (hfour : 4 ≤ (times ++ [now]).length) :
    (observeAll (new started, afterMs) (times ++ [now])).2 =
      threshold started now (min (times ++ [now]).length 0xffffffff) := by
  rw [List.length_append, List.length_singleton] at hfour ⊢
  rw [observeAll_append, observe_afterMs, observeAll_heartbeats, observeAll_started,
    if_neg (by omega)]
  congr 1
  omega

/-- Milliseconds are kept up to the maximum of 64 bits. -/
theorem asMillis_mono {ms d : ℕ} (h : ms * millisecond ≤ d) :
    min ms 0xffffffffffffffff ≤ (asMillis d).toNat := by
  have hpos : 0 < millisecond := by decide
  have hdiv : ms ≤ d / millisecond := (Nat.le_div_iff_mul_le hpos).mpr h
  rw [asMillis, UInt64.toNat_ofNat', Nat.mod_eq_of_lt (by omega)]
  omega

/-- A history that lasted the intervals between its heartbeats teaches at least
twice the interval. The counter may have stopped, which makes the mean larger. -/
theorem threshold_ge_twice {intervalMs counted : ℕ} (htwo : 2 ≤ counted)
    (hcounted : counted ≤ heartbeats)
    (hlast : started + (heartbeats - 1) * (intervalMs * millisecond) ≤ now) :
    min (max (2 * intervalMs) 3000) 0xffffffffffffffff ≤
      (threshold started now counted).toNat := by
  have hmean : intervalMs * millisecond ≤ (now - started) / (counted - 1) := by
    rw [Nat.le_div_iff_mul_le (by omega)]
    calc intervalMs * millisecond * (counted - 1)
        ≤ intervalMs * millisecond * (heartbeats - 1) := Nat.mul_le_mul_left _ (by omega)
      _ = (heartbeats - 1) * (intervalMs * millisecond) := Nat.mul_comm _ _
      _ ≤ now - started := by omega
  have hfloor : shedFloor = 3000 * millisecond := by decide
  apply asMillis_mono
  rw [← Nat.mul_max_mul_right, hfloor]
  apply max_le_max _ le_rfl
  calc 2 * intervalMs * millisecond = intervalMs * millisecond * 2 := by
        rw [Nat.mul_comm 2, Nat.mul_right_comm]
    _ ≤ (now - started) / (counted - 1) * 2 := Nat.mul_le_mul_right 2 hmean

/-- Whatever the delays, from the fourth heartbeat on the threshold is at least
twice the interval and at least three seconds, up to the maximum of 64 bits. -/
theorem learned_threshold_ge (started intervalMs : ℕ) (afterMs : UInt64)
    (times : List ℕ) (hnotEarly : NotEarly started (intervalMs * millisecond) times)
    (hfour : 4 ≤ times.length) :
    min (max (2 * intervalMs) 3000) 0xffffffffffffffff ≤
      (observeAll (new started, afterMs) times).2.toNat := by
  obtain ⟨before, now, rfl⟩ : ∃ before now, times = before ++ [now] := by
    rw [← List.dropLast_append_getLast (List.ne_nil_of_length_pos (by omega : 0 < times.length))]
    exact ⟨_, _, rfl⟩
  have hlast : started + before.length * (intervalMs * millisecond) ≤ now :=
    hnotEarly before.length now (by simp)
  rw [observeAll_afterMs started now afterMs hfour]
  apply threshold_ge_twice (by omega) (Nat.min_le_left _ _)
  rw [List.length_append, List.length_singleton, Nat.add_sub_cancel]
  exact hlast

end

/-- Heartbeats that are read together, when the last one can have been sent. -/
theorem notEarly_replicate {started interval count now : ℕ}
    (h : started + (count - 1) * interval ≤ now) :
    NotEarly started interval (List.replicate count now) := by
  intro n now' hnow
  rw [List.getElem?_replicate] at hnow
  by_cases hn : n < count
  · rw [if_pos hn, Option.some.injEq] at hnow
    rw [← hnow]
    have hle : n * interval ≤ (count - 1) * interval :=
      Nat.mul_le_mul_right interval (by omega)
    omega
  · rw [if_neg hn] at hnow
    cases hnow

/-- Four heartbeats of a timer of two seconds that are read together. -/
theorem learned_threshold_ge_bunched :
    4000 ≤ (observeAll (new 0, 15000) (List.replicate 4 (6000 * millisecond))).2.toNat := by
  have hnotEarly : NotEarly 0 (2000 * millisecond)
      (List.replicate 4 (6000 * millisecond)) := notEarly_replicate (by decide)
  exact learned_threshold_ge 0 2000 15000 _ hnotEarly (by decide)

/-- An interval of which two do not fit 64 bits: the threshold stops short. -/
theorem not_twice_interval_le :
    ¬ ∀ (started intervalMs : ℕ) (afterMs : UInt64) (times : List ℕ),
      times.Pairwise (· ≤ ·) → NotEarly started (intervalMs * millisecond) times →
      4 ≤ times.length →
      max (2 * intervalMs) 3000 ≤ (observeAll (new started, afterMs) times).2.toNat := by
  intro hall
  have htwice := hall 0 0x8000000000000000 0
    (List.replicate 4 (3 * (0x8000000000000000 * millisecond))) (by simp)
    (notEarly_replicate (by decide)) (by decide)
  have hbound := (observeAll (new 0, 0)
    (List.replicate 4 (3 * (0x8000000000000000 * millisecond)))).2.toNat_lt
  omega

end HeartbeatCadence

/-! ## On a connection -/

namespace Admission

open HeartbeatCadence

/-- A connection whose heartbeats are not early is not shed for a silence of two
intervals. -/
theorem connection_afterMs_ge_twice (a : Admission) (events : List IdleEvent)
    {intervalMs : ℕ} (hnotEarly : NotEarly a.cadenceStart (intervalMs * millisecond)
      (IdleEvent.heartbeatTimes events))
    (hfour : 4 ≤ (IdleEvent.heartbeatTimes events).length) :
    min (max (2 * intervalMs) 3000) 0xffffffffffffffff ≤
      (a.connection events).afterMs.toNat := by
  obtain ⟨before, now, htimes⟩ : ∃ before now,
      IdleEvent.heartbeatTimes events = before ++ [now] :=
    ⟨_, _, (List.dropLast_append_getLast
      (List.ne_nil_of_length_pos (by omega))).symm⟩
  rw [htimes] at hnotEarly hfour
  have hlast : a.cadenceStart + before.length * (intervalMs * millisecond) ≤ now :=
    hnotEarly before.length now (by simp)
  rw [List.length_append, List.length_singleton] at hfour
  have hlearned : a.learned events =
      threshold a.cadenceStart now (min (before.length + 1) 0xffffffff) := by
    rw [learned, htimes]
    simp [List.length_append, show ¬ before.length + 1 < 4 by omega]
  rw [(a.reflects_connection events).afterMs, hlearned]
  exact threshold_ge_twice (by omega) (Nat.min_le_left _ _) (by simpa using hlast)

end Admission

end ReserveGrid.Verifier
