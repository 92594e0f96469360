import Mathlib.Data.List.MinMax
import ReserveGrid.Support.HashMap
import ReserveGrid.Support.Run

/-!
# The nonce cache

Replay protection of signed requests. A request is fresh while its timestamp is
within a window of the clock, and its nonce is remembered for as long, unless the
cache is full: then the oldest nonce makes room for the new one, and the request
it came with can be replayed.
-/

namespace ReserveGrid.ApiGateway

open Support

/-- The length of the longest nonce in bytes. -/
def maxNonceLength : ℕ := 256

/-- The nonces seen, with the timestamps they came with. -/
structure NonceCache where
  entries : HashMap String UInt64 := ∅
  maxEntries : ℕ
  windowSecs : UInt64

inductive NonceResult where
  | valid
  | expired
  | replayed
  deriving DecidableEq, Repr

def absDiff (a b : UInt64) : UInt64 := if a < b then b - a else a - b

def saturatingSub (a b : UInt64) : UInt64 := if a < b then 0 else a - b

theorem toNat_saturatingSub (a b : UInt64) :
    (saturatingSub a b).toNat = a.toNat - b.toNat := by
  unfold saturatingSub
  split
  · rename_i h
    rw [UInt64.lt_iff_toNat_lt] at h
    rw [UInt64.toNat_zero]
    omega
  · rename_i h
    exact UInt64.toNat_sub_of_le a b (UInt64.not_lt.mp h)

/-- The difference is at least that of a later clock to the timestamp. -/
theorem saturatingSub_le_absDiff (a b : UInt64) :
    (saturatingSub a b).toNat ≤ (absDiff a b).toNat := by
  unfold saturatingSub absDiff
  split
  · exact Nat.zero_le _
  · exact Nat.le_refl _

/-- A call of the cache: the clock as it reads, the request, and the order in
which the entries are visited if one has to go. -/
structure NonceCall where
  now : UInt64
  nonce : String
  timestamp : UInt64
  order : IterOrder (Σ _ : String, UInt64)

namespace NonceCache

def evictExpired (now : UInt64) (cache : NonceCache) : NonceCache :=
  { cache with entries := cache.entries.retain fun _ ts =>
      saturatingSub now ts ≤ cache.windowSecs }

/-- The nonce with the smallest timestamp, the first one visited among equals. -/
def oldestKey (order : IterOrder (Σ _ : String, UInt64)) (cache : NonceCache) :
    Option String :=
  ((order.visit cache.entries.entries).argmin fun e => e.2.toNat).map (·.1)

def evictOldest (order : IterOrder (Σ _ : String, UInt64)) (cache : NonceCache) :
    NonceCache :=
  match cache.oldestKey order with
  | some oldest => { cache with entries := cache.entries.erase oldest }
  | none => cache

/-- Whether all the entries there may be are taken. -/
def full (cache : NonceCache) : Bool :=
  cache.maxEntries ≤ cache.entries.keys.length

/-- Check a nonce and a timestamp, and record the nonce if they are valid. A
nonce that is too long counts as expired. -/
def validate (call : NonceCall) (cache : NonceCache) : NonceResult × NonceCache :=
  if maxNonceLength < call.nonce.utf8ByteSize then (.expired, cache)
  else if cache.windowSecs < absDiff call.now call.timestamp then (.expired, cache)
  else
    let cache := cache.evictExpired call.now
    if call.nonce ∈ cache.entries then (.replayed, cache)
    else
      let cache := if cache.full then cache.evictOldest call.order else cache
      (.valid,
        { cache with entries := cache.entries.insert call.nonce call.timestamp })

/-- The cache after a call. -/
def step (cache : NonceCache) (call : NonceCall) : Option NonceCache :=
  some (cache.validate call).2

/-- The call records its nonce in the place of the given one, the oldest of a
full cache. -/
def Displaces (nonce : String) (cache : NonceCache) (call : NonceCall) : Prop :=
  (cache.validate call).1 = .valid ∧ (cache.evictExpired call.now).full = true ∧
    (cache.evictExpired call.now).oldestKey call.order = some nonce

instance (nonce : String) (cache : NonceCache) (call : NonceCall) :
    Decidable (cache.Displaces nonce call) :=
  inferInstanceAs (Decidable (_ ∧ _ ∧ _))

/-! ## What a call can do -/

variable {cache : NonceCache} {call : NonceCall} {nonce : String} {ts now : UInt64}

/-- The cache without its expired entries, and without the oldest one if it is
still full. -/
def makeRoom (call : NonceCall) (cache : NonceCache) : NonceCache :=
  if (cache.evictExpired call.now).full then
    (cache.evictExpired call.now).evictOldest call.order
  else cache.evictExpired call.now

/-- A call leaves the cache alone, only drops the expired entries, or records
its nonce, which was not there. -/
theorem validate_cases (call : NonceCall) (cache : NonceCache) :
    cache.validate call = (.expired, cache) ∨
    (call.nonce ∈ (cache.evictExpired call.now).entries ∧
      cache.validate call = (.replayed, cache.evictExpired call.now)) ∨
    ((absDiff call.now call.timestamp).toNat ≤ cache.windowSecs.toNat ∧
      call.nonce ∉ (cache.evictExpired call.now).entries ∧
      cache.validate call = (.valid, { cache.makeRoom call with
        entries := (cache.makeRoom call).entries.insert call.nonce
          call.timestamp })) := by
  unfold validate
  by_cases hlength : maxNonceLength < call.nonce.utf8ByteSize
  · rw [if_pos hlength]
    exact Or.inl rfl
  rw [if_neg hlength]
  by_cases hwindow : cache.windowSecs < absDiff call.now call.timestamp
  · rw [if_pos hwindow]
    exact Or.inl rfl
  rw [if_neg hwindow]
  right
  dsimp only
  by_cases hseen : call.nonce ∈ (cache.evictExpired call.now).entries
  · rw [if_pos hseen]
    exact Or.inl ⟨hseen, rfl⟩
  · rw [if_neg hseen]
    rw [UInt64.not_lt, UInt64.le_iff_toNat_le] at hwindow
    exact Or.inr ⟨hwindow, hseen, rfl⟩

/-- An entry is kept or has left the window. -/
theorem lookup_evictExpired (now : UInt64) (h : cache.entries.lookup nonce = some ts) :
    (cache.evictExpired now).entries.lookup nonce = some ts ∨
      cache.windowSecs.toNat < now.toNat - ts.toNat := by
  by_cases hkept : saturatingSub now ts ≤ cache.windowSecs
  · left
    have hmem := AList.mem_lookup_iff.mp h
    exact AList.mem_lookup_iff.mpr
      (List.mem_filter.mpr ⟨hmem, decide_eq_true hkept⟩)
  · right
    rw [UInt64.not_le, UInt64.lt_iff_toNat_lt, toNat_saturatingSub] at hkept
    exact hkept

/-- Making room takes away the oldest entry only. -/
theorem lookup_makeRoom
    (h : (cache.evictExpired call.now).entries.lookup nonce = some ts)
    (hkept : (cache.evictExpired call.now).full = true →
      (cache.evictExpired call.now).oldestKey call.order ≠ some nonce) :
    (cache.makeRoom call).entries.lookup nonce = some ts := by
  unfold makeRoom
  by_cases hfull : (cache.evictExpired call.now).full = true
  · rw [if_pos hfull, evictOldest]
    cases holdest : (cache.evictExpired call.now).oldestKey call.order with
    | none => exact h
    | some oldest =>
        have hne : nonce ≠ oldest := by
          rintro rfl
          exact hkept hfull holdest
        dsimp only
        rw [AList.lookup_erase_ne hne]
        exact h
  · rw [if_neg hfull]
    exact h

theorem windowSecs_makeRoom (call : NonceCall) (cache : NonceCache) :
    (cache.makeRoom call).windowSecs = cache.windowSecs := by
  unfold makeRoom evictOldest
  split
  · split
    · rfl
    · rfl
  · rfl

theorem windowSecs_validate (call : NonceCall) (cache : NonceCache) :
    (cache.validate call).2.windowSecs = cache.windowSecs := by
  rcases validate_cases call cache with h | ⟨-, h⟩ | ⟨-, -, h⟩
  · rw [h]
  · rw [h]
    rfl
  · rw [h]
    exact windowSecs_makeRoom call cache

/-! ## A pair that was valid -/

/-- At the given time the nonce is still there with its timestamp, or the
timestamp has left the window. -/
def Remembers (nonce : String) (ts now : UInt64) (cache : NonceCache) : Prop :=
  cache.entries.lookup nonce = some ts ∨
    cache.windowSecs.toNat < now.toNat - ts.toNat

theorem Remembers.later (h : cache.Remembers nonce ts now) {now' : UInt64}
    (hnow : now ≤ now') : cache.Remembers nonce ts now' := by
  rw [UInt64.le_iff_toNat_le] at hnow
  rcases h with hheld | hleft
  · exact Or.inl hheld
  · exact Or.inr (by omega)

/-- A valid call is remembered. -/
theorem remembers_of_valid (h : (cache.validate call).1 = .valid) :
    (cache.validate call).2.Remembers call.nonce call.timestamp call.now := by
  rcases validate_cases call cache with heq | ⟨-, heq⟩ | ⟨-, -, heq⟩
  · rw [heq] at h
    cases h
  · rw [heq] at h
    cases h
  · rw [heq]
    exact Or.inl (AList.lookup_insert _)

/-- A later call that does not displace the nonce leaves it remembered. -/
theorem Remembers.validate (h : cache.Remembers nonce ts now)
    (hnow : now ≤ call.now) (hkept : ¬ cache.Displaces nonce call) :
    (cache.validate call).2.Remembers nonce ts call.now := by
  have hlater := h.later hnow
  rcases hlater with hheld | hleft
  · rcases lookup_evictExpired call.now hheld with hheld' | hleft
    · left
      rcases validate_cases call cache with heq | ⟨-, heq⟩ | ⟨-, hnew, heq⟩
      · rw [heq]
        exact hheld
      · rw [heq]
        exact hheld'
      · have hne : nonce ≠ call.nonce := by
          rintro rfl
          exact hnew (AList.lookup_isSome.mp (by rw [hheld']; rfl))
        have hroom := lookup_makeRoom hheld' fun hfull holdest =>
          hkept ⟨by rw [heq], hfull, holdest⟩
        rw [heq]
        dsimp only
        rw [AList.lookup_insert_ne hne]
        exact hroom
    · right
      rw [windowSecs_validate]
      exact hleft
  · right
    rw [windowSecs_validate]
    exact hleft

/-- What is remembered is not valid again. -/
theorem Remembers.not_valid (h : cache.Remembers call.nonce call.timestamp call.now) :
    (cache.validate call).1 ≠ .valid := by
  intro hvalid
  rcases validate_cases call cache with heq | ⟨-, heq⟩ | ⟨hwindow, hnew, -⟩
  · rw [heq] at hvalid
    cases hvalid
  · rw [heq] at hvalid
    cases hvalid
  have hdiff := saturatingSub_le_absDiff call.now call.timestamp
  rw [toNat_saturatingSub] at hdiff
  rcases h with hheld | hleft
  · rcases lookup_evictExpired call.now hheld with hheld | hleft
    · exact hnew (AList.lookup_isSome.mp (by rw [hheld]; rfl))
    · omega
  · omega

/-- Calls at times that do not go back leave it remembered. -/
theorem Remembers.run {calls : List NonceCall} {cache' : NonceCache} {later : UInt64}
    (h : cache.Remembers nonce ts now)
    (hclock : (now :: calls.map (·.now) ++ [later]).Pairwise (· ≤ ·))
    (hkept : Along step (fun cache call => ¬ cache.Displaces nonce call) cache calls)
    (hrun : Support.run step cache calls = some cache') :
    cache'.Remembers nonce ts later := by
  induction calls generalizing cache now with
  | nil =>
      cases hrun
      exact h.later (List.rel_of_pairwise_cons hclock List.mem_cons_self)
  | cons call calls ih =>
      obtain ⟨next, hnext, hrest⟩ := run_cons_eq_some.mp hrun
      have hnow : now ≤ call.now :=
        List.rel_of_pairwise_cons hclock List.mem_cons_self
      cases hnext
      exact ih (h.validate hnow hkept.1) hclock.of_cons (hkept.2 _ rfl) hrest

/-- Whatever the calls, at times that do not go back, a pair of nonce and
timestamp that was valid once is not valid again, unless a call in between
recorded another nonce in its place. -/
theorem not_valid_again (cache cache' : NonceCache) (first again : NonceCall)
    (between : List NonceCall)
    (hclock : (first.now :: between.map (·.now) ++ [again.now]).Pairwise (· ≤ ·))
    (hpair : again.nonce = first.nonce ∧ again.timestamp = first.timestamp)
    (hvalid : (cache.validate first).1 = .valid)
    (hkept : Along step (fun cache call => ¬ cache.Displaces first.nonce call)
      (cache.validate first).2 between)
    (hrun : run step (cache.validate first).2 between = some cache') :
    (cache'.validate again).1 ≠ .valid := by
  have hremembers := (remembers_of_valid hvalid).run hclock hkept hrun
  rw [← hpair.1, ← hpair.2] at hremembers
  exact hremembers.not_valid

/-! ## A small cache -/

/-- A cache with room for two nonces, and a window of five minutes. -/
def small : NonceCache where
  maxEntries := 2
  windowSecs := 300

/-- A call at second 1000. -/
def callAt (nonce : String) (timestamp : UInt64) : NonceCall where
  now := 1000
  nonce
  timestamp
  order := .stored _

/-- While the cache has room, the first pair is not valid again. -/
theorem not_valid_again_with_room :
    (small.validate (callAt "first" 990)).1 = .valid ∧
    ∃ cache, run step (small.validate (callAt "first" 990)).2
        [callAt "second" 995] = some cache ∧
      (cache.validate (callAt "first" 990)).1 ≠ .valid := by
  refine ⟨by decide +kernel, _, rfl, ?_⟩
  exact not_valid_again small _ (callAt "first" 990) (callAt "first" 990)
    [callAt "second" 995] (by decide) ⟨rfl, rfl⟩ (by decide +kernel)
    (by decide +kernel) rfl

/-- A third nonce takes the place of the first one, whose pair is then valid
again. -/
theorem valid_again_displaced :
    (small.validate (callAt "first" 990)).1 = .valid ∧
    ∃ cache, run step (small.validate (callAt "first" 990)).2
        [callAt "second" 995, callAt "third" 1000] = some cache ∧
      (cache.validate (callAt "first" 990)).1 = .valid := by
  refine ⟨by decide +kernel, _, rfl, ?_⟩
  decide +kernel

end NonceCache

end ReserveGrid.ApiGateway
