import ReserveGrid.Gateway.Shares
import ReserveGrid.Support.Counter
import ReserveGrid.Support.HashMap

/-!
# Mining channels

Channels of a connection, standard and extended: the allocators of channel ids
and extranonce prefixes, the rate limiter and the variable difficulty of a
channel, and the channels a connection has opened.
-/

namespace ReserveGrid.Gateway

open Support

/-! ## Allocators -/

/-- Global channel id counter; zero is the id of the group channel. -/
abbrev ChannelIdAllocator := Counter

/-- Allocates an extranonce prefix for each channel. The constructor of the
source refuses other lengths. -/
structure ExtranonceAllocator where
  counter : Counter := {}
  prefixLen : ℕ
  two_le : 2 ≤ prefixLen
  le_eight : prefixLen ≤ 8

namespace ExtranonceAllocator

/-- The prefix of a counter value: its four bytes, cut to the length or filled
with zeros. -/
def prefixOf (prefixLen : ℕ) (val : UInt32) : Bytes :=
  (leBytes 4 val.toNat).take (min prefixLen 4) ++
    List.replicate (prefixLen - min prefixLen 4) 0

def allocate (alloc : ExtranonceAllocator) :
    Option Bytes × ExtranonceAllocator :=
  (alloc.counter.allocate.1.map (prefixOf alloc.prefixLen),
    { alloc with counter := alloc.counter.allocate.2 })

@[simp] theorem length_prefixOf (prefixLen : ℕ) (val : UInt32) :
    (prefixOf prefixLen val).length = prefixLen := by
  rw [prefixOf, List.length_append, List.length_take, length_leBytes,
    List.length_replicate]
  omega

theorem length_of_allocate {alloc alloc' : ExtranonceAllocator} {e : Bytes}
    (h : alloc.allocate = (some e, alloc')) :
    e.length = alloc.prefixLen := by
  rw [allocate, Prod.mk.injEq] at h
  obtain ⟨val, -, rfl⟩ := Option.map_eq_some_iff.mp h.1
  exact length_prefixOf alloc.prefixLen val

@[simp] theorem prefixLen_allocate (alloc : ExtranonceAllocator) :
    alloc.allocate.2.prefixLen = alloc.prefixLen := rfl

end ExtranonceAllocator

/-! ## Rate limit -/

/-- A time in nanoseconds as seconds in floating point. -/
def secsFloat (nanos : ℕ) : Float :=
  Float.ofNat (nanos / 10 ^ 9) + Float.ofNat (nanos % 10 ^ 9) / 1e9

/-- The smaller number, or the one that is a number. -/
def floatMin (a b : Float) : Float :=
  if a.isNaN then b else if b.isNaN then a else if a < b then a else b

def floatMax (a b : Float) : Float :=
  if a.isNaN then b else if b.isNaN then a else if a < b then b else a

/-- Token bucket of one channel. A rate of zero means no limit. -/
structure ShareRateLimiter where
  rate : UInt32
  tokens : Float
  lastRefill : ℕ

namespace ShareRateLimiter

def new (rate : UInt32) (now : ℕ) : ShareRateLimiter :=
  ⟨rate, Float.ofNat rate.toNat, now⟩

def refill (now : ℕ) (l : ShareRateLimiter) : ShareRateLimiter :=
  let cap := Float.ofNat l.rate.toNat
  let added := floatMin (secsFloat (now - l.lastRefill) * cap) cap
  { l with tokens := floatMin (l.tokens + added) cap, lastRefill := now }

def tryAcquire (now : ℕ) (l : ShareRateLimiter) : Bool × ShareRateLimiter :=
  if l.rate = 0 then (true, l)
  else
    let l := l.refill now
    if 1.0 ≤ l.tokens then (true, { l with tokens := l.tokens - 1.0 })
    else (false, l)

end ShareRateLimiter

/-! ## Variable difficulty -/

structure VardiffState where
  sharesSinceRetarget : UInt64 := 0
  retargetStart : ℕ
  currentDifficulty : UInt64
  targetSharesPerMin : Float
  retargetInterval : ℕ
  minDifficulty : UInt64
  maxDifficulty : UInt64
  maxAdjustmentFactor : Float

namespace VardiffState

/-- Count an accepted share; whether the retarget interval is over. -/
def recordShare (now : ℕ) (v : VardiffState) : Bool × VardiffState :=
  (v.retargetInterval ≤ now - v.retargetStart,
    { v with sharesSinceRetarget := v.sharesSinceRetarget + 1 })

/-- The new difficulty, when it changes. The window starts over either way. -/
def evaluateRetarget (now : ℕ) (v : VardiffState) :
    Option UInt64 × VardiffState :=
  let restarted := { v with sharesSinceRetarget := 0, retargetStart := now }
  let elapsedSecs := secsFloat (now - v.retargetStart)
  if elapsedSecs < 1.0 then (none, restarted)
  else
    let observedRate := v.sharesSinceRetarget.toFloat / elapsedSecs * 60.0
    let ratio :=
      if 0.0 < v.targetSharesPerMin then observedRate / v.targetSharesPerMin
      else 1.0
    let clampedRatio :=
      floatMin (floatMax ratio (1.0 / v.maxAdjustmentFactor))
        v.maxAdjustmentFactor
    if (clampedRatio - 1.0).abs < 0.05 then (none, restarted)
    else
      let rawNew := (v.currentDifficulty.toFloat * clampedRatio).toUInt64
      let newDiff := min (max rawNew v.minDifficulty) v.maxDifficulty
      if newDiff = v.currentDifficulty then (none, restarted)
      else (some newDiff, { restarted with currentDifficulty := newDiff })

end VardiffState

/-! ## Channels -/

/-- Standard channels mine with their extranonce prefix; extended ones append
an extranonce of their own, up to the granted size. -/
inductive ChannelKind where
  | standard
  | extended (minExtranonceSize extranonceSize : UInt16)
  deriving DecidableEq, Repr

/-- Milliseconds since the start of the process. -/
def monotonicMs (now : ℕ) : UInt64 := UInt64.ofNat (now / 10 ^ 6)

structure ChannelState where
  channelId : UInt32
  extranoncePrefix : Bytes
  kind : ChannelKind
  workerId : String
  maximumTarget : Bytes32
  currentJobId : Option UInt32 := none
  prevhashSentMonotonicMs : Option UInt64 := none
  activationMinNtime : Option UInt32 := none
  closed : Bool := false
  rateLimiter : ShareRateLimiter
  vardiff : Option VardiffState := none

namespace ChannelState

/-- A standard channel as it is opened. -/
def new (now : ℕ) (channelId : UInt32) (extranoncePrefix : Bytes)
    (workerId : String) (maximumTarget : Bytes32)
    (maxSharesPerSecond : UInt32) : ChannelState where
  channelId
  extranoncePrefix
  kind := .standard
  workerId
  maximumTarget
  rateLimiter := .new maxSharesPerSecond now

/-- An extended channel as it is opened. -/
def newExtended (now : ℕ) (channelId : UInt32) (extranoncePrefix : Bytes)
    (workerId : String) (maximumTarget : Bytes32) (maxSharesPerSecond : UInt32)
    (minExtranonceSize extranonceSize : UInt16) : ChannelState where
  channelId
  extranoncePrefix
  kind := .extended minExtranonceSize extranonceSize
  workerId
  maximumTarget
  rateLimiter := .new maxSharesPerSecond now

/-- A `SetNewPrevHash` was sent on the channel. -/
def recordPrevhashSent (now : ℕ) (jobId activationMinNtime : UInt32)
    (ch : ChannelState) : ChannelState :=
  { ch with
    currentJobId := some jobId
    activationMinNtime := some activationMinNtime
    prevhashSentMonotonicMs := some (monotonicMs now) }

/-- A job was sent on the channel. -/
def recordActiveJobSent (jobId : UInt32) (ch : ChannelState) : ChannelState :=
  { ch with currentJobId := some jobId }

/-- Seconds since the last `SetNewPrevHash` on the channel. -/
def elapsedSincePrevhashSecs (now : ℕ) (ch : ChannelState) : Option UInt32 :=
  ch.prevhashSentMonotonicMs.map fun sentMs =>
    UInt32.ofNat (((monotonicMs now).toNat - sentMs.toNat) / 1000)

/-- What a channel is fixed to when it is opened. -/
structure Same (ch ch' : ChannelState) : Prop where
  channelId : ch'.channelId = ch.channelId
  extranoncePrefix : ch'.extranoncePrefix = ch.extranoncePrefix
  kind : ch'.kind = ch.kind

theorem Same.refl (ch : ChannelState) : ch.Same ch := ⟨rfl, rfl, rfl⟩

theorem Same.trans {ch ch' ch'' : ChannelState} (h : ch.Same ch')
    (h' : ch'.Same ch'') : ch.Same ch'' :=
  ⟨h'.channelId.trans h.channelId,
    h'.extranoncePrefix.trans h.extranoncePrefix, h'.kind.trans h.kind⟩

/-- Only the limits of the channel are set anew: its token bucket, its
difficulty and its target. -/
structure Retunes (ch ch' : ChannelState) : Prop where
  eq : ch' = { ch with
    rateLimiter := ch'.rateLimiter
    vardiff := ch'.vardiff
    maximumTarget := ch'.maximumTarget }

theorem Retunes.same {ch ch' : ChannelState} (h : ch.Retunes ch') : ch.Same ch' := by
  rw [h.eq]
  exact ⟨rfl, rfl, rfl⟩

theorem Retunes.activationMinNtime {ch ch' : ChannelState} (h : ch.Retunes ch') :
    ch'.activationMinNtime = ch.activationMinNtime := by
  rw [h.eq]

theorem Retunes.trans {ch ch' ch'' : ChannelState} (h : ch.Retunes ch')
    (h' : ch'.Retunes ch'') : ch.Retunes ch'' := by
  refine ⟨?_⟩
  rw [h'.eq, h.eq]

end ChannelState

/-- The channels of one connection. -/
structure ConnectionChannels where
  channels : HashMap UInt32 ChannelState := ∅
  maxChannels : UInt32

namespace ConnectionChannels

/-- Open a channel of either kind, unless the limit is reached. -/
def openChannel (ch : ChannelState) (c : ConnectionChannels) :
    Except GatewayReason ConnectionChannels :=
  if c.maxChannels.toNat ≤ c.channels.keys.length then
    .error .channelLimitExceeded
  else if ch.channelId ∈ c.channels then .ok c
  else .ok { c with channels := c.channels.insert ch.channelId ch }

/-- A channel that is not closed. -/
def get (c : ConnectionChannels) (channelId : UInt32) : Option ChannelState :=
  (c.channels.lookup channelId).filter (!·.closed)

/-- Update an open channel; its key stays. -/
def modify (channelId : UInt32) (f : ChannelState → ChannelState)
    (c : ConnectionChannels) : ConnectionChannels :=
  match c.get channelId with
  | none => c
  | some ch => { c with channels := c.channels.insert channelId (f ch) }

/-- Close a channel. It stays in the map, marked as closed. -/
def closeChannel (channelId : UInt32) (c : ConnectionChannels) :
    ConnectionChannels :=
  c.modify channelId fun ch => { ch with closed := true }

/-- The ids of the channels that are not closed, as they are stored. -/
def openIds (c : ConnectionChannels) : List UInt32 :=
  c.channels.keys.filter fun id => (c.get id).isSome

def openCount (c : ConnectionChannels) : ℕ := c.openIds.length

theorem mem_openIds {c : ConnectionChannels} {id : UInt32} {ch : ChannelState}
    (h : c.get id = some ch) :
    id ∈ c.openIds := by
  have hlookup : c.channels.lookup id = some ch := by
    rw [get, Option.filter_eq_some_iff] at h
    exact h.1
  have hmem : id ∈ c.channels := AList.lookup_isSome.mp (by rw [hlookup]; rfl)
  exact List.mem_filter.mpr ⟨hmem, by rw [h]; rfl⟩

/-- An update changes one open channel. -/
theorem get_modify {c : ConnectionChannels} {id id' : UInt32}
    {f : ChannelState → ChannelState} {ch' : ChannelState}
    (h : (c.modify id f).get id' = some ch') :
    (id' = id ∧ ∃ ch, c.get id = some ch ∧ ch' = f ch) ∨
      c.get id' = some ch' := by
  unfold modify at h
  split at h
  · exact Or.inr h
  · rename_i ch hch
    by_cases hid : id' = id
    · subst hid
      rw [get, AList.lookup_insert, Option.filter_eq_some_iff,
        Option.some.injEq] at h
      exact Or.inl ⟨rfl, ch, hch, h.1.symm⟩
    · rw [get, AList.lookup_insert_ne hid] at h
      exact Or.inr h

theorem get_modify_of_ne {c : ConnectionChannels} {id id' : UInt32}
    {f : ChannelState → ChannelState} (hid : id' ≠ id) :
    (c.modify id f).get id' = c.get id' := by
  unfold modify
  split
  · rfl
  · rw [get, AList.lookup_insert_ne hid]
    rfl

theorem get_modify_self {c : ConnectionChannels} {id : UInt32}
    {f : ChannelState → ChannelState} {ch : ChannelState}
    (h : c.get id = some ch) (hopen : (f ch).closed = ch.closed) :
    (c.modify id f).get id = some (f ch) := by
  have hclosed : ch.closed = false := by
    rw [get, Option.filter_eq_some_iff] at h
    simpa using h.2
  unfold modify
  rw [h]
  rw [get, AList.lookup_insert, Option.filter_eq_some_iff]
  exact ⟨rfl, by simp [hopen, hclosed]⟩

/-- A channel that was closed is not found again. -/
theorem get_closeChannel_self (c : ConnectionChannels) (id : UInt32) :
    (c.closeChannel id).get id = none := by
  unfold closeChannel modify
  cases hget : c.get id with
  | none => exact hget
  | some ch => rw [get, AList.lookup_insert, Option.filter_some, if_neg (by simp)]

/-- Every open channel was open before, with the same identity. -/
def Keeps (c c' : ConnectionChannels) : Prop :=
  ∀ id ch', c'.get id = some ch' → ∃ ch, c.get id = some ch ∧ ch.Same ch'

theorem Keeps.refl (c : ConnectionChannels) : c.Keeps c :=
  fun _ ch h => ⟨ch, h, .refl ch⟩

theorem Keeps.isSome {c c' : ConnectionChannels} (h : c.Keeps c') {id : UInt32}
    (hget : (c'.get id).isSome = true) : (c.get id).isSome = true := by
  obtain ⟨ch', hch'⟩ := Option.isSome_iff_exists.mp hget
  obtain ⟨ch, hch, -⟩ := h id ch' hch'
  rw [hch]
  rfl

theorem Keeps.trans {c c' c'' : ConnectionChannels} (h : c.Keeps c')
    (h' : c'.Keeps c'') : c.Keeps c'' := by
  intro id ch'' hget
  obtain ⟨ch', hget', hsame'⟩ := h' id ch'' hget
  obtain ⟨ch, hget, hsame⟩ := h id ch' hget'
  exact ⟨ch, hget, hsame.trans hsame'⟩

/-- Opening adds the new channel. -/
theorem get_openChannel {c c' : ConnectionChannels} {ch ch' : ChannelState}
    {id : UInt32} (hopen : c.openChannel ch = .ok c')
    (h : c'.get id = some ch') :
    (id = ch.channelId ∧ ch' = ch) ∨ c.get id = some ch' := by
  unfold openChannel at hopen
  split at hopen
  · cases hopen
  · split at hopen
    · cases hopen
      exact Or.inr h
    · cases hopen
      by_cases hid : id = ch.channelId
      · subst hid
        rw [get, AList.lookup_insert, Option.filter_eq_some_iff,
          Option.some.injEq] at h
        exact Or.inl ⟨rfl, h.1.symm⟩
      · rw [get, AList.lookup_insert_ne hid] at h
        exact Or.inr h

/-- What updates of open channels lead to, each of which takes a channel to one
that it stands in the given relation to. -/
inductive Updates (P : ChannelState → ChannelState → Prop) (c : ConnectionChannels) :
    ConnectionChannels → Prop
  | refl : Updates P c c
  | modify {c' : ConnectionChannels} (h : Updates P c c') (id : UInt32)
      {f : ChannelState → ChannelState} (hf : ∀ ch, P ch (f ch)) :
      Updates P c (c'.modify id f)

theorem Updates.trans {P : ChannelState → ChannelState → Prop}
    {c c' c'' : ConnectionChannels} (h : c.Updates P c') (h' : c'.Updates P c'') :
    c.Updates P c'' := by
  induction h' with
  | refl => exact h
  | modify _ id hf ih => exact ih.modify id hf

theorem Updates.mono {P Q : ChannelState → ChannelState → Prop}
    {c c' : ConnectionChannels} (h : c.Updates P c') (hPQ : ∀ ch ch', P ch ch' → Q ch ch') :
    c.Updates Q c' := by
  induction h with
  | refl => exact .refl
  | modify _ id hf ih => exact ih.modify id fun ch => hPQ ch _ (hf ch)

/-- An open channel comes from an open channel that it stands in the relation
to. -/
theorem Updates.get {P : ChannelState → ChannelState → Prop} (hrefl : ∀ ch, P ch ch)
    (htrans : ∀ ch ch' ch'', P ch ch' → P ch' ch'' → P ch ch'')
    {c c' : ConnectionChannels} (h : c.Updates P c') {id : UInt32} {ch' : ChannelState}
    (hget : c'.get id = some ch') :
    ∃ ch, c.get id = some ch ∧ P ch ch' := by
  induction h generalizing id ch' with
  | refl => exact ⟨ch', hget, hrefl ch'⟩
  | modify _ id₀ hf ih =>
      rcases get_modify hget with ⟨rfl, ch₁, hch₁, rfl⟩ | hget
      · obtain ⟨ch, hch, hP⟩ := ih hch₁
        exact ⟨ch, hch, htrans ch ch₁ _ hP (hf ch₁)⟩
      · exact ih hget

theorem Updates.keeps {c c' : ConnectionChannels} (h : c.Updates ChannelState.Same c') :
    c.Keeps c' :=
  fun _ _ hget => h.get .refl (fun _ _ _ => .trans) hget

/-- Updates keep the entries of the map, open and closed. -/
theorem Updates.keys {P : ChannelState → ChannelState → Prop}
    {c c' : ConnectionChannels} (h : c.Updates P c') :
    c'.channels.keys.Perm c.channels.keys ∧ c'.maxChannels = c.maxChannels := by
  induction h with
  | refl => exact ⟨.refl _, rfl⟩
  | @modify c' _ id f _ ih =>
      refine ⟨?_, ?_⟩
      · refine List.Perm.trans ?_ ih.1
        unfold ConnectionChannels.modify
        split
        · exact .refl _
        · rename_i ch hget
          have hmem : id ∈ c'.channels.keys := (List.mem_filter.mp (mem_openIds hget)).1
          change (AList.insert _ _ _).keys.Perm _
          rw [AList.keys_insert]
          exact (List.perm_cons_erase hmem).symm
      · refine Eq.trans ?_ ih.2
        unfold ConnectionChannels.modify
        split
        · rfl
        · rfl

end ConnectionChannels

end ReserveGrid.Gateway
