import Mathlib.Data.Finset.Card
import ReserveGrid.Bitcoin.Library
import ReserveGrid.Support.Hex
import ReserveGrid.Support.JsonText

/-!
# Share validation

The parts of share validation: the header that a share spells, its identity,
the checks of version bits, times and proof of work, the replay set, and the
difficulty of a target. The pipeline that puts them together is the handler's.
-/

namespace ReserveGrid.Gateway

open Support Bitcoin

/-! ## Reasons -/

/-- The reasons for which channels and shares are refused. -/
inductive GatewayReason where
  | channelLimitExceeded
  | invalidChannelId
  | shareReplayDetected
  | shareDifficultyBelowTarget
  | shareInvalidJobId
  | shareInvalidNonce
  | versionBitViolation
  | ntimeOutOfRange
  | shareDroppedQueueFull
  | shareRateLimited
  deriving DecidableEq, Repr

def GatewayReason.asStr : GatewayReason → String
  | .channelLimitExceeded => "channel_limit_exceeded"
  | .invalidChannelId => "invalid_channel_id"
  | .shareReplayDetected => "share_replay_detected"
  | .shareDifficultyBelowTarget => "share_difficulty_below_target"
  | .shareInvalidJobId => "share_invalid_job_id"
  | .shareInvalidNonce => "share_invalid_nonce"
  | .versionBitViolation => "version_bit_violation"
  | .ntimeOutOfRange => "ntime_out_of_range"
  | .shareDroppedQueueFull => "share_dropped_queue_full"
  | .shareRateLimited => "share_rate_limited"

/-- The error code on the wire. A reason that is never sent has none. -/
def GatewayReason.toSv2ErrorCode : GatewayReason → Option String
  | .invalidChannelId => some "invalid-channel-id"
  | .shareInvalidJobId => some "invalid-job-id"
  | .shareDifficultyBelowTarget => some "difficulty-too-low"
  | .shareReplayDetected | .shareInvalidNonce | .versionBitViolation
  | .ntimeOutOfRange | .shareDroppedQueueFull | .shareRateLimited =>
      some "stale-share"
  | .channelLimitExceeded => none

/-! ## Identity -/

/-- The 80 bytes of a block header. -/
def headerIdentityBytes (version : UInt32) (prevHash merkleRoot : Bytes32)
    (ntime nbits nonce : UInt32) : Bytes :=
  leBytes 4 version.toNat ++ (prevHash.toBytes ++ (merkleRoot.toBytes ++
    (leBytes 4 ntime.toNat ++ (leBytes 4 nbits.toNat ++
      leBytes 4 nonce.toNat))))

/-- The share id, under which replays are found: one hash of the header. -/
def computeShareId (sha : Bytes → Bytes32) (headerBytes : Bytes) : Bytes32 :=
  sha headerBytes

/-- A text with its length in two bytes in front. -/
def lengthPrefixed (s : String) : Bytes :=
  leBytes 2 (JsonText.utf8 s).length ++ JsonText.utf8 s

/-- The event id, which binds a share to its worker. -/
def computeEventId (sha : Bytes → Bytes32) (shareId : Bytes32)
    (workerId validationLevel : String) : Bytes32 :=
  sha (shareId.toBytes ++
    (lengthPrefixed workerId ++ lengthPrefixed validationLevel))

/-! ## Checks -/

/-- Compare two numbers given from their most significant byte down. -/
def bytesLe : Bytes → Bytes → Bool
  | a :: as, b :: bs => if a < b then true else if b < a then false else bytesLe as bs
  | _, _ => true

/-- Whether the block hash is at most the target, both little-endian. -/
def validateSharePow (sha : Bytes → Bytes32) (headerBytes : Bytes)
    (maximumTarget : Bytes32) : Bool :=
  bytesLe (sha256d sha headerBytes).toBytes.reverse
    maximumTarget.toBytes.reverse

/-- The version bits that miners may roll. -/
def bip320GpMask : UInt32 := 0x1fffe000

def checkVersionBits (submitVersion jobVersion : UInt32) : Bool :=
  submitVersion &&& ~~~bip320GpMask = jobVersion &&& ~~~bip320GpMask

/-- Sum of two 32-bit numbers, held at the largest. -/
def saturatingAdd32 (a b : UInt32) : UInt32 :=
  if a.toNat + b.toNat < 2 ^ 32 then a + b else 0xffffffff

/-- The bounds of a share's time: not before the activation time, not further
ahead of it than the time elapsed and the slack, and not too far ahead of the
gateway's clock. -/
def checkNtimeBounds (ntime activationMinNtime elapsedSincePrevhashSecs
    ntimeElapsedSlackSeconds maxFutureBlockTimeSeconds nowUnix : UInt32) :
    Bool :=
  if ntime < activationMinNtime then false
  else if saturatingAdd32
      (saturatingAdd32 activationMinNtime elapsedSincePrevhashSecs)
      ntimeElapsedSlackSeconds < ntime then false
  else if saturatingAdd32 nowUnix maxFutureBlockTimeSeconds < ntime then false
  else true

/-! ## Replay detection -/

/-- The last accepted share ids, oldest first in `order`. -/
structure ShareDedupSet where
  set : Finset Bytes32 := ∅
  order : List Bytes32 := []
  maxEntries : ℕ

namespace ShareDedupSet

/-- Evict the oldest until there is room for one more. -/
def evict (maxEntries : ℕ) :
    List Bytes32 → Finset Bytes32 → List Bytes32 × Finset Bytes32
  | [], set => ([], set)
  | oldest :: order, set =>
      if set.card < maxEntries then (oldest :: order, set)
      else evict maxEntries order (set.erase oldest)

/-- Whether the share id is a replay; one that is not is noted. -/
def checkAndInsert (shareId : Bytes32) (dedup : ShareDedupSet) :
    Bool × ShareDedupSet :=
  if shareId ∈ dedup.set then (true, dedup)
  else
    let kept := evict dedup.maxEntries dedup.order dedup.set
    (false, { dedup with
      set := insert shareId kept.2
      order := kept.1 ++ [shareId] })

end ShareDedupSet

/-! ## Difficulty -/

/-- A 256-bit number in two halves. -/
structure U256 where
  lo : BitVec 128
  hi : BitVec 128
  deriving DecidableEq

namespace U256

def ofLe (bytes : Bytes32) : U256 where
  lo := BitVec.ofNat 128 (leNat (bytes.toBytes.take 16))
  hi := BitVec.ofNat 128 (leNat (bytes.toBytes.drop 16))

/-- The width of a half without its leading zeros. -/
def halfBits (v : BitVec 128) : ℕ := if v = 0 then 0 else v.toNat.log2 + 1

def bits (v : U256) : ℕ :=
  if v.hi ≠ 0 then 128 + halfBits v.hi else halfBits v.lo

def shl (v : U256) (shift : ℕ) : U256 :=
  if shift = 0 then v
  else if 256 ≤ shift then ⟨0, 0⟩
  else if 128 ≤ shift then ⟨0, v.lo <<< (shift - 128)⟩
  else ⟨v.lo <<< shift, (v.hi <<< shift) ||| (v.lo >>> (128 - shift))⟩

def gte (a b : U256) : Bool :=
  if b.hi < a.hi then true else if a.hi < b.hi then false else b.lo ≤ a.lo

def gt (a b : U256) : Bool :=
  if b.hi < a.hi then true else if a.hi < b.hi then false else b.lo < a.lo

/-- Subtraction with borrow. -/
def sub (a b : U256) : U256 where
  lo := a.lo - b.lo
  hi := a.hi - b.hi - (if a.lo < b.lo then 1 else 0)

def or (a b : U256) : U256 := ⟨a.lo ||| b.lo, a.hi ||| b.hi⟩

def toLe (v : U256) : Bytes32 :=
  ⟨leBytes 16 v.lo.toNat ++ leBytes 16 v.hi.toNat, by simp⟩

end U256

/-- The target of difficulty one, most significant byte first. -/
def diff1TargetBe : Bytes32 :=
  ⟨[0x00, 0x00, 0x00, 0x00, 0xff, 0xff] ++ List.replicate 26 0x00, by simp⟩

/-- The shifts of a long division, from the highest down. -/
def shifts (maxShift : ℕ) : List ℕ := (List.range (maxShift + 1)).reverse

/-- One step of the long division of a target into difficulty one. -/
def difficultyStep (d : U256) (acc : U256 × UInt64) (shift : ℕ) :
    U256 × UInt64 :=
  let shifted := d.shl shift
  if acc.1.gte shifted then
    (acc.1.sub shifted, acc.2 ||| (1 <<< UInt64.ofNat shift))
  else acc

/-- The difficulty of a target, by long division, held at the largest 64-bit
number. -/
def targetToDifficultyU64 (maximumTarget : Bytes32) : UInt64 :=
  if maximumTarget.toBytes.all (· = 0) then 0xffffffffffffffff
  else
    let n := U256.ofLe diff1TargetBe.reverse
    let d := U256.ofLe maximumTarget
    if d.gt n then 0
    else if d = n then 1
    else if n.bits < d.bits then 0
    else if 63 < n.bits - d.bits then 0xffffffffffffffff
    else ((shifts (n.bits - d.bits)).foldl (difficultyStep d) (n, 0)).2

/-- One step of the long division of difficulty one by a difficulty. -/
def targetStep (d : U256) (acc : U256 × U256) (shift : ℕ) : U256 × U256 :=
  let shifted := d.shl shift
  if acc.1.gte shifted then
    (acc.1.sub shifted, acc.2.or (U256.shl ⟨1, 0⟩ shift))
  else acc

/-- The target of a difficulty. Difficulty zero accepts everything. -/
def difficultyToTarget (difficulty : UInt64) : Bytes32 :=
  if difficulty = 0 then ⟨List.replicate 32 0xff, by simp⟩
  else
    let n := U256.ofLe diff1TargetBe.reverse
    let d : U256 := ⟨BitVec.ofNat 128 difficulty.toNat, 0⟩
    if n.bits < d.bits then Bytes32.zero
    else ((shifts (n.bits - d.bits)).foldl (targetStep d) (n, ⟨0, 0⟩)).2.toLe

/-! ## Events and submissions -/

/-- Event 1 of a share, emitted for every share that enters validation. -/
structure ShareAcceptedEvent where
  eventType : String
  shareIdHex : String
  eventIdHex : String
  sv2Response : String
  reasonCode : Option String
  reasonDetail : Option String
  workerId : String
  channelId : UInt32
  sequenceNumber : UInt32
  jobId : UInt32
  blockHeight : UInt32
  timestampMs : UInt64
  difficultyU64 : UInt64
  deriving DecidableEq, Repr

/-- The event of a refusal before the share's header is known. -/
def ShareAcceptedEvent.sentinel (timestampMs : UInt64) (reason : GatewayReason)
    (channelId sequenceNumber jobId : UInt32) : ShareAcceptedEvent where
  eventType := "share_accepted"
  shareIdHex := hexEncode Bytes32.zero.toBytes
  eventIdHex := hexEncode Bytes32.zero.toBytes
  sv2Response := "error"
  reasonCode := some reason.asStr
  reasonDetail := some reason.asStr
  workerId := ""
  channelId
  sequenceNumber
  jobId
  blockHeight := 0
  timestampMs
  difficultyU64 := 0

/-- A validated share on its way upstream. -/
structure ShareSubmission where
  shareIdHex : String
  version : UInt32
  prevHashWireHex : String
  prevHashDisplayHex : String
  merkleRootWireHex : String
  merkleRootDisplayHex : String
  ntime : UInt32
  nbits : UInt32
  nonce : UInt32
  eventIdHex : String
  workerId : String
  validationLevel : String
  gatewayInstanceId : String
  channelId : UInt32
  sequenceNumber : UInt32
  jobId : UInt32
  templateId : UInt64
  blockHeight : UInt32
  poolAccountId : Option String
  timestampMs : UInt64
  difficultyU64 : UInt64
  difficultyDisplay : Float
  sourceInstanceId : String
  gatewaySignatureHex : String

end ReserveGrid.Gateway
