import Mathlib.Data.Finset.Dedup
import Mathlib.Data.Finset.Lattice.Lemmas
import Mathlib.Logic.Relation
import ReserveGrid.Support.Chunks
import ReserveGrid.Support.HashMap
import ReserveGrid.Verifier.Adjudication
import ReserveGrid.Verifier.BitcoindRpc
import ReserveGrid.Verifier.ServedView

/-!
# The lookup behind the second chance

At rejection time bitcoind is asked about the unknown transactions: first the
recent blocks are walked back from the tip, then what the walk did not find is
probed in the mempool, a batch at a time. The lookup talks to a server that may
answer every call as it likes; the calls of one lookup are numbered.
-/

namespace ReserveGrid.Verifier

open Support Consensus

def maxRecentBlocksScanned : UInt32 := 6

def mempoolProbeChunk : ℕ := 250

/-- The replies of bitcoind to the calls of one lookup, by the number of calls
before. A reply may be missing. -/
structure Bitcoind where
  getmempoolinfo : ℕ → Except String (JsonRpcResponse MempoolInfo)
  getbestblockhash : ℕ → Except String (JsonRpcResponse String)
  getblock : ℕ → String → Except String (JsonRpcResponse GetBlockVerbosity1)
  getmempoolentry : ℕ → List String → Except String (List (BatchResponse Bytes))

/-! ## The walk over the recent blocks -/

/-- How much of the walk happened, with what it collected. -/
inductive WalkCoverage where
  | complete (txids : Finset Bytes32) (blocksScanned : UInt32)
      (tipHeight : Option UInt32)
  | truncated (txids : Finset Bytes32) (blocksScanned : UInt32)
      (tipHeight : Option UInt32)
  | failed (txids : Finset Bytes32) (blocksScanned : UInt32)
      (tipHeight : Option UInt32) (error : String)
  deriving DecidableEq

namespace WalkCoverage

/-- Why the walk fell short. -/
def shortfall : WalkCoverage → Option String
  | .complete _ _ _ => none
  | .truncated _ blocksScanned _ =>
      some ("block walk hit the " ++ toString maxRecentBlocksScanned ++
        "-block cap after " ++ toString blocksScanned ++
        " blocks with more still owed; the mined count is a floor")
  | .failed _ _ _ error => some ("block walk failed after " ++ error)

def txids : WalkCoverage → Finset Bytes32
  | .complete txids _ _ | .truncated txids _ _ | .failed txids _ _ _ => txids

def blocksScanned : WalkCoverage → UInt32
  | .complete _ n _ | .truncated _ n _ | .failed _ n _ _ => n

def tipHeight : WalkCoverage → Option UInt32
  | .complete _ _ h | .truncated _ _ h | .failed _ _ h _ => h

def isTruncated : WalkCoverage → Bool
  | .truncated _ _ _ => true
  | _ => false

end WalkCoverage

theorem lt_satAdd32 {scanned : UInt32}
    (h : ¬ maxRecentBlocksScanned ≤ satAdd32 scanned 1) :
    maxRecentBlocksScanned.toNat - (satAdd32 scanned 1).toNat <
      maxRecentBlocksScanned.toNat - scanned.toNat := by
  have hcap : maxRecentBlocksScanned.toNat = 6 := rfl
  have hlt : (satAdd32 scanned 1).toNat < 6 := by
    rw [UInt32.le_iff_toNat_le] at h
    omega
  have hsum : scanned.toNat + (1 : UInt32).toNat < 2 ^ 32 := by
    by_contra hge
    have hmin : min (scanned.toNat + (1 : UInt32).toNat) u32Max = u32Max := by
      rw [u32Max]
      omega
    rw [satAdd32, u32TryFrom, hmin] at hlt
    exact absurd hlt (by decide)
  rw [satAdd32_toNat hsum, UInt32.toNat_one] at hlt ⊢
  omega

/-- The walk back from a block: what it covered and the number of calls made by
then. -/
def walkFrom (server : Bitcoind) (templateHeight : UInt32) (calls : ℕ)
    (hash : String) (collected : Finset Bytes32) (scanned : UInt32)
    (tipHeight : Option UInt32) : WalkCoverage × ℕ :=
  match getBlockTxids (server.getblock calls hash) with
  | .error e => (.failed collected scanned tipHeight e.message, calls + 1)
  | .ok block =>
      let tipHeight := some (tipHeight.getD block.height)
      if block.height < templateHeight then
        (.complete collected scanned tipHeight, calls + 1)
      else
        let collected := collected ∪ block.txids.toFinset
        if block.height = templateHeight then
          (.complete collected (satAdd32 scanned 1) tipHeight, calls + 1)
        else
          match block.previousBlockHash with
          | none =>
              (.complete collected (satAdd32 scanned 1) tipHeight, calls + 1)
          | some prev =>
              if h : maxRecentBlocksScanned ≤ satAdd32 scanned 1 then
                (.truncated collected (satAdd32 scanned 1) tipHeight, calls + 1)
              else
                walkFrom server templateHeight (calls + 1) prev collected
                  (satAdd32 scanned 1) tipHeight
termination_by maxRecentBlocksScanned.toNat - scanned.toNat
decreasing_by exact lt_satAdd32 h

/-- The txids of the blocks at or above a height, walking back from the tip. -/
def recentBlocks (server : Bitcoind) (templateHeight : UInt32) (calls : ℕ) :
    WalkCoverage × ℕ :=
  match call (server.getbestblockhash calls) with
  | .error e => (.failed ∅ 0 none e.message, calls + 1)
  | .ok hash => walkFrom server templateHeight (calls + 1) hash ∅ 0 none

/-! ## Probing -/

/-- What the probes found so far. -/
structure Probed where
  presentInMempool : Finset Bytes32
  unadjudicated : Finset Bytes32

/-- One answered probe. -/
def Probed.add (acc : Probed) : Bytes32 × MempoolProbe → Probed
  | (txid, .present) =>
      { acc with presentInMempool := insert txid acc.presentInMempool }
  | (_, .absent) => acc
  | (txid, .unadjudicated _) =>
      { acc with unadjudicated := insert txid acc.unadjudicated }

/-- Probe one batch after another. A failed batch ends the lookup. -/
def probeChunks (server : Bitcoind) : ℕ → List (List Bytes32) → Probed →
    Except RpcError Probed
  | _, [], acc => .ok acc
  | calls, chunk :: rest, acc =>
      match probeMempool chunk (server.getmempoolentry calls) with
      | .error e => .error e
      | .ok probes =>
          probeChunks server (calls + 1) rest ((chunk.zip probes).foldl Probed.add acc)

/-! ## The lookup -/

section

variable (order : IterOrder Bytes32) (server : Bitcoind)

/-- What the walk did not find, each transaction once. -/
def toProbe (unknown : List Bytes32) (recent : Finset Bytes32) : List Bytes32 :=
  order.visit (unknown.filter fun txid => txid ∉ recent).dedup

/-- Walk the recent blocks and probe the rest. -/
def walkAndProbe (templateHeight : UInt32) (unknown : List Bytes32) :
    Except SecondChanceError BitcoindAnswer :=
  let walk := recentBlocks server templateHeight 1
  let coverage := walk.1
  match probeChunks server walk.2
      (chunks mempoolProbeChunk (toProbe order unknown coverage.txids))
      ⟨∅, ∅⟩ with
  | .error e => .error (.rpc e.message)
  | .ok probed =>
      .ok {
        presentInMempool := probed.presentInMempool
        unadjudicated := probed.unadjudicated
        recentBlockTxids := coverage.txids
        blocksScanned := coverage.blocksScanned
        blockWalkTruncated := coverage.isTruncated
        tipHeight := coverage.tipHeight
        blockWalkShortfall := coverage.shortfall }

/-- The whole lookup. A node that is still loading, or that has no mempool,
proves nothing absent. -/
def gather (templateHeight : UInt32) (unknown : List Bytes32) :
    Except SecondChanceError BitcoindAnswer :=
  match call (server.getmempoolinfo 0) with
  | .error e => .error (.rpc e.message)
  | .ok info =>
      if ¬ info.loaded then .error .mempoolLoading
      else if info.size < minInstallableMempoolSize then .error .emptyMempool
      else walkAndProbe order server templateHeight unknown

/-- The lookup within its deadline. -/
def ask (inTime : Bool) : SecondChance := fun templateHeight unknown =>
  if inTime then gather order server templateHeight unknown
  else .error .deadline

end

variable {order : IterOrder Bytes32} {server : Bitcoind}
  {templateHeight : UInt32} {unknown : List Bytes32} {answer : BitcoindAnswer}

/-- The probes of a lookup report on a mempool: what is said present is held,
and what is said absent is not held when it is asked for. -/
def Bitcoind.ProbesReport (server : Bitcoind) (held : Bytes32 → Prop) : Prop :=
  ∀ calls params responses,
    server.getmempoolentry calls params = .ok responses →
    ∀ resp ∈ responses, ∀ id, resp.id = some id →
    ∀ txid, params[id.toNat]? = some (displayHex txid) →
      (resp.error = none → resp.result.isSome → held txid) ∧
        (∀ e, resp.error = some e → e.code = mempoolMissingEntryCode →
          ¬ held txid)

variable {held : Bytes32 → Prop}

theorem Bitcoind.ProbesReport.item (hreport : server.ProbesReport held)
    {calls : ℕ} {params : List String} {responses : List (BatchResponse Bytes)}
    (hreply : server.getmempoolentry calls params = .ok responses)
    {resp : BatchResponse Bytes} (hresp : resp ∈ responses) {id : UInt32}
    (hid : resp.id = some id) {txid : Bytes32}
    (hparam : params[id.toNat]? = some (displayHex txid)) :
    (probeFromItem resp.item = .present → held txid) ∧
      (probeFromItem resp.item = .absent → ¬ held txid) := by
  obtain ⟨hpresent, habsent⟩ :=
    hreport calls params responses hreply resp hresp id hid txid hparam
  obtain ⟨rid, result, error⟩ := resp
  cases error with
  | some e =>
      have hitem : probeFromItem (BatchResponse.item ⟨rid, result, some e⟩) =
          if e.code = mempoolMissingEntryCode then .absent
          else .unadjudicated ("getmempoolentry returned code " ++
            toString e.code ++ ": " ++ e.message) := rfl
      rw [hitem]
      by_cases hcode : e.code = mempoolMissingEntryCode
      · rw [if_pos hcode]
        exact ⟨nofun, fun _ => habsent e rfl hcode⟩
      · rw [if_neg hcode]
        exact ⟨nofun, nofun⟩
  | none =>
      cases result with
      | some r => exact ⟨fun _ => hpresent rfl rfl, nofun⟩
      | none => exact ⟨nofun, nofun⟩

/-- Each probe of a batch reports on its own transaction. -/
theorem probeMempool_report (hreport : server.ProbesReport held) {calls : ℕ}
    {chunk : List Bytes32} {probes : List MempoolProbe}
    (h : probeMempool chunk (server.getmempoolentry calls) = .ok probes)
    {txid : Bytes32} {probe : MempoolProbe}
    (hmem : (txid, probe) ∈ chunk.zip probes) :
    (probe = .present → held txid) ∧ (probe = .absent → ¬ held txid) := by
  unfold probeMempool at h
  by_cases hempty : chunk.isEmpty
  · rw [List.isEmpty_iff.mp hempty] at hmem
    cases hmem
  · rw [if_neg hempty] at h
    cases hreply : server.getmempoolentry calls (probeParams chunk) with
    | error e =>
        rw [hreply] at h
        cases h
    | ok responses =>
        rw [hreply] at h
        cases h
        obtain ⟨i, hi⟩ := List.mem_iff_getElem?.mp hmem
        obtain ⟨htxid, hprobe⟩ := List.getElem?_zip_eq_some.mp hi
        rw [List.getElem?_map, Option.map_eq_some_iff] at hprobe
        obtain ⟨item, hitem, rfl⟩ := hprobe
        rcases resolveBatch_sound hitem with rfl | ⟨resp, hresp, ⟨id, hid, rfl⟩, rfl⟩
        · exact ⟨nofun, nofun⟩
        · apply hreport.item hreply hresp hid
          rw [probeParams, List.getElem?_map, htxid]
          rfl

/-- What the probes found describes the transactions asked for so far. -/
structure Probed.Reports (held : Bytes32 → Prop) (asked : List Bytes32)
    (acc : Probed) : Prop where
  present : ∀ txid ∈ acc.presentInMempool, held txid
  absent : ∀ txid ∈ asked, txid ∉ acc.presentInMempool →
    txid ∉ acc.unadjudicated → ¬ held txid

theorem Probed.Reports.add {asked : List Bytes32} {acc : Probed}
    (h : acc.Reports held asked) {txid : Bytes32} {probe : MempoolProbe}
    (hpresent : probe = .present → held txid)
    (habsent : probe = .absent → ¬ held txid) :
    (acc.add (txid, probe)).Reports held (asked ++ [txid]) := by
  constructor
  · intro t ht
    cases probe with
    | present =>
        rcases Finset.mem_insert.mp ht with rfl | hold
        · exact hpresent rfl
        · exact h.present t hold
    | absent => exact h.present t ht
    | unadjudicated reason => exact h.present t ht
  · intro t ht hnp hnu
    rcases List.mem_append.mp ht with hold | hnew
    · apply h.absent t hold
      · intro hp
        cases probe <;> exact hnp (by simp [Probed.add, hp])
      · intro hu
        cases probe <;> exact hnu (by simp [Probed.add, hu])
    · cases List.mem_singleton.mp hnew
      cases probe with
      | present => exact absurd (Finset.mem_insert_self _ _) hnp
      | absent => exact habsent rfl
      | unadjudicated reason => exact absurd (Finset.mem_insert_self _ _) hnu

theorem Probed.Reports.foldl {asked : List Bytes32} {acc : Probed}
    (h : acc.Reports held asked) (pairs : List (Bytes32 × MempoolProbe))
    (hpairs : ∀ pair ∈ pairs, (pair.2 = .present → held pair.1) ∧
      (pair.2 = .absent → ¬ held pair.1)) :
    (pairs.foldl Probed.add acc).Reports held
      (asked ++ pairs.map Prod.fst) := by
  induction pairs generalizing asked acc with
  | nil => simpa using h
  | cons pair pairs ih =>
      obtain ⟨hpresent, habsent⟩ := hpairs pair List.mem_cons_self
      have hstep := ih (h.add hpresent habsent) fun pair' hpair' =>
        hpairs pair' (List.mem_cons_of_mem _ hpair')
      rw [List.append_assoc] at hstep
      exact hstep

/-- The blocks a node knows, by hash. A block's parent is known and one lower. -/
structure BlockTree where
  block : String → Option BlockTxids
  parent : ∀ hash b prev, block hash = some b →
    b.previousBlockHash = some prev →
      ∃ b', block prev = some b' ∧ b'.height.toNat + 1 = b.height.toNat

namespace BlockTree

variable (tree : BlockTree)

/-- The parent of a block. -/
def IsParent (hash prev : String) : Prop :=
  ∃ b, tree.block hash = some b ∧ b.previousBlockHash = some prev

variable {tree}

theorem height_le {tip hash : String} {top b : BlockTxids}
    (hchain : Relation.ReflTransGen tree.IsParent tip hash)
    (htop : tree.block tip = some top) (hb : tree.block hash = some b) :
    b.height.toNat ≤ top.height.toNat := by
  induction hchain generalizing b with
  | refl =>
      cases htop.symm.trans hb
      exact le_refl _
  | tail _ hparent ih =>
      obtain ⟨child, hchild, hprev⟩ := hparent
      obtain ⟨b', hb', hheight⟩ := tree.parent _ _ _ hchild hprev
      cases hb'.symm.trans hb
      have := ih hchild
      omega

end BlockTree

/-- The blocks a server answers with are those of the tree. -/
def Bitcoind.BlocksReport (server : Bitcoind) (tree : BlockTree) : Prop :=
  ∀ calls hash raw, call (server.getblock calls hash) = .ok raw →
    ∃ b, tree.block hash = some b ∧ raw.height = b.height ∧
      raw.tx = b.txids.map displayHex ∧
      raw.previousblockhash = b.previousBlockHash

end ReserveGrid.Verifier
