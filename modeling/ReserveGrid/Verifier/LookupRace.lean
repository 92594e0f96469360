import ReserveGrid.Verifier.BatchAnswers
import ReserveGrid.Verifier.BlockWalk

/-!
# The lookup against a moving chain

While a lookup runs, blocks arrive and move transactions from the mempool into
the chain. The module says what a node holds at every instant, when the calls
of a lookup are answered, and which transactions a lookup can count as absent
although the node held them all the time: those that both looks miss.
-/

namespace ReserveGrid.Verifier

open Support Consensus

/-- What a node holds at an instant. -/
structure NodeState where
  mempool : Finset Bytes32
  tip : String

/-- A node over time. The tree has every block of every chain it followed. -/
structure NodeHistory (T : Type*) where
  tree : BlockTree
  state : T → NodeState

/-- When the calls of one lookup are answered. A transaction is probed once. -/
structure LookupTimes (T : Type*) [Preorder T] where
  started : T
  tipRead : T
  probed : Bytes32 → T
  ended : T
  started_le : started ≤ tipRead
  tipRead_le : ∀ txid, tipRead ≤ probed txid
  probed_le : ∀ txid, probed txid ≤ ended

section

variable {T : Type*} [Preorder T]

/-- The replies of a lookup are those of the node. Any call may fail. -/
structure Bitcoind.Reports (server : Bitcoind) (node : NodeHistory T)
    (times : LookupTimes T) : Prop where
  tip : ∀ hash, call (server.getbestblockhash 1) = .ok hash →
    hash = (node.state times.tipRead).tip
  blocks : server.BlocksReport node.tree
  probes : server.ProbesReport fun txid =>
    txid ∈ (node.state (times.probed txid)).mempool

variable {node : NodeHistory T} {times : LookupTimes T} {height : UInt32}
  {txid : Bytes32}

end

/-! ## What both looks miss -/

/-- How many calls are made before the first probe. -/
def Bitcoind.callsOfWalk (server : Bitcoind) (height : UInt32) : ℕ :=
  (recentBlocks server height 1).2

open Classical in
/-- What the mempool is asked for: the transactions that the blocks do not lead
to. -/
noncomputable def Bitcoind.asked (order : IterOrder Bytes32) (server : Bitcoind)
    (height : UInt32) (unknown : List Bytes32) : List Bytes32 :=
  order.visit (unknown.filter fun txid => ¬ server.Finds height txid).dedup

/-- The mempool is asked for a transaction, and the one reply to that is the
error that it does not have it. -/
def Bitcoind.SaysMissing (order : IterOrder Bytes32) (server : Bitcoind)
    (height : UInt32) (unknown : List Bytes32) (txid : Bytes32) : Prop :=
  ∃ (i j : ℕ) (batch : List Bytes32) (responses : List (BatchResponse Bytes))
    (resp : BatchResponse Bytes) (e : JsonRpcError),
    (chunks mempoolProbeChunk (server.asked order height unknown))[i]? = some batch ∧
      batch[j]? = some txid ∧
      server.getmempoolentry (server.callsOfWalk height + i) (probeParams batch) =
        .ok responses ∧
      carriers responses j = [resp] ∧ resp.error = some e ∧
      e.code = mempoolMissingEntryCode

section

variable {order : IterOrder Bytes32} {server : Bitcoind} {height : UInt32}
  {unknown : List Bytes32} {answer : BitcoindAnswer} {txid : Bytes32}

/-- A probe comes out as absent when the one reply to it is the error of a
missing entry. -/
theorem probeMempool_absent_iff {calls : ℕ} {batch : List Bytes32} :
    (∃ probes, probeMempool batch (server.getmempoolentry calls) = .ok probes ∧
        (txid, .absent) ∈ batch.zip probes) ↔
      ∃ (j : ℕ) (responses : List (BatchResponse Bytes)) (resp : BatchResponse Bytes)
        (e : JsonRpcError), batch[j]? = some txid ∧
          server.getmempoolentry calls (probeParams batch) = .ok responses ∧
          carriers responses j = [resp] ∧ resp.error = some e ∧
          e.code = mempoolMissingEntryCode := by
  constructor
  · rintro ⟨probes, hprobes, hmem⟩
    unfold probeMempool at hprobes
    split at hprobes
    · next hempty =>
        rw [List.isEmpty_iff.mp hempty] at hmem
        cases hmem
    · split at hprobes
      · cases hprobes
      · next responses hreply =>
          cases hprobes
          obtain ⟨j, hj⟩ := List.mem_iff_getElem?.mp hmem
          obtain ⟨htxid, hprobe⟩ := List.getElem?_zip_eq_some.mp hj
          have hlt : j < batch.length := (List.getElem?_eq_some_iff.mp htxid).1
          rw [List.getElem?_map, resolveBatch_getElem? responses hlt, Option.map_some,
            Option.some.injEq] at hprobe
          obtain ⟨resp, e, hreplied⟩ := probe_answerFor_eq_absent_iff.mp hprobe
          exact ⟨j, responses, resp, e, htxid, hreply, hreplied⟩
  · rintro ⟨j, responses, resp, e, htxid, hreply, hreplied⟩
    have hlt : j < batch.length := (List.getElem?_eq_some_iff.mp htxid).1
    have hne : ¬ batch.isEmpty = true := by
      rw [List.isEmpty_iff]
      exact List.ne_nil_of_length_pos (Nat.zero_lt_of_lt hlt)
    refine ⟨(resolveBatch responses batch.length).map probeFromItem, ?_, ?_⟩
    · rw [probeMempool, if_neg hne, hreply]
    · apply List.mem_iff_getElem?.mpr
      refine ⟨j, List.getElem?_zip_eq_some.mpr ⟨htxid, ?_⟩⟩
      rw [List.getElem?_map, resolveBatch_getElem? responses hlt, Option.map_some,
        probe_answerFor_eq_absent_iff.mpr ⟨resp, e, hreplied⟩]

end

section

variable {T : Type*} [Preorder T] {node : NodeHistory T} {times : LookupTimes T}
  {order : IterOrder Bytes32} {server : Bitcoind} {height : UInt32}
  {unknown : List Bytes32} {answer : BitcoindAnswer} {txid : Bytes32}

/-- What a probe says is missing is not in the mempool then. -/
theorem Bitcoind.SaysMissing.not_mem (hreports : server.Reports node times)
    (h : server.SaysMissing order height unknown txid) :
    txid ∉ (node.state (times.probed txid)).mempool := by
  obtain ⟨i, j, batch, responses, resp, e, -, hreplied⟩ := h
  obtain ⟨probes, hprobes, hmem⟩ :=
    probeMempool_absent_iff.mpr ⟨j, responses, resp, e, hreplied⟩
  exact (probeMempool_report hreports.probes hprobes hmem).2 rfl

end

/-! ## What an upheld rejection rests on -/

end ReserveGrid.Verifier
