import Mathlib.Data.Finset.Insert
import ReserveGrid.Consensus.Facade
import ReserveGrid.Support.Hex

/-!
# The mempool view and the second chance

The Class M check counts the template transactions that the verifier's mempool
view does not hold. When the count crosses the tolerance, bitcoind is asked
about them before the rejection stands.
-/

namespace ReserveGrid.Verifier

open Support Consensus

/-- A count as a `u32`, saturating. -/
def u32TryFrom (n : ℕ) : UInt32 := UInt32.ofNat (min n u32Max)

/-- Saturating addition of `u32`. -/
def satAdd32 (a b : UInt32) : UInt32 := u32TryFrom (a.toNat + b.toNat)

/-! ## The view -/

/-- The state of the mempool view. -/
inductive MempoolState where
  | fresh
  | stale
  | degraded
  | unprimed
  deriving DecidableEq, Repr

/-- The mempool view at a point in time. -/
structure MempoolSnapshot where
  state : MempoolState
  txids : Finset Bytes32
  ageSecs : UInt64
  size : ℕ

/-- The outcome of the Class M check. -/
inductive MempoolCheckOutcome where
  | agreed (unknownCount total : UInt32)
  | toleranceExceeded (unknown : List Bytes32) (total : UInt32)
  | stale (ageSecs : UInt64)
  | skipped
  deriving DecidableEq

/-- The number of unknown txids in the detail of an aggregate rejection. -/
def sampleUnknownCap : ℕ := 10

/-- Whether a count of unknown transactions crosses the tolerance. -/
def exceedsTolerance (unknownCount total : UInt32) (tolerancePct : Float) :
    Bool :=
  if total = 0 then false
  else
    let ratioPct := unknownCount.toFloat / total.toFloat * 100.0
    tolerancePct < ratioPct

/-- The template's txids the view does not hold, in template order. -/
def unknownTxids (snapshot : MempoolSnapshot) (templateTxids : List Bytes32) :
    List Bytes32 :=
  templateTxids.filter fun txid => txid ∉ snapshot.txids

/-- The outcome of a check that does not reject. -/
def withinTolerance (snapshot : MempoolSnapshot) (unknownCount total : UInt32) :
    MempoolCheckOutcome :=
  match snapshot.state with
  | .stale => .stale snapshot.ageSecs
  | _ => .agreed unknownCount total

/-- The Class M check of a template's transactions. -/
def evaluate (snapshot : MempoolSnapshot) (templateTxids : List Bytes32)
    (tolerancePct : Float) : MempoolCheckOutcome :=
  match snapshot.state with
  | .degraded => .skipped
  | .unprimed => .skipped
  | _ =>
      let total := u32TryFrom templateTxids.length
      if total = 0 then withinTolerance snapshot 0 0
      else
        let unknown := unknownTxids snapshot templateTxids
        let unknownCount := u32TryFrom unknown.length
        if exceedsTolerance unknownCount total tolerancePct then
          .toleranceExceeded unknown total
        else withinTolerance snapshot unknownCount total

theorem withinTolerance_ne_toleranceExceeded {snapshot : MempoolSnapshot}
    {unknownCount total : UInt32} {unknown : List Bytes32} {total' : UInt32} :
    withinTolerance snapshot unknownCount total ≠
      .toleranceExceeded unknown total' := by
  unfold withinTolerance
  split <;> simp

/-- A rejecting check lists every txid the view does not hold. -/
theorem evaluate_eq_toleranceExceeded {snapshot : MempoolSnapshot}
    {txids unknown : List Bytes32} {tolerancePct : Float} {total : UInt32}
    (h : evaluate snapshot txids tolerancePct =
      .toleranceExceeded unknown total) :
    unknown = unknownTxids snapshot txids ∧ total = u32TryFrom txids.length ∧
      exceedsTolerance (u32TryFrom unknown.length) total tolerancePct = true := by
  unfold evaluate at h
  split at h
  · simp at h
  · simp at h
  · dsimp only at h
    split at h
    · exact absurd h withinTolerance_ne_toleranceExceeded
    · split at h
      · rename_i hexceeds
        cases h
        exact ⟨rfl, rfl, hexceeds⟩
      · exact absurd h withinTolerance_ne_toleranceExceeded

/-! ## The second chance -/

/-- The number of absent txids kept as evidence. -/
def absentSampleCap : ℕ := 32

/-- What bitcoind said about the unknown transactions. -/
structure BitcoindAnswer where
  presentInMempool : Finset Bytes32
  unadjudicated : Finset Bytes32
  recentBlockTxids : Finset Bytes32
  blocksScanned : UInt32
  blockWalkTruncated : Bool
  tipHeight : Option UInt32
  blockWalkShortfall : Option String

/-- Where an unknown transaction lives. -/
inductive TxAdjudication where
  | inMempool
  | mined
  | unadjudicated
  | absent
  deriving DecidableEq

/-- The counts after bitcoind answered. -/
structure Adjudication where
  total : UInt32
  unknownBefore : UInt32
  inMempool : UInt32
  mined : UInt32
  stillAbsent : UInt32
  unadjudicated : UInt32
  stillAbsentSample : List Bytes32
  blocksScanned : UInt32
  blockWalkTruncated : Bool
  tipHeight : Option UInt32
  blockWalkShortfall : Option String
  deriving DecidableEq

/-- Why a lookup produced no answer. The text of an RPC failure is the
client's. -/
inductive SecondChanceError where
  | rpc (error : String)
  | deadline
  | mempoolLoading
  | emptyMempool
  | blockWalkIncomplete (shortfall : String)
  | mempoolProbeIncomplete (reason : String)
  deriving DecidableEq

namespace SecondChanceError

def asLabel : SecondChanceError → String
  | .rpc _ => "rpc_error"
  | .deadline => "deadline"
  | .mempoolLoading => "mempool_loading"
  | .emptyMempool => "empty_mempool"
  | .blockWalkIncomplete _ => "block_walk_incomplete"
  | .mempoolProbeIncomplete _ => "mempool_probe_incomplete"

def message : SecondChanceError → String
  | .rpc error => "second-chance lookup failed: " ++ error
  | .deadline => "second-chance lookup exceeded its 2s deadline"
  | .mempoolLoading =>
      "bitcoind is still loading its mempool (getmempoolinfo reported " ++
        "loaded=false), so \"not in mempool\" cannot be trusted as absence"
  | .emptyMempool =>
      "getmempoolinfo reported the mempool is empty, which cannot establish " ++
        "that any transaction is absent"
  | .blockWalkIncomplete shortfall =>
      "block walk incomplete, so the mined case could not be ruled out: " ++
        shortfall
  | .mempoolProbeIncomplete reason =>
      "mempool probe incomplete, so absence could not be established: " ++ reason

end SecondChanceError

/-- What the lookup did to a rejection. -/
inductive SecondChanceOutcome where
  | withdrawn (adjudication : Adjudication)
  | upheld (adjudication : Adjudication)
  | lookupFailed (total unknownBefore : UInt32) (reason kind : String)
      (unadjudicated : UInt32)
  deriving DecidableEq

namespace Adjudication

/-- Unknown transactions bitcoind did not prove known. -/
def notProvenKnown (adjudication : Adjudication) : UInt32 :=
  satAdd32 adjudication.stillAbsent adjudication.unadjudicated

/-- Whether the rejection stands on the recomputed count. -/
def stillExceeds (adjudication : Adjudication) (tolerancePct : Float) : Bool :=
  exceedsTolerance adjudication.notProvenKnown adjudication.total tolerancePct

end Adjudication

/-- Mempool membership is looked at first. -/
def classify (txid : Bytes32) (answer : BitcoindAnswer) : TxAdjudication :=
  if txid ∈ answer.presentInMempool then .inMempool
  else if txid ∈ answer.recentBlockTxids then .mined
  else if txid ∈ answer.unadjudicated then .unadjudicated
  else .absent

/-- One turn of the loop over the unknown transactions. -/
def tally (answer : BitcoindAnswer) (acc : Adjudication) (txid : Bytes32) :
    Adjudication :=
  match classify txid answer with
  | .inMempool => { acc with inMempool := satAdd32 acc.inMempool 1 }
  | .mined => { acc with mined := satAdd32 acc.mined 1 }
  | .unadjudicated => { acc with unadjudicated := satAdd32 acc.unadjudicated 1 }
  | .absent =>
      { acc with
        stillAbsent := satAdd32 acc.stillAbsent 1
        stillAbsentSample :=
          if acc.stillAbsentSample.length < absentSampleCap then
            acc.stillAbsentSample ++ [txid]
          else acc.stillAbsentSample }

/-- Score each unknown transaction against what bitcoind said. -/
def adjudicate (total : UInt32) (unknown : List Bytes32)
    (answer : BitcoindAnswer) : Adjudication :=
  unknown.foldl (tally answer)
    { total := total
      unknownBefore := u32TryFrom unknown.length
      inMempool := 0
      mined := 0
      stillAbsent := 0
      unadjudicated := 0
      stillAbsentSample := []
      blocksScanned := answer.blocksScanned
      blockWalkTruncated := answer.blockWalkTruncated
      tipHeight := answer.tipHeight
      blockWalkShortfall := answer.blockWalkShortfall }

end ReserveGrid.Verifier
