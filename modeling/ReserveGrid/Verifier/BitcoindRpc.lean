import ReserveGrid.Support.Hex
import ReserveGrid.Support.Result

/-!
# The JSON-RPC client of bitcoind

A single call returns a result or an error. A batch returns one item for each
request, and the replies are matched to the requests by id. Transaction ids
travel as hex in display order and are kept in the opposite byte order.
-/

namespace ReserveGrid.Verifier

open Support

/-- Why a call failed. The text of a transport failure is the HTTP client's. -/
inductive RpcError where
  | http (error : String)
  | rpc (code : ℤ) (message : String)
  | missingResult
  | invalidTxidHex (hex : String)
  deriving DecidableEq

def RpcError.message : RpcError → String
  | .http error => "bitcoind RPC HTTP error: " ++ error
  | .rpc code message =>
      "bitcoind RPC returned an error: code=" ++ toString code ++ " message=" ++
        message
  | .missingResult => "bitcoind RPC response missing result field"
  | .invalidTxidHex hex => "invalid txid hex returned by bitcoind: " ++ hex

structure JsonRpcError where
  code : ℤ
  message : String

structure JsonRpcResponse (R : Type) where
  result : Option R
  error : Option JsonRpcError

/-- What a single call makes of the reply. A reply with an error object is a
failure, whatever its result. -/
def call {R : Type} (reply : Except String (JsonRpcResponse R)) :
    Except RpcError R :=
  match reply with
  | .error e => .error (.http e)
  | .ok resp =>
      match resp.error with
      | some err => .error (.rpc err.code err.message)
      | none =>
          match resp.result with
          | some r => .ok r
          | none => .error .missingResult

/-! ## Transaction ids -/

/-- A txid as bitcoind writes it. -/
def displayHex (txid : Bytes32) : String := hexEncode txid.reverse.toBytes

def parseTxidHex (hex : String) : Except RpcError Bytes32 :=
  if (hex.toList.map Char.utf8Size).sum ≠ 64 then .error (.invalidTxidHex hex)
  else
    match hexDecode hex with
    | .error _ => .error (.invalidTxidHex hex)
    | .ok decoded =>
        match Bytes32.ofBytes decoded with
        | none => .error (.invalidTxidHex hex)
        | some bytes => .ok bytes

def txidsToInternalOrder : List String → Except RpcError (List Bytes32)
  | [] => .ok []
  | hex :: hexTxids => do
      let bytes ← parseTxidHex hex
      let out ← txidsToInternalOrder hexTxids
      return bytes.reverse :: out

theorem parseTxidHex_displayHex (txid : Bytes32) :
    parseTxidHex (displayHex txid) = .ok txid.reverse := by
  have hsize : ((displayHex txid).toList.map Char.utf8Size).sum = 64 := by
    rw [displayHex, hexEncode, String.toList_ofList, sum_utf8Size_hexChars,
      Bytes32.length_toBytes]
  rw [parseTxidHex, if_neg (not_not.mpr hsize), displayHex, hexDecode_hexEncode]
  dsimp only
  rw [Bytes32.ofBytes_toBytes]

theorem txidsToInternalOrder_displayHex (txids : List Bytes32) :
    txidsToInternalOrder (txids.map displayHex) = .ok txids := by
  induction txids with
  | nil => rfl
  | cons txid txids ih =>
      rw [List.map_cons, txidsToInternalOrder, parseTxidHex_displayHex, ih]
      simp only [bind, Except.bind, pure, Except.pure, Bytes32.reverse_reverse]

/-- The fields of a block that the client reads. -/
structure GetBlockVerbosity1 where
  height : UInt32
  tx : List String
  previousblockhash : Option String

structure BlockTxids where
  height : UInt32
  txids : List Bytes32
  previousBlockHash : Option String

def getBlockTxids (reply : Except String (JsonRpcResponse GetBlockVerbosity1)) :
    Except RpcError BlockTxids := do
  let raw ← call reply
  let txids ← txidsToInternalOrder raw.tx
  return ⟨raw.height, txids, raw.previousblockhash⟩

/-! ## Batches -/

/-- One reply of a batch. -/
structure BatchResponse (R : Type) where
  id : Option UInt32
  result : Option R
  error : Option JsonRpcError

/-- What became of one request of a batch. -/
inductive BatchItem (R : Type) where
  | ok (r : R)
  | failed (code : ℤ) (message : String)
  | noResponse

/-- The item of a reply. The error is looked at first. -/
def BatchResponse.item {R : Type} (resp : BatchResponse R) : BatchItem R :=
  match resp.error, resp.result with
  | some e, _ => .failed e.code e.message
  | none, some r => .ok r
  | none, none => .noResponse

/-- The slots of a batch while its replies are read, with the slots that were
claimed twice. -/
structure BatchSlots (R : Type) where
  slots : List (Option (BatchItem R))
  duplicated : List Bool

/-- One turn of the loop over the replies. -/
def BatchSlots.take {R : Type} (requestCount : ℕ) (acc : BatchSlots R)
    (resp : BatchResponse R) : BatchSlots R :=
  match resp.id with
  | none => acc
  | some id =>
      let idx := id.toNat
      if requestCount ≤ idx then acc
      else
        match acc.slots[idx]? with
        | some (some _) => { acc with duplicated := acc.duplicated.set idx true }
        | _ => { acc with slots := acc.slots.set idx (some resp.item) }

/-- The item of a slot. -/
def BatchSlots.item {R : Type} (slot : Option (BatchItem R)) (duplicated : Bool) :
    BatchItem R :=
  if duplicated then .noResponse else slot.getD .noResponse

def resolveBatch {R : Type} (responses : List (BatchResponse R))
    (requestCount : ℕ) : List (BatchItem R) :=
  let acc := responses.foldl (BatchSlots.take requestCount)
    ⟨List.replicate requestCount none, List.replicate requestCount false⟩
  acc.slots.zipWith BatchSlots.item acc.duplicated

section

variable {R : Type} {responses : List (BatchResponse R)} {requestCount : ℕ}

/-- Every filled slot holds the item of a reply with its id. -/
structure BatchSlots.Sound (responses : List (BatchResponse R))
    (requestCount : ℕ) (acc : BatchSlots R) : Prop where
  slots_length : acc.slots.length = requestCount
  duplicated_length : acc.duplicated.length = requestCount
  slot : ∀ i item, acc.slots[i]? = some (some item) →
    ∃ resp ∈ responses, (∃ id, resp.id = some id ∧ id.toNat = i) ∧
      item = resp.item

theorem BatchSlots.Sound.take {acc : BatchSlots R}
    (h : acc.Sound responses requestCount) {resp : BatchResponse R}
    (hresp : resp ∈ responses) :
    (acc.take requestCount resp).Sound responses requestCount := by
  unfold BatchSlots.take
  cases hid : resp.id with
  | none => exact h
  | some id =>
      dsimp only
      by_cases hle : requestCount ≤ id.toNat
      · rw [if_pos hle]
        exact h
      · rw [if_neg hle]
        split
        · exact ⟨h.slots_length, by rw [List.length_set, h.duplicated_length],
            h.slot⟩
        · refine ⟨by rw [List.length_set, h.slots_length], h.duplicated_length, ?_⟩
          intro i item hitem
          by_cases hi : id.toNat = i
          · subst hi
            rw [List.getElem?_set_self (by rw [h.slots_length]; omega)] at hitem
            cases hitem
            exact ⟨resp, hresp, ⟨id, hid, rfl⟩, rfl⟩
          · rw [List.getElem?_set_ne hi] at hitem
            exact h.slot i item hitem

theorem BatchSlots.Sound.foldl {acc : BatchSlots R}
    (h : acc.Sound responses requestCount) {part : List (BatchResponse R)}
    (hpart : ∀ resp ∈ part, resp ∈ responses) :
    (part.foldl (BatchSlots.take requestCount) acc).Sound responses
      requestCount := by
  induction part generalizing acc with
  | nil => exact h
  | cons resp part ih =>
      rw [List.foldl_cons]
      apply ih (h.take (hpart resp List.mem_cons_self))
      intro resp' hresp'
      exact hpart resp' (List.mem_cons_of_mem _ hresp')

theorem batchSlots_sound (responses : List (BatchResponse R))
    (requestCount : ℕ) :
    (responses.foldl (BatchSlots.take requestCount)
      ⟨List.replicate requestCount none,
        List.replicate requestCount false⟩).Sound responses requestCount := by
  have hempty : BatchSlots.Sound responses requestCount
      ⟨List.replicate requestCount none, List.replicate requestCount false⟩ := by
    refine ⟨List.length_replicate, List.length_replicate, ?_⟩
    intro i item hitem
    have hmem := List.mem_of_getElem? hitem
    cases (List.mem_replicate.mp hmem).2
  exact hempty.foldl fun _ h => h

theorem length_resolveBatch :
    (resolveBatch responses requestCount).length = requestCount := by
  have hsound := batchSlots_sound responses requestCount
  rw [resolveBatch, List.length_zipWith, hsound.slots_length,
    hsound.duplicated_length, Nat.min_self]

/-- An answer at a position is the item of a reply with that id. -/
theorem resolveBatch_sound {i : ℕ} {item : BatchItem R}
    (h : (resolveBatch responses requestCount)[i]? = some item) :
    item = .noResponse ∨ ∃ resp ∈ responses,
      (∃ id, resp.id = some id ∧ id.toNat = i) ∧ item = resp.item := by
  have hsound := batchSlots_sound responses requestCount
  rw [resolveBatch, List.getElem?_zipWith_eq_some] at h
  obtain ⟨slot, duplicated, hslot, -, hitem⟩ := h
  cases duplicated with
  | true => exact .inl hitem.symm
  | false =>
      cases slot with
      | none => exact .inl hitem.symm
      | some item' =>
          cases hitem
          exact .inr (hsound.slot i item' hslot)

end

/-! ## Probing the mempool -/

/-- The only code that proves a transaction absent. -/
def mempoolMissingEntryCode : ℤ := -5

structure MempoolInfo where
  size : ℕ
  loaded : Bool

/-- What bitcoind said about one transaction. -/
inductive MempoolProbe where
  | present
  | absent
  | unadjudicated (reason : String)
  deriving DecidableEq

def probeParams (txids : List Bytes32) : List String := txids.map displayHex

def probeFromItem {R : Type} : BatchItem R → MempoolProbe
  | .ok _ => .present
  | .failed code message =>
      if code = mempoolMissingEntryCode then .absent
      else
        .unadjudicated
          ("getmempoolentry returned code " ++ toString code ++ ": " ++ message)
  | .noResponse =>
      .unadjudicated "no batch reply could be attributed to this request id"

/-- Probe transactions in one batch, index by index. No request is made for an
empty list. -/
def probeMempool {R : Type} (txids : List Bytes32)
    (reply : List String → Except String (List (BatchResponse R))) :
    Except RpcError (List MempoolProbe) :=
  if txids.isEmpty then .ok []
  else
    match reply (probeParams txids) with
    | .error e => .error (.http e)
    | .ok responses =>
        .ok ((resolveBatch responses txids.length).map probeFromItem)

end ReserveGrid.Verifier
