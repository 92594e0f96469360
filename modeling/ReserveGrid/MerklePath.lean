import ReserveGrid.Gateway.Jobs
import ReserveGrid.TemplateManager.Template

/-!
# One merkle root by three routes

The template manager computes the branch of the coinbase over a placeholder
leaf. The gateway folds a share's coinbase along that branch. The verifier sees
the root in the header of the assembled block. All three are the root of the
list whose head is the coinbase's id and whose tail are the template's ids.
-/

namespace ReserveGrid

open Support Bitcoin Consensus TemplateManager Gateway

variable {sha : Bytes → Bytes32}

/-! ## The branch -/

theorem padLevel_cons_cons (a b : Bytes32) (rest : List Bytes32) :
    padLevel (a :: b :: rest) = a :: b :: padLevel rest := by
  have hparity : (a :: b :: rest).length % 2 = rest.length % 2 := by
    simp only [List.length_cons]
    omega
  unfold padLevel
  rw [hparity]
  split
  · rename_i hodd
    cases hlast : rest.getLast? with
    | none =>
        rw [List.getLast?_eq_none_iff] at hlast
        subst hlast
        simp at hodd
    | some last =>
        simp [List.getLastD_eq_getLast?, List.getLast?_cons, hlast]
  · rfl

theorem combinePairs_padLevel (level : List Bytes32) :
    combinePairs sha (padLevel level) =
      Merkle.parents (merkleNode sha) level := by
  match level with
  | [] => rfl
  | [a] => simp [padLevel, combinePairs, Merkle.parents]
  | a :: b :: rest =>
      rw [padLevel_cons_cons, combinePairs, combinePairs_padLevel rest,
        Merkle.parents]

/-- The loop lists the siblings of the first leaf, level by level. -/
theorem branchLoop_zero (level : List Bytes32) :
    branchLoop sha level 0 =
      (Merkle.firstBranch (merkleNode sha) level).map
        fun h => hexEncode h.toBytes := by
  match level with
  | [] => simp [branchLoop, Merkle.firstBranch]
  | [a] => simp [branchLoop, Merkle.firstBranch]
  | a :: b :: rest =>
      have ih := branchLoop_zero
        (merkleNode sha a b :: Merkle.parents (merkleNode sha) rest)
      rw [branchLoop, if_pos (by simp)]
      dsimp only
      rw [combinePairs_padLevel, padLevel_cons_cons, Merkle.parents,
        Merkle.firstBranch, List.map_cons]
      exact congrArg₂ List.cons rfl ih
termination_by level.length
decreasing_by
  simp only [List.length_cons, Merkle.length_parents]
  omega

theorem parseMerklePath_map (path : List Bytes32) :
    parseMerklePath (path.map fun h => hexEncode h.toBytes) = some path := by
  induction path with
  | nil => rfl
  | cons h path ih => simp [parseMerklePath, ih]

theorem parseTxids_eq_ok {txids : List String} {ids : List Bytes32}
    (h : txids.mapM displayHexToInternal = some ids) :
    parseTxids txids = .ok ids := by
  induction txids generalizing ids with
  | nil =>
      cases h
      rfl
  | cons s ss ih =>
      rw [List.mapM_cons] at h
      obtain ⟨id, hid, hrest⟩ := Option.bind_eq_some_iff.mp h
      obtain ⟨rest, hss, heq⟩ := Option.bind_eq_some_iff.mp hrest
      cases heq
      rw [displayHexToInternal] at hid
      split at hid
      · rename_i bytes hdecode
        obtain ⟨raw, hraw, rfl⟩ := Option.map_eq_some_iff.mp hid
        simp [parseTxids, hdecode, hraw, ih hss, Except.map]
      · simp at hid

/-- The branch of a template's ids is that of the first leaf of the list they
form behind any leaf. -/
theorem computeMerkleBranch_eq_ok {txids : List String} {ids : List Bytes32}
    (h : txids.mapM displayHexToInternal = some ids) :
    computeMerkleBranch sha txids = .ok
      ((Merkle.firstBranch (merkleNode sha) (Bytes32.zero :: ids)).map
        fun h => hexEncode h.toBytes) := by
  unfold computeMerkleBranch
  split
  · rename_i hnil
    rw [List.isEmpty_iff] at hnil
    subst hnil
    cases h
    simp [Merkle.firstBranch]
  · rw [parseTxids_eq_ok h, ← branchLoop_zero]
    rfl

/-- The gateway's fold is the root of the list the branch was made for. -/
theorem computeMerkleRoot_firstBranch (cbPrefix e cbSuffix : Bytes)
    (ids : List Bytes32) :
    some (computeMerkleRoot sha cbPrefix e cbSuffix
        (Merkle.firstBranch (merkleNode sha) (Bytes32.zero :: ids))) =
      Merkle.root (merkleNode sha)
        (sha256d sha (cbPrefix ++ e ++ cbSuffix) :: ids) :=
  (Merkle.foldl_firstBranch (merkleNode sha) Bytes32.zero _ ids).symm

/-! ## The assembled block -/

variable {btc : RustBitcoin}

theorem coinbasePrefix_marker (scriptsigLen : ℕ) (push aux rest : Bytes) :
    (coinbasePrefix scriptsigLen push aux ++ rest)[4]? = some 0x01 := rfl

theorem mapM_map_eq {α β γ : Type*} {f : α → Option β} {g : β → γ}
    {as : List α} {bs : List β} (h : as.mapM f = some bs) :
    as.mapM (fun a => (f a).map g) = some (bs.map g) := by
  induction as generalizing bs with
  | nil =>
      cases h
      rfl
  | cons a as ih =>
      rw [List.mapM_cons] at h
      obtain ⟨b, hb, hrest⟩ := Option.bind_eq_some_iff.mp h
      obtain ⟨rest, has, heq⟩ := Option.bind_eq_some_iff.mp hrest
      cases heq
      simp [List.mapM_cons, hb, ih has]

/-- The header of a block assembled around the coinbase bytes carries the root
of the list of the bytes' hash and the transactions' ids. -/
theorem assembleBlock_merkleRoot (hbtc : btc.Lawful sha)
    {parts : TemplateBlockParts} {b : Block} {ids : List Bytes32}
    (hmarker : parts.coinbaseLegacy[4]? ≠ some 0x00)
    (htxids : parts.txsRaw.mapM
      (fun raw => (btc.deserializeTx raw).map btc.computeTxid) = some ids)
    (h : assembleBlock btc parts = .ok b) :
    Merkle.root (merkleNode sha) (sha256d sha parts.coinbaseLegacy :: ids) =
      some b.header.merkleRoot := by
  obtain ⟨coinbase, body, txs, hb⟩ := assembleBlock_eq_ok h
  have hlegacy := legacyEncode_of_decodeAll
    (hbtc.deserializeTx_canonical _ _ hb.coinbase_eq) hmarker
  have hid : body.txid sha = sha256d sha parts.coinbaseLegacy := by
    rw [txid_eq_of_strip hb.body_strip, hlegacy.1]
    rfl
  have hids : txs.map (Transaction.txid sha) = ids := by
    have hcompute : btc.computeTxid = Transaction.txid sha :=
      funext hbtc.computeTxid_eq
    rw [mapM_map_eq hb.txs_eq, hcompute] at htxids
    exact Option.some.inj htxids
  have hmerkle := hb.merkle
  rw [hbtc.computeMerkleRoot_eq, Block.merkleRootOfTxids, draftBlock,
    List.map_cons, hid, hids] at hmerkle
  exact hmerkle

/-- The raw block shipped for a template carries, at the place of the merkle
root, the root of the list of its zero-extranonce coinbase and its ids. -/
theorem assembleRawBlockHex_merkleRoot (hbtc : btc.Lawful sha)
    {version nbits curtime : UInt32} {prevHash : String}
    {scriptsigLen extranonceSize : ℕ} {push aux cbSuffix : Bytes}
    {txsRaw : List Bytes} {ids : List Bytes32} {hex : String}
    (htxids : txsRaw.mapM
      (fun raw => (btc.deserializeTx raw).map btc.computeTxid) = some ids)
    (h : assembleRawBlockHex btc version nbits curtime prevHash
      (coinbasePrefix scriptsigLen push aux) cbSuffix extranonceSize txsRaw =
        some hex) :
    ∃ raw root, hexDecode hex = .ok raw ∧
      Merkle.root (merkleNode sha) (sha256d sha
        (coinbasePrefix scriptsigLen push aux ++
          List.replicate extranonceSize 0x00 ++ cbSuffix) :: ids) = some root ∧
      (raw.drop 36).take 32 = root.toBytes := by
  obtain ⟨prevHash, b, -, hb, hraw⟩ := assembleRawBlockHex_eq_some h
  refine ⟨_, b.header.merkleRoot, hraw, ?_, ?_⟩
  · refine assembleBlock_merkleRoot hbtc ?_ htxids hb
    rw [rawBlockParts, List.append_assoc, coinbasePrefix_marker]
    decide
  · rw [hbtc.serializeBlock_eq]
    exact merkleRoot_bytes_of_encode b

/-- The merkle path agrees with the block: for the ids of a template and the
coinbase halves built for it, the gateway's root along the decoded branch is
the Bitcoin merkle root behind the share's coinbase, for every extranonce, and
for the zero extranonce it is the root in the raw block shipped with the
template. -/
theorem merkle_path_agrees (hbtc : btc.Lawful sha)
    {txids : List String} {ids : List Bytes32}
    (hids : txids.mapM displayHexToInternal = some ids)
    {height : UInt32} {value : UInt64} {script aux cbPrefix cbSuffix : Bytes}
    {extranonceSize : ℕ} {commitment : Option Bytes}
    (hhalves : buildCoinbaseHalves height value script extranonceSize aux
      commitment = .ok (cbPrefix, cbSuffix)) :
    ∃ branch path, computeMerkleBranch sha txids = .ok branch ∧
      parseMerklePath branch = some path ∧
      (∀ e : Bytes, e.length = extranonceSize →
        some (computeMerkleRoot sha cbPrefix e cbSuffix path) =
          Merkle.root (merkleNode sha)
            (sha256d sha (cbPrefix ++ e ++ cbSuffix) :: ids)) ∧
      ∀ version nbits curtime prevHash txsRaw hex,
        txsRaw.mapM (fun raw => (btc.deserializeTx raw).map btc.computeTxid) =
          some ids →
        assembleRawBlockHex btc version nbits curtime prevHash cbPrefix
          cbSuffix extranonceSize txsRaw = some hex →
        ∃ raw, hexDecode hex = .ok raw ∧
          (raw.drop 36).take 32 = (computeMerkleRoot sha cbPrefix
            (List.replicate extranonceSize 0x00) cbSuffix path).toBytes := by
  obtain ⟨-, -, -, hbuilt⟩ := buildCoinbaseHalves_eq_ok hhalves
  cases hbuilt
  refine ⟨_, _, computeMerkleBranch_eq_ok hids, parseMerklePath_map _, ?_, ?_⟩
  · intro e _
    exact computeMerkleRoot_firstBranch _ e _ ids
  · intro version nbits curtime prevHash txsRaw hex htxids hhex
    obtain ⟨raw, root, hraw, hroot, hbytes⟩ :=
      assembleRawBlockHex_merkleRoot hbtc htxids hhex
    refine ⟨raw, hraw, ?_⟩
    rw [← computeMerkleRoot_firstBranch] at hroot
    rw [hbytes, Option.some.inj hroot]

/-! ## Three leaves -/

/-- A transaction without a witness. -/
def pathSpend (fill : UInt8) : Transaction where
  version := 1
  input := [⟨⟨Bytes32.fill fill, 0⟩, [0x51], 0xffffffff, []⟩]
  output := [⟨1000, [0x51]⟩]
  lockTime := 0

def pathIds : List Bytes32 :=
  [(RustBitcoin.reference sha256).computeTxid (pathSpend 5),
    (RustBitcoin.reference sha256).computeTxid (pathSpend 6)]

/-- The coinbase at height 840000 around an eight-byte extranonce. -/
def pathHalves : Bytes × Bytes :=
  (coinbasePrefix 12 [0x03, 0x40, 0xd1, 0x0c] [], coinbaseSuffix 312500000 [0x51] none)

theorem mapM_displayHex (ids : List Bytes32) :
    (ids.map displayHex).mapM displayHexToInternal = some ids := by
  induction ids with
  | nil => rfl
  | cons h ids ih =>
      rw [List.map_cons, List.mapM_cons, ih,
        BitcoindTemplateSource.displayHexToInternal_displayHex]
      rfl

theorem deserializeTx_pathSpend :
    [(pathSpend 5).encode, (pathSpend 6).encode].mapM (fun raw =>
      ((RustBitcoin.reference sha256).deserializeTx raw).map
        (RustBitcoin.reference sha256).computeTxid) = some pathIds := by
  decide +kernel

theorem isSome_assembleRawBlockHex_path :
    (assembleRawBlockHex (RustBitcoin.reference sha256) 0x20000000 0x17034219 1713571767
      (displayHex (Bytes32.fill 9)) pathHalves.1 pathHalves.2 8
      [(pathSpend 5).encode, (pathSpend 6).encode]).isSome = true := by
  have hassembled : (assembleTemplateBlock (RustBitcoin.reference sha256)
      (rawBlockParts 0x20000000 0x17034219 1713571767 (Bytes32.fill 9) pathHalves.1
        pathHalves.2 8 [(pathSpend 5).encode, (pathSpend 6).encode])).isOk = true := by
    decide +kernel
  rw [assembleRawBlockHex, BitcoindTemplateSource.displayHexToInternal_displayHex]
  dsimp only
  split
  · rfl
  · rename_i e herror
    rw [herror] at hassembled
    cases hassembled

/-- Two transactions below the coinbase: three leaves, so the first level is odd. The
raw block has the root along the path. -/
theorem merkle_path_agrees_threeLeaves :
    ∃ branch path hex raw,
      computeMerkleBranch sha256 (pathIds.map displayHex) =
        .ok branch ∧
      parseMerklePath branch = some path ∧
      (∀ e : Bytes, e.length = 8 →
        some (computeMerkleRoot sha256 pathHalves.1 e pathHalves.2 path) =
          Merkle.root (merkleNode sha256)
            (sha256d sha256 (pathHalves.1 ++ e ++ pathHalves.2) :: pathIds)) ∧
      assembleRawBlockHex (RustBitcoin.reference sha256) 0x20000000 0x17034219 1713571767
        (displayHex (Bytes32.fill 9)) pathHalves.1 pathHalves.2 8
        [(pathSpend 5).encode, (pathSpend 6).encode] = some hex ∧
      hexDecode hex = .ok raw ∧
      (raw.drop 36).take 32 = (computeMerkleRoot sha256 pathHalves.1
        (List.replicate 8 0x00) pathHalves.2 path).toBytes := by
  have hhalves : buildCoinbaseHalves 840000 312500000 [0x51] 8 [] none =
      .ok (pathHalves.1, pathHalves.2) := by
    rfl
  obtain ⟨branch, path, hbranch, hpath, hroot, hblock⟩ := merkle_path_agrees
    (RustBitcoin.reference_lawful sha256) (mapM_displayHex pathIds) hhalves
  obtain ⟨hex, hhex⟩ := Option.isSome_iff_exists.mp isSome_assembleRawBlockHex_path
  obtain ⟨raw, hraw, hbytes⟩ := hblock _ _ _ _ _ hex deserializeTx_pathSpend hhex
  exact ⟨branch, path, hex, raw, hbranch, hpath, hroot, hhex, hraw, hbytes⟩

end ReserveGrid
