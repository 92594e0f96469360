import ReserveGrid.Verifier.SecondChance

/-!
# How far the walk goes

The walk over the recent blocks is complete exactly when the chain has no more
blocks at or above the template's height than the walk may scan. Heights fall
by one at each step, so the block at the template's height is recognised before
the cap is looked at.
-/

namespace ReserveGrid.Verifier

open Support

namespace BlockTree

/-- The blocks of a chain from its tip down to a block without a parent. -/
inductive Chain (tree : BlockTree) : String → List BlockTxids → Prop where
  | genesis {hash : String} {block : BlockTxids}
      (hblock : tree.block hash = some block)
      (hprev : block.previousBlockHash = none) : Chain tree hash [block]
  | link {hash prev : String} {block : BlockTxids} {rest : List BlockTxids}
      (hblock : tree.block hash = some block)
      (hprev : block.previousBlockHash = some prev) (hrest : Chain tree prev rest) :
      Chain tree hash (block :: rest)

variable {tree : BlockTree} {hash : String} {block : BlockTxids}
  {blocks : List BlockTxids}

/-- Every block of the tree is the tip of a chain. -/
theorem exists_chain (hblock : tree.block hash = some block) :
    ∃ blocks, tree.Chain hash blocks := by
  generalize hheight : block.height.toNat = height
  induction height using Nat.strong_induction_on generalizing hash block with
  | _ height ih =>
      cases hprev : block.previousBlockHash with
      | none => exact ⟨[block], .genesis hblock hprev⟩
      | some prev =>
          obtain ⟨parent, hparent, hless⟩ := tree.parent hash block prev hblock hprev
          obtain ⟨rest, hrest⟩ := ih parent.height.toNat (by omega) hparent rfl
          exact ⟨block :: rest, .link hblock hprev hrest⟩

/-- No block of a chain is above its tip. -/
theorem Chain.height_le (hchain : tree.Chain hash blocks)
    (hblock : tree.block hash = some block) :
    ∀ other ∈ blocks, other.height.toNat ≤ block.height.toNat := by
  induction hchain generalizing block with
  | genesis htip hprev =>
      rw [htip, Option.some.injEq] at hblock
      subst hblock
      simp
  | link htip hprev hrest ih =>
      rw [htip, Option.some.injEq] at hblock
      subst hblock
      obtain ⟨parent, hparent, hless⟩ := tree.parent _ _ _ htip hprev
      intro other hother
      rcases List.mem_cons.mp hother with rfl | hother
      · exact le_rfl
      · have hle := ih hparent other hother
        omega

/-- The blocks at or above a height. -/
def atOrAbove (height : UInt32) (blocks : List BlockTxids) : List BlockTxids :=
  blocks.filter fun block => height ≤ block.height

/-- The transactions of some blocks. -/
def txidsOf (blocks : List BlockTxids) : Finset Bytes32 :=
  (blocks.flatMap BlockTxids.txids).toFinset

variable {height : UInt32} {rest : List BlockTxids}

theorem atOrAbove_cons_of_le (h : height ≤ block.height) (rest : List BlockTxids) :
    atOrAbove height (block :: rest) = block :: atOrAbove height rest := by
  simp [atOrAbove, h]

theorem txidsOf_cons (block : BlockTxids) (rest : List BlockTxids) :
    txidsOf (block :: rest) = block.txids.toFinset ∪ txidsOf rest := by
  simp [txidsOf]

/-- Below the height there is nothing more. -/
theorem Chain.atOrAbove_eq_nil (hchain : tree.Chain hash blocks)
    (hblock : tree.block hash = some block) (hlt : block.height < height) :
    atOrAbove height blocks = [] := by
  apply List.filter_eq_nil_iff.mpr
  intro other hother
  have hle := hchain.height_le hblock other hother
  rw [UInt32.lt_iff_toNat_lt] at hlt
  rw [decide_eq_true_eq, UInt32.le_iff_toNat_le]
  omega

/-- The parent of a block at the height is below it. -/
theorem Chain.atOrAbove_parent {prev : String} (hblock : tree.block hash = some block)
    (hprev : block.previousBlockHash = some prev) (hrest : tree.Chain prev rest)
    (heq : block.height = height) : atOrAbove height rest = [] := by
  obtain ⟨parent, hparent, hless⟩ := tree.parent hash block prev hblock hprev
  apply hrest.atOrAbove_eq_nil hparent
  rw [← heq, UInt32.lt_iff_toNat_lt]
  omega

theorem Chain.tip_mem (hchain : tree.Chain hash blocks)
    (hblock : tree.block hash = some block) : block ∈ blocks := by
  cases hchain with
  | genesis htip hprev => simp [Option.some.inj (htip.symm.trans hblock)]
  | link htip hprev hrest => simp [Option.some.inj (htip.symm.trans hblock)]

/-- The parent of a block above the height is not below it. -/
theorem Chain.atOrAbove_parent_pos {prev : String}
    (hblock : tree.block hash = some block)
    (hprev : block.previousBlockHash = some prev) (hrest : tree.Chain prev rest)
    (hlt : height < block.height) : 0 < (atOrAbove height rest).length := by
  obtain ⟨parent, hparent, hless⟩ := tree.parent hash block prev hblock hprev
  have hmem : parent ∈ atOrAbove height rest := by
    apply List.mem_filter.mpr
    rw [UInt32.lt_iff_toNat_lt] at hlt
    refine ⟨hrest.tip_mem hparent, ?_⟩
    rw [decide_eq_true_eq, UInt32.le_iff_toNat_le]
    omega
  exact List.length_pos_of_mem hmem

end BlockTree

/-- A server that answers every call with the blocks of a tree and its tip. -/
structure Bitcoind.Serves (server : Bitcoind) (tree : BlockTree) (tip : String) :
    Prop where
  tip : ∀ calls, call (server.getbestblockhash calls) = .ok tip
  block : ∀ calls hash block, tree.block hash = some block →
    call (server.getblock calls hash) =
      .ok ⟨block.height, block.txids.map displayHex, block.previousBlockHash⟩

variable {server : Bitcoind} {tree : BlockTree} {tip hash : String}
  {block : BlockTxids} {blocks : List BlockTxids} {templateHeight scanned : UInt32}
  {calls : ℕ} {collected : Finset Bytes32} {tipHeight : Option UInt32}

theorem Bitcoind.Serves.getBlockTxids (hserves : server.Serves tree tip)
    (hblock : tree.block hash = some block) (calls : ℕ) :
    getBlockTxids (server.getblock calls hash) = .ok block := by
  rw [Verifier.getBlockTxids, hserves.block calls hash block hblock]
  change (txidsToInternalOrder (block.txids.map displayHex)).bind _ = _
  rw [txidsToInternalOrder_displayHex]
  rfl

/-- One turn of the walk: the scanned blocks grow by one. -/
theorem satAdd32_scanned (h : scanned.toNat < maxRecentBlocksScanned.toNat) :
    (satAdd32 scanned 1).toNat = scanned.toNat + 1 := by
  have hcap : maxRecentBlocksScanned.toNat = 6 := rfl
  exact satAdd32_toNat (by rw [UInt32.toNat_one]; omega)

/-- What the rest of a walk comes to, with the blocks of the chain that are
still ahead at or above the template's height. -/
structure WalkSpec (ahead : List BlockTxids) (collected : Finset Bytes32)
    (scanned calls : ℕ) (walk : WalkCoverage × ℕ) : Prop where
  complete : scanned + ahead.length ≤ maxRecentBlocksScanned.toNat →
    ∃ n tipHeight, walk.1 = .complete (collected ∪ BlockTree.txidsOf ahead) n tipHeight
  truncated : maxRecentBlocksScanned.toNat < scanned + ahead.length →
    ∃ txids n tipHeight, walk.1 = .truncated txids n tipHeight ∧
      txids ⊆ collected ∪ BlockTree.txidsOf ahead
  fetches : walk.2 ≤ calls + (maxRecentBlocksScanned.toNat - scanned)

/-- The walk stops at a block below the template's height. -/
theorem walkSpec_below (hscanned : scanned.toNat < maxRecentBlocksScanned.toNat)
    (calls : ℕ) (collected : Finset Bytes32) (n : UInt32) (tipHeight : Option UInt32) :
    WalkSpec [] collected scanned.toNat calls
      (.complete collected n tipHeight, calls + 1) where
  complete := fun _ => ⟨n, tipHeight, by simp [BlockTree.txidsOf]⟩
  truncated := by
    intro hmore
    rw [List.length_nil] at hmore
    omega
  fetches := by
    dsimp only
    omega

/-- The walk stops at the last block it wants. -/
theorem walkSpec_last (hscanned : scanned.toNat < maxRecentBlocksScanned.toNat)
    (calls : ℕ) (collected : Finset Bytes32) (n : UInt32) (tipHeight : Option UInt32) :
    WalkSpec [block] collected scanned.toNat calls
      (.complete (collected ∪ block.txids.toFinset) n tipHeight, calls + 1) where
  complete := fun _ => ⟨n, tipHeight, by simp [BlockTree.txidsOf]⟩
  truncated := by
    intro hmore
    rw [List.length_singleton] at hmore
    omega
  fetches := by
    dsimp only
    omega

/-- The walk stops at the cap with a block still ahead. -/
theorem walkSpec_cap {ahead : List BlockTxids}
    (hscanned : scanned.toNat < maxRecentBlocksScanned.toNat)
    (hcap : maxRecentBlocksScanned ≤ satAdd32 scanned 1) (hahead : 0 < ahead.length)
    (calls : ℕ) (collected : Finset Bytes32) (tipHeight : Option UInt32) :
    WalkSpec (block :: ahead) collected scanned.toNat calls
      (.truncated (collected ∪ block.txids.toFinset) (satAdd32 scanned 1) tipHeight,
        calls + 1) := by
  rw [UInt32.le_iff_toNat_le, satAdd32_scanned hscanned] at hcap
  constructor
  · intro hfew
    rw [List.length_cons] at hfew
    omega
  · intro _
    refine ⟨_, _, tipHeight, rfl, ?_⟩
    rw [BlockTree.txidsOf_cons, ← Finset.union_assoc]
    exact Finset.subset_union_left
  · dsimp only
    omega

/-- The walk goes on to the parent. -/
theorem WalkSpec.next {ahead : List BlockTxids} {walk : WalkCoverage × ℕ}
    (hscanned : scanned.toNat < maxRecentBlocksScanned.toNat)
    (h : WalkSpec ahead (collected ∪ block.txids.toFinset) (satAdd32 scanned 1).toNat
      (calls + 1) walk) :
    WalkSpec (block :: ahead) collected scanned.toNat calls walk := by
  obtain ⟨hcomplete, htruncated, hfetches⟩ := h
  rw [satAdd32_scanned hscanned] at hcomplete htruncated hfetches
  rw [Finset.union_assoc, ← BlockTree.txidsOf_cons] at hcomplete htruncated
  constructor
  · intro hfew
    rw [List.length_cons] at hfew
    exact hcomplete (by omega)
  · intro hmore
    rw [List.length_cons] at hmore
    exact htruncated (by omega)
  · omega

/-- The walk back from the tip of a chain. -/
theorem walkFrom_chain (hserves : server.Serves tree tip)
    (hchain : tree.Chain hash blocks)
    (hscanned : scanned.toNat < maxRecentBlocksScanned.toNat) :
    WalkSpec (BlockTree.atOrAbove templateHeight blocks) collected scanned.toNat calls
      (walkFrom server templateHeight calls hash collected scanned tipHeight) := by
  induction hchain generalizing collected scanned calls tipHeight with
  | @genesis hash block hblock hprev =>
      rw [walkFrom, hserves.getBlockTxids hblock calls]
      dsimp only
      by_cases hlt : block.height < templateHeight
      · have hnone : BlockTree.atOrAbove templateHeight [block] = [] :=
          (BlockTree.Chain.genesis hblock hprev).atOrAbove_eq_nil hblock hlt
        rw [if_pos hlt, hnone]
        exact walkSpec_below hscanned calls collected scanned _
      · rw [if_neg hlt, BlockTree.atOrAbove_cons_of_le (UInt32.not_lt.mp hlt)]
        by_cases heq : block.height = templateHeight
        · rw [if_pos heq]
          exact walkSpec_last hscanned calls collected _ _
        · rw [if_neg heq, hprev]
          exact walkSpec_last hscanned calls collected _ _
  | @link hash prev block rest hblock hprev hrest ih =>
      rw [walkFrom, hserves.getBlockTxids hblock calls]
      dsimp only
      by_cases hlt : block.height < templateHeight
      · have hnone : BlockTree.atOrAbove templateHeight (block :: rest) = [] :=
          (BlockTree.Chain.link hblock hprev hrest).atOrAbove_eq_nil hblock hlt
        rw [if_pos hlt, hnone]
        exact walkSpec_below hscanned calls collected scanned _
      · rw [if_neg hlt, BlockTree.atOrAbove_cons_of_le (UInt32.not_lt.mp hlt)]
        by_cases heq : block.height = templateHeight
        · rw [if_pos heq, BlockTree.Chain.atOrAbove_parent hblock hprev hrest heq]
          exact walkSpec_last hscanned calls collected _ _
        · rw [if_neg heq, hprev]
          dsimp only
          by_cases hcap : maxRecentBlocksScanned ≤ satAdd32 scanned 1
          · have habove : templateHeight < block.height := by
              rw [UInt32.lt_iff_toNat_lt]
              rw [UInt32.lt_iff_toNat_lt] at hlt
              have hne : block.height.toNat ≠ templateHeight.toNat :=
                fun h => heq (UInt32.toNat_inj.mp h)
              omega
            have hahead := BlockTree.Chain.atOrAbove_parent_pos hblock hprev hrest habove
            rw [dif_pos hcap]
            exact walkSpec_cap hscanned hcap hahead calls collected _
          · rw [dif_neg hcap]
            have hroom : (satAdd32 scanned 1).toNat < maxRecentBlocksScanned.toNat := by
              rw [UInt32.le_iff_toNat_le] at hcap
              omega
            exact (ih hroom).next hscanned

/-- On a chain whose calls all succeed, the walk is complete exactly when at most
six blocks are at or above the template's height, and then it collected exactly
their transactions; otherwise it is truncated and collected some of them. It
fetches at most six blocks. -/
theorem recentBlocks_chain (hserves : server.Serves tree tip)
    (hchain : tree.Chain tip blocks) (templateHeight : UInt32) (calls : ℕ) :
    ((∃ txids n tipHeight, (recentBlocks server templateHeight calls).1 =
        .complete txids n tipHeight) ↔
      (BlockTree.atOrAbove templateHeight blocks).length ≤ 6) ∧
    ((BlockTree.atOrAbove templateHeight blocks).length ≤ 6 →
      (recentBlocks server templateHeight calls).1.txids =
        BlockTree.txidsOf (BlockTree.atOrAbove templateHeight blocks)) ∧
    (6 < (BlockTree.atOrAbove templateHeight blocks).length →
      ∃ txids n tipHeight, (recentBlocks server templateHeight calls).1 =
        .truncated txids n tipHeight ∧
        txids ⊆ BlockTree.txidsOf (BlockTree.atOrAbove templateHeight blocks)) ∧
    (recentBlocks server templateHeight calls).2 ≤ calls + 1 + 6 := by
  have hwalk : recentBlocks server templateHeight calls =
      walkFrom server templateHeight (calls + 1) tip ∅ 0 none := by
    rw [recentBlocks, hserves.tip calls]
  have hspec : WalkSpec (BlockTree.atOrAbove templateHeight blocks) ∅
      (0 : UInt32).toNat (calls + 1) (recentBlocks server templateHeight calls) := by
    rw [hwalk]
    exact walkFrom_chain hserves hchain (by decide)
  obtain ⟨hcomplete, htruncated, hfetches⟩ := hspec
  rw [Finset.empty_union] at hcomplete htruncated
  have hcap : maxRecentBlocksScanned.toNat = 6 := rfl
  have hzero : (0 : UInt32).toNat = 0 := rfl
  rw [hcap, hzero, Nat.zero_add] at hcomplete htruncated
  refine ⟨⟨?_, ?_⟩, ?_, htruncated, hfetches⟩
  · rintro ⟨txids, n, tipHeight, hdone⟩
    by_contra hmore
    obtain ⟨txids', n', tipHeight', hcut, -⟩ := htruncated (Nat.lt_of_not_le hmore)
    rw [hdone] at hcut
    cases hcut
  · intro hfew
    exact ⟨_, hcomplete hfew⟩
  · intro hfew
    obtain ⟨n, tipHeight, hdone⟩ := hcomplete hfew
    rw [hdone]
    rfl

/-! ## What a walk finds -/

/-- A transaction is in one of the next `n` blocks back from a hash, down to a
height. All of them up to its own are answered, from the given call on. -/
inductive Bitcoind.Reaches (server : Bitcoind) (height : UInt32) (txid : Bytes32) :
    ℕ → ℕ → String → Prop where
  | here {n calls : ℕ} {hash : String} {block : BlockTxids}
      (hanswer : getBlockTxids (server.getblock calls hash) = .ok block)
      (hheight : ¬ block.height < height) (hmem : txid ∈ block.txids) :
      Reaches server height txid (n + 1) calls hash
  | parent {n calls : ℕ} {hash prev : String} {block : BlockTxids}
      (hanswer : getBlockTxids (server.getblock calls hash) = .ok block)
      (habove : height < block.height)
      (hprev : block.previousBlockHash = some prev)
      (hrest : Reaches server height txid n (calls + 1) prev) :
      Reaches server height txid (n + 1) calls hash

/-- A lookup whose tip is answered reaches a transaction from it, within the
blocks it may scan. -/
def Bitcoind.Finds (server : Bitcoind) (height : UInt32) (txid : Bytes32) : Prop :=
  ∃ tip, call (server.getbestblockhash 1) = .ok tip ∧
    server.Reaches height txid maxRecentBlocksScanned.toNat 2 tip

section

variable {n : ℕ} {txid : Bytes32}

end

/-! ## Two blocks -/

/-- A tip at height one on a genesis block. -/
def twoBlockTree : BlockTree where
  block hash :=
    if hash = "tip" then some ⟨1, [.fill 1], some "genesis"⟩
    else if hash = "genesis" then some ⟨0, [.fill 0], none⟩
    else none
  parent := by
    intro hash b prev hblock hprev
    by_cases htip : hash = "tip"
    · rw [if_pos htip, Option.some.injEq] at hblock
      subst hblock
      cases hprev
      exact ⟨⟨0, [.fill 0], none⟩, rfl, rfl⟩
    · rw [if_neg htip] at hblock
      by_cases hgenesis : hash = "genesis"
      · rw [if_pos hgenesis, Option.some.injEq] at hblock
        subst hblock
        cases hprev
      · rw [if_neg hgenesis] at hblock
        cases hblock

/-- The server that serves the two blocks. -/
def twoBlockServer : Bitcoind where
  getmempoolinfo _ := .error "not asked"
  getbestblockhash _ := .ok ⟨some "tip", none⟩
  getblock _ hash :=
    match twoBlockTree.block hash with
    | some block => .ok ⟨some ⟨block.height, block.txids.map displayHex,
        block.previousBlockHash⟩, none⟩
    | none => .error "Block not found"
  getmempoolentry _ _ := .error "not asked"

theorem twoBlockServer_serves : twoBlockServer.Serves twoBlockTree "tip" where
  tip := fun _ => rfl
  block := by
    intro calls hash block hblock
    simp [twoBlockServer, hblock, call]

/-- Of the two blocks the walk for a template of height one reads the tip only. -/
theorem recentBlocks_twoBlocks :
    (recentBlocks twoBlockServer 1 0).1.txids = {Bytes32.fill 1} := by
  have hchain : twoBlockTree.Chain "tip"
      [⟨1, [.fill 1], some "genesis"⟩, ⟨0, [.fill 0], none⟩] :=
    .link rfl rfl (.genesis rfl rfl)
  have hwalk := recentBlocks_chain twoBlockServer_serves hchain 1 0
  exact hwalk.2.1 (by decide)

end ReserveGrid.Verifier
