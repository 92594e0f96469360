import ReserveGrid.Bitcoin.Transaction
import ReserveGrid.Support.Merkle
import ReserveGrid.Support.Sha256

/-!
# The Bitcoin library

The functions the services take from the Bitcoin library are a parameter of
the development. What is relied on of them is gathered in
`RustBitcoin.Lawful`: they follow the consensus encoding, a txid is the double
hash of the legacy serialisation, and weights and roots are those of the BIPs.
The library's own definitions of these are `RustBitcoin.reference`.

Parsing is relied on only up to the size of a block of maximum weight. The
library refuses some larger inputs.
-/

namespace ReserveGrid.Bitcoin

open Support

/-- Double SHA-256, over any hash function in the place of SHA-256. -/
def sha256d (sha : Bytes → Bytes32) (bs : Bytes) : Bytes32 :=
  sha (sha bs).toBytes

/-- A node of the merkle tree: the hash of its two children. -/
def merkleNode (sha : Bytes → Bytes32) (l r : Bytes32) : Bytes32 :=
  sha256d sha (l.toBytes ++ r.toBytes)

/-- The most bytes a block within the weight limit serialises to. -/
def maxBlockSize : ℕ := 4000000

structure RustBitcoin where
  deserializeTx : Bytes → Option Transaction
  deserializeBlock : Bytes → Option Block
  serializeBlock : Block → Bytes
  computeTxid : Transaction → Bytes32
  computeMerkleRoot : Block → Option Bytes32
  witnessRoot : Block → Option Bytes32
  txWeight : Transaction → ℕ
  blockWeight : Block → ℕ
  countSigopsLegacy : Bytes → ℕ

/-! ## The library's definitions -/

def Transaction.txid (sha : Bytes → Bytes32) (tx : Transaction) : Bytes32 :=
  sha256d sha tx.legacyEncode

def Transaction.wtxid (sha : Bytes → Bytes32) (tx : Transaction) : Bytes32 :=
  sha256d sha tx.encode

/-- BIP 141 weight: three times the size without witnesses plus the size. -/
def Transaction.weight (tx : Transaction) : ℕ :=
  tx.legacyEncode.length * 3 + tx.encode.length

def Block.baseSize (b : Block) : ℕ :=
  80 + (compactSizeEncode b.txdata.length).length +
    (b.txdata.map fun tx => tx.legacyEncode.length).sum

def Block.totalSize (b : Block) : ℕ :=
  80 + (compactSizeEncode b.txdata.length).length +
    (b.txdata.map fun tx => tx.encode.length).sum

def Block.weight (b : Block) : ℕ := b.baseSize * 3 + b.totalSize

def Block.merkleRootOfTxids (sha : Bytes → Bytes32) (b : Block) :
    Option Bytes32 :=
  Merkle.root (merkleNode sha) (b.txdata.map (Transaction.txid sha))

/-- The leaves of the witness tree: zero in the place of the coinbase. -/
def witnessLeaves (sha : Bytes → Bytes32) : List Transaction → List Bytes32
  | [] => []
  | _ :: txs => Bytes32.zero :: txs.map (Transaction.wtxid sha)

def Block.witnessRootOfWtxids (sha : Bytes → Bytes32) (b : Block) :
    Option Bytes32 :=
  Merkle.root (merkleNode sha) (witnessLeaves sha b.txdata)

/-- Drop the data of a push with a length field of `width` bytes. -/
def skipPush (width : ℕ) (bs : Bytes) : Option Bytes :=
  if width ≤ bs.length ∧ leNat (bs.take width) ≤ (bs.drop width).length then
    some ((bs.drop width).drop (leNat (bs.take width)))
  else none

/-- Legacy signature operations of a script: one for each signature check,
twenty for each multisignature check, up to the first truncated push. The
script is read with one unit of fuel a byte. -/
def sigopsFrom : ℕ → Bytes → ℕ
  | 0, _ => 0
  | _, [] => 0
  | fuel + 1, op :: bs =>
      if op ≤ 0x4b then
        if op.toNat ≤ bs.length then sigopsFrom fuel (bs.drop op.toNat) else 0
      else if op = 0x4c ∨ op = 0x4d ∨ op = 0x4e then
        match skipPush (if op = 0x4c then 1 else if op = 0x4d then 2 else 4) bs with
        | some rest => sigopsFrom fuel rest
        | none => 0
      else if op = 0xac ∨ op = 0xad then 1 + sigopsFrom fuel bs
      else if op = 0xae ∨ op = 0xaf then 20 + sigopsFrom fuel bs
      else sigopsFrom fuel bs

def scriptSigops (script : Bytes) : ℕ := sigopsFrom script.length script

namespace RustBitcoin

/-- What the services rely on. -/
structure Lawful (btc : RustBitcoin) (sha : Bytes → Bytes32) : Prop where
  deserializeTx_canonical : ∀ bs tx, btc.deserializeTx bs = some tx →
    transaction.decodeAll bs = some tx
  deserializeTx_complete : ∀ bs tx, bs.length ≤ maxBlockSize →
    transaction.decodeAll bs = some tx → btc.deserializeTx bs = some tx
  deserializeBlock_canonical : ∀ bs b, btc.deserializeBlock bs = some b →
    block.decodeAll bs = some b
  deserializeBlock_complete : ∀ bs b, bs.length ≤ maxBlockSize →
    block.decodeAll bs = some b → btc.deserializeBlock bs = some b
  serializeBlock_eq : ∀ b, btc.serializeBlock b = block.encode b
  computeTxid_eq : ∀ tx, btc.computeTxid tx = tx.txid sha
  computeMerkleRoot_eq : ∀ b, btc.computeMerkleRoot b = b.merkleRootOfTxids sha
  witnessRoot_eq : ∀ b, btc.witnessRoot b = b.witnessRootOfWtxids sha
  txWeight_eq : ∀ tx, btc.txWeight tx = tx.weight
  blockWeight_eq : ∀ b, btc.blockWeight b = b.weight
  countSigopsLegacy_eq : ∀ script, btc.countSigopsLegacy script = scriptSigops script

/-- The library's own definitions, without its limits on sizes. -/
def reference (sha : Bytes → Bytes32) : RustBitcoin where
  deserializeTx := transaction.decodeAll
  deserializeBlock := block.decodeAll
  serializeBlock := block.encode
  computeTxid := Transaction.txid sha
  computeMerkleRoot := Block.merkleRootOfTxids sha
  witnessRoot := Block.witnessRootOfWtxids sha
  txWeight := Transaction.weight
  blockWeight := Block.weight
  countSigopsLegacy := scriptSigops

theorem reference_lawful (sha : Bytes → Bytes32) :
    (reference sha).Lawful sha where
  deserializeTx_canonical _ _ h := h
  deserializeTx_complete _ _ _ h := h
  deserializeBlock_canonical _ _ h := h
  deserializeBlock_complete _ _ _ h := h
  serializeBlock_eq _ := rfl
  computeTxid_eq _ := rfl
  computeMerkleRoot_eq _ := rfl
  witnessRoot_eq _ := rfl
  txWeight_eq _ := rfl
  blockWeight_eq _ := rfl
  countSigopsLegacy_eq _ := rfl

end RustBitcoin

/-! ## Legacy bytes -/

theorem txid_eq_of_strip {sha : Bytes → Bytes32} {tx tx' : Transaction}
    (h : tx.strip = tx'.strip) :
    tx.txid sha = tx'.txid sha := by
  have hversion : tx.version = tx'.version := congrArg (·.version) h
  have hinput : tx.input.map TxIn.strip = tx'.input.map TxIn.strip :=
    congrArg (·.input) h
  have houtput : tx.output = tx'.output := congrArg (·.output) h
  have hlock : tx.lockTime = tx'.lockTime := congrArg (·.lockTime) h
  rw [Transaction.txid, Transaction.txid, Transaction.legacyEncode,
    Transaction.legacyEncode, hversion, hinput, houtput, hlock]

/-- Bytes whose fifth byte is not the marker are a legacy serialisation. -/
theorem legacyEncode_of_decodeAll {bs : Bytes} {tx : Transaction}
    (h : transaction.decodeAll bs = some tx) (hmarker : bs[4]? ≠ some 0x00) :
    bs = tx.legacyEncode ∧ tx.hasWitness = false := by
  obtain ⟨-, hbs⟩ := transaction.decodeAll_eq_some.mp h
  change bs = tx.encode at hbs
  have hlegacy : tx.usesSegwitSerialization = false := by
    by_contra hsegwit
    rw [Bool.not_eq_false] at hsegwit
    rw [Transaction.encode, if_pos hsegwit] at hbs
    refine hmarker ?_
    rw [hbs, Transaction.segwitEncode, List.getElem?_append_right]
    · rfl
    · rfl
  rw [Transaction.encode, if_neg (by simp [hlegacy])] at hbs
  rw [Transaction.usesSegwitSerialization, Bool.or_eq_false_iff] at hlegacy
  exact ⟨hbs, hlegacy.1⟩

/-- The merkle root stands at bytes 36 to 68 of a serialised block. -/
theorem merkleRoot_bytes_of_encode (b : Block) :
    ((block.encode b).drop 36).take 32 = b.header.merkleRoot.toBytes := by
  have hsplit : block.encode b =
      (Codec.u32.encode b.header.version.toUInt32 ++
        b.header.prevBlockhash.toBytes) ++ (b.header.merkleRoot.toBytes ++
        (Codec.u32.encode b.header.time ++ (Codec.u32.encode b.header.bits ++
          Codec.u32.encode b.header.nonce) ++
          (Codec.counted compactSize transaction).encode b.txdata)) := by
    simp [block, header, Codec.pair, Codec.map, Codec.bytes32]
  have hlength : (Codec.u32.encode b.header.version.toUInt32 ++
      b.header.prevBlockhash.toBytes).length = 36 := by
    rw [List.length_append, Bytes32.length_toBytes]
    rfl
  rw [hsplit, ← hlength, List.drop_left,
    ← Bytes32.length_toBytes b.header.merkleRoot, List.take_left]

end ReserveGrid.Bitcoin
