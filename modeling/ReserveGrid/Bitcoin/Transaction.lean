import ReserveGrid.Support.Codec

/-!
# Bitcoin transactions and blocks

The data types of the Bitcoin library and its consensus encoding: little-endian
numbers, minimal compact sizes, and the two serialisations of a transaction.
The extended one of BIP 144 starts where the legacy one has its input count,
with a zero, and carries the witnesses. It is used when some input has a
witness, and for a transaction without inputs, which the legacy form could not
tell apart from it.
-/

namespace ReserveGrid.Bitcoin

open Support

/-! ## Data types -/

structure OutPoint where
  txid : Bytes32
  vout : UInt32
  deriving DecidableEq

/-- The previous output of a coinbase input. -/
def OutPoint.null : OutPoint := ⟨Bytes32.zero, 0xffffffff⟩

def OutPoint.isNull (o : OutPoint) : Bool := o = OutPoint.null

structure TxIn where
  previousOutput : OutPoint
  scriptSig : Bytes
  sequence : UInt32
  witness : List Bytes
  deriving DecidableEq

structure TxOut where
  value : UInt64
  scriptPubkey : Bytes
  deriving DecidableEq

/-- A transaction. The version is kept as the 32 bits it is encoded in. -/
structure Transaction where
  version : UInt32
  input : List TxIn
  output : List TxOut
  lockTime : UInt32
  deriving DecidableEq

/-- A block header. The version is a signed number. -/
structure Header where
  version : Int32
  prevBlockhash : Bytes32
  merkleRoot : Bytes32
  time : UInt32
  bits : UInt32
  nonce : UInt32
  deriving DecidableEq

structure Block where
  header : Header
  txdata : List Transaction
  deriving DecidableEq

/-- The input without its witness. -/
def TxIn.strip (i : TxIn) : TxIn := { i with witness := [] }

/-- The transaction without its witnesses. -/
def Transaction.strip (tx : Transaction) : Transaction :=
  { tx with input := tx.input.map TxIn.strip }

/-- Some input carries a witness. -/
def Transaction.hasWitness (tx : Transaction) : Bool :=
  tx.input.any fun i => !i.witness.isEmpty

def Transaction.usesSegwitSerialization (tx : Transaction) : Bool :=
  tx.hasWitness || tx.input.isEmpty

/-! ## Compact sizes -/

def compactSizeEncode (n : ℕ) : Bytes :=
  if n < 0xfd then [UInt8.ofNat n]
  else if n < 0x10000 then 0xfd :: leBytes 2 n
  else if n < 0x100000000 then 0xfe :: leBytes 4 n
  else 0xff :: leBytes 8 n

/-- A number of `width` bytes that no shorter form could hold. -/
def compactSizeTail (width least : ℕ) (bs : Bytes) : Option (ℕ × Bytes) :=
  ((Codec.leNum width).decode bs).bind fun r =>
    if least ≤ r.1 then some r else none

def compactSizeDecode : Bytes → Option (ℕ × Bytes)
  | [] => none
  | b :: bs =>
      if b = 0xff then compactSizeTail 8 0x100000000 bs
      else if b = 0xfe then compactSizeTail 4 0x10000 bs
      else if b = 0xfd then compactSizeTail 2 0xfd bs
      else some (b.toNat, bs)

theorem compactSizeDecode_fd (bs : Bytes) :
    compactSizeDecode (0xfd :: bs) = compactSizeTail 2 0xfd bs := by
  simp [compactSizeDecode]

theorem compactSizeDecode_fe (bs : Bytes) :
    compactSizeDecode (0xfe :: bs) = compactSizeTail 4 0x10000 bs := by
  simp [compactSizeDecode]

theorem compactSizeDecode_ff (bs : Bytes) :
    compactSizeDecode (0xff :: bs) = compactSizeTail 8 0x100000000 bs := by
  simp [compactSizeDecode]

theorem compactSizeTail_leBytes {width least n : ℕ} (hleast : least ≤ n)
    (hn : n < 256 ^ width) (rest : Bytes) :
    compactSizeTail width least (leBytes width n ++ rest) = some (n, rest) := by
  have h := (Codec.leNum width).decode_encode n hn rest
  change (Codec.leNum width).decode (leBytes width n ++ rest) = _ at h
  rw [compactSizeTail, h, Option.bind_some, if_pos hleast]

theorem compactSizeTail_eq_some {width least n : ℕ} {bs rest : Bytes}
    (h : compactSizeTail width least bs = some (n, rest)) :
    least ≤ n ∧ n < 256 ^ width ∧ bs = leBytes width n ++ rest := by
  obtain ⟨⟨m, rest'⟩, hm, hif⟩ := Option.bind_eq_some_iff.mp h
  split at hif
  · rename_i hleast
    cases hif
    obtain ⟨hvalid, hbs⟩ := (Codec.leNum width).encode_decode _ _ _ hm
    exact ⟨hleast, hvalid, hbs⟩
  · simp at hif

theorem compactSizeDecode_encode {n : ℕ} (hn : n < 2 ^ 64) (rest : Bytes) :
    compactSizeDecode (compactSizeEncode n ++ rest) = some (n, rest) := by
  unfold compactSizeEncode
  split
  · rename_i h
    have hbyte : (UInt8.ofNat n).toNat = n := by
      rw [UInt8.toNat_ofNat']
      omega
    have hff : UInt8.ofNat n ≠ 0xff := by
      rw [ne_eq, ← UInt8.toNat_inj, hbyte]
      simp only [UInt8.reduceToNat]
      omega
    have hfe : UInt8.ofNat n ≠ 0xfe := by
      rw [ne_eq, ← UInt8.toNat_inj, hbyte]
      simp only [UInt8.reduceToNat]
      omega
    have hfd : UInt8.ofNat n ≠ 0xfd := by
      rw [ne_eq, ← UInt8.toNat_inj, hbyte]
      simp only [UInt8.reduceToNat]
      omega
    rw [List.singleton_append, compactSizeDecode, if_neg hff, if_neg hfe,
      if_neg hfd, hbyte]
  · split
    · rw [List.cons_append, compactSizeDecode_fd]
      exact compactSizeTail_leBytes (by omega) (by omega) rest
    · split
      · rw [List.cons_append, compactSizeDecode_fe]
        exact compactSizeTail_leBytes (by omega) (by omega) rest
      · rw [List.cons_append, compactSizeDecode_ff]
        exact compactSizeTail_leBytes (by omega) (by omega) rest

theorem compactSizeEncode_decode {bs rest : Bytes} {n : ℕ}
    (h : compactSizeDecode bs = some (n, rest)) :
    n < 2 ^ 64 ∧ bs = compactSizeEncode n ++ rest := by
  cases bs with
  | nil => simp [compactSizeDecode] at h
  | cons b bs =>
      rw [compactSizeDecode] at h
      split at h
      · rename_i hb
        obtain ⟨hleast, hlt, rfl⟩ := compactSizeTail_eq_some h
        refine ⟨by omega, ?_⟩
        rw [compactSizeEncode, if_neg (by omega), if_neg (by omega),
          if_neg (by omega), hb, List.cons_append]
      · split at h
        · rename_i hb
          obtain ⟨hleast, hlt, rfl⟩ := compactSizeTail_eq_some h
          refine ⟨by omega, ?_⟩
          rw [compactSizeEncode, if_neg (by omega), if_neg (by omega),
            if_pos (by omega), hb, List.cons_append]
        · split at h
          · rename_i hb
            obtain ⟨hleast, hlt, rfl⟩ := compactSizeTail_eq_some h
            refine ⟨by omega, ?_⟩
            rw [compactSizeEncode, if_neg (by omega), if_pos (by omega), hb,
              List.cons_append]
          · rename_i hff hfe hfd
            cases h
            have hlt : b.toNat < 256 := b.toNat_lt
            have hsmall : b.toNat < 0xfd := by
              rw [← UInt8.toNat_inj] at hff hfe hfd
              simp only [UInt8.reduceToNat] at hff hfe hfd
              omega
            refine ⟨by omega, ?_⟩
            rw [compactSizeEncode, if_pos hsmall, UInt8.ofNat_toNat,
              List.singleton_append]

def compactSize : Codec ℕ where
  Valid n := n < 2 ^ 64
  encode := compactSizeEncode
  decode := compactSizeDecode
  decode_encode _ hn rest := compactSizeDecode_encode hn rest
  encode_decode _ _ _ h := compactSizeEncode_decode h

/-! ## Parts of a transaction -/

def varBytes : Codec Bytes := Codec.countedBytes compactSize

def outPoint : Codec OutPoint :=
  (Codec.bytes32.pair Codec.u32).map (fun p => ⟨p.1, p.2⟩)
    (fun o => (o.txid, o.vout)) (fun _ => True)
    (fun _ _ => ⟨⟨trivial, trivial⟩, rfl⟩) (fun _ _ => ⟨trivial, rfl⟩)

/-- An input as the input list carries it, without its witness. -/
def txIn : Codec TxIn :=
  (outPoint.pair (varBytes.pair Codec.u32)).map
    (fun p => ⟨p.1, p.2.1, p.2.2, []⟩)
    (fun i => (i.previousOutput, i.scriptSig, i.sequence))
    (fun i => i.witness = [] ∧ i.scriptSig.length < 2 ^ 64)
    (fun i h => ⟨⟨trivial, h.2, trivial⟩, by rw [← h.1]⟩)
    (fun _ h => ⟨⟨rfl, h.2.1⟩, rfl⟩)

def txOut : Codec TxOut :=
  (Codec.u64.pair varBytes).map (fun p => ⟨p.1, p.2⟩)
    (fun o => (o.value, o.scriptPubkey))
    (fun o => o.scriptPubkey.length < 2 ^ 64)
    (fun _ h => ⟨⟨trivial, h⟩, rfl⟩) (fun _ h => ⟨h.2, rfl⟩)

def inputs : Codec (List TxIn) := Codec.counted compactSize txIn

def outputs : Codec (List TxOut) := Codec.counted compactSize txOut

/-- The witness stack of one input. -/
def witnessStack : Codec (List Bytes) := Codec.counted compactSize varBytes

/-- Give each input its witness stack. -/
def attachWitnesses (ins : List TxIn) (ws : List (List Bytes)) :
    List TxIn :=
  List.zipWith (fun i w => { i with witness := w }) ins ws

theorem attachWitnesses_strip (ins : List TxIn) :
    attachWitnesses (ins.map TxIn.strip) (ins.map TxIn.witness) = ins := by
  induction ins with
  | nil => rfl
  | cons i ins ih =>
      rw [List.map_cons, List.map_cons, attachWitnesses, List.zipWith_cons_cons]
      exact congrArg₂ List.cons rfl ih

theorem strip_attachWitnesses {ins : List TxIn} {ws : List (List Bytes)}
    (hstrip : ∀ i ∈ ins, i.witness = []) (hlength : ws.length = ins.length) :
    (attachWitnesses ins ws).map TxIn.strip = ins ∧
      (attachWitnesses ins ws).map TxIn.witness = ws := by
  induction ins generalizing ws with
  | nil =>
      rw [List.length_nil, List.length_eq_zero_iff] at hlength
      subst hlength
      exact ⟨rfl, rfl⟩
  | cons i ins ih =>
      cases ws with
      | nil => simp at hlength
      | cons w ws =>
          have hi : i.witness = [] := hstrip i (by simp)
          obtain ⟨h1, h2⟩ := ih (fun j hj => hstrip j (by simp [hj]))
            (by simpa using hlength)
          rw [attachWitnesses, List.zipWith_cons_cons, List.map_cons,
            List.map_cons]
          refine ⟨congrArg₂ List.cons ?_ h1, congrArg₂ List.cons rfl h2⟩
          rw [TxIn.strip, ← hi]

/-! ## Transactions -/

/-- The serialisation without witnesses, of which the txid is the hash. -/
def Transaction.legacyEncode (tx : Transaction) : Bytes :=
  Codec.u32.encode tx.version ++ (inputs.encode (tx.input.map TxIn.strip) ++
    (outputs.encode tx.output ++ Codec.u32.encode tx.lockTime))

/-- The serialisation of BIP 144. -/
def Transaction.segwitEncode (tx : Transaction) : Bytes :=
  Codec.u32.encode tx.version ++ ([0x00, 0x01] ++
    (inputs.encode (tx.input.map TxIn.strip) ++ (outputs.encode tx.output ++
      ((tx.input.map TxIn.witness).flatMap witnessStack.encode ++
        Codec.u32.encode tx.lockTime))))

def Transaction.encode (tx : Transaction) : Bytes :=
  if tx.usesSegwitSerialization then tx.segwitEncode else tx.legacyEncode

/-- Every length of the transaction has a compact size. -/
structure Transaction.Encodable (tx : Transaction) : Prop where
  inputs : inputs.Valid (tx.input.map TxIn.strip)
  outputs : outputs.Valid tx.output
  witnesses : ∀ i ∈ tx.input, witnessStack.Valid i.witness

/-- What follows the input count of the legacy form. -/
def decodeLegacyRest (version : UInt32) (ins : List TxIn) (bs : Bytes) :
    Option (Transaction × Bytes) :=
  (outputs.decode bs).bind fun r =>
    (Codec.u32.decode r.2).map fun r' => (⟨version, ins, r.1, r'.1⟩, r'.2)

/-- What follows the marker of the extended form. -/
def decodeSegwitRest (version : UInt32) (bs : Bytes) :
    Option (Transaction × Bytes) :=
  (Codec.u8.decode bs).bind fun flag =>
    if flag.1 = 1 then
      ((inputs.pair outputs).decode flag.2).bind fun r =>
        (witnessStack.decodeN r.1.1.length r.2).bind fun ws =>
          if r.1.1 ≠ [] ∧ ∀ w ∈ ws.1, w = [] then none
          else (Codec.u32.decode ws.2).map fun r' =>
            (⟨version, attachWitnesses r.1.1 ws.1, r.1.2, r'.1⟩, r'.2)
    else none

def Transaction.decode (bs : Bytes) : Option (Transaction × Bytes) :=
  (Codec.u32.decode bs).bind fun v =>
    (inputs.decode v.2).bind fun r =>
      if r.1 = [] then decodeSegwitRest v.1 r.2
      else decodeLegacyRest v.1 r.1 r.2

theorem strip_eq_self_of_hasWitness_eq_false {tx : Transaction}
    (h : tx.hasWitness = false) :
    tx.input.map TxIn.strip = tx.input := by
  have hnone : ∀ i ∈ tx.input, i.witness = [] := by
    intro i hi
    have := List.any_eq_false.mp h i hi
    simpa using this
  conv_rhs => rw [← List.map_id tx.input]
  refine List.map_congr_left fun i hi => ?_
  rw [TxIn.strip, ← hnone i hi]
  rfl

theorem decode_legacyEncode {tx : Transaction} (h : tx.Encodable)
    (hlegacy : tx.usesSegwitSerialization = false) (rest : Bytes) :
    Transaction.decode (tx.legacyEncode ++ rest) = some (tx, rest) := by
  have hwitness : tx.hasWitness = false := by
    rw [Transaction.usesSegwitSerialization, Bool.or_eq_false_iff] at hlegacy
    exact hlegacy.1
  have hinput : tx.input ≠ [] := by
    rw [Transaction.usesSegwitSerialization, Bool.or_eq_false_iff] at hlegacy
    simpa using hlegacy.2
  have hstrip := strip_eq_self_of_hasWitness_eq_false hwitness
  simp only [Transaction.decode, Transaction.legacyEncode, List.append_assoc]
  rw [Codec.u32.decode_encode _ trivial, Option.bind_some,
    inputs.decode_encode _ h.inputs, Option.bind_some, hstrip,
    if_neg hinput, decodeLegacyRest, outputs.decode_encode _ h.outputs,
    Option.bind_some, Codec.u32.decode_encode _ trivial]
  rfl

theorem inputs_decode_marker (bs : Bytes) :
    inputs.decode (0x00 :: bs) = some ([], bs) := by
  have h := inputs.decode_encode [] ⟨Nat.zero_lt_succ _, by simp⟩ bs
  exact h

theorem decode_segwitEncode {tx : Transaction} (h : tx.Encodable)
    (hsegwit : tx.usesSegwitSerialization = true) (rest : Bytes) :
    Transaction.decode (tx.segwitEncode ++ rest) = some (tx, rest) := by
  have hbody : (inputs.pair outputs).Valid
      (tx.input.map TxIn.strip, tx.output) := ⟨h.inputs, h.outputs⟩
  have hstacks : ∀ w ∈ tx.input.map TxIn.witness, witnessStack.Valid w := by
    intro w hw
    obtain ⟨i, hi, rfl⟩ := List.mem_map.mp hw
    exact h.witnesses i hi
  have hshown : ¬ (tx.input.map TxIn.strip ≠ [] ∧
      ∀ w ∈ tx.input.map TxIn.witness, w = []) := by
    rintro ⟨hne, hnone⟩
    have hwitness : tx.hasWitness = false := by
      refine List.any_eq_false.mpr fun i hi => ?_
      simpa using hnone i.witness (List.mem_map.mpr ⟨i, hi, rfl⟩)
    rw [Transaction.usesSegwitSerialization, hwitness, Bool.false_or,
      List.isEmpty_iff] at hsegwit
    exact hne (by simp [hsegwit])
  have hflag : ∀ bs, Codec.u8.decode (0x01 :: bs) = some (1, bs) :=
    fun bs => Codec.u8.decode_encode 1 trivial bs
  have hdecodeBody := (inputs.pair outputs).decode_encode _ hbody
    ((tx.input.map TxIn.witness).flatMap witnessStack.encode ++
      (Codec.u32.encode tx.lockTime ++ rest))
  have hdecodeStacks := witnessStack.decodeN_encode _ hstacks
    (Codec.u32.encode tx.lockTime ++ rest)
  rw [List.length_map] at hdecodeStacks
  simp only [Transaction.decode, Transaction.segwitEncode, List.append_assoc,
    List.cons_append, List.nil_append]
  rw [Codec.u32.decode_encode _ trivial, Option.bind_some,
    inputs_decode_marker, Option.bind_some, if_pos rfl, decodeSegwitRest,
    hflag, Option.bind_some, if_pos rfl]
  simp only [Codec.pair, List.append_assoc] at hdecodeBody
  simp only [Codec.pair]
  rw [hdecodeBody, Option.bind_some]
  simp only [List.length_map]
  rw [hdecodeStacks, Option.bind_some, if_neg hshown,
    Codec.u32.decode_encode _ trivial, Option.map_some, attachWitnesses_strip]

theorem inputs_witness_eq_nil {ins : List TxIn} (h : inputs.Valid ins) :
    ∀ i ∈ ins, i.witness = [] :=
  fun i hi => (h.2 i hi).1

theorem decodeLegacyRest_eq_some {version : UInt32} {ins : List TxIn}
    {bs rest : Bytes} {tx : Transaction} (hins : inputs.Valid ins)
    (hne : ins ≠ []) (h : decodeLegacyRest version ins bs = some (tx, rest)) :
    tx.Encodable ∧ tx.usesSegwitSerialization = false ∧
      Codec.u32.encode version ++ (inputs.encode ins ++ bs) =
        tx.legacyEncode ++ rest := by
  obtain ⟨⟨outs, bs1⟩, houts, hrest⟩ := Option.bind_eq_some_iff.mp h
  obtain ⟨⟨lock, bs2⟩, hlock, heq⟩ := Option.map_eq_some_iff.mp hrest
  cases heq
  obtain ⟨hvouts, rfl⟩ := outputs.encode_decode _ _ _ houts
  obtain ⟨-, hbs1⟩ := Codec.u32.encode_decode _ _ _ hlock
  change bs1 = _ at hbs1
  subst hbs1
  have hnone := inputs_witness_eq_nil hins
  have hwitness : Transaction.hasWitness ⟨version, ins, outs, lock⟩ = false :=
    List.any_eq_false.mpr fun i hi => by simp [hnone i hi]
  have hstrip := strip_eq_self_of_hasWitness_eq_false hwitness
  refine ⟨⟨?_, hvouts, ?_⟩, ?_, ?_⟩
  · rwa [hstrip]
  · intro i hi
    rw [hnone i hi]
    exact ⟨Nat.zero_lt_succ _, by simp⟩
  · rw [Transaction.usesSegwitSerialization, hwitness, Bool.false_or]
    simpa using hne
  · rw [Transaction.legacyEncode, hstrip]
    simp only [List.append_assoc]

theorem decodeSegwitRest_eq_some {version : UInt32} {bs rest : Bytes}
    {tx : Transaction} (h : decodeSegwitRest version bs = some (tx, rest)) :
    tx.Encodable ∧ tx.usesSegwitSerialization = true ∧
      Codec.u32.encode version ++ (0x00 :: bs) = tx.segwitEncode ++ rest := by
  obtain ⟨⟨flag, bs1⟩, hflag, hif⟩ := Option.bind_eq_some_iff.mp h
  split at hif
  · rename_i hone
    change flag = 1 at hone
    subst hone
    obtain ⟨⟨⟨ins, outs⟩, bs2⟩, hbody, hws⟩ := Option.bind_eq_some_iff.mp hif
    obtain ⟨⟨ws, bs3⟩, hstacks, hshown⟩ := Option.bind_eq_some_iff.mp hws
    split at hshown
    · simp at hshown
    · rename_i hsome
      obtain ⟨⟨lock, bs4⟩, hlock, heq⟩ := Option.map_eq_some_iff.mp hshown
      cases heq
      obtain ⟨-, rfl⟩ := Codec.u8.encode_decode _ _ _ hflag
      obtain ⟨⟨hvins, hvouts⟩, hbs1⟩ :=
        (inputs.pair outputs).encode_decode _ _ _ hbody
      obtain ⟨hlength, hvws, hbs2⟩ := witnessStack.encode_decodeN hstacks
      obtain ⟨-, hbs3⟩ := Codec.u32.encode_decode _ _ _ hlock
      change bs1 = _ at hbs1
      change bs2 = _ at hbs2
      change bs3 = _ at hbs3
      dsimp only at hlength hvins hvouts hsome
      subst hbs3 hbs2 hbs1
      obtain ⟨hstrip, hwitness⟩ := strip_attachWitnesses
        (inputs_witness_eq_nil hvins) hlength
      refine ⟨⟨?_, hvouts, ?_⟩, ?_, ?_⟩
      · rwa [hstrip]
      · intro i hi
        have hmem : i.witness ∈ ws := by
          rw [← hwitness]
          exact List.mem_map.mpr ⟨i, hi, rfl⟩
        exact hvws _ hmem
      · by_contra hno
        rw [Bool.not_eq_true, Transaction.usesSegwitSerialization,
          Bool.or_eq_false_iff] at hno
        refine hsome ⟨?_, ?_⟩
        · intro hnil
          rw [← hstrip, List.map_eq_nil_iff] at hnil
          simp [hnil] at hno
        · intro w hw
          rw [← hwitness] at hw
          obtain ⟨i, hi, rfl⟩ := List.mem_map.mp hw
          have := List.any_eq_false.mp hno.1 i hi
          simpa using this
      · rw [Transaction.segwitEncode, hstrip, hwitness]
        simp only [Codec.pair, List.append_assoc, List.cons_append,
          List.nil_append]
        rfl
  · simp at hif

theorem decode_eq_some {bs rest : Bytes} {tx : Transaction}
    (h : Transaction.decode bs = some (tx, rest)) :
    tx.Encodable ∧ bs = tx.encode ++ rest := by
  obtain ⟨⟨version, bs1⟩, hversion, hrest⟩ := Option.bind_eq_some_iff.mp h
  obtain ⟨⟨ins, bs2⟩, hins, hif⟩ := Option.bind_eq_some_iff.mp hrest
  obtain ⟨-, rfl⟩ := Codec.u32.encode_decode _ _ _ hversion
  obtain ⟨hvins, hbs1⟩ := inputs.encode_decode _ _ _ hins
  change bs1 = _ at hbs1
  subst hbs1
  split at hif
  · rename_i hnil
    change ins = [] at hnil
    subst hnil
    obtain ⟨hvalid, hsegwit, hbs⟩ := decodeSegwitRest_eq_some hif
    refine ⟨hvalid, ?_⟩
    rw [Transaction.encode, if_pos hsegwit, ← hbs]
    rfl
  · rename_i hne
    obtain ⟨hvalid, hlegacy, hbs⟩ := decodeLegacyRest_eq_some hvins hne hif
    refine ⟨hvalid, ?_⟩
    rw [Transaction.encode, if_neg (by simp [hlegacy]), ← hbs]

def transaction : Codec Transaction where
  Valid := Transaction.Encodable
  encode := Transaction.encode
  decode := Transaction.decode
  decode_encode tx h rest := by
    unfold Transaction.encode
    split
    · rename_i hsegwit
      exact decode_segwitEncode h hsegwit rest
    · rename_i hlegacy
      exact decode_legacyEncode h (by simpa using hlegacy) rest
  encode_decode _ _ _ h := decode_eq_some h

/-- The legacy serialisation determines everything but the witnesses. -/
theorem strip_eq_of_legacyEncode_eq {x y : Transaction} (hx : x.Encodable)
    (hy : y.Encodable) (h : x.legacyEncode = y.legacyEncode) :
    x.strip = y.strip := by
  have hfields : (x.version, x.input.map TxIn.strip, x.output, x.lockTime) =
      (y.version, y.input.map TxIn.strip, y.output, y.lockTime) :=
    (Codec.u32.pair (inputs.pair (outputs.pair Codec.u32))).eq_of_encode_eq
      ⟨trivial, hx.inputs, hx.outputs, trivial⟩
      ⟨trivial, hy.inputs, hy.outputs, trivial⟩ h
  simp only [Prod.mk.injEq] at hfields
  obtain ⟨hversion, hinput, houtput, hlock⟩ := hfields
  rw [Transaction.strip, Transaction.strip, hversion, hinput, houtput, hlock]

/-! ## Blocks -/

def header : Codec Header :=
  (Codec.u32.pair (Codec.bytes32.pair (Codec.bytes32.pair
    (Codec.u32.pair (Codec.u32.pair Codec.u32))))).map
    (fun p => ⟨p.1.toInt32, p.2.1, p.2.2.1, p.2.2.2.1, p.2.2.2.2.1,
      p.2.2.2.2.2⟩)
    (fun h => (h.version.toUInt32, h.prevBlockhash, h.merkleRoot, h.time,
      h.bits, h.nonce))
    (fun _ => True)
    (fun _ _ => ⟨⟨trivial, trivial, trivial, trivial, trivial, trivial⟩, rfl⟩)
    (fun _ _ => ⟨trivial, rfl⟩)

def block : Codec Block :=
  (header.pair (Codec.counted compactSize transaction)).map
    (fun p => ⟨p.1, p.2⟩) (fun b => (b.header, b.txdata))
    (fun b => b.txdata.length < 2 ^ 64 ∧ ∀ tx ∈ b.txdata, tx.Encodable)
    (fun _ h => ⟨⟨trivial, h.1, h.2⟩, rfl⟩)
    (fun _ h => ⟨⟨h.2.1, h.2.2⟩, rfl⟩)

end ReserveGrid.Bitcoin
