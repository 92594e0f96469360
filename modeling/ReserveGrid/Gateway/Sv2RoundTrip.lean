import ReserveGrid.Gateway.Sv2Codec

/-!
# Messages survive the wire

Each field of the wire format has a codec that its reader and its writer agree
with, and each message is its fields one after another. So a message that fits
its fields is read back as it was written, and what is read is written back as
it was, except that the one boolean of the protocol is true for any byte but
zero.
-/

namespace ReserveGrid.Gateway.Sv2

open Support Reader Writer

/-! ## The fields of the wire format -/

/-- A length in one byte. -/
def len8 : Codec ℕ :=
  Codec.u8.map UInt8.toNat UInt8.ofNat (· < 256)
    (fun _ hn => ⟨trivial, UInt8.toNat_ofNat_of_lt' hn⟩)
    (fun b _ => ⟨b.toNat_lt, UInt8.ofNat_toNat⟩)

/-- A length in two bytes. -/
def len16 : Codec ℕ :=
  Codec.u16.map UInt16.toNat UInt16.ofNat (· < 65536)
    (fun _ hn => ⟨trivial, UInt16.toNat_ofNat_of_lt' hn⟩)
    (fun b _ => ⟨b.toNat_lt, UInt16.ofNat_toNat⟩)

def f32 : Codec F32 :=
  Codec.u32.map F32.mk F32.bits (fun _ => True)
    (fun _ _ => ⟨trivial, rfl⟩) (fun _ _ => ⟨trivial, rfl⟩)

def b0255 : Codec Bytes := .countedBytes len8

def b032 : Codec Bytes := .countedBytes (len8.restrict (· ≤ 32))

def b064k : Codec Bytes := .countedBytes len16

def str0255 : Codec String := b0255.text

def seqU256 : Codec (List Bytes32) := .counted len8 .bytes32

def optionU32 : Codec (Option UInt32) := Codec.u32.optional

/-! ## Fields as they are read -/

theorem reads_readBytes (n : ℕ) : Reads (Codec.bytesN n) (readBytes n) := by
  intro bs
  change ((if bs.length < n then _ else _ : Reader Unit).run bs >>= _).toOption
    = Option.map _ (if n ≤ bs.length then _ else none)
  by_cases hn : n ≤ bs.length
  · rw [if_pos hn, if_neg (Nat.not_lt.mpr hn)]
    rfl
  · rw [if_neg hn, if_pos (Nat.lt_of_not_le hn)]
    rfl

theorem toOption_readBytes (n : ℕ) (bs : Bytes) :
    ((readBytes n).run bs).toOption = (Codec.bytesN n).decode bs := by
  rw [reads_readBytes n bs]
  exact Option.map_id'

theorem reads_readU8 : Reads Codec.u8 readU8 :=
  .map (.map (.last (reads_readBytes 1)))

theorem reads_readU16 : Reads Codec.u16 readU16 :=
  .map (.map (.last (reads_readBytes 2)))

theorem reads_readU32 : Reads Codec.u32 readU32 :=
  .map (.map (.last (reads_readBytes 4)))

theorem reads_readU64 : Reads Codec.u64 readU64 :=
  .map (.map (.last (reads_readBytes 8)))

theorem reads_readF32 : Reads f32 readF32 :=
  .map (.last reads_readU32)

theorem reads_readU256 : Reads Codec.bytes32 readU256 := by
  intro bs
  change (((readBytes 32) >>= _ : Reader Bytes32).run bs).toOption = _
  rw [(reads_readBytes 32).orThrow]
  exact Option.map_id'.symm

/-- A byte string after its length. -/
theorem reads_counted {α : Type} {c : Codec α} {r : Reader α} (toNat : α → ℕ)
    {of : ℕ → α} {Valid : ℕ → Prop}
    {hof : ∀ n, Valid n → c.Valid (of n) ∧ toNat (of n) = n}
    {hout : ∀ a, c.Valid a → Valid (toNat a) ∧ of (toNat a) = a}
    (h : Reads c r) :
    Reads (.countedBytes (c.map toNat of Valid hof hout))
      (do let len ← r; readBytes (toNat len)) := by
  intro bs
  change _ = Option.map _ (((c.decode bs).map _).bind _)
  rw [h.toOption_bind, Option.bind_map, Option.map_bind]
  apply congrArg
  funext p
  exact reads_readBytes _ _

theorem reads_readB0255 : Reads b0255 readB0255 :=
  reads_counted UInt8.toNat reads_readU8

theorem reads_readB064k : Reads b064k readB064k :=
  reads_counted UInt16.toNat reads_readU16

theorem reads_readB032 : Reads b032 readB032 := by
  intro bs
  change ((readU8 >>= _ : Reader Bytes).run bs).toOption =
    Option.map _ ((Option.filter _ ((Codec.u8.decode bs).map _)).bind _)
  rw [reads_readU8.toOption_bind]
  cases Codec.u8.decode bs with
  | none => rfl
  | some p =>
      by_cases hlen : p.1.toNat ≤ 32
      · have hnot : ¬ 32 < p.1.toNat := Nat.not_lt.mpr hlen
        simp [Option.filter, hlen, hnot, toOption_readBytes]
      · have hlt : 32 < p.1.toNat := Nat.lt_of_not_le hlen
        simp only [Option.map_some, Option.bind_some, Option.filter, hlen, hlt,
          decide_false, if_true, Bool.false_eq_true, if_false]
        rfl

theorem reads_readStr0255 : Reads str0255 readStr0255 := by
  intro bs
  change ((readU8 >>= _ : Reader String).run bs).toOption =
    Option.map _ ((((Codec.u8.decode bs).map _).bind _).bind _)
  rw [reads_readU8.toOption_bind]
  cases Codec.u8.decode bs with
  | none => rfl
  | some p =>
      simp only [Option.map_some, Option.bind_some]
      rw [(reads_readBytes _).orThrow]
      exact Option.map_id'.symm

theorem encode_u8 (b : UInt8) : Codec.u8.encode b = [b] :=
  congrArg (· :: []) UInt8.ofNat_toNat

theorem decode_u8_cons (b : UInt8) (rest : Bytes) :
    Codec.u8.decode (b :: rest) = some (b, rest) := by
  have hdecode := Codec.u8.decode_encode b trivial rest
  rwa [encode_u8] at hdecode

theorem reads_readOptionU32 : Reads optionU32 readOptionU32 := by
  intro bs
  change ((readU8 >>= _ : Reader (Option UInt32)).run bs).toOption =
    Option.map _ (Codec.u32.optional.decode bs)
  rw [reads_readU8.toOption_bind]
  cases bs with
  | nil => rfl
  | cons tag rest =>
      rw [decode_u8_cons, Option.bind_some]
      by_cases hnone : tag = 0
      · subst hnone
        rfl
      by_cases hsome : tag = 1
      · subst hsome
        change ((readU32 >>= _ : Reader (Option UInt32)).run rest).toOption =
          Option.map _ ((Codec.u32.decode rest).map _)
        rw [reads_readU32.toOption_bind]
        cases Codec.u32.decode rest with
        | none => rfl
        | some p => rfl
      · simp only [hnone, hsome, if_false]
        rw [Codec.optional_decode_other hnone hsome]
        rfl

theorem reads_readSeqU256 : Reads seqU256 readSeqU256 := by
  intro bs
  change ((readU8 >>= _ : Reader (List Bytes32)).run bs).toOption =
    Option.map _ (((Codec.u8.decode bs).map _).bind _)
  rw [reads_readU8.toOption_bind, Option.bind_map, Option.map_bind]
  apply congrArg
  funext p
  rw [reads_readU256.times]
  exact Option.map_id'.symm

/-! ## Fields as they are written -/

theorem writes_total {α : Type} {c : Codec α} {w : α → Writer Unit}
    (hvalid : ∀ a, c.Valid a)
    (h : ∀ a buf, (w a).run buf = .ok ((), buf ++ c.encode a)) : Writes c w :=
  ⟨fun a buf _ => h a buf, fun a _ hnot => absurd (hvalid a) hnot⟩

theorem writes_writeU8 : Writes Codec.u8 writeU8 :=
  writes_total (fun _ => trivial) fun _ _ => rfl

theorem writes_writeU16 : Writes Codec.u16 writeU16 :=
  writes_total (fun _ => trivial) fun _ _ => rfl

theorem writes_writeU32 : Writes Codec.u32 writeU32 :=
  writes_total (fun _ => trivial) fun _ _ => rfl

theorem writes_writeU64 : Writes Codec.u64 writeU64 :=
  writes_total (fun _ => trivial) fun _ _ => rfl

theorem writes_writeF32 : Writes f32 writeF32 :=
  writes_total (fun _ => trivial) fun _ _ => rfl

theorem writes_writeU256 : Writes Codec.bytes32 writeU256 :=
  writes_total (fun _ => trivial) fun _ _ => rfl

theorem writes_writeOptionU32 : Writes optionU32 writeOptionU32 := by
  apply writes_total
  · intro o a _
    trivial
  · intro o buf
    cases o with
    | none => rfl
    | some v =>
        change Except.ok ((), (buf ++ [1]) ++ Codec.u32.encode v) = _
        rw [List.append_assoc]
        rfl

/-- A byte string after its length, when the length fits. -/
theorem writeShort_of_le {max : ℕ} {tooLong : ℕ → Sv2CodecError} {b : Bytes}
    (hb : b.length ≤ max) (buf : Bytes) :
    (writeShort max tooLong b).run buf = .ok ((), buf ++ b0255.encode b) := by
  have hnot : ¬ max < b.length := Nat.not_lt.mpr hb
  unfold writeShort
  rw [if_neg hnot]
  change Except.ok ((), (buf ++ leBytes 1 _) ++ b) = _
  rw [List.append_assoc]
  rfl

theorem writeShort_of_lt {max : ℕ} {tooLong : ℕ → Sv2CodecError} {b : Bytes}
    (hb : max < b.length) (buf : Bytes) :
    ∃ e, (writeShort max tooLong b).run buf = .error e := by
  refine ⟨tooLong b.length, ?_⟩
  unfold writeShort
  rw [if_pos hb]
  rfl

theorem writes_writeB0255 : Writes b0255 writeB0255 := by
  constructor
  · intro b buf hb
    have hlen : b.length < 256 := hb
    exact writeShort_of_le (by omega) buf
  · intro b buf hb
    have hlen : ¬ b.length < 256 := hb
    exact writeShort_of_lt (by omega) buf

theorem writes_writeStr0255 : Writes str0255 writeStr0255 :=
  ⟨fun s => writes_writeB0255.of_valid (JsonText.utf8 s),
    fun s => writes_writeB0255.of_not_valid (JsonText.utf8 s)⟩

@[simp] theorem valid_b032 (b : Bytes) : b032.Valid b ↔ b.length ≤ 32 := by
  change b.length < 256 ∧ decide (b.length ≤ 32) = true ↔ _
  rw [decide_eq_true_iff]
  omega

theorem writes_writeB032 : Writes b032 writeB032 := by
  constructor
  · intro b buf hb
    exact writeShort_of_le ((valid_b032 b).mp hb) buf
  · intro b buf hb
    rw [valid_b032] at hb
    exact writeShort_of_lt (by omega) buf

theorem writes_writeB064k : Writes b064k writeB064k := by
  constructor
  · intro b buf hb
    have hlen : b.length < 65536 := hb
    have hnot : ¬ 65535 < b.length := by omega
    unfold writeB064k
    rw [if_neg hnot]
    change Except.ok ((), (buf ++ leBytes 2 _) ++ b) = _
    rw [List.append_assoc]
    rfl
  · intro b buf hb
    have hlen : ¬ b.length < 65536 := hb
    refine ⟨.stringTooLong b.length, ?_⟩
    unfold writeB064k
    rw [if_pos (by omega)]
    rfl

theorem forM_writeU256 (items : List Bytes32) (buf : Bytes) :
    (items.forM writeU256).run buf =
      .ok ((), buf ++ items.flatMap Codec.bytes32.encode) := by
  induction items generalizing buf with
  | nil =>
      rw [List.flatMap_nil, List.append_nil]
      rfl
  | cons item items ih =>
      have hitem : (writeU256 item).run buf = .ok ((), buf ++ item.toBytes) := rfl
      rw [List.forM_eq_forM, List.forM_cons, StateT.run_bind, hitem]
      change (items.forM writeU256).run (buf ++ item.toBytes) = _
      rw [ih, List.append_assoc]
      rfl

theorem writes_writeSeqU256 : Writes seqU256 writeSeqU256 := by
  constructor
  · intro items buf hitems
    have hlen : items.length < 256 := hitems.1
    have hnot : ¬ 255 < items.length := by omega
    unfold writeSeqU256
    rw [if_neg hnot]
    change (items.forM writeU256).run (buf ++ leBytes 1 _) = _
    rw [forM_writeU256, List.append_assoc]
    rfl
  · intro items buf hitems
    have hlen : ¬ items.length < 256 := by
      intro hlen
      exact hitems ⟨hlen, fun _ _ => trivial⟩
    refine ⟨.stringTooLong items.length, ?_⟩
    unfold writeSeqU256
    rw [if_pos (by omega)]
    rfl

/-! ## Messages -/

theorem speaks_setupConnection :
    Speaks (.pair .u8 (.pair .u16 (.pair .u16 (.pair .u32 (.pair str0255
        (.pair .u16 (.pair str0255 (.pair str0255 (.pair str0255 str0255)))))))))
      (fun m : SetupConnection =>
        (m.protocol, m.minVersion, m.maxVersion, m.flags, m.endpointHost,
          m.endpointPort, m.vendor, m.hardwareVersion, m.firmware, m.deviceId))
      (fun (protocol, minVersion, maxVersion, flags, endpointHost, endpointPort,
          vendor, hardwareVersion, firmware, deviceId) =>
        { protocol, minVersion, maxVersion, flags, endpointHost, endpointPort,
          vendor, hardwareVersion, firmware, deviceId })
      SetupConnection.encode SetupConnection.decode where
  out_of _ := rfl
  writes := ⟨_, .step writes_writeU8 (.step writes_writeU16
    (.step writes_writeU16 (.step writes_writeU32 (.step writes_writeStr0255
    (.step writes_writeU16 (.step writes_writeStr0255 (.step writes_writeStr0255
    (.step writes_writeStr0255 writes_writeStr0255)))))))), fun _ => rfl⟩
  reads := ⟨_, .step reads_readU8 fun _ => .step reads_readU16 fun _ =>
    .step reads_readU16 fun _ => .step reads_readU32 fun _ =>
    .step reads_readStr0255 fun _ => .step reads_readU16 fun _ =>
    .step reads_readStr0255 fun _ => .step reads_readStr0255 fun _ =>
    .step reads_readStr0255 fun _ => .last reads_readStr0255, fun _ => rfl⟩

theorem speaks_setupConnectionSuccess :
    Speaks (.pair .u16 .u32)
      (fun m : SetupConnectionSuccess => (m.usedVersion, m.flags))
      (fun (usedVersion, flags) => { usedVersion, flags })
      SetupConnectionSuccess.encode SetupConnectionSuccess.decode where
  out_of _ := rfl
  writes := ⟨_, .step writes_writeU16 writes_writeU32, fun _ => rfl⟩
  reads := ⟨_, .step reads_readU16 fun _ => .last reads_readU32, fun _ => rfl⟩

theorem speaks_setupConnectionError :
    Speaks (.pair .u32 str0255)
      (fun m : SetupConnectionError => (m.flags, m.errorCode))
      (fun (flags, errorCode) => { flags, errorCode })
      SetupConnectionError.encode SetupConnectionError.decode where
  out_of _ := rfl
  writes := ⟨_, .step writes_writeU32 writes_writeStr0255, fun _ => rfl⟩
  reads := ⟨_, .step reads_readU32 fun _ => .last reads_readStr0255,
    fun _ => rfl⟩

theorem speaks_openStandardMiningChannel :
    Speaks (.pair .u32 (.pair str0255 (.pair f32 .bytes32)))
      (fun m : OpenStandardMiningChannel =>
        (m.requestId, m.userIdentity, m.nominalHashRate, m.maxTarget))
      (fun (requestId, userIdentity, nominalHashRate, maxTarget) =>
        { requestId, userIdentity, nominalHashRate, maxTarget })
      OpenStandardMiningChannel.encode OpenStandardMiningChannel.decode where
  out_of _ := rfl
  writes := ⟨_, .step writes_writeU32 (.step writes_writeStr0255
    (.step writes_writeF32 writes_writeU256)), fun _ => rfl⟩
  reads := ⟨_, .step reads_readU32 fun _ => .step reads_readStr0255 fun _ =>
    .step reads_readF32 fun _ => .last reads_readU256, fun _ => rfl⟩

theorem speaks_openStandardMiningChannelSuccess :
    Speaks (.pair .u32 (.pair .u32 (.pair .bytes32 (.pair b032 .u32))))
      (fun m : OpenStandardMiningChannelSuccess =>
        (m.requestId, m.channelId, m.target, m.extranoncePrefix,
          m.groupChannelId))
      (fun (requestId, channelId, target, extranoncePrefix, groupChannelId) =>
        { requestId, channelId, target, extranoncePrefix, groupChannelId })
      OpenStandardMiningChannelSuccess.encode
      OpenStandardMiningChannelSuccess.decode where
  out_of _ := rfl
  writes := ⟨_, .step writes_writeU32 (.step writes_writeU32
    (.step writes_writeU256 (.step writes_writeB032 writes_writeU32))),
    fun _ => rfl⟩
  reads := ⟨_, .step reads_readU32 fun _ => .step reads_readU32 fun _ =>
    .step reads_readU256 fun _ => .step reads_readB032 fun _ =>
    .last reads_readU32, fun _ => rfl⟩

theorem speaks_openMiningChannelError :
    Speaks (.pair .u32 str0255)
      (fun m : OpenMiningChannelError => (m.requestId, m.errorCode))
      (fun (requestId, errorCode) => { requestId, errorCode })
      OpenMiningChannelError.encode OpenMiningChannelError.decode where
  out_of _ := rfl
  writes := ⟨_, .step writes_writeU32 writes_writeStr0255, fun _ => rfl⟩
  reads := ⟨_, .step reads_readU32 fun _ => .last reads_readStr0255,
    fun _ => rfl⟩

theorem speaks_newMiningJob :
    Speaks (.pair .u32 (.pair .u32 (.pair optionU32 (.pair .u32 .bytes32))))
      (fun m : NewMiningJob =>
        (m.channelId, m.jobId, m.minNtime, m.version, m.merkleRoot))
      (fun (channelId, jobId, minNtime, version, merkleRoot) =>
        { channelId, jobId, minNtime, version, merkleRoot })
      NewMiningJob.encode NewMiningJob.decode where
  out_of _ := rfl
  writes := ⟨_, .step writes_writeU32 (.step writes_writeU32
    (.step writes_writeOptionU32 (.step writes_writeU32 writes_writeU256))),
    fun _ => rfl⟩
  reads := ⟨_, .step reads_readU32 fun _ => .step reads_readU32 fun _ =>
    .step reads_readOptionU32 fun _ => .step reads_readU32 fun _ =>
    .last reads_readU256, fun _ => rfl⟩

theorem speaks_setNewPrevHash :
    Speaks (.pair .u32 (.pair .u32 (.pair .bytes32 (.pair .u32 .u32))))
      (fun m : SetNewPrevHash =>
        (m.channelId, m.jobId, m.prevHash, m.minNtime, m.nbits))
      (fun (channelId, jobId, prevHash, minNtime, nbits) =>
        { channelId, jobId, prevHash, minNtime, nbits })
      SetNewPrevHash.encode SetNewPrevHash.decode where
  out_of _ := rfl
  writes := ⟨_, .step writes_writeU32 (.step writes_writeU32
    (.step writes_writeU256 (.step writes_writeU32 writes_writeU32))),
    fun _ => rfl⟩
  reads := ⟨_, .step reads_readU32 fun _ => .step reads_readU32 fun _ =>
    .step reads_readU256 fun _ => .step reads_readU32 fun _ =>
    .last reads_readU32, fun _ => rfl⟩

theorem speaks_setTarget :
    Speaks (.pair .u32 .bytes32)
      (fun m : SetTarget => (m.channelId, m.maximumTarget))
      (fun (channelId, maximumTarget) => { channelId, maximumTarget })
      SetTarget.encode SetTarget.decode where
  out_of _ := rfl
  writes := ⟨_, .step writes_writeU32 writes_writeU256, fun _ => rfl⟩
  reads := ⟨_, .step reads_readU32 fun _ => .last reads_readU256, fun _ => rfl⟩

theorem speaks_submitSharesStandard :
    Speaks (.pair .u32 (.pair .u32 (.pair .u32 (.pair .u32 (.pair .u32 .u32)))))
      (fun m : SubmitSharesStandard =>
        (m.channelId, m.sequenceNumber, m.jobId, m.nonce, m.ntime, m.version))
      (fun (channelId, sequenceNumber, jobId, nonce, ntime, version) =>
        { channelId, sequenceNumber, jobId, nonce, ntime, version })
      SubmitSharesStandard.encode SubmitSharesStandard.decode where
  out_of _ := rfl
  writes := ⟨_, .step writes_writeU32 (.step writes_writeU32
    (.step writes_writeU32 (.step writes_writeU32 (.step writes_writeU32
    writes_writeU32)))), fun _ => rfl⟩
  reads := ⟨_, .step reads_readU32 fun _ => .step reads_readU32 fun _ =>
    .step reads_readU32 fun _ => .step reads_readU32 fun _ =>
    .step reads_readU32 fun _ => .last reads_readU32, fun _ => rfl⟩

theorem speaks_submitSharesSuccess :
    Speaks (.pair .u32 (.pair .u32 (.pair .u32 .u64)))
      (fun m : SubmitSharesSuccess =>
        (m.channelId, m.lastSequenceNumber, m.newSubmitsAcceptedCount,
          m.newSharesSum))
      (fun (channelId, lastSequenceNumber, newSubmitsAcceptedCount,
          newSharesSum) =>
        { channelId, lastSequenceNumber, newSubmitsAcceptedCount,
          newSharesSum })
      SubmitSharesSuccess.encode SubmitSharesSuccess.decode where
  out_of _ := rfl
  writes := ⟨_, .step writes_writeU32 (.step writes_writeU32
    (.step writes_writeU32 writes_writeU64)), fun _ => rfl⟩
  reads := ⟨_, .step reads_readU32 fun _ => .step reads_readU32 fun _ =>
    .step reads_readU32 fun _ => .last reads_readU64, fun _ => rfl⟩

theorem speaks_submitSharesError :
    Speaks (.pair .u32 (.pair .u32 str0255))
      (fun m : SubmitSharesError =>
        (m.channelId, m.sequenceNumber, m.errorCode))
      (fun (channelId, sequenceNumber, errorCode) =>
        { channelId, sequenceNumber, errorCode })
      SubmitSharesError.encode SubmitSharesError.decode where
  out_of _ := rfl
  writes := ⟨_, .step writes_writeU32 (.step writes_writeU32
    writes_writeStr0255), fun _ => rfl⟩
  reads := ⟨_, .step reads_readU32 fun _ => .step reads_readU32 fun _ =>
    .last reads_readStr0255, fun _ => rfl⟩

theorem speaks_openExtendedMiningChannel :
    Speaks (.pair .u32 (.pair str0255 (.pair f32 (.pair .bytes32 .u16))))
      (fun m : OpenExtendedMiningChannel =>
        (m.requestId, m.userIdentity, m.nominalHashRate, m.maxTarget,
          m.minExtranonceSize))
      (fun (requestId, userIdentity, nominalHashRate, maxTarget,
          minExtranonceSize) =>
        { requestId, userIdentity, nominalHashRate, maxTarget,
          minExtranonceSize })
      OpenExtendedMiningChannel.encode OpenExtendedMiningChannel.decode where
  out_of _ := rfl
  writes := ⟨_, .step writes_writeU32 (.step writes_writeStr0255
    (.step writes_writeF32 (.step writes_writeU256 writes_writeU16))),
    fun _ => rfl⟩
  reads := ⟨_, .step reads_readU32 fun _ => .step reads_readStr0255 fun _ =>
    .step reads_readF32 fun _ => .step reads_readU256 fun _ =>
    .last reads_readU16, fun _ => rfl⟩

theorem speaks_openExtendedMiningChannelSuccess :
    Speaks (.pair .u32 (.pair .u32 (.pair .bytes32 (.pair .u16 b0255))))
      (fun m : OpenExtendedMiningChannelSuccess =>
        (m.requestId, m.channelId, m.target, m.extranonceSize,
          m.extranoncePrefix))
      (fun (requestId, channelId, target, extranonceSize, extranoncePrefix) =>
        { requestId, channelId, target, extranonceSize, extranoncePrefix })
      OpenExtendedMiningChannelSuccess.encode
      OpenExtendedMiningChannelSuccess.decode where
  out_of _ := rfl
  writes := ⟨_, .step writes_writeU32 (.step writes_writeU32
    (.step writes_writeU256 (.step writes_writeU16 writes_writeB0255))),
    fun _ => rfl⟩
  reads := ⟨_, .step reads_readU32 fun _ => .step reads_readU32 fun _ =>
    .step reads_readU256 fun _ => .step reads_readU16 fun _ =>
    .last reads_readB0255, fun _ => rfl⟩

theorem speaks_submitSharesExtended :
    Speaks (.pair .u32 (.pair .u32 (.pair .u32 (.pair .u32 (.pair .u32 (.pair .u32
        b0255))))))
      (fun m : SubmitSharesExtended =>
        (m.channelId, m.sequenceNumber, m.jobId, m.nonce, m.ntime, m.version,
          m.extranonce))
      (fun (channelId, sequenceNumber, jobId, nonce, ntime, version,
          extranonce) =>
        { channelId, sequenceNumber, jobId, nonce, ntime, version, extranonce })
      SubmitSharesExtended.encode SubmitSharesExtended.decode where
  out_of _ := rfl
  writes := ⟨_, .step writes_writeU32 (.step writes_writeU32
    (.step writes_writeU32 (.step writes_writeU32 (.step writes_writeU32
    (.step writes_writeU32 writes_writeB0255))))), fun _ => rfl⟩
  reads := ⟨_, .step reads_readU32 fun _ => .step reads_readU32 fun _ =>
    .step reads_readU32 fun _ => .step reads_readU32 fun _ =>
    .step reads_readU32 fun _ => .step reads_readU32 fun _ =>
    .last reads_readB0255, fun _ => rfl⟩

theorem speaks_closeChannel :
    Speaks (.pair .u32 str0255)
      (fun m : CloseChannel => (m.channelId, m.reasonCode))
      (fun (channelId, reasonCode) => { channelId, reasonCode })
      CloseChannel.encode CloseChannel.decode where
  out_of _ := rfl
  writes := ⟨_, .step writes_writeU32 writes_writeStr0255, fun _ => rfl⟩
  reads := ⟨_, .step reads_readU32 fun _ => .last reads_readStr0255,
    fun _ => rfl⟩

/-- The flag that allows rolling the version is read as true from any byte but
zero, so its spelling is forgotten. -/
theorem speaks_newExtendedMiningJob :
    Speaks (.pair .u32 (.pair .u32 (.pair optionU32 (.pair .u32 (.pair .u8
        (.pair seqU256 (.pair b064k b064k)))))))
      (fun m : NewExtendedMiningJob =>
        (m.channelId, m.jobId, m.minNtime, m.version,
          (if m.versionRollingAllowed then 1 else 0), m.merklePath,
          m.coinbaseTxPrefix, m.coinbaseTxSuffix))
      (fun (channelId, jobId, minNtime, version, rolling, merklePath,
          coinbaseTxPrefix, coinbaseTxSuffix) =>
        { channelId, jobId, minNtime, version,
          versionRollingAllowed := rolling != 0, merklePath, coinbaseTxPrefix,
          coinbaseTxSuffix })
      NewExtendedMiningJob.encode NewExtendedMiningJob.decode where
  out_of m := by
    obtain ⟨_, _, _, _, rolling, _, _, _⟩ := m
    cases rolling with
    | false => rfl
    | true => rfl
  writes := ⟨_, .step writes_writeU32 (.step writes_writeU32
    (.step writes_writeOptionU32 (.step writes_writeU32 (.step writes_writeU8
    (.step writes_writeSeqU256 (.step writes_writeB064k writes_writeB064k)))))),
    fun _ => rfl⟩
  reads := ⟨_, .step reads_readU32 fun _ => .step reads_readU32 fun _ =>
    .step reads_readOptionU32 fun _ => .step reads_readU32 fun _ =>
    .step reads_readU8 fun _ => .step reads_readSeqU256 fun _ =>
    .step reads_readB064k fun _ => .last reads_readB064k, fun _ => rfl⟩

/-! ## Every message -/

/-- A text of at most 255 bytes of UTF-8. -/
def TextFits (s : String) : Prop := (JsonText.utf8 s).length ≤ 255

/-! What the codec of a message asks of its parts. -/

@[simp] theorem valid_pair {α β : Type} (c : Codec α) (d : Codec β) (p : α × β) :
    (c.pair d).Valid p ↔ c.Valid p.1 ∧ d.Valid p.2 := Iff.rfl

@[simp] theorem valid_u8 (v : UInt8) : Codec.u8.Valid v := trivial

@[simp] theorem valid_u16 (v : UInt16) : Codec.u16.Valid v := trivial

@[simp] theorem valid_u32 (v : UInt32) : Codec.u32.Valid v := trivial

@[simp] theorem valid_u64 (v : UInt64) : Codec.u64.Valid v := trivial

@[simp] theorem valid_f32 (v : F32) : f32.Valid v := trivial

@[simp] theorem valid_bytes32 (v : Bytes32) : Codec.bytes32.Valid v := trivial

@[simp] theorem valid_optionU32 (v : Option UInt32) : optionU32.Valid v :=
  fun _ _ => trivial

@[simp] theorem valid_b0255 (b : Bytes) : b0255.Valid b ↔ b.length ≤ 255 :=
  Nat.lt_succ_iff

@[simp] theorem valid_b064k (b : Bytes) : b064k.Valid b ↔ b.length ≤ 65535 :=
  Nat.lt_succ_iff

@[simp] theorem valid_str0255 (s : String) : str0255.Valid s ↔ TextFits s :=
  valid_b0255 (JsonText.utf8 s)

@[simp] theorem valid_seqU256 (items : List Bytes32) :
    seqU256.Valid items ↔ items.length ≤ 255 := by
  constructor
  · intro h
    exact Nat.lt_succ_iff.mp h.1
  · intro h
    exact ⟨Nat.lt_succ_iff.mpr h, fun _ _ => trivial⟩

namespace MessageKind

/-- Every text, byte string and list of the message is within the limit of its
field. -/
def Fits : (k : MessageKind) → k.Message → Prop
  | setupConnection, m =>
      TextFits m.endpointHost ∧ TextFits m.vendor ∧ TextFits m.hardwareVersion ∧
        TextFits m.firmware ∧ TextFits m.deviceId
  | setupConnectionSuccess, _ => True
  | setupConnectionError, m => TextFits m.errorCode
  | openStandardMiningChannel, m => TextFits m.userIdentity
  | openStandardMiningChannelSuccess, m => m.extranoncePrefix.length ≤ 32
  | openMiningChannelError, m => TextFits m.errorCode
  | newMiningJob, _ => True
  | setNewPrevHash, _ => True
  | setTarget, _ => True
  | submitSharesStandard, _ => True
  | submitSharesSuccess, _ => True
  | submitSharesError, m => TextFits m.errorCode
  | openExtendedMiningChannel, m => TextFits m.userIdentity
  | openExtendedMiningChannelSuccess, m => m.extranoncePrefix.length ≤ 255
  | newExtendedMiningJob, m =>
      m.merklePath.length ≤ 255 ∧ m.coinbaseTxPrefix.length ≤ 65535 ∧
        m.coinbaseTxSuffix.length ≤ 65535
  | submitSharesExtended, m => m.extranonce.length ≤ 255
  | closeChannel, m => TextFits m.reasonCode

/-- Where a boolean stands in a payload: after two numbers, an optional number
and one more number. -/
def booleanAt : MessageKind → Bytes → Option ℕ
  | newExtendedMiningJob, b => some (if b[8]? = some 0 then 13 else 17)
  | _, _ => none

/-- The payload with its boolean byte, if it has one, spelled 0 or 1. -/
def spellBoolean (k : MessageKind) (b : Bytes) : Bytes :=
  match k.booleanAt b with
  | some i => b.modify i fun v => if v = 0 then 0 else 1
  | none => b

/-- The three laws of a message type on the wire. -/
structure RoundTrips (k : MessageKind) : Prop where
  decode_encode : ∀ m, k.Fits m → ∃ bs, k.encode m = .ok bs ∧ k.decode bs = .ok m
  encode_fails_iff : ∀ m, (∃ e, k.encode m = .error e) ↔ ¬ k.Fits m
  encode_decode : ∀ b m, k.decode b = .ok m →
    ∃ bs, k.encode m = .ok bs ∧ bs <+: k.spellBoolean b

theorem roundTrips_of_speaks {k : MessageKind} {α : Type} {c : Codec α}
    {of : k.Message → α} {out : α → k.Message}
    (h : Speaks c of out k.encode k.decode)
    (hfits : ∀ m, k.Fits m ↔ c.Valid (of m))
    (hspell : ∀ a, c.Valid a → ∀ rest, c.Valid (of (out a)) ∧
      c.encode (of (out a)) <+: k.spellBoolean (c.encode a ++ rest)) :
    k.RoundTrips where
  decode_encode m hm := h.round_trip ((hfits m).mp hm)
  encode_fails_iff m := (h.encode_fails_iff m).trans (not_congr (hfits m).symm)
  encode_decode b m hm := by
    obtain ⟨a, rest, hvalid, rfl, rfl⟩ := h.spelled hm
    obtain ⟨hvalid', hspelled⟩ := hspell a hvalid rest
    exact ⟨_, h.encode_of_valid hvalid', hspelled⟩

/-- A message without a boolean forgets nothing. -/
theorem roundTrips_of_plain {k : MessageKind} {α : Type} {c : Codec α}
    {of : k.Message → α} {out : α → k.Message}
    (h : Speaks c of out k.encode k.decode) (hof : ∀ a, of (out a) = a)
    (hplain : ∀ b, k.booleanAt b = none)
    (hfits : ∀ m, k.Fits m ↔ c.Valid (of m)) : k.RoundTrips := by
  apply roundTrips_of_speaks h hfits
  intro a hvalid rest
  have hspell : k.spellBoolean (c.encode a ++ rest) = c.encode a ++ rest := by
    rw [spellBoolean, hplain]
  rw [hof, hspell]
  exact ⟨hvalid, List.prefix_append _ _⟩

/-- The boolean of a job for extended channels stands where the optional number
before it puts it. -/
theorem spellBoolean_job (channelId jobId : UInt32) (minNtime : Option UInt32)
    (version : UInt32) (rolling : UInt8) (rest : Bytes) :
    spellBoolean .newExtendedMiningJob
        (Codec.u32.encode channelId ++ (Codec.u32.encode jobId ++
          (optionU32.encode minNtime ++ (Codec.u32.encode version ++
            (rolling :: rest))))) =
      Codec.u32.encode channelId ++ (Codec.u32.encode jobId ++
        (optionU32.encode minNtime ++ (Codec.u32.encode version ++
          ((if rolling = 0 then 0 else 1) :: rest)))) := by
  cases minNtime with
  | none => rfl
  | some ntime => rfl

theorem roundTrips_newExtendedMiningJob : newExtendedMiningJob.RoundTrips := by
  apply roundTrips_of_speaks speaks_newExtendedMiningJob
  · intro m
    simp [Fits]
  · intro ⟨channelId, jobId, minNtime, version, rolling, merklePath, before,
      after⟩ hvalid rest
    refine ⟨by simpa using hvalid, ?_⟩
    let tail := seqU256.encode merklePath ++
      (b064k.encode before ++ b064k.encode after)
    change Codec.u32.encode channelId ++ (Codec.u32.encode jobId ++
        (optionU32.encode minNtime ++ (Codec.u32.encode version ++
          (Codec.u8.encode (if (rolling != 0) = true then 1 else 0) ++ tail)))) <+:
      spellBoolean .newExtendedMiningJob ((Codec.u32.encode channelId ++
        (Codec.u32.encode jobId ++ (optionU32.encode minNtime ++
          (Codec.u32.encode version ++ (Codec.u8.encode rolling ++ tail))))) ++
        rest)
    have hrolling : (if (rolling != 0) = true then (1 : UInt8) else 0) =
        if rolling = 0 then 0 else 1 := by
      by_cases hzero : rolling = 0
      · simp [hzero]
      · simp [hzero]
    rw [hrolling, encode_u8, encode_u8]
    simp only [List.append_assoc, List.cons_append, List.nil_append]
    rw [spellBoolean_job]
    exact ⟨rest, by simp⟩

theorem roundTrips (k : MessageKind) : k.RoundTrips := by
  cases k with
  | setupConnection =>
      exact roundTrips_of_plain speaks_setupConnection (fun _ => rfl)
        (fun _ => rfl) (fun _ => by simp [Fits])
  | setupConnectionSuccess =>
      exact roundTrips_of_plain speaks_setupConnectionSuccess (fun _ => rfl)
        (fun _ => rfl) (fun _ => by simp [Fits])
  | setupConnectionError =>
      exact roundTrips_of_plain speaks_setupConnectionError (fun _ => rfl)
        (fun _ => rfl) (fun _ => by simp [Fits])
  | openStandardMiningChannel =>
      exact roundTrips_of_plain speaks_openStandardMiningChannel (fun _ => rfl)
        (fun _ => rfl) (fun _ => by simp [Fits])
  | openStandardMiningChannelSuccess =>
      exact roundTrips_of_plain speaks_openStandardMiningChannelSuccess
        (fun _ => rfl) (fun _ => rfl) (fun _ => by simp [Fits])
  | openMiningChannelError =>
      exact roundTrips_of_plain speaks_openMiningChannelError (fun _ => rfl)
        (fun _ => rfl) (fun _ => by simp [Fits])
  | newMiningJob =>
      exact roundTrips_of_plain speaks_newMiningJob (fun _ => rfl)
        (fun _ => rfl) (fun _ => by simp [Fits])
  | setNewPrevHash =>
      exact roundTrips_of_plain speaks_setNewPrevHash (fun _ => rfl)
        (fun _ => rfl) (fun _ => by simp [Fits])
  | setTarget =>
      exact roundTrips_of_plain speaks_setTarget (fun _ => rfl)
        (fun _ => rfl) (fun _ => by simp [Fits])
  | submitSharesStandard =>
      exact roundTrips_of_plain speaks_submitSharesStandard (fun _ => rfl)
        (fun _ => rfl) (fun _ => by simp [Fits])
  | submitSharesSuccess =>
      exact roundTrips_of_plain speaks_submitSharesSuccess (fun _ => rfl)
        (fun _ => rfl) (fun _ => by simp [Fits])
  | submitSharesError =>
      exact roundTrips_of_plain speaks_submitSharesError (fun _ => rfl)
        (fun _ => rfl) (fun _ => by simp [Fits])
  | openExtendedMiningChannel =>
      exact roundTrips_of_plain speaks_openExtendedMiningChannel (fun _ => rfl)
        (fun _ => rfl) (fun _ => by simp [Fits])
  | openExtendedMiningChannelSuccess =>
      exact roundTrips_of_plain speaks_openExtendedMiningChannelSuccess
        (fun _ => rfl) (fun _ => rfl) (fun _ => by simp [Fits])
  | newExtendedMiningJob => exact roundTrips_newExtendedMiningJob
  | submitSharesExtended =>
      exact roundTrips_of_plain speaks_submitSharesExtended (fun _ => rfl)
        (fun _ => rfl) (fun _ => by simp [Fits])
  | closeChannel =>
      exact roundTrips_of_plain speaks_closeChannel (fun _ => rfl)
        (fun _ => rfl) (fun _ => by simp [Fits])

/-- A message whose fields are within their limits is encoded and decoded
again, any other is refused, and a payload that is decoded starts with the
encoding of the message, but for the spelling of its boolean. -/
theorem decode_encode_agree (k : MessageKind) :
    (∀ m, k.Fits m → ∃ bs, k.encode m = .ok bs ∧ k.decode bs = .ok m) ∧
    (∀ m, (∃ e, k.encode m = .error e) ↔ ¬ k.Fits m) ∧
    (∀ b m, k.decode b = .ok m →
      ∃ bs, k.encode m = .ok bs ∧ bs <+: k.spellBoolean b) := by
  have h := k.roundTrips
  exact ⟨h.decode_encode, h.encode_fails_iff, h.encode_decode⟩

end MessageKind

end ReserveGrid.Gateway.Sv2
