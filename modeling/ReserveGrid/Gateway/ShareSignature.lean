import ReserveGrid.Gateway.Shares
import ReserveGrid.TemplateManager.ShareIngest

/-!
# Signed shares

The gateway signs a share before it sends it: a code over the event id and over
the hash of the JSON body with the code left out. The template manager declares
the same fields in the same order, so it hashes the same bytes.
-/

namespace ReserveGrid.Gateway

open Support TemplateManager

namespace ShareSubmission

/-- The names of the fields, in the order of their declaration. -/
def fieldNames : List String :=
  ["share_id_hex", "version", "prev_hash_wire_hex", "prev_hash_display_hex",
    "merkle_root_wire_hex", "merkle_root_display_hex", "ntime", "nbits",
    "nonce", "event_id_hex", "worker_id", "validation_level",
    "gateway_instance_id", "channel_id", "sequence_number", "job_id",
    "template_id", "block_height", "pool_account_id", "timestamp_ms",
    "difficulty_u64", "difficulty_display", "source_instance_id",
    "gateway_signature_hex"]

/-- The values of the fields, in the same order. -/
def values (s : ShareSubmission) : List JsonValue :=
  [.str s.shareIdHex, .num s.version.toNat, .str s.prevHashWireHex,
    .str s.prevHashDisplayHex, .str s.merkleRootWireHex,
    .str s.merkleRootDisplayHex, .num s.ntime.toNat, .num s.nbits.toNat,
    .num s.nonce.toNat, .str s.eventIdHex, .str s.workerId,
    .str s.validationLevel, .str s.gatewayInstanceId, .num s.channelId.toNat,
    .num s.sequenceNumber.toNat, .num s.jobId.toNat, .num s.templateId.toNat,
    .num s.blockHeight.toNat, .ofOptStr s.poolAccountId,
    .num s.timestampMs.toNat, .num s.difficultyU64.toNat,
    .float s.difficultyDisplay, .str s.sourceInstanceId,
    .str s.gatewaySignatureHex]

def toFields (s : ShareSubmission) : List (String × JsonValue) :=
  fieldNames.zip s.values

/-- The submission without its code. -/
def blank (s : ShareSubmission) : ShareSubmission :=
  { s with gatewaySignatureHex := "" }

/-- The same share as the template manager declares it. -/
def toRecord (s : ShareSubmission) : ShareSubmissionRecord where
  shareIdHex := s.shareIdHex
  version := s.version
  prevHashWireHex := s.prevHashWireHex
  prevHashDisplayHex := s.prevHashDisplayHex
  merkleRootWireHex := s.merkleRootWireHex
  merkleRootDisplayHex := s.merkleRootDisplayHex
  ntime := s.ntime
  nbits := s.nbits
  nonce := s.nonce
  eventIdHex := s.eventIdHex
  workerId := s.workerId
  validationLevel := s.validationLevel
  gatewayInstanceId := s.gatewayInstanceId
  channelId := s.channelId
  sequenceNumber := s.sequenceNumber
  jobId := s.jobId
  templateId := s.templateId
  blockHeight := s.blockHeight
  poolAccountId := s.poolAccountId
  timestampMs := s.timestampMs
  difficultyU64 := s.difficultyU64
  difficultyDisplay := s.difficultyDisplay
  sourceInstanceId := s.sourceInstanceId
  gatewaySignatureHex := s.gatewaySignatureHex

/-- The two declarations serialise alike. -/
theorem toFields_toRecord (s : ShareSubmission) :
    s.toRecord.toFields = s.toFields := rfl

end ShareSubmission

/-! ## Signing -/

def computeGatewaySignature (secret : Bytes) (eventId bodyHash : Bytes32) :
    Bytes32 :=
  hmacSha256 secret (eventId.toBytes ++ bodyHash.toBytes)

section

variable (serde : SerdeJson)

/-- The hash a submission is signed over. -/
def signedBodyHash (submission : ShareSubmission) : Bytes32 :=
  sha256 (serde.toVec submission.blank.toFields)

/-- Sign a submission. Without a secret it stays as it is. An event id that is
not the hex of thirty-two bytes counts as zeros. -/
def signSubmission (secret : Bytes) (submission : ShareSubmission) :
    ShareSubmission :=
  if secret.isEmpty then submission
  else
    let eventId := (hexArray submission.eventIdHex).getD Bytes32.zero
    { submission with
      gatewaySignatureHex := hexEncode
        (computeGatewaySignature secret eventId
          (signedBodyHash serde submission)).toBytes }

/-- The body the gateway sends. -/
def shareBody (submission : ShareSubmission) : Bytes :=
  serde.toVec submission.toFields

end

variable {serde : SerdeJson} {secret : Bytes} {submission : ShareSubmission}
  {eventId : Bytes32}

theorem hexArray_hexEncode (a : Bytes32) :
    hexArray (hexEncode a.toBytes) = some a := by
  simp [hexArray]

/-- The code of a submission whose event id is thirty-two bytes in hex. -/
theorem signSubmission_eq (hsecret : secret ≠ [])
    (hevent : submission.eventIdHex = hexEncode eventId.toBytes) :
    signSubmission serde secret submission =
      { submission with
        gatewaySignatureHex := hexEncode
          (computeGatewaySignature secret eventId
            (signedBodyHash serde submission)).toBytes } := by
  have hnonempty : ¬ secret.isEmpty = true := by simpa using hsecret
  rw [signSubmission, if_neg hnonempty, hevent, hexArray_hexEncode]
  rfl

theorem hexEncode_isEmpty (a : Bytes32) :
    (hexEncode a.toBytes).isEmpty = false := by
  rw [Bool.eq_false_iff]
  intro hempty
  have hdecode := hexDecode_hexEncode a.toBytes
  rw [String.isEmpty_iff.mp hempty] at hdecode
  have hlength := a.length_toBytes
  have hnil : a.toBytes = [] := (Except.ok.inj hdecode).symm
  rw [hnil] at hlength
  cases hlength

/-! ## What the template manager makes of it -/

/-- The template manager reads the share that was signed and hashes the body
that was signed. -/
theorem parse_signed
    (hbody : serde.RoundTrips (signSubmission serde secret submission).toFields) :
    parseRecord serde
        (shareBody serde (signSubmission serde secret submission)) =
      some (signSubmission serde secret submission).toRecord := by
  rw [parseRecord, shareBody, hbody, Option.bind_some,
    ← ShareSubmission.toFields_toRecord,
    ShareSubmissionRecord.ofFields_toFields]

theorem canonicalBodyHash_signed (hsecret : secret ≠ [])
    (hevent : submission.eventIdHex = hexEncode eventId.toBytes) :
    canonicalBodyHash serde (signSubmission serde secret submission).toRecord =
      signedBodyHash serde submission := by
  rw [signSubmission_eq hsecret hevent]
  rfl

/-- The code of a signed share is the one the template manager computes. -/
theorem verify_signed (hsecret : secret ≠ [])
    (hevent : submission.eventIdHex = hexEncode eventId.toBytes) :
    let record := (signSubmission serde secret submission).toRecord
    ∃ sigBytes, hexDecode record.gatewaySignatureHex = .ok sigBytes ∧
      hexArray record.eventIdHex = some eventId ∧
      verifyGatewaySignature secret eventId (canonicalBodyHash serde record)
        sigBytes = true := by
  intro record
  have hhash : canonicalBodyHash serde record =
      signedBodyHash serde submission :=
    canonicalBodyHash_signed hsecret hevent
  refine ⟨(computeGatewaySignature secret eventId
    (signedBodyHash serde submission)).toBytes, ?_, ?_, ?_⟩
  · simp only [record, signSubmission_eq hsecret hevent,
      ShareSubmission.toRecord]
    exact hexDecode_hexEncode _
  · simp only [record, signSubmission_eq hsecret hevent,
      ShareSubmission.toRecord]
    rw [hevent, hexArray_hexEncode]
  · rw [hhash, verifyGatewaySignature, beq_iff_eq]
    rfl

theorem checkGatewaySignature_signed (hsecret : secret ≠ [])
    (hevent : submission.eventIdHex = hexEncode eventId.toBytes) :
    checkGatewaySignature serde secret
      (signSubmission serde secret submission).toRecord = .ok () := by
  apply checkGatewaySignature_eq_ok.mpr
  obtain ⟨sigBytes, hverify⟩ := @verify_signed serde _ _ _ hsecret hevent
  refine ⟨?_, sigBytes, eventId, hverify⟩
  simp only [signSubmission_eq hsecret hevent, ShareSubmission.toRecord]
  exact hexEncode_isEmpty _

/-- A signed share is taken when its fields fit. -/
theorem ingestShare_signed (hsecret : secret ≠ [])
    (hevent : submission.eventIdHex = hexEncode eventId.toBytes)
    (hfits : fieldSizeExceeded
      (signSubmission serde secret submission).toRecord = false) :
    ingestShare serde secret
      (signSubmission serde secret submission).toRecord = .ok () := by
  have hnonempty : ¬ secret.isEmpty = true := by simpa using hsecret
  rw [ingestShare, hfits, if_neg Bool.false_ne_true, if_neg hnonempty]
  exact checkGatewaySignature_signed hsecret hevent

/-- Neither hash has a collision between what was signed and what another
share has. -/
structure NoCollision (serde : SerdeJson) (secret : Bytes)
    (submission : ShareSubmission) (eventId : Bytes32)
    (other : ShareSubmissionRecord) : Prop where
  hmac : ∀ otherId, hexArray other.eventIdHex = some otherId →
    hmacSha256 secret
        (otherId.toBytes ++ (canonicalBodyHash serde other).toBytes) =
      hmacSha256 secret
        (eventId.toBytes ++ (signedBodyHash serde submission).toBytes) →
    otherId.toBytes ++ (canonicalBodyHash serde other).toBytes =
      eventId.toBytes ++ (signedBodyHash serde submission).toBytes
  sha : canonicalBodyHash serde other = signedBodyHash serde submission →
    serde.toVec other.blank.toFields = serde.toVec submission.blank.toFields

/-- A share that passes with the same code has the same body. -/
theorem blank_eq_of_check (hsecret : secret ≠ [])
    (hevent : submission.eventIdHex = hexEncode eventId.toBytes)
    {other : ShareSubmissionRecord}
    (hblank : serde.RoundTrips submission.blank.toFields)
    (hother : serde.RoundTrips other.blank.toFields)
    (hsig : hexDecode other.gatewaySignatureHex =
      hexDecode (signSubmission serde secret submission).gatewaySignatureHex)
    (hcheck : checkGatewaySignature serde secret other = .ok ())
    (hcollision : NoCollision serde secret submission eventId other) :
    other.blank = submission.toRecord.blank := by
  obtain ⟨-, sigBytes, otherId, hdecode, hotherId, hverify⟩ :=
    checkGatewaySignature_eq_ok.mp hcheck
  rw [hsig, signSubmission_eq hsecret hevent] at hdecode
  dsimp only at hdecode
  rw [hexDecode_hexEncode] at hdecode
  cases hdecode
  rw [verifyGatewaySignature, beq_iff_eq] at hverify
  have hmessages := hcollision.hmac otherId hotherId (Subtype.ext hverify.symm)
  have hhash : canonicalBodyHash serde other =
      signedBodyHash serde submission := by
    apply Subtype.ext
    exact (List.append_inj hmessages (by simp)).2
  have hfields := hother.eq_of_toVec hblank (hcollision.sha hhash)
  exact ShareSubmissionRecord.toFields_injective hfields

/-- A signed share passes the template manager's check over the hash that was
signed, and a share that passes with the same code, whichever way that is
spelled, is the signed one in every other field. -/
theorem share_signature_end_to_end (serde : SerdeJson) (secret : Bytes)
    (hsecret : secret ≠ []) (submission : ShareSubmission) (eventId : Bytes32)
    (hevent : submission.eventIdHex = hexEncode eventId.toBytes)
    (hbody : serde.RoundTrips
      (signSubmission serde secret submission).toFields)
    (hblank : serde.RoundTrips submission.blank.toFields) :
    let signed := signSubmission serde secret submission
    let record := signed.toRecord
    parseRecord serde (shareBody serde signed) = some record ∧
      canonicalBodyHash serde record = signedBodyHash serde submission ∧
      (∃ sigBytes, hexDecode record.gatewaySignatureHex = .ok sigBytes ∧
        hexArray record.eventIdHex = some eventId ∧
        verifyGatewaySignature secret eventId (canonicalBodyHash serde record)
          sigBytes = true) ∧
      checkGatewaySignature serde secret record = .ok () ∧
      ∀ other : ShareSubmissionRecord,
        serde.RoundTrips other.blank.toFields →
        hexDecode other.gatewaySignatureHex =
          hexDecode record.gatewaySignatureHex →
        checkGatewaySignature serde secret other = .ok () →
        NoCollision serde secret submission eventId other →
        other.blank = record.blank ∧
          (other.gatewaySignatureHex = record.gatewaySignatureHex →
            other = record) := by
  intro signed record
  have hsigned : signed = _ := signSubmission_eq hsecret hevent
  have hhash : canonicalBodyHash serde record =
      signedBodyHash serde submission :=
    canonicalBodyHash_signed hsecret hevent
  refine ⟨parse_signed hbody, hhash, verify_signed hsecret hevent,
    checkGatewaySignature_signed hsecret hevent, ?_⟩
  intro other hother hsig hcheck hcollision
  have hblanks : other.blank = record.blank := by
    rw [blank_eq_of_check hsecret hevent hblank hother hsig hcheck
      hcollision]
    simp only [record, hsigned]
    rfl
  refine ⟨hblanks, ?_⟩
  intro hsame
  exact ShareSubmissionRecord.eq_of_blank hblanks hsame

/-- A share of one worker, with a zero event id. -/
def aliceSubmission : ShareSubmission where
  shareIdHex := "5a"
  version := 0x20000000
  prevHashWireHex := "01"
  prevHashDisplayHex := "10"
  merkleRootWireHex := "02"
  merkleRootDisplayHex := "20"
  ntime := 1700000000
  nbits := 0x1d00ffff
  nonce := 7
  eventIdHex := hexEncode Bytes32.zero.toBytes
  workerId := "alice"
  validationLevel := "full"
  gatewayInstanceId := "gw-1"
  channelId := 1
  sequenceNumber := 4
  jobId := 2
  templateId := 9
  blockHeight := 800000
  poolAccountId := some "pool"
  timestampMs := 1700000000000
  difficultyU64 := 1
  difficultyDisplay := 1.0
  sourceInstanceId := "tm-1"
  gatewaySignatureHex := ""

/-- A library that writes every number as `1.0` and reads nothing. -/
def plainWriter : SerdeJson :=
  ⟨fun _ => [0x31, 0x2e, 0x30], fun _ => none⟩

def aliceSigned : ShareSubmission :=
  signSubmission plainWriter [1] aliceSubmission

/-- The code that the share is signed with. -/
def aliceCode : Bytes :=
  [0x6c, 0xf2, 0xf0, 0x68, 0x05, 0x33, 0x2b, 0xbe, 0x20, 0x8d, 0x5c, 0x8c,
    0x14, 0x97, 0xd8, 0x10, 0xd5, 0x10, 0xf0, 0x04, 0xf4, 0x70, 0x4a, 0xea,
    0x10, 0x07, 0xdc, 0xb5, 0xf1, 0xd5, 0xb0, 0xb2]

theorem computeGatewaySignature_aliceSubmission :
    (computeGatewaySignature [1] Bytes32.zero
      (signedBodyHash plainWriter aliceSubmission)).toBytes = aliceCode := by
  decide +kernel

theorem aliceSigned_eq :
    aliceSigned =
      { aliceSubmission with gatewaySignatureHex := hexEncode aliceCode } := by
  rw [aliceSigned, signSubmission_eq (by simp) rfl,
    computeGatewaySignature_aliceSubmission]

/-- The signed share under another worker's name. -/
def bobRecord : ShareSubmissionRecord :=
  { aliceSigned.toRecord with workerId := "bob" }

/-- The objects the next library reads. -/
def plainBodies : List (List (String × JsonValue)) :=
  [aliceSubmission.blank.toFields, aliceSigned.toFields,
    bobRecord.blank.toFields]

/-- The same library, reading these objects. -/
def plainSerde : SerdeJson where
  writeF64 := plainWriter.writeF64
  fromSlice bs :=
    plainBodies.find? fun fields => plainWriter.toVec fields == bs

theorem toVec_plainSerde (fields : List (String × JsonValue)) :
    plainSerde.toVec fields = plainWriter.toVec fields := rfl

theorem signSubmission_plainSerde :
    signSubmission plainSerde [1] aliceSubmission = aliceSigned := by
  unfold aliceSigned signSubmission signedBodyHash
  rw [toVec_plainSerde]

theorem nodup_plainBodies : (plainBodies.map plainWriter.toVec).Nodup := by
  rw [plainBodies, bobRecord, aliceSigned_eq]
  decide +kernel

theorem roundTrips_plainSerde {fields : List (String × JsonValue)}
    (hmem : fields ∈ plainBodies) : plainSerde.RoundTrips fields := by
  rw [SerdeJson.RoundTrips, toVec_plainSerde]
  have hsome : (plainBodies.find? fun other =>
      plainWriter.toVec other == plainWriter.toVec fields).isSome := by
    rw [List.find?_isSome]
    exact ⟨fields, hmem, beq_self_eq_true _⟩
  obtain ⟨found, hfound⟩ := Option.isSome_iff_exists.mp hsome
  have hsame : plainWriter.toVec found = plainWriter.toVec fields :=
    beq_iff_eq.mp (List.find?_some (p := fun other =>
      plainWriter.toVec other == plainWriter.toVec fields) hfound)
  have heq : found = fields :=
    List.inj_on_of_nodup_map nodup_plainBodies (List.mem_of_find?_eq_some hfound)
      hmem hsame
  rw [heq] at hfound
  exact hfound

/-- The two bodies give two codes. -/
theorem computeGatewaySignature_bobRecord :
    computeGatewaySignature [1] Bytes32.zero
        (canonicalBodyHash plainSerde bobRecord) ≠
      computeGatewaySignature [1] Bytes32.zero
        (signedBodyHash plainSerde aliceSubmission) := by
  have hcode : (computeGatewaySignature [1] Bytes32.zero
      (canonicalBodyHash plainSerde bobRecord)).toBytes ≠ aliceCode := by
    decide +kernel
  intro hcodes
  rw [hcodes, signedBodyHash, toVec_plainSerde, ← signedBodyHash] at hcode
  exact hcode computeGatewaySignature_aliceSubmission

theorem noCollision_bobRecord :
    NoCollision plainSerde [1] aliceSubmission Bytes32.zero bobRecord := by
  constructor
  · intro otherId hotherId hcodes
    have hzero : otherId = Bytes32.zero := by
      have hevent : hexArray bobRecord.eventIdHex = some Bytes32.zero :=
        hexArray_hexEncode Bytes32.zero
      exact Option.some.inj (hotherId.symm.trans hevent)
    rw [hzero] at hcodes
    exact absurd hcodes computeGatewaySignature_bobRecord
  · intro hhashes
    exact absurd (by rw [hhashes]) computeGatewaySignature_bobRecord

/-- The signed share passes, and under another worker's name it does not. -/
theorem share_signature_end_to_end_renamed :
    checkGatewaySignature plainSerde [1]
        (signSubmission plainSerde [1] aliceSubmission).toRecord = .ok () ∧
      checkGatewaySignature plainSerde [1] bobRecord ≠ .ok () := by
  have hbody : plainSerde.RoundTrips
      (signSubmission plainSerde [1] aliceSubmission).toFields := by
    rw [signSubmission_plainSerde]
    exact roundTrips_plainSerde (by simp [plainBodies])
  obtain ⟨-, -, -, hpasses, hbinds⟩ :=
    share_signature_end_to_end plainSerde [1] (by simp) aliceSubmission
      Bytes32.zero rfl hbody (roundTrips_plainSerde (by simp [plainBodies]))
  refine ⟨hpasses, ?_⟩
  intro hcheck
  have hsig : hexDecode bobRecord.gatewaySignatureHex = hexDecode
      (signSubmission plainSerde [1]
        aliceSubmission).toRecord.gatewaySignatureHex := by
    have hsame : bobRecord.gatewaySignatureHex =
        aliceSigned.toRecord.gatewaySignatureHex := rfl
    rw [signSubmission_plainSerde, hsame]
  have hblanks := (hbinds bobRecord
    (roundTrips_plainSerde (by simp [plainBodies])) hsig hcheck
    noCollision_bobRecord).1
  rw [signSubmission_plainSerde] at hblanks
  have hnames := congrArg ShareSubmissionRecord.workerId hblanks
  simp [bobRecord, ShareSubmissionRecord.blank, ShareSubmission.toRecord,
    aliceSigned, signSubmission, aliceSubmission] at hnames

end ReserveGrid.Gateway
