import ReserveGrid.License.Desktop

/-!
# The two license verifiers

The server decodes base64url with a library that accepts only what an encoder
writes. The desktop's decoder also takes the standard alphabet, equals signs
and stray bits at the end, so it accepts spellings of a signed key that the
server refuses. On the spelling an encoder writes the two agree.
-/

namespace ReserveGrid.License

open Support

/-! ## The server -/

section

variable (ed : Ed25519) (fromSlice : Bytes → Option LicensePayload)

/-- The server's check of a key against one public key. -/
def verifyLicenseKey (key : Bytes) (vk : ed.VerifyingKey) :
    Option LicensePayload :=
  match stripPrefix key with
  | none => none
  | some body =>
      match rfindDot body with
      | none => none
      | some (payloadB64, sigB64) =>
          match (Base64.decode sigB64).bind SignatureBytes.ofBytes with
          | none => none
          | some signature =>
              if ed.verify vk payloadB64 signature then
                (Base64.decode payloadB64).bind fromSlice
              else none

/-- The text of a public key. -/
def pubkeyText (vk : ed.VerifyingKey) : List Char :=
  (Base64.encode (ed.asBytes vk).toBytes).map fun b => Char.ofNat b.toNat

/-- The text that embeds a list of public keys. -/
def pubkeyList (vks : List ed.VerifyingKey) : List Char :=
  List.intercalate [','] (vks.map (pubkeyText ed))

/-- The desktop accepts a key, with a payload, under a list of public keys. -/
def DesktopAccepts (vks : List ed.VerifyingKey) (key : Bytes)
    (payload : LicensePayload) : Prop :=
  verifySignatureWithPubkeys ed key (pubkeyList ed vks) = some (.ok ()) ∧
    parseKey fromSlice key = .ok payload

/-- The server accepts a key, with a payload, under one of the public keys. -/
def ServerAccepts (vks : List ed.VerifyingKey) (key : Bytes)
    (payload : LicensePayload) : Prop :=
  ∃ vk ∈ vks, verifyLicenseKey ed fromSlice key vk = some payload

end

/-! ## The parts of a key -/

/-- The key consists of these two texts. -/
def HasParts (key payloadB64 sigB64 : Bytes) : Prop :=
  key = keyPrefix ++ payloadB64 ++ 46 :: sigB64 ∧ 46 ∉ sigB64

theorem stripPrefix_eq_some {key body : Bytes} :
    stripPrefix key = some body ↔ key = keyPrefix ++ body := by
  unfold stripPrefix
  constructor
  · intro h
    by_cases hpre : key.take keyPrefix.length = keyPrefix
    · rw [if_pos hpre, Option.some.injEq] at h
      have hsplit := List.take_append_drop keyPrefix.length key
      rw [hpre, h] at hsplit
      exact hsplit.symm
    · rw [if_neg hpre] at h
      cases h
  · rintro rfl
    rw [List.take_left, if_pos rfl, List.drop_left]

theorem hasParts_iff {key payloadB64 sigB64 : Bytes} :
    HasParts key payloadB64 sigB64 ↔
      ∃ body, stripPrefix key = some body ∧
        rfindDot body = some (payloadB64, sigB64) := by
  simp only [stripPrefix_eq_some, rfindDot_eq_some, HasParts]
  constructor
  · rintro ⟨rfl, hdot⟩
    exact ⟨payloadB64 ++ 46 :: sigB64, List.append_assoc _ _ _, rfl, hdot⟩
  · rintro ⟨body, rfl, rfl, hdot⟩
    exact ⟨(List.append_assoc _ _ _).symm, hdot⟩

/-- A key has its parts in one way only. -/
theorem HasParts.unique {key payloadB64 sigB64 payloadB64' sigB64' : Bytes}
    (h : HasParts key payloadB64 sigB64)
    (h' : HasParts key payloadB64' sigB64') :
    payloadB64 = payloadB64' ∧ sigB64 = sigB64' := by
  obtain ⟨body, hbody, hdot⟩ := hasParts_iff.mp h
  obtain ⟨body', hbody', hdot'⟩ := hasParts_iff.mp h'
  cases hbody.symm.trans hbody'
  cases hdot.symm.trans hdot'
  exact ⟨rfl, rfl⟩

/-! ## Embedded public keys -/

section

variable (ed : Ed25519)

theorem urlChar_char_fin (v : Fin 64) :
    String.utf8EncodeChar (Char.ofNat (Base64.urlChar v.val).toNat) =
        [Base64.urlChar v.val] ∧
      (Char.ofNat (Base64.urlChar v.val).toNat).utf8Size = 1 ∧
      isWhiteSpace (Char.ofNat (Base64.urlChar v.val).toNat) = false ∧
      Char.ofNat (Base64.urlChar v.val).toNat ≠ ',' := by
  decide +revert +kernel

theorem mem_pubkeyText {vk : ed.VerifyingKey} {c : Char}
    (h : c ∈ pubkeyText ed vk) :
    c.utf8Size = 1 ∧ isWhiteSpace c = false ∧ c ≠ ',' := by
  obtain ⟨b, hb, rfl⟩ := List.mem_map.mp h
  obtain ⟨v, hv, rfl⟩ := Base64.mem_encode hb
  exact (urlChar_char_fin ⟨v, hv⟩).2

theorem asBytes_pubkeyText (vk : ed.VerifyingKey) :
    asBytes (pubkeyText ed vk) = Base64.encode (ed.asBytes vk).toBytes := by
  unfold asBytes pubkeyText
  rw [List.flatMap_map]
  have hall : ∀ b ∈ Base64.encode (ed.asBytes vk).toBytes,
      String.utf8EncodeChar (Char.ofNat b.toNat) = [b] := by
    intro b hb
    obtain ⟨v, hv, rfl⟩ := Base64.mem_encode hb
    exact (urlChar_char_fin ⟨v, hv⟩).1
  rw [List.flatMap_congr hall, List.flatMap_singleton']

theorem isCharBoundary_of_ascii {text : List Char}
    (h : ∀ c ∈ text, c.utf8Size = 1) {n : ℕ} (hn : n ≤ text.length) :
    isCharBoundary text n = true := by
  induction text generalizing n with
  | nil =>
      rw [List.length_nil, Nat.le_zero] at hn
      rw [hn, isCharBoundary]
  | cons c cs ih =>
      cases n with
      | zero => rw [isCharBoundary]
      | succ n =>
          have hc := h c List.mem_cons_self
          rw [List.length_cons] at hn
          have hrest := ih (fun c' hc' => h c' (List.mem_cons_of_mem _ hc'))
            (Nat.le_of_succ_le_succ hn)
          simp [isCharBoundary, hc, hrest]

theorem trim_pubkeyText (vk : ed.VerifyingKey) :
    trim (pubkeyText ed vk) = pubkeyText ed vk := by
  have hdrop : ∀ text : List Char, (∀ c ∈ text, isWhiteSpace c = false) →
      text.dropWhile isWhiteSpace = text := by
    intro text h
    cases text with
    | nil => rfl
    | cons c cs =>
        exact List.dropWhile_cons_of_neg (by simp [h c List.mem_cons_self])
  have hnone : ∀ c ∈ pubkeyText ed vk, isWhiteSpace c = false :=
    fun c hc => (mem_pubkeyText ed hc).2.1
  unfold trim
  rw [hdrop _ hnone, hdrop _ (by simpa using hnone), List.reverse_reverse]

theorem encode_ne_nil {bs : Bytes} (h : bs ≠ []) : Base64.encode bs ≠ [] := by
  intro hnil
  have hround := Base64.decode_encode bs
  rw [hnil] at hround
  cases hround
  exact h rfl

theorem pubkeyText_ne_nil (vk : ed.VerifyingKey) : pubkeyText ed vk ≠ [] := by
  intro hnil
  have hbytes : (ed.asBytes vk).toBytes ≠ [] := by
    intro hempty
    have hlength := (ed.asBytes vk).length_toBytes
    rw [hempty] at hlength
    cases hlength
  exact encode_ne_nil hbytes (List.map_eq_nil_iff.mp hnil)

/-- The entries of the embedded text are the texts of the keys. -/
theorem pubkeyEntries_pubkeyList {vks : List ed.VerifyingKey} (h : vks ≠ []) :
    pubkeyEntries (pubkeyList ed vks) = vks.map (pubkeyText ed) := by
  have hsplit : (pubkeyList ed vks).splitOn ',' = vks.map (pubkeyText ed) := by
    apply List.splitOn_intercalate
    · intro text htext hcomma
      obtain ⟨vk, -, rfl⟩ := List.mem_map.mp htext
      exact (mem_pubkeyText ed hcomma).2.2 rfl
    · simpa using h
  unfold pubkeyEntries
  rw [hsplit, List.map_map]
  have htrim : (trim ∘ pubkeyText ed) = pubkeyText ed :=
    funext fun vk => trim_pubkeyText ed vk
  rw [htrim]
  apply List.filter_eq_self.mpr
  intro text htext
  obtain ⟨vk, -, rfl⟩ := List.mem_map.mp htext
  simp [pubkeyText_ne_nil]

/-- The keys are tried in order, and one that verifies is enough. -/
theorem tryPubkeys_eq_ok {payloadB64 : Bytes} {signature : SignatureBytes}
    (tried : ℕ) (vks : List ed.VerifyingKey) :
    tryPubkeys ed payloadB64 signature tried (vks.map (pubkeyText ed)) =
        some (.ok ()) ↔
      ∃ vk ∈ vks, ed.verify vk payloadB64 signature = true := by
  induction vks generalizing tried with
  | nil =>
      simp only [List.map_nil, tryPubkeys]
      split <;> simp
  | cons vk vks ih =>
      have hboundary : isCharBoundary (pubkeyText ed vk)
          (min (asBytes (pubkeyText ed vk)).length 8) = true := by
        apply isCharBoundary_of_ascii fun c hc => (mem_pubkeyText ed hc).1
        rw [asBytes_pubkeyText, pubkeyText, List.length_map]
        exact Nat.min_le_left _ _
      have hkey : ((base64urlDecode (asBytes (pubkeyText ed vk))).bind
          Bytes32.ofBytes).bind ed.fromBytes = some vk := by
        rw [asBytes_pubkeyText, base64urlDecode_encode]
        simp [ed.fromBytes_asBytes]
      rw [List.map_cons, tryPubkeys, hboundary, hkey]
      by_cases hverify : ed.verify vk payloadB64 signature = true
      · simp [hverify]
      · simp [hverify, ih]

end

/-! ## What each verifier accepts -/

section

variable (ed : Ed25519) (fromSlice : Bytes → Option LicensePayload)

/-- A key that carries a payload and a signature over its text by one of the
public keys, in the desktop's reading of the two texts. -/
def SignedKey (vks : List ed.VerifyingKey) (key : Bytes)
    (payload : LicensePayload) : Prop :=
  ∃ payloadB64 sigB64 signature, HasParts key payloadB64 sigB64 ∧
    (base64urlDecode sigB64).bind SignatureBytes.ofBytes = some signature ∧
    (∃ vk ∈ vks, ed.verify vk payloadB64 signature = true) ∧
    (base64urlDecode payloadB64).bind fromSlice = some payload

/-- The two texts are what an encoder writes. -/
def Canonical (key : Bytes) : Prop :=
  ∃ payload sig, HasParts key (Base64.encode payload) (Base64.encode sig)

variable {ed fromSlice} {vks : List ed.VerifyingKey} {key : Bytes}
  {payload : LicensePayload}

/-- How a key is taken apart: it lacks the prefix, or the dot, or it has both. -/
theorem parts_cases (key : Bytes) :
    stripPrefix key = none ∨
      (∃ body, stripPrefix key = some body ∧ rfindDot body = none) ∨
      ∃ body payloadB64 sigB64, stripPrefix key = some body ∧
        rfindDot body = some (payloadB64, sigB64) := by
  rcases hbody : stripPrefix key with _ | body
  · exact Or.inl rfl
  · rcases hdot : rfindDot body with _ | ⟨payloadB64, sigB64⟩
    · exact Or.inr (Or.inl ⟨body, rfl, hdot⟩)
    · exact Or.inr (Or.inr ⟨body, payloadB64, sigB64, rfl, hdot⟩)

theorem parseKey_eq_ok :
    parseKey fromSlice key = .ok payload ↔
      ∃ payloadB64 sigB64, HasParts key payloadB64 sigB64 ∧
        (base64urlDecode payloadB64).bind fromSlice = some payload := by
  simp only [hasParts_iff]
  unfold parseKey
  rcases parts_cases key with hbody | ⟨body, hbody, hdot⟩ |
    ⟨body, payloadB64, sigB64, hbody, hdot⟩
  · simp [hbody]
  · simp [hbody, hdot]
  · cases hdecode : base64urlDecode payloadB64 with
    | none => simp [hbody, hdot, hdecode]
    | some bytes => cases hparse : fromSlice bytes <;>
        simp [hbody, hdot, hdecode, hparse]

theorem verifySignatureWithPubkeys_eq_ok :
    verifySignatureWithPubkeys ed key (pubkeyList ed vks) = some (.ok ()) ↔
      ∃ payloadB64 sigB64 signature, HasParts key payloadB64 sigB64 ∧
        (base64urlDecode sigB64).bind SignatureBytes.ofBytes =
          some signature ∧
        ∃ vk ∈ vks, ed.verify vk payloadB64 signature = true := by
  by_cases hvks : vks = []
  · subst hvks
    simp [verifySignatureWithPubkeys, pubkeyList]
  · have hne : (pubkeyList ed vks).isEmpty = false := by
      rw [List.isEmpty_eq_false_iff]
      intro hnil
      have hentries := pubkeyEntries_pubkeyList ed hvks
      rw [hnil] at hentries
      exact hvks (List.map_eq_nil_iff.mp hentries.symm)
    simp only [hasParts_iff]
    unfold verifySignatureWithPubkeys
    rw [hne, pubkeyEntries_pubkeyList ed hvks]
    rcases parts_cases key with hbody | ⟨body, hbody, hdot⟩ |
      ⟨body, payloadB64, sigB64, hbody, hdot⟩
    · simp [hbody]
    · simp [hbody, hdot]
    · cases hsig : (base64urlDecode sigB64).bind SignatureBytes.ofBytes with
      | none => simp [hbody, hdot, hsig]
      | some signature => simp [hbody, hdot, hsig, tryPubkeys_eq_ok]

theorem desktopAccepts_iff :
    DesktopAccepts ed fromSlice vks key payload ↔
      SignedKey ed fromSlice vks key payload := by
  rw [DesktopAccepts, verifySignatureWithPubkeys_eq_ok, parseKey_eq_ok]
  constructor
  · rintro ⟨⟨payloadB64, sigB64, signature, hparts, hsig, hverify⟩,
      payloadB64', sigB64', hparts', hpayload⟩
    obtain ⟨rfl, rfl⟩ := hparts.unique hparts'
    exact ⟨payloadB64, sigB64, signature, hparts, hsig, hverify, hpayload⟩
  · rintro ⟨payloadB64, sigB64, signature, hparts, hsig, hverify, hpayload⟩
    exact ⟨⟨payloadB64, sigB64, signature, hparts, hsig, hverify⟩,
      payloadB64, sigB64, hparts, hpayload⟩

theorem verifyLicenseKey_eq_some {vk : ed.VerifyingKey} :
    verifyLicenseKey ed fromSlice key vk = some payload ↔
      ∃ payloadB64 sigB64 signature, HasParts key payloadB64 sigB64 ∧
        (Base64.decode sigB64).bind SignatureBytes.ofBytes = some signature ∧
        ed.verify vk payloadB64 signature = true ∧
        (Base64.decode payloadB64).bind fromSlice = some payload := by
  simp only [hasParts_iff]
  unfold verifyLicenseKey
  rcases parts_cases key with hbody | ⟨body, hbody, hdot⟩ |
    ⟨body, payloadB64, sigB64, hbody, hdot⟩
  · simp [hbody]
  · simp [hbody, hdot]
  · cases hsig : (Base64.decode sigB64).bind SignatureBytes.ofBytes with
    | none => simp [hbody, hdot, hsig]
    | some signature => simp [hbody, hdot, hsig]

/-- The server accepts the canonical keys among those the desktop accepts. -/
theorem serverAccepts_iff :
    ServerAccepts ed fromSlice vks key payload ↔
      Canonical key ∧ SignedKey ed fromSlice vks key payload := by
  simp only [ServerAccepts, verifyLicenseKey_eq_some]
  constructor
  · rintro ⟨vk, hvk, payloadB64, sigB64, signature, hparts, hsig, hverify,
      hpayload⟩
    obtain ⟨sigBytes, hsigdec, hofbytes⟩ := Option.bind_eq_some_iff.mp hsig
    obtain ⟨bytes, hdecode, hparse⟩ := Option.bind_eq_some_iff.mp hpayload
    rw [Base64.decode_eq_some] at hsigdec hdecode
    subst hsigdec hdecode
    refine ⟨⟨bytes, sigBytes, hparts⟩, _, _, signature, hparts, ?_,
      ⟨vk, hvk, hverify⟩, ?_⟩
    · rw [base64urlDecode_encode]
      exact hofbytes
    · rw [base64urlDecode_encode]
      exact hparse
  · rintro ⟨⟨bytes, sigBytes, hparts⟩, payloadB64, sigB64, signature, hparts',
      hsig, ⟨vk, hvk, hverify⟩, hpayload⟩
    obtain ⟨rfl, rfl⟩ := hparts.unique hparts'
    rw [base64urlDecode_encode] at hsig hpayload
    refine ⟨vk, hvk, _, _, signature, hparts, ?_, hverify, ?_⟩
    · rw [Base64.decode_encode]
      exact hsig
    · rw [Base64.decode_encode]
      exact hpayload

/-- Two canonical keys with the same content are the same text. -/
theorem Canonical.eq_of_decode {key key' payloadB64 payloadB64' sigB64 sigB64' :
    Bytes} (h : Canonical key) (h' : Canonical key')
    (hparts : HasParts key payloadB64 sigB64)
    (hparts' : HasParts key' payloadB64' sigB64')
    (hpayload : base64urlDecode payloadB64 = base64urlDecode payloadB64')
    (hsig : base64urlDecode sigB64 = base64urlDecode sigB64') :
    key = key' := by
  obtain ⟨bytes, sigBytes, hcanonical⟩ := h
  obtain ⟨bytes', sigBytes', hcanonical'⟩ := h'
  obtain ⟨rfl, rfl⟩ := hcanonical.unique hparts
  obtain ⟨rfl, rfl⟩ := hcanonical'.unique hparts'
  rw [base64urlDecode_encode, base64urlDecode_encode] at hpayload hsig
  cases hpayload
  cases hsig
  rw [hparts.1, hparts'.1]

end

/-- The two verifiers agree on a key, payload included, if and only if its two
texts are canonical or it is not a signed key at all; and no two canonical keys
stand for the same payload and signature. -/
theorem license_verifiers_agree_iff (ed : Ed25519)
    (fromSlice : Bytes → Option LicensePayload) :
    (∀ (vks : List ed.VerifyingKey) (key : Bytes),
      (∀ payload, DesktopAccepts ed fromSlice vks key payload ↔
          ServerAccepts ed fromSlice vks key payload) ↔
        Canonical key ∨ ∀ payload, ¬ SignedKey ed fromSlice vks key payload) ∧
      ∀ key key' payloadB64 payloadB64' sigB64 sigB64',
        Canonical key → Canonical key' →
        HasParts key payloadB64 sigB64 → HasParts key' payloadB64' sigB64' →
        base64urlDecode payloadB64 = base64urlDecode payloadB64' →
        base64urlDecode sigB64 = base64urlDecode sigB64' → key = key' := by
  constructor
  · intro vks key
    simp only [desktopAccepts_iff, serverAccepts_iff]
    constructor
    · intro hagree
      by_cases hcanonical : Canonical key
      · exact Or.inl hcanonical
      · refine Or.inr fun payload hsigned => ?_
        exact hcanonical ((hagree payload).mp hsigned).1
    · rintro (hcanonical | hunsigned) payload
      · exact ⟨fun hsigned => ⟨hcanonical, hsigned⟩, And.right⟩
      · exact ⟨fun hsigned => absurd hsigned (hunsigned payload), And.right⟩
  · intro key key' payloadB64 payloadB64' sigB64 sigB64' h h' hparts hparts'
      hpayload hsig
    exact h.eq_of_decode h' hparts hparts' hpayload hsig

/-! ## A key in two spellings -/

/-- The JSON of a payload with empty names that expires at nine. -/
def sampleJson : Bytes :=
  [123, 34, 111, 114, 103, 95, 105, 100, 34, 58, 34, 34, 44, 34, 116, 105,
    101, 114, 34, 58, 34, 34, 44, 34, 105, 115, 115, 117, 101, 100, 95, 97,
    116, 34, 58, 48, 44, 34, 101, 120, 112, 105, 114, 101, 115, 95, 97,
    116, 34, 58, 57, 125]

def samplePayload : LicensePayload where
  orgId := ""
  tier := ""
  issuedAt := 0
  expiresAt := 9
  features := []

/-- The public key of the seed of thirty-two ones. -/
def samplePubkey : Bytes32 :=
  ⟨[138, 136, 227, 221, 116, 9, 241, 149, 253, 82, 219, 45, 60, 186, 93,
    114, 202, 103, 9, 191, 29, 148, 18, 27, 243, 116, 136, 1, 180, 15, 111,
    92], rfl⟩

/-- Its signature over the base64url text of the payload. -/
def sampleSignature : SignatureBytes :=
  ⟨[217, 18, 9, 150, 5, 24, 63, 76, 93, 169, 200, 221, 231, 197, 148, 120,
    3, 132, 79, 254, 115, 92, 18, 29, 158, 96, 181, 71, 234, 190, 97, 215,
    236, 126, 42, 25, 153, 45, 163, 216, 120, 124, 83, 120, 157, 211, 250,
    98, 65, 93, 183, 65, 61, 44, 48, 64, 139, 160, 205, 40, 139, 190, 248, 6], rfl⟩

/-- The signature library on this key, text and signature. -/
def sampleEd25519 : Ed25519 where
  VerifyingKey := Bytes32
  fromBytes := some
  asBytes := id
  fromBytes_asBytes _ := rfl
  verify vk message signature :=
    vk = samplePubkey ∧ message = Base64.encode sampleJson ∧
      signature = sampleSignature

/-- The JSON library on this payload. -/
def sampleFromSlice (bytes : Bytes) : Option LicensePayload :=
  if bytes = sampleJson then some samplePayload else none

/-- The key with the given text of the signature. -/
def sampleKey (sigB64 : Bytes) : Bytes :=
  keyPrefix ++ Base64.encode sampleJson ++ 46 :: sigB64

/-- The text of the signature with a stray bit in its last character. -/
def looseSig : Bytes :=
  (Base64.encode sampleSignature.val).dropLast ++ [104]

theorem sampleKey_signed {sigB64 : Bytes} (hdot : 46 ∉ sigB64)
    (hsig : (base64urlDecode sigB64).bind SignatureBytes.ofBytes =
      some sampleSignature) :
    SignedKey sampleEd25519 sampleFromSlice [samplePubkey] (sampleKey sigB64)
      samplePayload := by
  refine ⟨_, _, sampleSignature, ⟨rfl, hdot⟩, hsig,
    ⟨samplePubkey, List.mem_singleton_self _, ?_⟩, ?_⟩
  · simp [sampleEd25519]
  · rw [base64urlDecode_encode]
    simp [sampleFromSlice]

/-- The desktop accepts both spellings of the signature, the server one. -/
theorem desktop_accepts_looseSig :
    DesktopAccepts sampleEd25519 sampleFromSlice [samplePubkey]
        (sampleKey looseSig) samplePayload ∧
      ¬ ServerAccepts sampleEd25519 sampleFromSlice [samplePubkey]
        (sampleKey looseSig) samplePayload ∧
      DesktopAccepts sampleEd25519 sampleFromSlice [samplePubkey]
        (sampleKey (Base64.encode sampleSignature.val)) samplePayload ∧
      sampleKey looseSig ≠ sampleKey (Base64.encode sampleSignature.val) := by
  have hloose : 46 ∉ looseSig := by decide +kernel
  refine ⟨?_, ?_, ?_, by decide +kernel⟩
  · rw [desktopAccepts_iff]
    exact sampleKey_signed hloose (by decide +kernel)
  · rw [serverAccepts_iff]
    rintro ⟨⟨bytes, sigBytes, hcanonical⟩, -⟩
    have hparts : HasParts (sampleKey looseSig) (Base64.encode sampleJson)
      looseSig := ⟨rfl, hloose⟩
    have htext := Base64.decode_eq_some.mpr (hparts.unique hcanonical).2
    have hstray : Base64.decode looseSig = none := by decide +kernel
    cases hstray.symm.trans htext
  · rw [desktopAccepts_iff]
    exact sampleKey_signed (by decide +kernel) (by decide +kernel)

end ReserveGrid.License
