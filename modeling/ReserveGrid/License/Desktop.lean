import ReserveGrid.Support.Base64
import ReserveGrid.Support.Text

/-!
# License keys on the desktop

A license key is a prefix, a payload and a signature, the last two in base64url
with a dot between them; the signature is over the text of the payload. The
desktop checks a key against the public keys it was built with and has a
base64url decoder of its own.
-/

namespace ReserveGrid.License

open Support

/-- The content of a license key. -/
structure LicensePayload where
  orgId : String
  tier : String
  issuedAt : UInt64
  expiresAt : UInt64
  features : List String
  deriving DecidableEq

/-- A signature. -/
def SignatureBytes := { bs : Bytes // bs.length = 64 }

instance : DecidableEq SignatureBytes :=
  inferInstanceAs (DecidableEq { bs : Bytes // bs.length = 64 })

/-- Signature bytes, when there are as many as a signature has. -/
def SignatureBytes.ofBytes (bs : Bytes) : Option SignatureBytes :=
  if h : bs.length = 64 then some ⟨bs, h⟩ else none

/-- The signature library: keys, their bytes, and the check of a signature
over a message. -/
structure Ed25519 where
  VerifyingKey : Type
  fromBytes : Bytes32 → Option VerifyingKey
  asBytes : VerifyingKey → Bytes32
  fromBytes_asBytes : ∀ vk, fromBytes (asBytes vk) = some vk
  verify : VerifyingKey → Bytes → SignatureBytes → Bool

inductive LicenseError where
  | invalidPrefix
  | missingSignature
  | invalidBase64
  | invalidPayload
  | signatureInvalid
  | internal (message : String)
  deriving DecidableEq

/-! ## The parts of a key -/

/-- The text `veldra_lic_`. -/
def keyPrefix : Bytes := [118, 101, 108, 100, 114, 97, 95, 108, 105, 99, 95]

def stripPrefix (text : Bytes) : Option Bytes :=
  if text.take keyPrefix.length = keyPrefix then
    some (text.drop keyPrefix.length)
  else none

/-- What stands before and after the last dot. -/
def rfindDot : Bytes → Option (Bytes × Bytes)
  | [] => none
  | b :: rest =>
      match rfindDot rest with
      | some (before, after) => some (b :: before, after)
      | none => if b = 46 then some ([], rest) else none

/-! ## The desktop's decoder -/

/-- The characters `A` to `Z`, `a` to `z`, `0` to `9`, `+` and `/`. -/
def table : Bytes :=
  (List.range 26).map (fun i => UInt8.ofNat (65 + i)) ++
    (List.range 26).map (fun i => UInt8.ofNat (97 + i)) ++
    (List.range 10).map (fun i => UInt8.ofNat (48 + i)) ++ [43, 47]

def lookup (c : UInt8) : Option UInt8 :=
  (table.findIdx? (· == c)).map UInt8.ofNat

/-- The bytes of a chunk of four characters. What follows an equals sign in the
third place is not looked at. -/
def decodeChunk (a b c d : UInt8) : Option Bytes := do
  let va ← lookup a
  let vb ← lookup b
  let first := va <<< 2 ||| vb >>> 4
  if c ≠ 61 then
    let vc ← lookup c
    let second := (vb &&& 0x0F) <<< 4 ||| vc >>> 2
    if d ≠ 61 then
      let vd ← lookup d
      let third := (vc &&& 0x03) <<< 6 ||| vd
      return [first, second, third]
    else return [first, second]
  else return [first]

def base64DecodeStandard : Bytes → Option Bytes
  | [] => some []
  | a :: b :: c :: d :: rest => do
      let chunk ← decodeChunk a b c d
      let tail ← base64DecodeStandard rest
      return chunk ++ tail
  | _ => none

/-- The character of standard base64 for one of base64url. -/
def toStandard (b : UInt8) : UInt8 :=
  if b = 45 then 43 else if b = 95 then 47 else b

def base64urlDecode (input : Bytes) : Option Bytes :=
  let standard := input.map toStandard
  match standard.length % 4 with
  | 2 => base64DecodeStandard (standard ++ [61, 61])
  | 3 => base64DecodeStandard (standard ++ [61])
  | 0 => base64DecodeStandard standard
  | _ => none

/-! ## The desktop's check -/

/-- The entries of the embedded list of public keys. -/
def pubkeyEntries (pubkeysB64 : List Char) : List (List Char) :=
  ((pubkeysB64.splitOn ',').map trim).filter fun entry => !entry.isEmpty

section

variable (ed : Ed25519) (fromSlice : Bytes → Option LicensePayload)

/-- Try the entries in order, `tried` keys having failed. There is no result
when the cut of an entry's first bytes for the log panics. -/
def tryPubkeys (payloadB64 : Bytes) (signature : SignatureBytes)
    (tried : ℕ) : List (List Char) → Option (Except LicenseError Unit)
  | [] =>
      if tried = 0 then
        some (.error (.internal
          "no valid pubkeys compiled in (all entries malformed)"))
      else some (.error .signatureInvalid)
  | entry :: entries =>
      if !isCharBoundary entry (min (asBytes entry).length 8) then none
      else
        match (base64urlDecode (asBytes entry)).bind Bytes32.ofBytes |>.bind
            ed.fromBytes with
        | none => tryPubkeys payloadB64 signature tried entries
        | some vk =>
            if ed.verify vk payloadB64 signature then some (.ok ())
            else tryPubkeys payloadB64 signature (tried + 1) entries

def verifySignatureWithPubkeys (key : Bytes) (pubkeysB64 : List Char) :
    Option (Except LicenseError Unit) :=
  if pubkeysB64.isEmpty then
    some (.error (.internal
      "VELDRA_LICENSE_PUBKEY not compiled in, cannot verify license"))
  else
    match stripPrefix key with
    | none => some (.error .invalidPrefix)
    | some body =>
        match rfindDot body with
        | none => some (.error .missingSignature)
        | some (payloadB64, sigB64) =>
            match (base64urlDecode sigB64).bind SignatureBytes.ofBytes with
            | none => some (.error .signatureInvalid)
            | some signature =>
                tryPubkeys ed payloadB64 signature 0 (pubkeyEntries pubkeysB64)

/-- The payload of a key, before its signature is checked. -/
def parseKey (key : Bytes) : Except LicenseError LicensePayload :=
  match stripPrefix key with
  | none => .error .invalidPrefix
  | some body =>
      match rfindDot body with
      | none => .error .missingSignature
      | some (payloadB64, _) =>
          match base64urlDecode payloadB64 with
          | none => .error .invalidBase64
          | some payloadBytes =>
              match fromSlice payloadBytes with
              | none => .error .invalidPayload
              | some payload => .ok payload

end

/-! ## The last dot -/

theorem rfindDot_eq_none {text : Bytes} : rfindDot text = none ↔ 46 ∉ text := by
  induction text with
  | nil => simp [rfindDot]
  | cons b rest ih =>
      rw [rfindDot]
      cases hrest : rfindDot rest with
      | some parts =>
          have hmem : 46 ∈ rest := by
            by_contra hnot
            rw [ih.mpr hnot] at hrest
            cases hrest
          simp [hmem]
      | none =>
          have hnot := ih.mp hrest
          by_cases hb : b = 46
          · simp [hb]
          · simp [hb, hnot, Ne.symm hb]

theorem rfindDot_eq_some {text before after : Bytes} :
    rfindDot text = some (before, after) ↔
      text = before ++ 46 :: after ∧ 46 ∉ after := by
  induction text generalizing before with
  | nil => simp [rfindDot]
  | cons b rest ih =>
      rw [rfindDot]
      cases hrest : rfindDot rest with
      | some parts =>
          obtain ⟨before', after'⟩ := parts
          cases before with
          | nil =>
              have hdot : 46 ∈ rest := by
                by_contra hnot
                rw [rfindDot_eq_none.mpr hnot] at hrest
                cases hrest
              simp only [Option.some.injEq, Prod.mk.injEq, reduceCtorEq,
                false_and, List.nil_append, List.cons.injEq, false_iff]
              rintro ⟨⟨-, rfl⟩, hnot⟩
              exact hnot hdot
          | cons b' before =>
              have hiff : rfindDot rest = some (before, after) ↔
                  rest = before ++ 46 :: after ∧ 46 ∉ after := ih
              rw [hrest] at hiff
              simp only [Option.some.injEq, Prod.mk.injEq, List.cons.injEq,
                List.cons_append] at hiff ⊢
              rw [and_assoc, hiff, and_assoc]
      | none =>
          have hdot := rfindDot_eq_none.mp hrest
          cases before with
          | nil =>
              by_cases hb : b = 46
              · subst hb
                simp only [if_true, Option.some.injEq, Prod.mk.injEq, true_and,
                  List.nil_append, List.cons.injEq]
                constructor
                · rintro rfl
                  exact ⟨rfl, hdot⟩
                · exact And.left
              · simp [hb]
          | cons b' before =>
              constructor
              · intro h
                by_cases hb : b = 46
                · simp [hb] at h
                · simp [hb] at h
              · rintro ⟨heq, -⟩
                rw [List.cons_append, List.cons.injEq] at heq
                rw [heq.2] at hdot
                simp at hdot

/-! ## The decoder on canonical texts -/

theorem lookup_urlChar_fin (v : Fin 64) :
    lookup (toStandard (Base64.urlChar v.val)) = some (UInt8.ofNat v.val) ∧
      toStandard (Base64.urlChar v.val) ≠ 61 := by
  decide +revert +kernel

theorem lookup_urlChar {v : ℕ} (h : v < 64) :
    lookup (toStandard (Base64.urlChar v)) = some (UInt8.ofNat v) ∧
      toStandard (Base64.urlChar v) ≠ 61 :=
  lookup_urlChar_fin ⟨v, h⟩

theorem shiftLeft_or {a b i : ℕ} (h : b < 2 ^ i) :
    a <<< i ||| b = a * 2 ^ i + b := by
  rw [← Nat.shiftLeft_add_eq_or_of_lt h, Nat.shiftLeft_eq]

theorem first_eq_byte₀ {v w : ℕ} (hv : v < 64) (hw : w < 64) :
    UInt8.ofNat v <<< 2 ||| UInt8.ofNat w >>> 4 = Base64.byte₀ v w := by
  apply UInt8.toNat_inj.mp
  have hv' : v % 256 = v := by omega
  have hw' : w % 256 = w := by omega
  have hlow : w >>> 4 < 2 ^ 2 := by
    rw [Nat.shiftRight_eq_div_pow]
    omega
  have hfit : v <<< 2 % 256 = v <<< 2 := by
    rw [Nat.shiftLeft_eq]
    omega
  rw [Base64.toNat_byte₀ hv hw]
  simp only [UInt8.toNat_or, UInt8.toNat_shiftLeft, UInt8.toNat_ofNat',
    Nat.reducePow, hv', UInt8.reduceToNat, Nat.reduceMod, hfit,
    UInt8.toNat_shiftRight, hw']
  rw [shiftLeft_or hlow, Nat.shiftRight_eq_div_pow]
  rfl

theorem second_eq_byte₁ {w x : ℕ} (hw : w < 64) (hx : x < 64) :
    (UInt8.ofNat w &&& 0x0F) <<< 4 ||| UInt8.ofNat x >>> 2 =
      Base64.byte₁ w x := by
  apply UInt8.toNat_inj.mp
  have hw' : w % 256 = w := by omega
  have hx' : x % 256 = x := by omega
  have hmask : w &&& 15 = w % 16 := Nat.and_two_pow_sub_one_eq_mod w 4
  have hlow : x >>> 2 < 2 ^ 4 := by
    rw [Nat.shiftRight_eq_div_pow]
    omega
  have hfit : (w % 16) <<< 4 % 256 = (w % 16) <<< 4 := by
    rw [Nat.shiftLeft_eq]
    omega
  rw [Base64.toNat_byte₁ hx]
  simp only [UInt8.toNat_or, UInt8.toNat_shiftLeft, UInt8.toNat_and,
    UInt8.toNat_ofNat', Nat.reducePow, hw', UInt8.reduceToNat, hmask,
    Nat.reduceMod, hfit, UInt8.toNat_shiftRight, hx']
  rw [shiftLeft_or hlow, Nat.shiftRight_eq_div_pow]
  rfl

theorem third_eq_byte₂ {x y : ℕ} (hx : x < 64) (hy : y < 64) :
    (UInt8.ofNat x &&& 0x03) <<< 6 ||| UInt8.ofNat y = Base64.byte₂ x y := by
  apply UInt8.toNat_inj.mp
  have hx' : x % 256 = x := by omega
  have hy' : y % 256 = y := by omega
  have hmask : x &&& 3 = x % 4 := Nat.and_two_pow_sub_one_eq_mod x 2
  have hfit : (x % 4) <<< 6 % 256 = (x % 4) <<< 6 := by
    rw [Nat.shiftLeft_eq]
    omega
  rw [Base64.toNat_byte₂ hy]
  simp only [UInt8.toNat_or, UInt8.toNat_shiftLeft, UInt8.toNat_and,
    UInt8.toNat_ofNat', Nat.reducePow, hx', UInt8.reduceToNat, hmask,
    Nat.reduceMod, hfit, hy']
  rw [shiftLeft_or (show y < 2 ^ 6 from hy)]
  rfl

theorem decodeChunk_full {v w x y : ℕ} (hv : v < 64) (hw : w < 64)
    (hx : x < 64) (hy : y < 64) :
    decodeChunk (toStandard (Base64.urlChar v)) (toStandard (Base64.urlChar w))
        (toStandard (Base64.urlChar x)) (toStandard (Base64.urlChar y)) =
      some [Base64.byte₀ v w, Base64.byte₁ w x, Base64.byte₂ x y] := by
  simp [decodeChunk, lookup_urlChar, hv, hw, hx, hy, first_eq_byte₀,
    second_eq_byte₁, third_eq_byte₂]

theorem decodeChunk_three {v w x : ℕ} (hv : v < 64) (hw : w < 64)
    (hx : x < 64) :
    decodeChunk (toStandard (Base64.urlChar v)) (toStandard (Base64.urlChar w))
        (toStandard (Base64.urlChar x)) 61 =
      some [Base64.byte₀ v w, Base64.byte₁ w x] := by
  simp [decodeChunk, lookup_urlChar, hv, hw, hx, first_eq_byte₀,
    second_eq_byte₁]

theorem decodeChunk_two {v w : ℕ} (hv : v < 64) (hw : w < 64) :
    decodeChunk (toStandard (Base64.urlChar v)) (toStandard (Base64.urlChar w))
        61 61 = some [Base64.byte₀ v w] := by
  simp [decodeChunk, lookup_urlChar, hv, hw, first_eq_byte₀]

/-- A first group of four characters is decoded on its own. -/
theorem base64urlDecode_cons (p q r s : UInt8) (rest : Bytes) :
    base64urlDecode (p :: q :: r :: s :: rest) =
      (decodeChunk (toStandard p) (toStandard q) (toStandard r)
        (toStandard s)).bind fun chunk =>
          (base64urlDecode rest).map fun tail => chunk ++ tail := by
  have hlength : (rest.length + 1 + 1 + 1 + 1) % 4 = rest.length % 4 := by omega
  unfold base64urlDecode
  simp only [List.map_cons, List.length_cons, List.length_map, hlength]
  split
  · simp [base64DecodeStandard, Option.map_eq_bind]
  · simp [base64DecodeStandard, Option.map_eq_bind]
  · simp [base64DecodeStandard, Option.map_eq_bind]
  · simp

/-- The desktop decodes what the encoder writes. -/
theorem base64urlDecode_encode (bs : Bytes) :
    base64urlDecode (Base64.encode bs) = some bs := by
  induction bs using Base64.encode.induct with
  | case1 a b c rest ih =>
      have ha := a.toNat_lt
      have hb := b.toNat_lt
      have hc := c.toNat_lt
      rw [Base64.encode, base64urlDecode_cons,
        decodeChunk_full (by omega) (by omega) (by omega) (by omega), ih,
        Base64.byte₀_encode a (by omega),
        Base64.byte₁_encode b (by omega) (by omega),
        Base64.byte₂_encode c (by omega)]
      rfl
  | case2 a b =>
      have ha := a.toNat_lt
      have hb := b.toNat_lt
      simp only [Base64.encode, base64urlDecode, List.map_cons, List.map_nil,
        List.length_cons, List.length_nil, List.cons_append, List.nil_append,
        base64DecodeStandard]
      rw [decodeChunk_three (by omega) (by omega) (by omega),
        Base64.byte₀_encode a (by omega),
        Base64.byte₁_encode b (by omega) (by omega)]
      rfl
  | case3 a =>
      have ha := a.toNat_lt
      simp only [Base64.encode, base64urlDecode, List.map_cons, List.map_nil,
        List.length_cons, List.length_nil, List.cons_append, List.nil_append,
        base64DecodeStandard]
      rw [decodeChunk_two (by omega) (by omega),
        Base64.byte₀_encode a (by omega)]
      rfl
  | case4 => rfl

end ReserveGrid.License
