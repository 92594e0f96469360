import ReserveGrid.ApiGateway.Nonce
import ReserveGrid.Support.Hmac
import ReserveGrid.Support.JsonText

/-!
# Signed requests

The check of a request signed with HMAC-SHA256. The signed text has the method,
the path, the timestamp and the nonce, one a line. It has neither the query
string nor the body, so a signature fixes the method and the path of the
requests it is good for, and any query string and any body go with it.
-/

namespace ReserveGrid.ApiGateway

open Support
open Support.JsonText (utf8)

/-! ## Requests -/

/-- The characters of a token of HTTP. -/
def isTokenChar (c : Char) : Bool :=
  c.isAlphanum || "!#$%&'*+-.^_`|~".toList.contains c

/-- A method: one of the standard ones or any other token. -/
@[ext] structure Method where
  text : String
  token : text.toList.all isTokenChar = true

/-- What the check can see of a request. The names of headers are in lower
case. -/
structure Request where
  method : Method
  path : String
  query : Option String := none
  headers : List (String × Bytes)
  body : Bytes := []

def isVisibleAscii (b : UInt8) : Bool := 32 ≤ b && b < 127 || b == 9

/-- The first value of a header, if it is printable. -/
def headerStr (headers : List (String × Bytes)) (name : String) : Option String :=
  match headers.lookup name with
  | some value =>
      if value.all isVisibleAscii then
        some (String.ofList (value.map fun b => Char.ofNat b.toNat))
      else none
  | none => none

/-- A decimal number of 64 bits. A plus sign may stand in front. -/
def parseU64 (s : String) : Option UInt64 :=
  let digits := match s.toList with
    | '+' :: cs => cs
    | cs => cs
  if digits.isEmpty || !digits.all Char.isDigit then none
  else
    let n := digits.foldl (fun n c => 10 * n + (c.toNat - 48)) 0
    if n < 2 ^ 64 then some (UInt64.ofNat n) else none

/-! ## The check -/

/-- The nonce cache behind its lock, which is poisoned once a holder has
panicked. -/
structure NonceLock where
  poisoned : Bool
  cache : NonceCache

structure AuthState where
  hmacKey : Option Bytes
  nonceCache : Option NonceLock
  timestampMaxAgeSecs : UInt64

/-- A timestamp is at most a minute ahead of the clock and not too old. -/
def timestampWithinWindow (now ts maxAgeSecs : UInt64) : Bool :=
  -- the clock counts seconds, so a minute more never overflows
  if now.toNat + 60 < ts.toNat then false
  else if maxAgeSecs < saturatingSub now ts then false
  else true

def signingPayload (req : Request) (tsStr nonce : String) : String :=
  req.method.text ++ "\n" ++ req.path ++ "\n" ++ tsStr ++ "\n" ++ nonce

/-- The part of `verifyHmac` before the nonce is looked up: the nonce and the
timestamp of a request whose signature is right. -/
def signatureCheck (state : AuthState) (now : UInt64) (req : Request) :
    Option (String × UInt64) := do
  let hmacKey ← state.hmacKey
  let sigHex ← headerStr req.headers "x-signature"
  let tsStr ← headerStr req.headers "x-timestamp"
  let nonce ← headerStr req.headers "x-nonce"
  let ts ← parseU64 tsStr
  guard (timestampWithinWindow now ts state.timestampMaxAgeSecs = true)
  guard (8 ≤ nonce.utf8ByteSize)
  let sigBytes ← (hexDecode sigHex).toOption
  guard (sigBytes.length = 32)
  -- a key of any length is taken
  let expected := hmacSha256 hmacKey (utf8 (signingPayload req tsStr nonce))
  guard (expected.toBytes = sigBytes)
  return (nonce, ts)

/-- Whether a request is let through, and the state after it. The clock is read
once for the timestamp and once more in the nonce cache. -/
def verifyHmac (now later : UInt64) (order : IterOrder (Σ _ : String, UInt64))
    (req : Request) (state : AuthState) : Bool × AuthState :=
  match signatureCheck state now req with
  | none => (false, state)
  | some (nonce, ts) =>
      match state.nonceCache with
      | none => (true, state)
      | some lock =>
          if lock.poisoned then (false, state)
          else
            let (result, cache) := lock.cache.validate ⟨later, nonce, ts, order⟩
            (result = .valid, { state with nonceCache := some { lock with cache } })

/-! ## What a signature is over -/

variable {state state' : AuthState} {now now' : UInt64} {req req' : Request}

/-- The headers that the check reads. -/
def signatureHeaders : List String := ["x-signature", "x-timestamp", "x-nonce"]

def Request.SameSignature (req req' : Request) : Prop :=
  ∀ name ∈ signatureHeaders,
    headerStr req.headers name = headerStr req'.headers name

/-- The bytes that are signed, if the headers are there. -/
def Request.signedBytes (req : Request) : Option Bytes := do
  let tsStr ← headerStr req.headers "x-timestamp"
  let nonce ← headerStr req.headers "x-nonce"
  return utf8 (signingPayload req tsStr nonce)

/-- Under the key, the signed bytes of two requests have the same code only if
they are the same. -/
def NoCollision (state : AuthState) (req req' : Request) : Prop :=
  ∀ key ∈ state.hmacKey, ∀ bs ∈ req.signedBytes, ∀ bs' ∈ req'.signedBytes,
    hmacSha256 key bs = hmacSha256 key bs' → bs = bs'

/-- The parts of a request that its meaning depends on. -/
def Request.SameParts (req req' : Request) : Prop :=
  req.method = req'.method ∧ req.path = req'.path ∧ req.query = req'.query ∧
    req.body = req'.body

theorem utf8_injective {s s' : String} (h : utf8 s = utf8 s') : s = s' := by
  have hread := congrArg JsonText.fromUtf8 h
  rw [JsonText.fromUtf8_utf8, JsonText.fromUtf8_utf8] at hread
  exact Option.some_inj.mp hread

/-- A token does not break a line. -/
theorem Method.newline_notMem (method : Method) : '\n' ∉ method.text.toList := by
  intro hmem
  have htoken := List.all_eq_true.mp method.token _ hmem
  exact absurd htoken (by decide)

/-- The signed text shows where the method ends, and with the timestamp and the
nonce given, the path is what is left. -/
theorem signingPayload_injective {tsStr nonce : String}
    (h : signingPayload req tsStr nonce = signingPayload req' tsStr nonce) :
    req.method = req'.method ∧ req.path = req'.path := by
  have hnewline : "\n".toList = ['\n'] := rfl
  have hchars := congrArg String.toList h
  simp only [signingPayload, String.toList_append, List.append_assoc, hnewline,
    List.cons_append, List.nil_append] at hchars
  obtain ⟨hmethod, hrest⟩ := append_separator_inj
    req.method.newline_notMem req'.method.newline_notMem hchars
  have hpath := List.append_cancel_right hrest
  exact ⟨Method.ext (String.toList_inj.mp hmethod), String.toList_inj.mp hpath⟩

/-- A request that passes carries the code of its signed bytes. -/
theorem exists_of_signatureCheck (h : (signatureCheck state now req).isSome) :
    ∃ key sigHex tsStr nonce,
      state.hmacKey = some key ∧
      headerStr req.headers "x-signature" = some sigHex ∧
      headerStr req.headers "x-timestamp" = some tsStr ∧
      headerStr req.headers "x-nonce" = some nonce ∧
      hexDecode sigHex =
        .ok (hmacSha256 key (utf8 (signingPayload req tsStr nonce))).toBytes := by
  obtain ⟨out, hout⟩ := Option.isSome_iff_exists.mp h
  unfold signatureCheck at hout
  simp only [bind, Option.bind_eq_some_iff] at hout
  obtain ⟨key, hkey, sigHex, hsig, tsStr, hts, nonce, hnonce, -, -, -, -, -, -,
    sigBytes, hdecode, -, -, u, hcode, -⟩ := hout
  refine ⟨key, sigHex, tsStr, nonce, hkey, hsig, hts, hnonce, ?_⟩
  rw [Option.guard_eq_some'] at hcode
  rw [hcode]
  cases hhex : hexDecode sigHex with
  | error e =>
      rw [hhex] at hdecode
      cases hdecode
  | ok bs =>
      rw [hhex] at hdecode
      cases hdecode
      rfl

/-- The query string and the body play no part. -/
theorem signatureCheck_withQueryBody (query : Option String) (body : Bytes) :
    signatureCheck state now { req with query, body } =
      signatureCheck state now req :=
  rfl

/-- Nor do they once the nonce is looked up. -/
theorem verifyHmac_withQueryBody (later : UInt64)
    (order : IterOrder (Σ _ : String, UInt64)) (query : Option String) (body : Bytes) :
    verifyHmac now later order { req with query, body } state =
      verifyHmac now later order req state :=
  rfl

theorem signatureCheck_of_verifyHmac {later : UInt64}
    {order : IterOrder (Σ _ : String, UInt64)}
    (h : (verifyHmac now later order req state).1 = true) :
    (signatureCheck state now req).isSome := by
  unfold verifyHmac at h
  cases hcheck : signatureCheck state now req with
  | none =>
      rw [hcheck] at h
      cases h
  | some out => rfl

/-- Two requests with one signature that both pass have the same method and the
same path. -/
theorem method_path_of_sameSignature (hkey : state'.hmacKey = state.hmacKey)
    (hsame : req.SameSignature req')
    (hpass : (signatureCheck state now req).isSome)
    (hpass' : (signatureCheck state' now' req').isSome)
    (hcollision : NoCollision state req req') :
    req.method = req'.method ∧ req.path = req'.path := by
  obtain ⟨key, sigHex, tsStr, nonce, hk, hsig, hts, hnonce, hcode⟩ :=
    exists_of_signatureCheck hpass
  obtain ⟨key', sigHex', tsStr', nonce', hk', hsig', hts', hnonce', hcode'⟩ :=
    exists_of_signatureCheck hpass'
  have hkeys : key' = key := by
    rw [hkey, hk] at hk'
    exact (Option.some_inj.mp hk').symm
  have hread : ∀ name ∈ signatureHeaders, ∀ v v', headerStr req.headers name = some v →
      headerStr req'.headers name = some v' → v' = v := by
    intro name hname v v' hv hv'
    rw [← hsame name hname, hv] at hv'
    exact (Option.some_inj.mp hv').symm
  have hsigs := hread "x-signature" (by decide) _ _ hsig hsig'
  have htss := hread "x-timestamp" (by decide) _ _ hts hts'
  have hnonces := hread "x-nonce" (by decide) _ _ hnonce hnonce'
  subst hkeys hsigs htss hnonces
  have hcodes : hmacSha256 key' (utf8 (signingPayload req tsStr' nonce')) =
      hmacSha256 key' (utf8 (signingPayload req' tsStr' nonce')) := by
    rw [hcode] at hcode'
    exact Subtype.ext (Except.ok.inj hcode')
  have hbytes := hcollision key' hk _ (by rw [Request.signedBytes, hts, hnonce]; rfl)
    _ (by rw [Request.signedBytes, hts', hnonce']; rfl) hcodes
  exact signingPayload_injective (utf8_injective hbytes)

/-- Requests with one signature that are let through, whatever happens to the
nonces in between, go to the same method and path. -/
theorem method_path_of_verifyHmac {later later' : UInt64}
    {order order' : IterOrder (Σ _ : String, UInt64)}
    (hkey : state'.hmacKey = state.hmacKey) (hsame : req.SameSignature req')
    (h : (verifyHmac now later order req state).1 = true)
    (h' : (verifyHmac now' later' order' req' state').1 = true)
    (hcollision : NoCollision state req req') :
    req.method = req'.method ∧ req.path = req'.path :=
  method_path_of_sameSignature hkey hsame (signatureCheck_of_verifyHmac h)
    (signatureCheck_of_verifyHmac h') hcollision

/-- The signature binds the whole request. -/
def SignatureBinds (state : AuthState) : Prop :=
  ∀ now now' req req', Request.SameSignature req req' →
    (signatureCheck state now req).isSome → (signatureCheck state now' req').isSome →
    NoCollision state req req' → req.SameParts req'

/-- Two requests with one signature that both pass are the same just if their
query strings and their bodies are. These are free: a request that passes does
so with any others. -/
theorem sameParts_iff_query_body (state state' : AuthState) (now now' : UInt64)
    (req req' : Request) (hkey : state'.hmacKey = state.hmacKey)
    (hsame : req.SameSignature req')
    (hpass : (signatureCheck state now req).isSome)
    (hpass' : (signatureCheck state' now' req').isSome)
    (hcollision : NoCollision state req req') :
    (req.SameParts req' ↔ req.query = req'.query ∧ req.body = req'.body) ∧
      ∀ query body, (signatureCheck state now { req with query, body }).isSome := by
  constructor
  · constructor
    · rintro ⟨-, -, hquery, hbody⟩
      exact ⟨hquery, hbody⟩
    · rintro ⟨hquery, hbody⟩
      obtain ⟨hmethod, hpath⟩ :=
        method_path_of_sameSignature hkey hsame hpass hpass' hcollision
      exact ⟨hmethod, hpath, hquery, hbody⟩
  · intro query body
    rw [signatureCheck_withQueryBody]
    exact hpass

/-! ## A signed request with another body -/

def testState : AuthState where
  hmacKey := some (utf8 "test-hmac-key-for-unit-tests-00")
  nonceCache := none
  timestampMaxAgeSecs := 300

theorem post_token : "POST".toList.all isTokenChar = true := by
  decide

/-- A request to one path, with the signature of its signed bytes under the
key. -/
def signedPost (body : Bytes) : Request where
  method := ⟨"POST", post_token⟩
  path := "/api"
  headers := [
    ("x-timestamp", utf8 "1700000000"),
    ("x-nonce", utf8 "abcdefgh12345678"),
    ("x-signature", utf8 (hexEncode (hmacSha256 (utf8 "test-hmac-key-for-unit-tests-00")
      (utf8 "POST\n/api\n1700000000\nabcdefgh12345678")).toBytes))]
  body

theorem signatureCheck_signedPost (body : Bytes) :
    (signatureCheck testState 1700000010 (signedPost body)).isSome = true := by
  have hempty : (signatureCheck testState 1700000010 (signedPost [])).isSome = true := by
    decide +kernel
  rw [← signatureCheck_withQueryBody none body] at hempty
  exact hempty

theorem noCollision_signedPost (body body' : Bytes) :
    NoCollision testState (signedPost body) (signedPost body') := by
  intro _ _ _ hbytes _ hbytes' _
  exact Option.mem_unique hbytes hbytes'

/-- The two requests are told apart by their bodies only, and pass with any. -/
theorem sameParts_iff_query_body_signedPost :
    ((signedPost [1]).SameParts (signedPost [2]) ↔
      (signedPost [1]).query = (signedPost [2]).query ∧
        (signedPost [1]).body = (signedPost [2]).body) ∧
    ∀ query body, (signatureCheck testState 1700000010
      { signedPost [1] with query, body }).isSome :=
  sameParts_iff_query_body testState testState 1700000010 1700000010
    (signedPost [1]) (signedPost [2]) rfl (fun _ _ => rfl)
    (signatureCheck_signedPost _) (signatureCheck_signedPost _)
    (noCollision_signedPost _ _)

/-- A signature that is good for one body is good for another. -/
theorem not_signatureBinds_testState : ¬ SignatureBinds testState := by
  intro hbinds
  have hparts := hbinds 1700000010 1700000010 (signedPost [1]) (signedPost [2])
    (fun _ _ => rfl) (signatureCheck_signedPost _) (signatureCheck_signedPost _)
    (noCollision_signedPost _ _)
  have hbody : ([1] : Bytes) = [2] := hparts.2.2.2
  exact absurd hbody (by decide)

end ReserveGrid.ApiGateway
