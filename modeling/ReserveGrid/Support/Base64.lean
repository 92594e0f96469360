import ReserveGrid.Support.Bytes

/-!
# Unpadded base64url

Three bytes are written as four characters of six bits each; one or two bytes
at the end as two or three. The bits of the last character that stand for
nothing are zero. The decoder accepts exactly the texts the encoder writes.
-/

namespace ReserveGrid.Support

namespace Base64

/-- The character of six bits. -/
def urlChar (v : ℕ) : UInt8 :=
  if v < 26 then UInt8.ofNat (65 + v)
  else if v < 52 then UInt8.ofNat (71 + v)
  else if v < 62 then UInt8.ofNat (v - 4)
  else if v = 62 then 45
  else 95

/-- The six bits of a character. -/
def urlValue (b : UInt8) : Option ℕ :=
  if 65 ≤ b && b ≤ 90 then some (b.toNat - 65)
  else if 97 ≤ b && b ≤ 122 then some (b.toNat - 71)
  else if 48 ≤ b && b ≤ 57 then some (b.toNat + 4)
  else if b = 45 then some 62
  else if b = 95 then some 63
  else none

/-- The first byte of a group, from its first two characters. -/
def byte₀ (v w : ℕ) : UInt8 := UInt8.ofNat (v * 4 + w / 16)

/-- The second byte of a group, from its second and third character. -/
def byte₁ (w x : ℕ) : UInt8 := UInt8.ofNat (w % 16 * 16 + x / 4)

/-- The third byte of a group, from its last two characters. -/
def byte₂ (x y : ℕ) : UInt8 := UInt8.ofNat (x % 4 * 64 + y)

def encode : Bytes → Bytes
  | a :: b :: c :: rest =>
      urlChar (a.toNat / 4) ::
        urlChar (a.toNat % 4 * 16 + b.toNat / 16) ::
        urlChar (b.toNat % 16 * 4 + c.toNat / 64) ::
        urlChar (c.toNat % 64) :: encode rest
  | [a, b] =>
      [urlChar (a.toNat / 4), urlChar (a.toNat % 4 * 16 + b.toNat / 16),
        urlChar (b.toNat % 16 * 4)]
  | [a] => [urlChar (a.toNat / 4), urlChar (a.toNat % 4 * 16)]
  | [] => []

/-- The bytes of a text, unless it has another character, ends in a lone one or
has bits that stand for nothing. -/
def decode : Bytes → Option Bytes
  | p :: q :: r :: s :: rest =>
      match urlValue p, urlValue q, urlValue r, urlValue s, decode rest with
      | some v, some w, some x, some y, some tail =>
          some (byte₀ v w :: byte₁ w x :: byte₂ x y :: tail)
      | _, _, _, _, _ => none
  | [p, q, r] =>
      match urlValue p, urlValue q, urlValue r with
      | some v, some w, some x =>
          if x % 4 = 0 then some [byte₀ v w, byte₁ w x] else none
      | _, _, _ => none
  | [p, q] =>
      match urlValue p, urlValue q with
      | some v, some w => if w % 16 = 0 then some [byte₀ v w] else none
      | _, _ => none
  | [_] => none
  | [] => some []

/-! ## Characters -/

theorem urlValue_urlChar_fin (v : Fin 64) :
    urlValue (urlChar v.val) = some v.val := by
  decide +revert

theorem urlValue_urlChar {v : ℕ} (h : v < 64) : urlValue (urlChar v) = some v :=
  urlValue_urlChar_fin ⟨v, h⟩

theorem urlChar_urlValue_fin (n : Fin 256) :
    ∀ v ∈ urlValue (UInt8.ofNat n.val),
      v < 64 ∧ urlChar v = UInt8.ofNat n.val := by
  decide +revert +kernel

theorem urlChar_of_urlValue {b : UInt8} {v : ℕ} (h : urlValue b = some v) :
    v < 64 ∧ urlChar v = b := by
  have hfin := urlChar_urlValue_fin ⟨b.toNat, b.toNat_lt⟩ v
  simp only [UInt8.ofNat_toNat] at hfin
  exact hfin h

/-! ## Groups -/

theorem byte₀_encode (a : UInt8) {w : ℕ} (h : w / 16 = a.toNat % 4) :
    byte₀ (a.toNat / 4) w = a := by
  have hsum : a.toNat / 4 * 4 + w / 16 = a.toNat := by omega
  rw [byte₀, hsum, UInt8.ofNat_toNat]

theorem byte₁_encode (b : UInt8) {w x : ℕ} (hw : w % 16 = b.toNat / 16)
    (hx : x / 4 = b.toNat % 16) :
    byte₁ w x = b := by
  have hsum : w % 16 * 16 + x / 4 = b.toNat := by omega
  rw [byte₁, hsum, UInt8.ofNat_toNat]

theorem byte₂_encode (c : UInt8) {x : ℕ} (hx : x % 4 = c.toNat / 64) :
    byte₂ x (c.toNat % 64) = c := by
  have hsum : x % 4 * 64 + c.toNat % 64 = c.toNat := by omega
  rw [byte₂, hsum, UInt8.ofNat_toNat]

theorem toNat_byte₀ {v w : ℕ} (hv : v < 64) (hw : w < 64) :
    (byte₀ v w).toNat = v * 4 + w / 16 := by
  have hlt : v * 4 + w / 16 < 2 ^ 8 := by omega
  rw [byte₀, UInt8.toNat_ofNat_of_lt' hlt]

theorem toNat_byte₁ {w x : ℕ} (hx : x < 64) :
    (byte₁ w x).toNat = w % 16 * 16 + x / 4 := by
  have hlt : w % 16 * 16 + x / 4 < 2 ^ 8 := by omega
  rw [byte₁, UInt8.toNat_ofNat_of_lt' hlt]

theorem toNat_byte₂ {x y : ℕ} (hy : y < 64) :
    (byte₂ x y).toNat = x % 4 * 64 + y := by
  have hlt : x % 4 * 64 + y < 2 ^ 8 := by omega
  rw [byte₂, UInt8.toNat_ofNat_of_lt' hlt]

/-! ## The round trip -/

theorem decode_encode (bs : Bytes) : decode (encode bs) = some bs := by
  induction bs using encode.induct with
  | case1 a b c rest ih =>
      have ha := a.toNat_lt
      have hb := b.toNat_lt
      have hc := c.toNat_lt
      rw [encode, decode, urlValue_urlChar (by omega),
        urlValue_urlChar (by omega), urlValue_urlChar (by omega),
        urlValue_urlChar (by omega), ih]
      dsimp only
      rw [byte₀_encode a (by omega), byte₁_encode b (by omega) (by omega),
        byte₂_encode c (by omega)]
  | case2 a b =>
      have ha := a.toNat_lt
      have hb := b.toNat_lt
      rw [encode, decode, urlValue_urlChar (by omega),
        urlValue_urlChar (by omega), urlValue_urlChar (by omega)]
      dsimp only
      rw [if_pos (by omega), byte₀_encode a (by omega),
        byte₁_encode b (by omega) (by omega)]
  | case3 a =>
      have ha := a.toNat_lt
      rw [encode, decode, urlValue_urlChar (by omega),
        urlValue_urlChar (by omega)]
      dsimp only
      rw [if_pos (by omega), byte₀_encode a (by omega)]
  | case4 => rfl

/-- Only what the encoder writes is decoded. -/
theorem eq_encode_of_decode : ∀ {text bs : Bytes},
    decode text = some bs → text = encode bs
  | p :: q :: r :: s :: rest, bs, h => by
      rw [decode] at h
      split at h
      · rename_i v w x y tail hp hq hr hs hrest
        obtain ⟨hv, rfl⟩ := urlChar_of_urlValue hp
        obtain ⟨hw, rfl⟩ := urlChar_of_urlValue hq
        obtain ⟨hx, rfl⟩ := urlChar_of_urlValue hr
        obtain ⟨hy, rfl⟩ := urlChar_of_urlValue hs
        cases h
        rw [encode, toNat_byte₀ hv hw, toNat_byte₁ hx, toNat_byte₂ hy,
          ← eq_encode_of_decode hrest]
        congr 4 <;> congr 1 <;> omega
      · cases h
  | [p, q, r], bs, h => by
      rw [decode] at h
      split at h
      · rename_i v w x hp hq hr
        obtain ⟨hv, rfl⟩ := urlChar_of_urlValue hp
        obtain ⟨hw, rfl⟩ := urlChar_of_urlValue hq
        obtain ⟨hx, rfl⟩ := urlChar_of_urlValue hr
        split at h
        · cases h
          rw [encode, toNat_byte₀ hv hw, toNat_byte₁ hx]
          congr 4 <;> omega
        · cases h
      · cases h
  | [p, q], bs, h => by
      rw [decode] at h
      split at h
      · rename_i v w hp hq
        obtain ⟨hv, rfl⟩ := urlChar_of_urlValue hp
        obtain ⟨hw, rfl⟩ := urlChar_of_urlValue hq
        split at h
        · cases h
          rw [encode, toNat_byte₀ hv hw]
          congr 3 <;> omega
        · cases h
      · cases h
  | [_], bs, h => by
      rw [decode] at h
      cases h
  | [], bs, h => by
      cases h
      rfl

theorem decode_eq_some {text bs : Bytes} :
    decode text = some bs ↔ text = encode bs := by
  constructor
  · exact eq_encode_of_decode
  · rintro rfl
    exact decode_encode bs

/-- An encoded text is made of the characters of the alphabet. -/
theorem mem_encode {bs : Bytes} {b : UInt8} (h : b ∈ encode bs) :
    ∃ v < 64, b = urlChar v := by
  induction bs using encode.induct with
  | case1 a b' c rest ih =>
      have ha := a.toNat_lt
      have hb := b'.toNat_lt
      have hc := c.toNat_lt
      simp only [encode, List.mem_cons] at h
      rcases h with rfl | rfl | rfl | rfl | h
      · exact ⟨_, by omega, rfl⟩
      · exact ⟨_, by omega, rfl⟩
      · exact ⟨_, by omega, rfl⟩
      · exact ⟨_, by omega, rfl⟩
      · exact ih h
  | case2 a b' =>
      have ha := a.toNat_lt
      have hb := b'.toNat_lt
      simp only [encode, List.mem_cons, List.not_mem_nil, or_false] at h
      rcases h with rfl | rfl | rfl
      · exact ⟨_, by omega, rfl⟩
      · exact ⟨_, by omega, rfl⟩
      · exact ⟨_, by omega, rfl⟩
  | case3 a =>
      have ha := a.toNat_lt
      simp only [encode, List.mem_cons, List.not_mem_nil, or_false] at h
      rcases h with rfl | rfl
      · exact ⟨_, by omega, rfl⟩
      · exact ⟨_, by omega, rfl⟩
  | case4 => cases h

end Base64

end ReserveGrid.Support
