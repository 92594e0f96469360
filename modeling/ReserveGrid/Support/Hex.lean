import ReserveGrid.Support.Bytes

/-!
# Hexadecimal text

Encoding writes two lower-case digits a byte. Decoding takes digits of either
case, and reports an odd number of digits before it looks at any of them.
-/

namespace ReserveGrid.Support

/-- Why a text is not the hexadecimal form of a byte string. -/
inductive FromHexError where
  | invalidHexCharacter (c : Char) (index : ℕ)
  | oddLength
  deriving DecidableEq, Repr

/-- A character in quotes, as the formatter's debug form writes it. Decoding
reads single bytes, so only the first 256 characters occur. -/
def charDebug (c : Char) : String :=
  let n := c.toNat
  if c = '\t' then "'\\t'"
  else if c = '\r' then "'\\r'"
  else if c = '\n' then "'\\n'"
  else if c = '\'' then "'\\''"
  else if c = '\\' then "'\\\\'"
  else if n = 0 then "'\\0'"
  else if n < 0x20 ∨ (0x7f ≤ n ∧ n ≤ 0xa0) ∨ n = 0xad then
    "'\\u\x7b" ++ String.ofList (Nat.toDigits 16 n) ++ "\x7d'"
  else "'" ++ String.singleton c ++ "'"

def FromHexError.message : FromHexError → String
  | .invalidHexCharacter c index =>
      "Invalid character " ++ charDebug c ++ " at position " ++ toString index
  | .oddLength => "Odd number of digits"

/-- The value of a hexadecimal digit. -/
def hexVal (c : Char) : Option ℕ :=
  if '0' ≤ c ∧ c ≤ '9' then some (c.toNat - 48)
  else if 'a' ≤ c ∧ c ≤ 'f' then some (c.toNat - 87)
  else if 'A' ≤ c ∧ c ≤ 'F' then some (c.toNat - 55)
  else none

/-- The lower-case digit of a value below sixteen. -/
def hexChar (n : ℕ) : Char :=
  if n < 10 then Char.ofNat (48 + n) else Char.ofNat (87 + n)

/-- The first byte of a character's encoding, as a character. -/
def firstByte (c : Char) : Char :=
  Char.ofNat ((String.utf8EncodeChar c).headD 0).toNat

def hexValAt (c : Char) (index : ℕ) : Except FromHexError ℕ :=
  match hexVal c with
  | some n => .ok n
  | none => .error (.invalidHexCharacter (firstByte c) index)

def hexDecodeFrom : ℕ → List Char → Except FromHexError Bytes
  | _, [] => .ok []
  | index, [c] => .error (.invalidHexCharacter (firstByte c) index)
  | index, hi :: lo :: rest => do
      let high ← hexValAt hi index
      let low ← hexValAt lo (index + 1)
      let bs ← hexDecodeFrom (index + 2) rest
      return UInt8.ofNat (high * 16 + low) :: bs

/-- The bytes of a hexadecimal text. -/
def hexDecode (s : String) : Except FromHexError Bytes :=
  if (s.toList.map Char.utf8Size).sum % 2 ≠ 0 then .error .oddLength
  else hexDecodeFrom 0 s.toList

def hexChars (bs : Bytes) : List Char :=
  bs.flatMap fun b => [hexChar (b.toNat / 16), hexChar (b.toNat % 16)]

/-- The hexadecimal text of a byte string. -/
def hexEncode (bs : Bytes) : String := String.ofList (hexChars bs)

theorem hexVal_hexChar (n : Fin 16) : hexVal (hexChar n) = some n.val := by
  revert n
  decide

theorem utf8Size_hexChar (n : Fin 16) : (hexChar n).utf8Size = 1 := by
  revert n
  decide

theorem hexDecodeFrom_hexChars (bs : Bytes) (index : ℕ) :
    hexDecodeFrom index (hexChars bs) = .ok bs := by
  induction bs generalizing index with
  | nil => rfl
  | cons b bs ih =>
      have hb : b.toNat < 256 := b.toNat_lt
      have hhigh := hexVal_hexChar ⟨b.toNat / 16, by omega⟩
      have hlow := hexVal_hexChar ⟨b.toNat % 16, by omega⟩
      have hbyte : UInt8.ofNat (b.toNat / 16 * 16 + b.toNat % 16) = b := by
        rw [Nat.div_add_mod']
        exact UInt8.ofNat_toNat
      have hcons : hexChars (b :: bs) =
          hexChar (b.toNat / 16) :: hexChar (b.toNat % 16) :: hexChars bs := rfl
      dsimp only at hhigh hlow
      rw [hcons, hexDecodeFrom, hexValAt, hhigh, hexValAt, hlow, ih]
      simp only [bind, Except.bind, pure, Except.pure, hbyte]

theorem sum_utf8Size_hexChars (bs : Bytes) :
    ((hexChars bs).map Char.utf8Size).sum = 2 * bs.length := by
  induction bs with
  | nil => rfl
  | cons b bs ih =>
      have hb : b.toNat < 256 := b.toNat_lt
      have hhigh := utf8Size_hexChar ⟨b.toNat / 16, by omega⟩
      have hlow := utf8Size_hexChar ⟨b.toNat % 16, by omega⟩
      have hcons : hexChars (b :: bs) =
          hexChar (b.toNat / 16) :: hexChar (b.toNat % 16) :: hexChars bs := rfl
      dsimp only at hhigh hlow
      rw [hcons, List.map_cons, List.map_cons, List.sum_cons, List.sum_cons,
        ih, hhigh, hlow, List.length_cons]
      omega

/-- Decoding the text of a byte string gives it back. -/
@[simp] theorem hexDecode_hexEncode (bs : Bytes) :
    hexDecode (hexEncode bs) = .ok bs := by
  rw [hexDecode, hexEncode, String.toList_ofList, sum_utf8Size_hexChars,
    if_neg (by omega), hexDecodeFrom_hexChars]

end ReserveGrid.Support
