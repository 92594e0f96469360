import ReserveGrid.Support.Hex
import ReserveGrid.Support.Sha256

/-!
# HMAC-SHA256

The keyed hash built on SHA-256. A key of any length is allowed: one longer than
a block is hashed first.
-/

namespace ReserveGrid.Support

namespace Hmac

/-- The block of the hash function, in bytes. -/
def blockSize : ℕ := 64

/-- The key as one block, filled up with zeros. -/
def keyBlock (key : Bytes) : Bytes :=
  let key := if blockSize < key.length then (sha256 key).toBytes else key
  key ++ List.replicate (blockSize - key.length) 0

def padded (key : Bytes) (pad : UInt8) : Bytes :=
  (keyBlock key).map (· ^^^ pad)

end Hmac

def hmacSha256 (key message : Bytes) : Bytes32 :=
  let inner := sha256 (Hmac.padded key 0x36 ++ message)
  sha256 (Hmac.padded key 0x5c ++ inner.toBytes)

-- A published test vector, with the key "Jefe".
example : (hmacSha256 [0x4a, 0x65, 0x66, 0x65]
      "what do ya want for nothing?".toByteArray.data.toList).toBytes =
    [0x5b, 0xdc, 0xc1, 0x46, 0xbf, 0x60, 0x75, 0x4e, 0x6a, 0x04, 0x24, 0x26,
      0x08, 0x95, 0x75, 0xc7, 0x5a, 0x00, 0x3f, 0x08, 0x9d, 0x27, 0x39, 0x83,
      0x9d, 0xec, 0x58, 0xb9, 0x64, 0xec, 0x38, 0x43] := by
  decide +kernel

end ReserveGrid.Support
