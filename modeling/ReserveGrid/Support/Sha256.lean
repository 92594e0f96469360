import ReserveGrid.Support.Bytes

/-!
# SHA-256

The hash function of FIPS 180-4, on byte strings. Results about hashes in this
development hold of any function with 32-byte values; this is the one the
programs use.
-/

namespace ReserveGrid.Support.Sha256

/-- The eight working words. -/
structure State where
  a : UInt32
  b : UInt32
  c : UInt32
  d : UInt32
  e : UInt32
  f : UInt32
  g : UInt32
  h : UInt32

def initial : State where
  a := 0x6a09e667
  b := 0xbb67ae85
  c := 0x3c6ef372
  d := 0xa54ff53a
  e := 0x510e527f
  f := 0x9b05688c
  g := 0x1f83d9ab
  h := 0x5be0cd19

def roundConstants : List UInt32 :=
  [0x428a2f98, 0x71374491, 0xb5c0fbcf, 0xe9b5dba5, 0x3956c25b, 0x59f111f1,
    0x923f82a4, 0xab1c5ed5, 0xd807aa98, 0x12835b01, 0x243185be, 0x550c7dc3,
    0x72be5d74, 0x80deb1fe, 0x9bdc06a7, 0xc19bf174, 0xe49b69c1, 0xefbe4786,
    0x0fc19dc6, 0x240ca1cc, 0x2de92c6f, 0x4a7484aa, 0x5cb0a9dc, 0x76f988da,
    0x983e5152, 0xa831c66d, 0xb00327c8, 0xbf597fc7, 0xc6e00bf3, 0xd5a79147,
    0x06ca6351, 0x14292967, 0x27b70a85, 0x2e1b2138, 0x4d2c6dfc, 0x53380d13,
    0x650a7354, 0x766a0abb, 0x81c2c92e, 0x92722c85, 0xa2bfe8a1, 0xa81a664b,
    0xc24b8b70, 0xc76c51a3, 0xd192e819, 0xd6990624, 0xf40e3585, 0x106aa070,
    0x19a4c116, 0x1e376c08, 0x2748774c, 0x34b0bcb5, 0x391c0cb3, 0x4ed8aa4a,
    0x5b9cca4f, 0x682e6ff3, 0x748f82ee, 0x78a5636f, 0x84c87814, 0x8cc70208,
    0x90befffa, 0xa4506ceb, 0xbef9a3f7, 0xc67178f2]

def rotr (x n : UInt32) : UInt32 := (x >>> n) ||| (x <<< (32 - n))

def smallSigma0 (x : UInt32) : UInt32 := rotr x 7 ^^^ rotr x 18 ^^^ (x >>> 3)

def smallSigma1 (x : UInt32) : UInt32 := rotr x 17 ^^^ rotr x 19 ^^^ (x >>> 10)

def bigSigma0 (x : UInt32) : UInt32 := rotr x 2 ^^^ rotr x 13 ^^^ rotr x 22

def bigSigma1 (x : UInt32) : UInt32 := rotr x 6 ^^^ rotr x 11 ^^^ rotr x 25

def choose (x y z : UInt32) : UInt32 := (x &&& y) ^^^ (~~~x &&& z)

def majority (x y z : UInt32) : UInt32 := (x &&& y) ^^^ (x &&& z) ^^^ (y &&& z)

/-- A number of four bytes, the highest first. -/
def beWord (bs : Bytes) : UInt32 := UInt32.ofNat (leNat bs.reverse)

def wordBytes (w : UInt32) : Bytes := (leBytes 4 w.toNat).reverse

/-- The first sixteen words of the schedule, the last one first. -/
def blockWords : ℕ → Bytes → List UInt32
  | 0, _ => []
  | n + 1, bs => blockWords n (bs.drop 4) ++ [beWord (bs.take 4)]

/-- Extend the schedule by `n` words; it is kept the last word first. -/
def extendSchedule : ℕ → List UInt32 → List UInt32
  | 0, ws => ws
  | n + 1, ws =>
      extendSchedule n
        ((smallSigma1 (ws.getD 1 0) + ws.getD 6 0 +
          smallSigma0 (ws.getD 14 0) + ws.getD 15 0) :: ws)

def round (s : State) (kw : UInt32 × UInt32) : State :=
  let t1 := s.h + bigSigma1 s.e + choose s.e s.f s.g + kw.1 + kw.2
  let t2 := bigSigma0 s.a + majority s.a s.b s.c
  ⟨t1 + t2, s.a, s.b, s.c, s.d + t1, s.e, s.f, s.g⟩

def compress (s : State) (blk : Bytes) : State :=
  let ws := (extendSchedule 48 (blockWords 16 blk)).reverse
  let r := (roundConstants.zip ws).foldl round s
  ⟨s.a + r.a, s.b + r.b, s.c + r.c, s.d + r.d, s.e + r.e, s.f + r.f, s.g + r.g,
    s.h + r.h⟩

def compressAll : ℕ → State → Bytes → State
  | 0, s, _ => s
  | n + 1, s, bs => compressAll n (compress s (bs.take 64)) (bs.drop 64)

/-- The message with its padding, a whole number of 64-byte blocks. -/
def padded (bs : Bytes) : Bytes :=
  let zeros := (119 - bs.length % 64) % 64
  bs ++ 0x80 :: List.replicate zeros 0 ++ (leBytes 8 (8 * bs.length)).reverse

def State.digest (s : State) : Bytes :=
  wordBytes s.a ++ wordBytes s.b ++ wordBytes s.c ++ wordBytes s.d ++
    wordBytes s.e ++ wordBytes s.f ++ wordBytes s.g ++ wordBytes s.h

theorem State.length_digest (s : State) : s.digest.length = 32 := by
  simp [digest, wordBytes]

end ReserveGrid.Support.Sha256

namespace ReserveGrid.Support

/-- SHA-256. -/
def sha256 (bs : Bytes) : Bytes32 :=
  let msg := Sha256.padded bs
  let s := Sha256.compressAll (msg.length / 64) Sha256.initial msg
  ⟨s.digest, s.length_digest⟩

end ReserveGrid.Support
