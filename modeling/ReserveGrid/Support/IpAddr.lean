import Mathlib.Data.Nat.Notation
import ReserveGrid.Support.Bytes

/-!
# Internet addresses

The addresses of the standard library: version 4 and version 6, the canonical
form that identifies an IPv4-mapped version 6 address with the version 4 one,
and the parser of their text. The parser reads as much as it can and accepts
when nothing is left.
-/

namespace ReserveGrid.Support

/-- Four octets. -/
structure Ipv4Addr where
  a : UInt8
  b : UInt8
  c : UInt8
  d : UInt8
  deriving DecidableEq, Repr

/-- Eight groups of sixteen bits. -/
structure Ipv6Addr where
  segments : List UInt16
  eight : segments.length = 8
  deriving DecidableEq

inductive IpAddr where
  | v4 (addr : Ipv4Addr)
  | v6 (addr : Ipv6Addr)
  deriving DecidableEq

namespace Ipv4Addr

/-- The two groups an embedded version 4 address takes. -/
def toSegments (addr : Ipv4Addr) : List UInt16 :=
  [addr.a.toUInt16 * 256 + addr.b.toUInt16,
    addr.c.toUInt16 * 256 + addr.d.toUInt16]

end Ipv4Addr

namespace Ipv6Addr

/-- The address of the first eight groups, the missing ones being zero. -/
def ofSegments (segments : List UInt16) : Ipv6Addr where
  segments := (segments ++ List.replicate 8 0).take 8
  eight := by simp

/-- The version 4 address that an IPv4-mapped address stands for. -/
def toIpv4Mapped (addr : Ipv6Addr) : Option Ipv4Addr :=
  match addr.segments with
  | [0, 0, 0, 0, 0, 0xffff, high, low] =>
      some
        { a := (high / 256).toUInt8
          b := high.toUInt8
          c := (low / 256).toUInt8
          d := low.toUInt8 }
  | _ => none

end Ipv6Addr

namespace IpAddr

/-- An IPv4-mapped address as a version 4 one, any other as it is. -/
def toCanonical : IpAddr → IpAddr
  | .v4 addr => .v4 addr
  | .v6 addr =>
      match addr.toIpv4Mapped with
      | some mapped => .v4 mapped
      | none => .v6 addr

@[simp] theorem toCanonical_toCanonical (ip : IpAddr) :
    ip.toCanonical.toCanonical = ip.toCanonical := by
  cases ip with
  | v4 addr => rfl
  | v6 addr =>
      cases h : addr.toIpv4Mapped with
      | some mapped => simp [toCanonical, h]
      | none => simp [toCanonical, h]

end IpAddr

/-! ## The parser -/

/-- A reader of a prefix of the text. A reader that fails reads nothing. -/
abbrev AddrReader (α : Type) := Bytes → Option (α × Bytes)

namespace AddrReader

/-- Read the given character. -/
def givenChar (target : UInt8) : AddrReader Unit
  | b :: rest => if b = target then some ((), rest) else none
  | [] => none

/-- Read with a separator in front, except at the first place. -/
def separator {α : Type} (sep : UInt8) (index : ℕ) (inner : AddrReader α) :
    AddrReader α := fun text =>
  if 0 < index then (givenChar sep text).bind fun r => inner r.2
  else inner text

/-- The value of a digit. -/
def toDigit (radix : ℕ) (b : UInt8) : Option ℕ :=
  let value :=
    if 48 ≤ b && b ≤ 57 then some (b.toNat - 48)
    else if 97 ≤ b && b ≤ 122 then some (b.toNat - 97 + 10)
    else if 65 ≤ b && b ≤ 90 then some (b.toNat - 65 + 10)
    else none
  value.filter (· < radix)

/-- Read digits as far as they go. There may be at most `maxDigits` of them and
the number has to stay below `bound`. -/
def digits (radix bound maxDigits : ℕ) (result count : ℕ) :
    Bytes → Option (ℕ × ℕ × Bytes)
  | [] => some (result, count, [])
  | b :: rest =>
      match toDigit radix b with
      | none => some (result, count, b :: rest)
      | some digit =>
          if bound ≤ result * radix + digit then none
          else if maxDigits < count + 1 then none
          else digits radix bound maxDigits (result * radix + digit)
            (count + 1) rest

/-- Read a number. Without `allowZero` a number of several digits does not
start with a zero. -/
def number (radix bound maxDigits : ℕ) (allowZero : Bool) : AddrReader ℕ :=
  fun text =>
    match digits radix bound maxDigits 0 0 text with
    | none => none
    | some (result, count, rest) =>
        if count = 0 then none
        else if !allowZero && text.head? == some 48 && 1 < count then none
        else some (result, rest)

/-- One octet of a version 4 address. -/
def octet (index : ℕ) : AddrReader UInt8 := fun text =>
  (separator 46 index (number 10 256 3 false) text).map fun r =>
    (UInt8.ofNat r.1, r.2)

/-- Read a version 4 address. -/
def ipv4Addr : AddrReader Ipv4Addr := fun text => do
  let (a, text) ← octet 0 text
  let (b, text) ← octet 1 text
  let (c, text) ← octet 2 text
  let (d, text) ← octet 3 text
  return ({ a := a, b := b, c := c, d := d }, text)

/-- Read groups, `left` more of `limit`, as far as they go. The last two may be
written as a version 4 address; the flag says so. -/
def groups (limit : ℕ) : ℕ → Bytes → List UInt16 × Bool × Bytes
  | 0, text => ([], false, text)
  | left + 1, text =>
      let index := limit - (left + 1)
      let ipv4 :=
        if index < limit - 1 then separator 58 index ipv4Addr text else none
      match ipv4 with
      | some (addr, rest) => (addr.toSegments, true, rest)
      | none =>
          match separator 58 index (number 16 65536 4 true) text with
          | none => ([], false, text)
          | some (group, rest) =>
              let (more, embedded, rest) := groups limit left rest
              (UInt16.ofNat group :: more, embedded, rest)

/-- Read a version 6 address: eight groups, or fewer around a `::`. -/
def ipv6Addr : AddrReader Ipv6Addr := fun text =>
  let (head, embedded, rest) := groups 8 8 text
  if head.length = 8 then some (.ofSegments head, rest)
  else if embedded then none
  else do
    let (_, rest) ← givenChar 58 rest
    let (_, rest) ← givenChar 58 rest
    let limit := 8 - (head.length + 1)
    let (tail, _, rest) := groups limit limit rest
    let zeros := List.replicate (8 - head.length - tail.length) 0
    return (.ofSegments (head ++ zeros ++ tail), rest)

/-- Read an address of either version. -/
def ipAddr : AddrReader IpAddr := fun text =>
  match ipv4Addr text with
  | some (addr, rest) => some (.v4 addr, rest)
  | none => (ipv6Addr text).map fun r => (.v6 r.1, r.2)

end AddrReader

/-- The address a text stands for. -/
def IpAddr.parse (text : Bytes) : Option IpAddr :=
  match AddrReader.ipAddr text with
  | some (ip, []) => some ip
  | _ => none

example : IpAddr.parse [49, 48, 46, 48, 46, 48, 46, 55] =
    some (.v4 { a := 10, b := 0, c := 0, d := 7 }) := by decide

-- a version 6 address around `::`, and an octet with a leading zero
example : IpAddr.parse [58, 58, 102, 102, 102, 102, 58, 49, 46, 50, 46, 51, 46, 52] =
    some (.v6 (.ofSegments [0, 0, 0, 0, 0, 0xffff, 0x102, 0x304])) := by decide

example : IpAddr.parse [49, 46, 50, 46, 51, 46, 48, 52] = none := by decide

end ReserveGrid.Support
