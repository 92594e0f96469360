import Mathlib.Data.List.Basic
import Mathlib.Tactic.Ring

/-!
# Bytes, fixed-size arrays and little-endian numbers

Byte strings are lists of bytes. A 32-byte array is a byte string that carries
its length. Numbers are written little-endian in a fixed number of bytes; the
number read back is the one written, modulo the range of the width.
-/

namespace ReserveGrid.Support

abbrev Bytes := List UInt8

/-- An array of exactly 32 bytes. -/
def Bytes32 := { bs : Bytes // bs.length = 32 }

namespace Bytes32

instance : DecidableEq Bytes32 :=
  inferInstanceAs (DecidableEq { bs : Bytes // bs.length = 32 })

/-- The bytes of the array. -/
def toBytes (h : Bytes32) : Bytes := h.1

@[simp] theorem length_toBytes (h : Bytes32) : h.toBytes.length = 32 := h.2

/-- A byte string as an array, when it has the right length. -/
def ofBytes (bs : Bytes) : Option Bytes32 :=
  if h : bs.length = 32 then some ⟨bs, h⟩ else none

@[simp] theorem ofBytes_toBytes (h : Bytes32) : ofBytes h.toBytes = some h :=
  dif_pos h.2

theorem ofBytes_eq_some {bs : Bytes} {h : Bytes32} :
    ofBytes bs = some h ↔ bs = h.toBytes := by
  constructor
  · intro hof
    unfold ofBytes at hof
    split at hof
    · cases hof
      rfl
    · simp at hof
  · rintro rfl
    exact ofBytes_toBytes h

/-- The array in the opposite byte order. -/
def reverse (h : Bytes32) : Bytes32 :=
  ⟨h.1.reverse, by simp [h.2]⟩

@[simp] theorem reverse_reverse (h : Bytes32) : h.reverse.reverse = h :=
  Subtype.ext (List.reverse_reverse _)

@[simp] theorem toBytes_reverse (h : Bytes32) :
    h.reverse.toBytes = h.toBytes.reverse := rfl

/-- The all-zero array. -/
def zero : Bytes32 := ⟨List.replicate 32 0, by simp⟩

/-- The same byte 32 times. -/
def fill (b : UInt8) : Bytes32 := ⟨List.replicate 32 b, List.length_replicate⟩

instance : Inhabited Bytes32 := ⟨zero⟩

end Bytes32

/-! ## Little-endian numbers -/

/-- The `width` low bytes of a number, the lowest first. -/
def leBytes : ℕ → ℕ → Bytes
  | 0, _ => []
  | width + 1, n => UInt8.ofNat n :: leBytes width (n / 256)

/-- The number with the given bytes, the lowest first. -/
def leNat : Bytes → ℕ
  | [] => 0
  | b :: bs => b.toNat + 256 * leNat bs

@[simp] theorem length_leBytes (width n : ℕ) :
    (leBytes width n).length = width := by
  induction width generalizing n with
  | zero => rfl
  | succ width ih => simp [leBytes, ih]

theorem leNat_leBytes (width n : ℕ) :
    leNat (leBytes width n) = n % 256 ^ width := by
  induction width generalizing n with
  | zero => simp [leBytes, leNat, Nat.mod_one]
  | succ width ih =>
      have hbyte : (UInt8.ofNat n).toNat = n % 256 := UInt8.toNat_ofNat'
      rw [leBytes, leNat, ih, hbyte, Nat.pow_succ', Nat.mod_mul]

theorem leNat_leBytes_of_lt {width n : ℕ} (h : n < 256 ^ width) :
    leNat (leBytes width n) = n := by
  rw [leNat_leBytes, Nat.mod_eq_of_lt h]

theorem leNat_lt (bs : Bytes) : leNat bs < 256 ^ bs.length := by
  induction bs with
  | nil => simp [leNat]
  | cons b bs ih =>
      have hb : b.toNat < 256 := b.toNat_lt
      rw [leNat, List.length_cons, Nat.pow_succ']
      omega

theorem leNat_append (bs cs : Bytes) :
    leNat (bs ++ cs) = leNat bs + 256 ^ bs.length * leNat cs := by
  induction bs with
  | nil => simp [leNat]
  | cons b bs ih =>
      rw [List.cons_append, leNat, leNat, ih, List.length_cons, Nat.pow_succ']
      ring

/-- A statement about bytes, checked at each of the 256. -/
theorem forall_byte {p : UInt8 → Prop} (h : ∀ n : Fin 256, p (UInt8.ofNat n)) :
    ∀ b, p b := by
  intro b
  have hb := h ⟨b.toNat, b.toNat_lt⟩
  rwa [UInt8.ofNat_toNat] at hb

theorem leBytes_leNat (bs : Bytes) : leBytes bs.length (leNat bs) = bs := by
  induction bs with
  | nil => rfl
  | cons b bs ih =>
      have hb : b.toNat < 256 := b.toNat_lt
      have hdiv : (b.toNat + 256 * leNat bs) / 256 = leNat bs := by omega
      have hmod : UInt8.ofNat (b.toNat + 256 * leNat bs) = b := by
        rw [← UInt8.toNat_inj, UInt8.toNat_ofNat']
        omega
      rw [leNat, List.length_cons, leBytes, hdiv, ih, hmod]

/-- The low bytes of a number do not depend on the width it is written in. -/
theorem take_leBytes {m width : ℕ} (h : m ≤ width) (n : ℕ) :
    (leBytes width n).take m = leBytes m n := by
  induction m generalizing width n with
  | zero => rfl
  | succ m ih =>
      obtain ⟨width, rfl⟩ : ∃ w, width = w + 1 := ⟨width - 1, by omega⟩
      rw [leBytes, leBytes, List.take_succ_cons, ih (by omega)]

/-- Numbers have the same low bytes when they are equal modulo the width. -/
theorem leBytes_eq_iff {m a b : ℕ} :
    leBytes m a = leBytes m b ↔ a % 256 ^ m = b % 256 ^ m := by
  constructor
  · intro h
    have hnat := congrArg leNat h
    rwa [leNat_leBytes, leNat_leBytes] at hnat
  · intro h
    have hmod : ∀ n, leBytes m (n % 256 ^ m) = leBytes m n := by
      intro n
      have hself := leBytes_leNat (leBytes m n)
      rwa [length_leBytes, leNat_leBytes] at hself
    rw [← hmod a, h, hmod]

end ReserveGrid.Support
