import Mathlib.Data.Nat.Digits.Lemmas
import Mathlib.Tactic.FinCases
import ReserveGrid.Support.Lines

/-!
# JSON strings and numbers as bytes

The compact text that a JSON serialiser writes for a string and for a natural
number, and the readers that take it back. A serialised value holds no control
byte, so it never breaks a line.
-/

namespace ReserveGrid.Support.JsonText

/-- The UTF-8 bytes of a string. -/
def utf8 (s : String) : Bytes := s.toByteArray.data.toList

/-- The string with the given UTF-8 bytes, if they are well formed. -/
def fromUtf8 (bs : Bytes) : Option String := String.fromUTF8? bs.toByteArray

theorem fromUtf8_utf8 (s : String) : fromUtf8 (utf8 s) = some s := by
  have hbytes : (utf8 s).toByteArray = s.toByteArray := by
    apply ByteArray.ext
    rw [List.data_toByteArray, utf8, Array.toArray_toList]
  unfold fromUtf8 String.fromUTF8?
  rw [hbytes, dif_pos s.isValidUTF8]
  rfl

theorem utf8_of_fromUtf8 {bs : Bytes} {s : String} (h : fromUtf8 bs = some s) :
    utf8 s = bs := by
  unfold fromUtf8 String.fromUTF8? at h
  split at h
  · cases h
    change bs.toByteArray.data.toList = bs
    rw [List.data_toByteArray]
  · cases h

/-! ## Fixed text -/

/-- Take a fixed text off the front of the input. -/
def expect (text input : Bytes) : Option Bytes :=
  if text.isPrefixOf input then some (input.drop text.length) else none

@[simp] theorem expect_append (text rest : Bytes) :
    expect text (text ++ rest) = some rest := by
  simp [expect]

/-- What is taken off the front does not depend on what stands behind it. -/
theorem expect_append_right {text input rest : Bytes}
    (h : expect text input = some rest) (more : Bytes) :
    expect text (input ++ more) = some (rest ++ more) := by
  unfold expect at h
  split at h
  · rename_i hprefix
    obtain ⟨tail, rfl⟩ := List.isPrefixOf_iff_prefix.mp hprefix
    rw [List.drop_left] at h
    cases h
    rw [List.append_assoc, expect_append]
  · cases h

/-! ## Strings -/

/-- The characters with a two-character escape, each with its letter. -/
def shortEscapes : List (UInt8 × UInt8) :=
  [(0x22, 0x22), (0x5c, 0x5c), (8, 0x62), (9, 0x74), (10, 0x6e), (12, 0x66),
    (13, 0x72)]

def hexDigit (n : UInt8) : UInt8 := if n < 10 then 0x30 + n else 0x57 + n

def hexValue (b : UInt8) : UInt8 := if b < 0x3a then b - 0x30 else b - 0x57

/-- One byte of a string as it stands between the quotes. -/
def escapeByte (b : UInt8) : Bytes :=
  match shortEscapes.lookup b with
  | some c => [0x5c, c]
  | none =>
      if b < 0x20 then [0x5c, 0x75, 0x30, 0x30, hexDigit (b / 16), hexDigit (b % 16)]
      else [b]

/-- The text of a string, its closing quote included and its opening quote
left out. -/
def escape (s : Bytes) : Bytes := s.flatMap escapeByte ++ [0x22]

/-- Read a string up to its closing quote, and return what follows. -/
def unescape : Bytes → Option (Bytes × Bytes)
  | [] => none
  | b :: bs =>
      if b = 0x22 then some ([], bs)
      else if b = 0x5c then
        match bs with
        | 0x75 :: _ :: _ :: h :: l :: rest =>
            (unescape rest).map fun r => ((hexValue h * 16 + hexValue l) :: r.1, r.2)
        | c :: rest =>
            match shortEscapes.find? (·.2 = c) with
            | some e => (unescape rest).map fun r => (e.1 :: r.1, r.2)
            | none => none
        | [] => none
      else (unescape bs).map fun r => (b :: r.1, r.2)

/-- The control characters are checked one by one. -/
theorem unescape_escapeByte_control (n : Fin 32) (rest : Bytes) :
    unescape (escapeByte (UInt8.ofNat n) ++ rest) =
      (unescape rest).map fun r => (UInt8.ofNat n :: r.1, r.2) := by
  fin_cases n <;>
    simp [escapeByte, shortEscapes, hexDigit, unescape, hexValue, List.lookup_cons]

theorem escapeByte_of_plain {b : UInt8}
    (hb : ¬ b < 0x20) (hquote : b ≠ 0x22) (hback : b ≠ 0x5c) :
    escapeByte b = [b] := by
  have hlookup : shortEscapes.lookup b = none := by
    rw [List.lookup_eq_none_iff]
    intro p hp
    have hall : (shortEscapes.all fun p =>
        p.1 = 0x22 ∨ p.1 = 0x5c ∨ p.1 < 0x20) = true := by
      decide
    have hcases := of_decide_eq_true (List.all_eq_true.mp hall p hp)
    rcases hcases with h | h | h
    · simpa [h] using hquote
    · simpa [h] using hback
    · have hne : b ≠ p.1 := fun heq => hb (heq ▸ h)
      simpa using hne
  rw [escapeByte, hlookup, if_neg hb]

theorem unescape_escapeByte (b : UInt8) (rest : Bytes) :
    unescape (escapeByte b ++ rest) =
      (unescape rest).map fun r => (b :: r.1, r.2) := by
  by_cases hb : b < 0x20
  · have hlt : b.toNat < 32 := by simpa [UInt8.lt_iff_toNat_lt] using hb
    simpa using unescape_escapeByte_control ⟨b.toNat, hlt⟩ rest
  · by_cases hquote : b = 0x22
    · subst hquote
      simp [escapeByte, shortEscapes, unescape]
    · by_cases hback : b = 0x5c
      · subst hback
        simp [escapeByte, shortEscapes, unescape, List.lookup_cons]
      · rw [escapeByte_of_plain hb hquote hback, List.singleton_append,
          unescape.eq_def]
        simp [hquote, hback]

theorem unescape_escape_append (s rest : Bytes) :
    unescape (escape s ++ rest) = some (s, rest) := by
  induction s with
  | nil =>
      rw [escape, List.flatMap_nil, List.nil_append, List.singleton_append,
        unescape.eq_def]
      rfl
  | cons b s ih =>
      have hcons : escape (b :: s) ++ rest =
          escapeByte b ++ (escape s ++ rest) := by
        simp [escape]
      rw [hcons, unescape_escapeByte, ih]
      rfl

/-- No two-character escape has the letter of the longer ones. -/
theorem find_shortEscapes_u :
    shortEscapes.find? (fun e => decide (e.2 = 0x75)) = none := by
  decide

theorem unescape_short {c : UInt8} {e : UInt8 × UInt8} (rest : Bytes)
    (he : shortEscapes.find? (fun e => decide (e.2 = c)) = some e) :
    unescape (0x5c :: c :: rest) =
      (unescape rest).map fun r => (e.1 :: r.1, r.2) := by
  have hc : c ≠ 0x75 := by
    rintro rfl
    rw [find_shortEscapes_u] at he
    cases he
  rw [unescape.eq_def]
  dsimp only
  rw [if_neg (by decide), if_pos rfl]
  split
  · rename_i heq
    exact absurd (List.head_eq_of_cons_eq heq) hc
  · rename_i heq
    cases heq
    rw [he]
  · rename_i heq
    cases heq

/-- A string that is read does not depend on what stands behind it. -/
theorem unescape_append_right {input rest text : Bytes}
    (h : unescape input = some (text, rest)) (more : Bytes) :
    unescape (input ++ more) = some (text, rest ++ more) := by
  induction input using unescape.induct generalizing text with
  | case1 => simp [unescape] at h
  | case2 bs =>
      rw [unescape.eq_def] at h
      cases h
      rw [unescape.eq_def]
      rfl
  | case3 i j high low rest' hquote ih =>
      rw [unescape.eq_2, if_neg hquote, if_pos rfl] at h
      obtain ⟨r, hr, heq⟩ := Option.map_eq_some_iff.mp h
      cases heq
      simp only [List.cons_append]
      rw [unescape.eq_2, if_neg hquote, if_pos rfl, ih hr]
      rfl
  | case4 c rest' hshort e he hquote ih =>
      rw [unescape_short _ he] at h
      obtain ⟨r, hr, heq⟩ := Option.map_eq_some_iff.mp h
      cases heq
      rw [List.cons_append, List.cons_append, unescape_short _ he, ih hr]
      rfl
  | case5 c rest' hshort hnone hquote =>
      rw [unescape.eq_def] at h
      dsimp only at h
      rw [if_neg hquote, if_pos rfl] at h
      split at h
      · rename_i heq
        cases heq
        exact absurd rfl (fun heq => hshort _ _ _ _ _ rfl heq)
      · rename_i heq
        cases heq
        rw [hnone] at h
        cases h
      · cases h
  | case6 hquote => simp [unescape] at h
  | case7 b bs hquote hback ih =>
      rw [unescape.eq_def] at h
      dsimp only at h
      rw [if_neg hquote, if_neg hback] at h
      obtain ⟨r, hr, heq⟩ := Option.map_eq_some_iff.mp h
      cases heq
      rw [List.cons_append, unescape.eq_def]
      dsimp only
      rw [if_neg hquote, if_neg hback, ih hr]
      rfl

theorem le_of_mem_escapeByte {b c : UInt8} (hc : c ∈ escapeByte b) :
    0x20 ≤ c := by
  by_cases hb : b < 0x20
  · have hlt : b.toNat < 32 := by simpa [UInt8.lt_iff_toNat_lt] using hb
    have hall : ∀ n : Fin 32,
        ((escapeByte (UInt8.ofNat n)).all fun c => 0x20 ≤ c) = true := by
      decide +kernel
    have hle := List.all_eq_true.mp (hall ⟨b.toNat, hlt⟩) c (by simpa using hc)
    exact of_decide_eq_true hle
  · by_cases hquote : b = 0x22
    · subst hquote
      have hall : ((escapeByte 0x22).all fun c => 0x20 ≤ c) = true := by decide
      exact of_decide_eq_true (List.all_eq_true.mp hall c hc)
    · by_cases hback : b = 0x5c
      · subst hback
        have hall : ((escapeByte 0x5c).all fun c => 0x20 ≤ c) = true := by decide
        exact of_decide_eq_true (List.all_eq_true.mp hall c hc)
      · rw [escapeByte_of_plain hb hquote hback, List.mem_singleton] at hc
        subst hc
        exact UInt8.not_lt.mp hb

theorem le_of_mem_escape {s : Bytes} {c : UInt8} (hc : c ∈ escape s) :
    0x20 ≤ c := by
  rw [escape, List.mem_append, List.mem_flatMap] at hc
  rcases hc with ⟨b, -, hb⟩ | hc
  · exact le_of_mem_escapeByte hb
  · rw [List.mem_singleton] at hc
    subst hc
    decide

/-! ## Numbers -/

/-- The decimal digits of a number, the most significant first. -/
def decimal (n : ℕ) : Bytes :=
  if n = 0 then [0x30]
  else (Nat.digits 10 n).reverse.map fun d => UInt8.ofNat (0x30 + d)

/-- Read a number made of decimal digits alone. -/
def readDecimal (bs : Bytes) : Option ℕ :=
  if bs ≠ [] ∧ bs.all fun b => 0x30 ≤ b ∧ b ≤ 0x39 then
    some (Nat.ofDigits 10 (bs.reverse.map fun b => b.toNat - 0x30))
  else none

theorem decimalDigit_toNat {d : ℕ} (hd : d < 10) :
    (UInt8.ofNat (0x30 + d)).toNat = 0x30 + d := by
  rw [UInt8.toNat_ofNat']
  omega

theorem mem_decimal {n : ℕ} {b : UInt8} (hb : b ∈ decimal n) :
    0x30 ≤ b ∧ b ≤ 0x39 := by
  unfold decimal at hb
  split at hb
  · rw [List.mem_singleton] at hb
    subst hb
    decide
  · obtain ⟨d, hd, rfl⟩ := List.mem_map.mp hb
    have hlt : d < 10 := Nat.digits_lt_base (by norm_num) (List.mem_reverse.mp hd)
    rw [UInt8.le_iff_toNat_le, UInt8.le_iff_toNat_le, decimalDigit_toNat hlt]
    simp only [UInt8.reduceToNat]
    omega

theorem decimal_ne_nil (n : ℕ) : decimal n ≠ [] := by
  unfold decimal
  split
  · simp
  · rename_i h
    simpa using Nat.digits_ne_nil_iff_ne_zero.mpr h

theorem length_decimal_le {n k : ℕ} (hk : 0 < k) (hn : n < 10 ^ k) :
    (decimal n).length ≤ k := by
  unfold decimal
  by_cases hzero : n = 0
  · rw [if_pos hzero]
    exact hk
  · rw [if_neg hzero, List.length_map, List.length_reverse]
    exact (Nat.digits_length_le_iff (by decide) n).mpr hn

theorem readDecimal_decimal (n : ℕ) : readDecimal (decimal n) = some n := by
  have hdigits : ((decimal n).all fun b => 0x30 ≤ b ∧ b ≤ 0x39) = true :=
    List.all_eq_true.mpr fun b hb => decide_eq_true (mem_decimal hb)
  rw [readDecimal, if_pos ⟨decimal_ne_nil n, hdigits⟩]
  congr 1
  unfold decimal
  split
  · rename_i h
    simp [h]
  · rw [← List.map_reverse, List.reverse_reverse, List.map_map]
    have hmap : (Nat.digits 10 n).map
        ((fun b : UInt8 => b.toNat - 0x30) ∘ fun d => UInt8.ofNat (0x30 + d)) =
        Nat.digits 10 n := by
      conv_rhs => rw [← List.map_id (Nat.digits 10 n)]
      refine List.map_congr_left fun d hd => ?_
      have hlt : d < 10 := Nat.digits_lt_base (by norm_num) hd
      simp only [Function.comp_apply, decimalDigit_toNat hlt, id_eq]
      omega
    rw [hmap, Nat.ofDigits_digits]

end ReserveGrid.Support.JsonText
