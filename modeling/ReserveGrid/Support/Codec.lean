import ReserveGrid.Support.Bytes

/-!
# Binary codecs

A codec is an encoder and a decoder of a prefix of the input that carry the
proof of their agreement: what was encoded is decoded, whatever follows it, and
what is decoded was written exactly as the encoder writes it. The second law
makes the encoding canonical.

The combinators build codecs of structured values from codecs of their parts,
so that agreement is proved once for each way of putting parts together.
-/

namespace ReserveGrid.Support

structure Codec (α : Type*) where
  /-- The values that have an encoding. -/
  Valid : α → Prop
  encode : α → Bytes
  /-- The value at the front of the input, and what follows it. -/
  decode : Bytes → Option (α × Bytes)
  decode_encode : ∀ a, Valid a → ∀ rest, decode (encode a ++ rest) = some (a, rest)
  encode_decode : ∀ bs a rest,
    decode bs = some (a, rest) → Valid a ∧ bs = encode a ++ rest

namespace Codec

variable {α β : Type*}

/-- A whole input that is one value with nothing left over. -/
def decodeAll (c : Codec α) (bs : Bytes) : Option α :=
  match c.decode bs with
  | some (a, []) => some a
  | _ => none

theorem decodeAll_eq_some (c : Codec α) {bs : Bytes} {a : α} :
    c.decodeAll bs = some a ↔ c.Valid a ∧ bs = c.encode a := by
  unfold decodeAll
  constructor
  · intro h
    split at h
    · rename_i a' hdecode
      cases h
      obtain ⟨hvalid, hbs⟩ := c.encode_decode _ _ _ hdecode
      exact ⟨hvalid, by simpa using hbs⟩
    · simp at h
  · rintro ⟨hvalid, rfl⟩
    have h := c.decode_encode a hvalid []
    rw [List.append_nil] at h
    rw [h]

/-- Values with one encoding are equal. -/
theorem eq_of_encode_eq (c : Codec α) {a b : α} (ha : c.Valid a)
    (hb : c.Valid b) (h : c.encode a = c.encode b) :
    a = b := by
  have hdecode := c.decode_encode a ha []
  rw [h, c.decode_encode b hb] at hdecode
  cases hdecode
  rfl

/-! ## Fixed-size parts -/

/-- A byte string of `n` bytes. -/
def bytesN (n : ℕ) : Codec Bytes where
  Valid bs := bs.length = n
  encode bs := bs
  decode bs := if n ≤ bs.length then some (bs.take n, bs.drop n) else none
  decode_encode bs h rest := by
    subst h
    simp
  encode_decode bs a rest h := by
    split at h
    · rename_i hn
      cases h
      exact ⟨by simpa using hn, (List.take_append_drop n bs).symm⟩
    · simp at h

/-- A codec of one type used at another. -/
def map (c : Codec α) (out : α → β) (of : β → α) (Valid : β → Prop)
    (hof : ∀ b, Valid b → c.Valid (of b) ∧ out (of b) = b)
    (hout : ∀ a, c.Valid a → Valid (out a) ∧ of (out a) = a) : Codec β where
  Valid := Valid
  encode b := c.encode (of b)
  decode bs := (c.decode bs).map fun r => (out r.1, r.2)
  decode_encode b h rest := by
    rw [c.decode_encode _ (hof b h).1, Option.map_some, (hof b h).2]
  encode_decode bs b rest h := by
    obtain ⟨⟨a, rest'⟩, ha, hb⟩ := Option.map_eq_some_iff.mp h
    cases hb
    obtain ⟨hvalid, hbs⟩ := c.encode_decode _ _ _ ha
    refine ⟨(hout a hvalid).1, ?_⟩
    rw [(hout a hvalid).2]
    exact hbs

/-- A number in `width` little-endian bytes. -/
def leNum (width : ℕ) : Codec ℕ :=
  (bytesN width).map leNat (leBytes width) (· < 256 ^ width)
    (fun n hn => ⟨length_leBytes width n, leNat_leBytes_of_lt hn⟩)
    (by
      intro bs hbs
      change bs.length = width at hbs
      subst hbs
      exact ⟨leNat_lt bs, leBytes_leNat bs⟩)

def u8 : Codec UInt8 :=
  (leNum 1).map UInt8.ofNat UInt8.toNat (fun _ => True)
    (fun b _ => ⟨b.toNat_lt, UInt8.ofNat_toNat⟩)
    (fun n hn => ⟨trivial, by
      have h : n < 256 := hn
      exact UInt8.toNat_ofNat_of_lt' h⟩)

def u16 : Codec UInt16 :=
  (leNum 2).map UInt16.ofNat UInt16.toNat (fun _ => True)
    (fun b _ => ⟨b.toNat_lt, UInt16.ofNat_toNat⟩)
    (fun n hn => ⟨trivial, by
      have h : n < 2 ^ 16 := hn
      exact UInt16.toNat_ofNat_of_lt' h⟩)

def u32 : Codec UInt32 :=
  (leNum 4).map UInt32.ofNat UInt32.toNat (fun _ => True)
    (fun b _ => ⟨b.toNat_lt, UInt32.ofNat_toNat⟩)
    (fun n hn => ⟨trivial, by
      have h : n < 2 ^ 32 := hn
      exact UInt32.toNat_ofNat_of_lt' h⟩)

def u64 : Codec UInt64 :=
  (leNum 8).map UInt64.ofNat UInt64.toNat (fun _ => True)
    (fun b _ => ⟨b.toNat_lt, UInt64.ofNat_toNat⟩)
    (fun n hn => ⟨trivial, by
      have h : n < 2 ^ 64 := hn
      exact UInt64.toNat_ofNat_of_lt' h⟩)

def bytes32 : Codec Bytes32 where
  Valid _ := True
  encode := Bytes32.toBytes
  decode bs := (bytesN 32).decode bs |>.bind fun r =>
    (Bytes32.ofBytes r.1).map fun h => (h, r.2)
  decode_encode h _ rest := by
    have hdecode := (bytesN 32).decode_encode h.toBytes h.length_toBytes rest
    change (bytesN 32).decode (h.toBytes ++ rest) = _ at hdecode
    rw [hdecode]
    simp
  encode_decode bs h rest hdecode := by
    obtain ⟨⟨part, rest'⟩, hpart, hof⟩ := Option.bind_eq_some_iff.mp hdecode
    obtain ⟨h', hh', heq⟩ := Option.map_eq_some_iff.mp hof
    cases heq
    obtain ⟨-, hbs⟩ := (bytesN 32).encode_decode _ _ _ hpart
    have hbytes : part = h.toBytes := Bytes32.ofBytes_eq_some.mp hh'
    subst hbytes
    exact ⟨trivial, hbs⟩

/-- The values of a codec that meet a condition. -/
def restrict (c : Codec α) (p : α → Bool) : Codec α where
  Valid a := c.Valid a ∧ p a = true
  encode := c.encode
  decode bs := (c.decode bs).filter fun r => p r.1
  decode_encode a h rest := by
    rw [c.decode_encode a h.1, Option.filter_some, if_pos h.2]
  encode_decode bs a rest h := by
    obtain ⟨hdecode, hp⟩ := Option.filter_eq_some_iff.mp h
    obtain ⟨hvalid, hbs⟩ := c.encode_decode _ _ _ hdecode
    exact ⟨⟨hvalid, hp⟩, hbs⟩

/-- A value that may be missing, after a byte that says which. -/
def optional (c : Codec α) : Codec (Option α) where
  Valid o := ∀ a ∈ o, c.Valid a
  encode
    | none => [0]
    | some a => 1 :: c.encode a
  decode
    | 0 :: rest => some (none, rest)
    | 1 :: rest => (c.decode rest).map fun r => (some r.1, r.2)
    | _ => none
  decode_encode o h rest := by
    cases o with
    | none => rfl
    | some a =>
        have hdecode := c.decode_encode a (h a rfl) rest
        change (c.decode (c.encode a ++ rest)).map _ = _
        rw [hdecode]
        rfl
  encode_decode bs o rest h := by
    split at h
    · cases h
      exact ⟨by simp, rfl⟩
    · obtain ⟨⟨a, rest'⟩, ha, heq⟩ := Option.map_eq_some_iff.mp h
      cases heq
      obtain ⟨hvalid, hbs⟩ := c.encode_decode _ _ _ ha
      refine ⟨?_, by rw [hbs]; rfl⟩
      intro b hb
      cases hb
      exact hvalid
    · cases h

theorem optional_decode_other {c : Codec α} {tag : UInt8} {rest : Bytes}
    (hnone : tag ≠ 0) (hsome : tag ≠ 1) :
    c.optional.decode (tag :: rest) = none := by
  unfold optional
  dsimp only
  split
  · rename_i heq
    exact absurd (List.cons.inj heq).1 hnone
  · rename_i heq
    exact absurd (List.cons.inj heq).1 hsome
  · rfl

/-! ## Sequences -/

/-- One value after another. -/
def pair (c : Codec α) (d : Codec β) : Codec (α × β) where
  Valid p := c.Valid p.1 ∧ d.Valid p.2
  encode p := c.encode p.1 ++ d.encode p.2
  decode bs := (c.decode bs).bind fun r =>
    (d.decode r.2).map fun r' => ((r.1, r'.1), r'.2)
  decode_encode p h rest := by
    rw [List.append_assoc, c.decode_encode _ h.1, Option.bind_some,
      d.decode_encode _ h.2]
    rfl
  encode_decode bs p rest h := by
    obtain ⟨⟨a, bs'⟩, ha, hrest⟩ := Option.bind_eq_some_iff.mp h
    obtain ⟨⟨b, bs''⟩, hb, heq⟩ := Option.map_eq_some_iff.mp hrest
    cases heq
    obtain ⟨hva, rfl⟩ := c.encode_decode _ _ _ ha
    obtain ⟨hvb, hbs⟩ := d.encode_decode _ _ _ hb
    change bs' = _ at hbs
    subst hbs
    exact ⟨⟨hva, hvb⟩, (List.append_assoc _ _ _).symm⟩

def decodeN (c : Codec α) : ℕ → Bytes → Option (List α × Bytes)
  | 0, bs => some ([], bs)
  | n + 1, bs => (c.decode bs).bind fun r =>
      (decodeN c n r.2).map fun r' => (r.1 :: r'.1, r'.2)

theorem decodeN_encode (c : Codec α) (l : List α) (h : ∀ a ∈ l, c.Valid a)
    (rest : Bytes) :
    c.decodeN l.length (l.flatMap c.encode ++ rest) = some (l, rest) := by
  induction l with
  | nil => rfl
  | cons a l ih =>
      rw [List.length_cons, decodeN, List.flatMap_cons, List.append_assoc,
        c.decode_encode a (h a (by simp)), Option.bind_some,
        ih fun b hb => h b (by simp [hb])]
      rfl

theorem encode_decodeN (c : Codec α) {n : ℕ} {bs rest : Bytes} {l : List α}
    (h : c.decodeN n bs = some (l, rest)) :
    l.length = n ∧ (∀ a ∈ l, c.Valid a) ∧ bs = l.flatMap c.encode ++ rest := by
  induction n generalizing bs l with
  | zero =>
      cases h
      simp
  | succ n ih =>
      obtain ⟨⟨a, bs'⟩, ha, hrest⟩ := Option.bind_eq_some_iff.mp h
      obtain ⟨⟨l', bs''⟩, hl', heq⟩ := Option.map_eq_some_iff.mp hrest
      cases heq
      obtain ⟨hva, rfl⟩ := c.encode_decode _ _ _ ha
      obtain ⟨hlength, hvl, hbs⟩ := ih hl'
      change bs' = _ at hbs
      subst hbs
      refine ⟨by simp [hlength], ?_, by simp⟩
      intro b hb
      rcases List.mem_cons.mp hb with rfl | hmem
      · exact hva
      · exact hvl b hmem

/-- A list with its length in front. -/
def counted (len : Codec ℕ) (c : Codec α) : Codec (List α) where
  Valid l := len.Valid l.length ∧ ∀ a ∈ l, c.Valid a
  encode l := len.encode l.length ++ l.flatMap c.encode
  decode bs := (len.decode bs).bind fun r => c.decodeN r.1 r.2
  decode_encode l h rest := by
    rw [List.append_assoc, len.decode_encode _ h.1, Option.bind_some]
    exact c.decodeN_encode l h.2 rest
  encode_decode bs l rest h := by
    obtain ⟨⟨n, bs'⟩, hn, hl⟩ := Option.bind_eq_some_iff.mp h
    obtain ⟨hvn, rfl⟩ := len.encode_decode _ _ _ hn
    obtain ⟨rfl, hvl, hbs⟩ := c.encode_decodeN hl
    change bs' = _ at hbs
    subst hbs
    exact ⟨⟨hvn, hvl⟩, (List.append_assoc _ _ _).symm⟩

/-- A byte string with its length in front. -/
def countedBytes (len : Codec ℕ) : Codec Bytes where
  Valid bs := len.Valid bs.length
  encode bs := len.encode bs.length ++ bs
  decode bs := (len.decode bs).bind fun r => (bytesN r.1).decode r.2
  decode_encode bs h rest := by
    rw [List.append_assoc, len.decode_encode _ h, Option.bind_some]
    exact (bytesN bs.length).decode_encode bs rfl rest
  encode_decode bs a rest h := by
    obtain ⟨⟨n, bs'⟩, hn, ha⟩ := Option.bind_eq_some_iff.mp h
    obtain ⟨hvn, rfl⟩ := len.encode_decode _ _ _ hn
    obtain ⟨hlength, hbs⟩ := (bytesN n).encode_decode _ _ _ ha
    change a.length = n at hlength
    change bs' = a ++ rest at hbs
    subst hbs hlength
    exact ⟨hvn, (List.append_assoc _ _ _).symm⟩

end Codec

end ReserveGrid.Support
