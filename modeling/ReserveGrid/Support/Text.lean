import ReserveGrid.Support.Bytes

/-!
# Texts as characters

White space, the bytes of a text and the places where it may be cut.
-/

namespace ReserveGrid.Support

/-- White space of Unicode. -/
def isWhiteSpace (c : Char) : Bool :=
  let n := c.toNat
  (9 ≤ n && n ≤ 13) || n == 0x20 || n == 0x85 || n == 0xa0 || n == 0x1680 ||
    (0x2000 ≤ n && n ≤ 0x200a) || n == 0x2028 || n == 0x2029 || n == 0x202f ||
    n == 0x205f || n == 0x3000

/-- A text without the white space at its ends. -/
def trim (text : List Char) : List Char :=
  ((text.dropWhile isWhiteSpace).reverse.dropWhile isWhiteSpace).reverse

/-- The bytes of a text. -/
def asBytes (text : List Char) : Bytes := text.flatMap String.utf8EncodeChar

/-- Whether a text may be cut at a byte position. -/
def isCharBoundary : List Char → ℕ → Bool
  | _, 0 => true
  | [], _ => false
  | c :: cs, n => c.utf8Size ≤ n && isCharBoundary cs (n - c.utf8Size)

/-- The characters before a byte position. Nothing comes of a cut within a
character. -/
def takeBytes : List Char → ℕ → Option (List Char)
  | _, 0 => some []
  | [], _ => none
  | c :: cs, n =>
      if c.utf8Size ≤ n then (takeBytes cs (n - c.utf8Size)).map (c :: ·)
      else none

/-- A cut succeeds exactly at a character boundary. -/
theorem isSome_takeBytes (text : List Char) (n : ℕ) :
    (takeBytes text n).isSome = isCharBoundary text n := by
  induction text generalizing n with
  | nil =>
      cases n with
      | zero => rfl
      | succ n => rfl
  | cons c cs ih =>
      cases n with
      | zero => rfl
      | succ n =>
          rw [takeBytes, isCharBoundary]
          · by_cases h : c.utf8Size ≤ n + 1
            · simp [h, ih]
            · simp [h]
          · simp
          · simp

/-! ## Cuts at a number of bytes -/

/-- The number of bytes of a text. -/
def byteLength (text : List Char) : ℕ := (text.map Char.utf8Size).sum

@[simp] theorem byteLength_nil : byteLength [] = 0 := rfl

@[simp] theorem byteLength_cons (c : Char) (cs : List Char) :
    byteLength (c :: cs) = c.utf8Size + byteLength cs := by
  simp [byteLength]

@[simp] theorem byteLength_append (text more : List Char) :
    byteLength (text ++ more) = byteLength text + byteLength more := by
  simp [byteLength]

/-- The last character boundary up to a byte position. -/
def floorBoundary (text : List Char) : ℕ → ℕ
  | 0 => 0
  | n + 1 => if isCharBoundary text (n + 1) then n + 1 else floorBoundary text n

/-- The longest beginning of a text that has at most so many bytes. -/
def cut : List Char → ℕ → List Char
  | [], _ => []
  | c :: cs, n => if c.utf8Size ≤ n then c :: cut cs (n - c.utf8Size) else []

/-- A cut leaves the rest, whose first character did not fit. -/
theorem cut_split (text : List Char) (n : ℕ) :
    ∃ rest, text = cut text n ++ rest ∧ byteLength (cut text n) ≤ n ∧
      ∀ c ∈ rest.head?, n < byteLength (cut text n) + c.utf8Size := by
  induction text generalizing n with
  | nil => exact ⟨[], rfl, Nat.zero_le n, by simp⟩
  | cons c cs ih =>
      by_cases hfits : c.utf8Size ≤ n
      · obtain ⟨rest, hsplit, hle, hnext⟩ := ih (n - c.utf8Size)
        rw [cut, if_pos hfits, byteLength_cons]
        refine ⟨rest, by rw [List.cons_append, ← hsplit], by omega, ?_⟩
        intro d hd
        have hroom := hnext d hd
        omega
      · rw [cut, if_neg hfits]
        refine ⟨c :: cs, rfl, Nat.zero_le n, ?_⟩
        intro d hd
        cases hd
        rw [byteLength_nil]
        omega

theorem cut_prefix (text : List Char) (n : ℕ) : cut text n <+: text := by
  obtain ⟨rest, hsplit, -⟩ := cut_split text n
  exact ⟨rest, hsplit.symm⟩

theorem byteLength_cut_le (text : List Char) (n : ℕ) : byteLength (cut text n) ≤ n := by
  obtain ⟨rest, -, hle, -⟩ := cut_split text n
  exact hle

/-- What fits is kept whole, and leaves its room to what follows. -/
theorem cut_append_of_le {text : List Char} {n : ℕ} (h : byteLength text ≤ n)
    (more : List Char) :
    cut (text ++ more) n = text ++ cut more (n - byteLength text) := by
  induction text generalizing n with
  | nil => rfl
  | cons c cs ih =>
      rw [byteLength_cons] at h
      rw [List.cons_append, cut, if_pos (by omega), ih (by omega), byteLength_cons,
        Nat.sub_sub, List.cons_append]

/-- What follows a text that does not fit is not reached. -/
theorem cut_append_of_lt {text : List Char} {n : ℕ} (h : n < byteLength text)
    (more : List Char) :
    cut (text ++ more) n = cut text n := by
  induction text generalizing n with
  | nil => exact absurd h (Nat.not_lt_zero n)
  | cons c cs ih =>
      rw [byteLength_cons] at h
      rw [List.cons_append, cut, cut]
      by_cases hfits : c.utf8Size ≤ n
      · rw [if_pos hfits, if_pos hfits, ih (by omega)]
      · rw [if_neg hfits, if_neg hfits]

theorem cut_eq_self {text : List Char} {n : ℕ} (h : byteLength text ≤ n) :
    cut text n = text := by
  have hall := cut_append_of_le h []
  rwa [List.append_nil, cut, List.append_nil] at hall

theorem cut_eq_self_iff {text : List Char} {n : ℕ} :
    cut text n = text ↔ byteLength text ≤ n :=
  ⟨fun h => h ▸ byteLength_cut_le text n, cut_eq_self⟩

theorem cut_eq_nil_iff {text : List Char} {n : ℕ} :
    cut text n = [] ↔ ∀ c ∈ text.head?, n < c.utf8Size := by
  cases text with
  | nil => simp [cut]
  | cons c cs =>
      by_cases hfits : c.utf8Size ≤ n
      · simp [cut, hfits]
      · simp [cut, hfits, Nat.lt_of_not_le hfits]

/-- A beginning of at most so many bytes after which nothing fits is the cut. -/
theorem cut_eq_of_split {kept rest : List Char} {n : ℕ} (hle : byteLength kept ≤ n)
    (hnext : ∀ c ∈ rest.head?, n < byteLength kept + c.utf8Size) :
    cut (kept ++ rest) n = kept := by
  have hrest : cut rest (n - byteLength kept) = [] := by
    rw [cut_eq_nil_iff]
    intro c hc
    have hover := hnext c hc
    omega
  rw [cut_append_of_le hle, hrest, List.append_nil]

theorem takeBytes_cons (c : Char) (cs : List Char) (n : ℕ) :
    takeBytes (c :: cs) (c.utf8Size + n) = (takeBytes cs n).map (c :: ·) := by
  have hpos := c.utf8Size_pos
  obtain ⟨m, hm⟩ : ∃ m, c.utf8Size + n = m + 1 := ⟨c.utf8Size + n - 1, by omega⟩
  rw [hm, takeBytes, ← hm, if_pos (Nat.le_add_right _ _), Nat.add_sub_cancel_left]
  simp

theorem takeBytes_append (kept rest : List Char) :
    takeBytes (kept ++ rest) (byteLength kept) = some kept := by
  induction kept with
  | nil => rw [byteLength_nil, takeBytes]
  | cons c cs ih =>
      rw [List.cons_append, byteLength_cons, takeBytes_cons, ih]
      rfl

theorem takeBytes_eq_some {text kept : List Char} {n : ℕ}
    (h : takeBytes text n = some kept) :
    ∃ rest, text = kept ++ rest ∧ byteLength kept = n := by
  induction text generalizing n kept with
  | nil =>
      cases n with
      | zero =>
          cases h
          exact ⟨[], rfl, rfl⟩
      | succ n => cases h
  | cons c cs ih =>
      cases n with
      | zero =>
          cases h
          exact ⟨c :: cs, rfl, rfl⟩
      | succ n =>
          rw [takeBytes] at h
          · split at h
            · rename_i hfits
              obtain ⟨kept', hkept', rfl⟩ := Option.map_eq_some_iff.mp h
              obtain ⟨rest, rfl, hlength⟩ := ih hkept'
              refine ⟨rest, rfl, ?_⟩
              rw [byteLength_cons, hlength]
              omega
            · cases h
          · simp

/-- Walking down to a boundary and cutting there takes the longest beginning. -/
theorem floorBoundary_eq (text : List Char) (n : ℕ) :
    floorBoundary text n = byteLength (cut text n) := by
  obtain ⟨rest, hsplit, hle, hnext⟩ := cut_split text n
  induction n with
  | zero => exact (Nat.le_zero.mp hle).symm
  | succ n ih =>
      rw [floorBoundary]
      by_cases hboundary : isCharBoundary text (n + 1) = true
      · rw [if_pos hboundary]
        rw [← isSome_takeBytes] at hboundary
        obtain ⟨kept, hkept⟩ := Option.isSome_iff_exists.mp hboundary
        obtain ⟨rest', rfl, hlength⟩ := takeBytes_eq_some hkept
        have hcut : cut (kept ++ rest') (n + 1) = kept := by
          apply cut_eq_of_split hlength.le
          intro c _
          have hpos := c.utf8Size_pos
          omega
        rw [hcut, hlength]
      · rw [if_neg hboundary]
        have hne : byteLength (cut text (n + 1)) ≠ n + 1 := by
          intro heq
          have htake := takeBytes_append (cut text (n + 1)) rest
          rw [← hsplit, heq] at htake
          rw [← isSome_takeBytes, htake] at hboundary
          exact hboundary rfl
        have hsame : cut text n = cut text (n + 1) := by
          conv_lhs => rw [hsplit]
          apply cut_eq_of_split (by omega)
          intro c hc
          have hover := hnext c hc
          omega
        rw [← hsame]
        apply ih
        · rw [hsame]
          exact hsplit
        · rw [hsame]
          omega
        · rw [hsame]
          intro c hc
          have hover := hnext c hc
          omega

theorem takeBytes_floorBoundary (text : List Char) (n : ℕ) :
    takeBytes text (floorBoundary text n) = some (cut text n) := by
  obtain ⟨rest, hsplit, -⟩ := cut_split text n
  have htake := takeBytes_append (cut text n) rest
  rwa [← hsplit, ← floorBoundary_eq] at htake

end ReserveGrid.Support
