import ReserveGrid.Support.JsonTree

/-!
# A compact JSON library

A writer without white space and the parser that reads what it writes, with
enough fuel for every text. Numbers of floating point are written by their bits,
marked as such; arrays and negative numbers are not read.
-/

namespace ReserveGrid.Support

open JsonText

namespace CompactJson

/-! ## Writing -/

/-- A name or a string, in its quotes. -/
def quoted (s : String) : Bytes := 0x22 :: escape (utf8 s)

mutual

def write : JsonTree → Bytes
  | .null => [0x6e, 0x75, 0x6c, 0x6c]
  | .bool true => [0x74, 0x72, 0x75, 0x65]
  | .bool false => [0x66, 0x61, 0x6c, 0x73, 0x65]
  | .nat n => decimal n
  | .float x => decimal x.toBits.toNat ++ [0x65]
  | .str s => quoted s
  | .obj [] => [0x7b, 0x7d]
  | .obj (f :: fs) => 0x7b :: (writeMember f ++ writeMembers fs)
  | .other text => text

def writeMember : String × JsonTree → Bytes
  | (name, v) => quoted name ++ 0x3a :: write v

/-- The members after the first one, and the closing brace. -/
def writeMembers : List (String × JsonTree) → Bytes
  | [] => [0x7d]
  | f :: fs => 0x2c :: (writeMember f ++ writeMembers fs)

end

/-! ## Reading -/

def isDigit (b : UInt8) : Bool := 0x30 ≤ b ∧ b ≤ 0x39

def readQuoted : Bytes → Option (String × Bytes)
  | 0x22 :: rest =>
      (unescape rest).bind fun r => (fromUtf8 r.1).map fun s => (s, r.2)
  | _ => none

def readNumber (bs : Bytes) : Option (JsonTree × Bytes) :=
  (readDecimal (bs.takeWhile isDigit)).map fun n =>
    match bs.dropWhile isDigit with
    | 0x65 :: rest => (.float (Float.ofBits (UInt64.ofNat n)), rest)
    | rest => (.nat n, rest)

mutual

def read : ℕ → Bytes → Option (JsonTree × Bytes)
  | 0, _ => none
  | fuel + 1, bs =>
      match bs with
      | 0x6e :: 0x75 :: 0x6c :: 0x6c :: rest => some (.null, rest)
      | 0x74 :: 0x72 :: 0x75 :: 0x65 :: rest => some (.bool true, rest)
      | 0x66 :: 0x61 :: 0x6c :: 0x73 :: 0x65 :: rest => some (.bool false, rest)
      | 0x22 :: rest => (readQuoted (0x22 :: rest)).map fun r => (.str r.1, r.2)
      | 0x7b :: 0x7d :: rest => some (.obj [], rest)
      | 0x7b :: rest =>
          (readMember fuel rest).bind fun f =>
            (readMembers fuel f.2).map fun fs => (.obj (f.1 :: fs.1), fs.2)
      | bs => readNumber bs

def readMember : ℕ → Bytes → Option ((String × JsonTree) × Bytes)
  | 0, _ => none
  | fuel + 1, bs =>
      (readQuoted bs).bind fun name =>
        match name.2 with
        | 0x3a :: rest => (read fuel rest).map fun v => ((name.1, v.1), v.2)
        | _ => none

def readMembers : ℕ → Bytes → Option (List (String × JsonTree) × Bytes)
  | 0, _ => none
  | fuel + 1, bs =>
      match bs with
      | 0x7d :: rest => some ([], rest)
      | 0x2c :: rest =>
          (readMember fuel rest).bind fun f =>
            (readMembers fuel f.2).map fun fs => (f.1 :: fs.1, fs.2)
      | _ => none

end

/-! ## Fuel -/

mutual

def size : JsonTree → ℕ
  | .obj [] => 1
  | .obj (f :: fs) => 1 + (sizeMember f + sizeMembers fs)
  | .null | .bool _ | .nat _ | .float _ | .str _ | .other _ => 1

def sizeMember : String × JsonTree → ℕ
  | (_, v) => 1 + size v

def sizeMembers : List (String × JsonTree) → ℕ
  | [] => 1
  | f :: fs => 1 + (sizeMember f + sizeMembers fs)

end

/-! ## What is written is read -/

theorem readQuoted_quoted (s : String) (rest : Bytes) :
    readQuoted (quoted s ++ rest) = some (s, rest) := by
  rw [quoted, List.cons_append, readQuoted, unescape_escape_append, Option.bind_some,
    fromUtf8_utf8]
  rfl

/-- A number ends before the text. -/
def EndsNumber (rest : Bytes) : Prop :=
  ∀ b ∈ rest.head?, isDigit b = false ∧ b ≠ 0x65

theorem takeWhile_decimal (n : ℕ) {rest : Bytes} (h : ∀ b ∈ rest.head?, isDigit b = false) :
    (decimal n ++ rest).takeWhile isDigit = decimal n ∧
      (decimal n ++ rest).dropWhile isDigit = rest := by
  have hdigits : ∀ b ∈ decimal n, isDigit b := fun b hb => by
    simpa [isDigit] using mem_decimal hb
  rw [List.takeWhile_append_of_pos hdigits, List.dropWhile_append_of_pos hdigits]
  rcases rest with _ | ⟨b, rest⟩
  · simp
  · have hb := h b rfl
    simp [hb]

theorem readNumber_decimal (n : ℕ) {rest : Bytes} (h : EndsNumber rest) :
    readNumber (decimal n ++ rest) = some (.nat n, rest) := by
  obtain ⟨htake, hdrop⟩ := takeWhile_decimal n fun b hb => (h b hb).1
  rw [readNumber, htake, hdrop, readDecimal_decimal, Option.map_some]
  rcases rest with _ | ⟨b, rest⟩
  · rfl
  · have hb := (h b rfl).2
    split
    · rename_i heq
      cases heq
      exact absurd rfl hb
    · rfl

theorem readNumber_float (n : ℕ) (rest : Bytes) :
    readNumber (decimal n ++ 0x65 :: rest) =
      some (.float (Float.ofBits (UInt64.ofNat n)), rest) := by
  have hend : ∀ b ∈ (0x65 :: rest : Bytes).head?, isDigit b = false := by
    intro b hb
    cases hb
    decide
  obtain ⟨htake, hdrop⟩ := takeWhile_decimal n hend
  rw [readNumber, htake, hdrop, readDecimal_decimal]
  rfl

/-- Text that begins with a digit is read as a number. -/
theorem read_of_digit {b : UInt8} (hb : isDigit b) (fuel : ℕ) (rest : Bytes) :
    read (fuel + 1) (b :: rest) = readNumber (b :: rest) := by
  rw [read]
  all_goals
    intros
    rename_i heq
    cases heq
    exact absurd hb (by decide)

theorem read_decimal (n fuel : ℕ) (rest : Bytes) :
    read (fuel + 1) (decimal n ++ rest) = readNumber (decimal n ++ rest) := by
  obtain ⟨b, bs, hcons⟩ := List.exists_cons_of_ne_nil (decimal_ne_nil n)
  have hb : isDigit b := by
    have hmem : b ∈ decimal n := by
      rw [hcons]
      exact List.mem_cons_self
    simpa [isDigit] using mem_decimal hmem
  rw [hcons, List.cons_append, read_of_digit hb]

/-- What the text of a number reads as. -/
def reread (x : Float) : Float := Float.ofBits x.toBits

theorem endsNumber_writeMembers (fs : List (String × JsonTree)) (rest : Bytes) :
    EndsNumber (writeMembers fs ++ rest) := by
  intro b hb
  rcases fs with _ | ⟨f, fs⟩
  · rw [writeMembers] at hb
    cases hb
    decide
  · rw [writeMembers] at hb
    cases hb
    decide

theorem read_obj (f : String × JsonTree) (fuel : ℕ) (rest : Bytes) :
    read (fuel + 1) (0x7b :: (writeMember f ++ rest)) =
      (readMember fuel (writeMember f ++ rest)).bind fun f =>
        (readMembers fuel f.2).map fun fs => (.obj (f.1 :: fs.1), fs.2) := by
  rw [writeMember, quoted, List.cons_append, List.cons_append, read]
  all_goals simp

mutual

theorem read_write (v : JsonTree) (hv : v.Writable) {fuel : ℕ} (hfuel : size v ≤ fuel)
    {rest : Bytes} (hrest : EndsNumber rest) :
    read fuel (write v ++ rest) = some (v.mapFloat reread, rest) := by
  have hpos : 0 < size v := by
    rcases v with _ | _ | _ | _ | _ | fs | _
    case obj =>
      rcases fs with _ | ⟨f, fs⟩
      · exact Nat.one_pos
      · rw [size]
        omega
    all_goals exact Nat.one_pos
  obtain ⟨fuel, rfl⟩ := Nat.exists_eq_add_of_lt (hpos.trans_le hfuel)
  rw [Nat.zero_add] at *
  rcases v with _ | b | n | x | s | fs | text
  · rfl
  · rcases b with _ | _
    · rfl
    · rfl
  · rw [write, read_decimal, readNumber_decimal n hrest]
    rfl
  · rw [write, List.append_assoc, read_decimal, List.singleton_append, readNumber_float]
    simp [JsonTree.mapFloat, reread]
  · rw [write]
    have hquoted := readQuoted_quoted s rest
    rw [quoted, List.cons_append] at hquoted ⊢
    rw [read, hquoted]
    rfl
  · rcases fs with _ | ⟨f, fs⟩
    · rfl
    · rw [size] at hfuel
      rw [JsonTree.Writable, JsonTree.AllWritable] at hv
      rw [write, List.cons_append, List.append_assoc, read_obj,
        readMember_writeMember f hv.1 (by omega) (endsNumber_writeMembers fs rest),
        Option.bind_some, readMembers_writeMembers fs hv.2 (by omega)]
      rfl
  · exact absurd hv id

theorem readMember_writeMember (f : String × JsonTree) (hf : f.2.Writable) {fuel : ℕ}
    (hfuel : sizeMember f ≤ fuel) {rest : Bytes} (hrest : EndsNumber rest) :
    readMember fuel (writeMember f ++ rest) =
      some ((f.1, f.2.mapFloat reread), rest) := by
  rcases f with ⟨name, v⟩
  rw [sizeMember] at hfuel
  obtain ⟨fuel, rfl⟩ := Nat.exists_eq_add_of_le hfuel
  rw [Nat.add_assoc, Nat.add_comm 1, readMember, writeMember, List.append_assoc,
    readQuoted_quoted, Option.bind_some, List.cons_append]
  change (read (size v + fuel) (write v ++ rest)).map _ = _
  rw [read_write v hf (Nat.le_add_right _ _) hrest]
  rfl

theorem readMembers_writeMembers (fs : List (String × JsonTree))
    (hfs : JsonTree.AllWritable fs) {fuel : ℕ} (hfuel : sizeMembers fs ≤ fuel)
    {rest : Bytes} :
    readMembers fuel (writeMembers fs ++ rest) =
      some (JsonTree.mapFields reread fs, rest) := by
  rcases fs with _ | ⟨f, fs⟩
  · rw [sizeMembers] at hfuel
    obtain ⟨fuel, rfl⟩ := Nat.exists_eq_add_of_le hfuel
    rw [Nat.add_comm]
    rfl
  · rw [sizeMembers] at hfuel
    rw [JsonTree.AllWritable] at hfs
    obtain ⟨fuel, rfl⟩ := Nat.exists_eq_add_of_le hfuel
    rw [Nat.add_assoc, Nat.add_comm 1, writeMembers, List.cons_append, List.append_assoc,
      readMembers, readMember_writeMember f hfs.1 (by omega)
      (endsNumber_writeMembers fs rest), Option.bind_some,
      readMembers_writeMembers fs hfs.2 (by omega)]
    rfl

end

/-! ## Fuel suffices -/

mutual

theorem size_le (v : JsonTree) (hv : v.Writable) : size v ≤ (write v).length := by
  rcases v with _ | b | n | x | s | fs | text
  · simp [size, write]
  · rcases b with _ | _
    · simp [size, write]
    · simp [size, write]
  · exact List.length_pos_of_ne_nil (decimal_ne_nil n)
  · simp [size, write]
  · simp [size, write, quoted]
  · rcases fs with _ | ⟨f, fs⟩
    · simp [size, write]
    · rw [JsonTree.Writable, JsonTree.AllWritable] at hv
      have hf := sizeMember_le f hv.1
      have hfs := sizeMembers_le fs hv.2
      rw [size, write, List.length_cons, List.length_append]
      omega
  · exact absurd hv id

theorem sizeMember_le (f : String × JsonTree) (hf : f.2.Writable) :
    sizeMember f ≤ (writeMember f).length := by
  rcases f with ⟨name, v⟩
  have hv := size_le v hf
  rw [sizeMember, writeMember, List.length_append, List.length_cons]
  omega

theorem sizeMembers_le (fs : List (String × JsonTree)) (hfs : JsonTree.AllWritable fs) :
    sizeMembers fs ≤ (writeMembers fs).length := by
  rcases fs with _ | ⟨f, fs⟩
  · simp [sizeMembers, writeMembers]
  · rw [JsonTree.AllWritable] at hfs
    have hf := sizeMember_le f hfs.1
    have hrest := sizeMembers_le fs hfs.2
    rw [sizeMembers, writeMembers, List.length_cons, List.length_append]
    omega

end

/-! ## Printable text -/

/-- Text without control characters. -/
structure Printable (bs : Bytes) : Prop where
  text : ∃ cs : List Char, asBytes cs = bs
  le : ∀ b ∈ bs, 0x20 ≤ b

theorem Printable.append {bs bs' : Bytes} (h : Printable bs) (h' : Printable bs') :
    Printable (bs ++ bs') := by
  obtain ⟨cs, hcs⟩ := h.text
  obtain ⟨cs', hcs'⟩ := h'.text
  constructor
  · exact ⟨cs ++ cs', by rw [asBytes, List.flatMap_append, ← hcs, ← hcs']; rfl⟩
  · intro b hb
    rcases List.mem_append.mp hb with hb | hb
    · exact h.le b hb
    · exact h'.le b hb

theorem printable_nil : Printable [] := ⟨⟨[], rfl⟩, nofun⟩

theorem printable_singleton {b : UInt8} (hle : 0x20 ≤ b) (hlt : b < 0x80) :
    Printable [b] := by
  have hb : b.toNat < 128 := by simpa [UInt8.lt_iff_toNat_lt] using hlt
  have hval : (Char.ofNat b.toNat).val.toNat = b.toNat := by
    rw [Char.ofNat, dif_pos (.inl (by omega))]
    rfl
  constructor
  · refine ⟨[Char.ofNat b.toNat], ?_⟩
    rw [asBytes, List.flatMap_cons, List.flatMap_nil, List.append_nil,
      String.utf8EncodeChar, hval, if_pos (by omega), UInt8.ofNat_toNat]
  · intro b' hb'
    rwa [List.mem_singleton.mp hb']

def isAscii (b : UInt8) : Bool := 0x20 ≤ b ∧ b < 0x80

theorem printable_ascii {bs : Bytes} (h : bs.all isAscii) : Printable bs := by
  induction bs with
  | nil => exact printable_nil
  | cons b bs ih =>
      rw [List.all_cons, Bool.and_eq_true] at h
      obtain ⟨hle, hlt⟩ := of_decide_eq_true h.1
      exact (printable_singleton hle hlt).append (ih h.2)

/-- A character keeps its bytes or, in ASCII, becomes ASCII. -/
theorem printable_escape_char (c : Char) :
    Printable ((String.utf8EncodeChar c).flatMap escapeByte) := by
  by_cases hc : c.val.toNat ≤ 0x7f
  · apply printable_ascii
    rw [String.utf8EncodeChar, if_pos hc, List.flatMap_cons, List.flatMap_nil,
      List.append_nil]
    apply List.all_eq_true.mpr
    intro b hb
    apply decide_eq_true
    refine ⟨le_of_mem_escapeByte hb, ?_⟩
    have hall : ∀ n : Fin 128,
        ((escapeByte (UInt8.ofNat n)).all fun b => b < 0x80) = true := by
      decide +kernel
    exact of_decide_eq_true (List.all_eq_true.mp (hall ⟨c.val.toNat, by omega⟩) b hb)
  · have hbytes : (String.utf8EncodeChar c).flatMap escapeByte =
        String.utf8EncodeChar c := by
      have hplain : ∀ b ∈ String.utf8EncodeChar c, escapeByte b = [b] := by
        intro b hb
        have hle := le_of_mem_utf8EncodeChar (by omega) hb
        apply escapeByte_of_plain
        · exact UInt8.not_lt.mpr (UInt8.le_trans (by decide) hle)
        · rintro rfl
          exact absurd hle (by decide)
        · rintro rfl
          exact absurd hle (by decide)
      rw [List.flatMap_congr hplain, List.flatMap_singleton']
    rw [hbytes]
    constructor
    · exact ⟨[c], by rw [asBytes, List.flatMap_singleton]⟩
    · intro b hb
      exact UInt8.le_trans (by decide) (le_of_mem_utf8EncodeChar (by omega) hb)

theorem printable_quoted (s : String) : Printable (quoted s) := by
  have hbody : Printable ((utf8 s).flatMap escapeByte) := by
    rw [utf8_eq_asBytes, asBytes, List.flatMap_assoc]
    induction s.toList with
    | nil => exact printable_nil
    | cons c cs ih => exact (printable_escape_char c).append ih
  have hquote : Printable [0x22] := printable_singleton (by decide) (by decide)
  exact hquote.append (hbody.append hquote)

theorem printable_decimal (n : ℕ) : Printable (decimal n) := by
  apply printable_ascii
  apply List.all_eq_true.mpr
  intro b hb
  obtain ⟨hle, hge⟩ := mem_decimal hb
  exact decide_eq_true ⟨UInt8.le_trans (by decide) hle, UInt8.lt_of_le_of_lt hge (by decide)⟩

mutual

theorem printable_write (v : JsonTree) (hv : v.Writable) : Printable (write v) := by
  rcases v with _ | b | n | x | s | fs | text
  · exact printable_ascii rfl
  · rcases b with _ | _
    · exact printable_ascii rfl
    · exact printable_ascii rfl
  · exact printable_decimal n
  · exact (printable_decimal _).append (printable_ascii rfl)
  · exact printable_quoted s
  · rcases fs with _ | ⟨f, fs⟩
    · exact printable_ascii rfl
    · rw [JsonTree.Writable, JsonTree.AllWritable] at hv
      have hbrace : Printable [0x7b] := printable_singleton (by decide) (by decide)
      exact hbrace.append
        ((printable_writeMember f hv.1).append (printable_writeMembers fs hv.2))
  · exact absurd hv id

theorem printable_writeMember (f : String × JsonTree) (hf : f.2.Writable) :
    Printable (writeMember f) := by
  rcases f with ⟨name, v⟩
  have hcolon : Printable [0x3a] := printable_singleton (by decide) (by decide)
  exact (printable_quoted name).append (hcolon.append (printable_write v hf))

theorem printable_writeMembers (fs : List (String × JsonTree))
    (hfs : JsonTree.AllWritable fs) : Printable (writeMembers fs) := by
  rcases fs with _ | ⟨f, fs⟩
  · exact printable_ascii rfl
  · rw [JsonTree.AllWritable] at hfs
    have hcomma : Printable [0x2c] := printable_singleton (by decide) (by decide)
    exact hcomma.append
      ((printable_writeMember f hfs.1).append (printable_writeMembers fs hfs.2))

end

/-! ## Text that goes on -/

theorem readQuoted_append {bs rest : Bytes} {s : String}
    (h : readQuoted bs = some (s, rest)) (more : Bytes) :
    readQuoted (bs ++ more) = some (s, rest ++ more) := by
  rcases bs with _ | ⟨b, bs⟩
  · cases h
  · by_cases hb : b = 0x22
    · subst hb
      rw [readQuoted, Option.bind_eq_some_iff] at h
      obtain ⟨r, hr, hs⟩ := h
      obtain ⟨s', hs', heq⟩ := Option.map_eq_some_iff.mp hs
      rw [List.cons_append, readQuoted, unescape_append_right hr more, Option.bind_some, hs',
        Option.map_some, ← (Prod.mk.inj heq).1, ← (Prod.mk.inj heq).2]
    · rw [readQuoted.eq_def] at h
      simp [hb] at h

/-- A number that something follows does not go on. -/
theorem readNumber_append {bs rest : Bytes} {v : JsonTree}
    (h : readNumber bs = some (v, rest)) (hrest : rest ≠ []) (more : Bytes) :
    readNumber (bs ++ more) = some (v, rest ++ more) := by
  rw [readNumber, Option.map_eq_some_iff] at h
  obtain ⟨n, hn, hv⟩ := h
  rcases hdrop : bs.dropWhile isDigit with _ | ⟨b, tail⟩
  · rw [hdrop] at hv
    exact absurd (Prod.mk.inj hv).2.symm hrest
  · have hlength : (bs.takeWhile isDigit).length ≠ bs.length := by
      have hsplit : (bs.takeWhile isDigit ++ bs.dropWhile isDigit).length = bs.length :=
        congrArg List.length List.takeWhile_append_dropWhile
      rw [hdrop, List.length_append, List.length_cons] at hsplit
      omega
    have htaken : (bs ++ more).takeWhile isDigit = bs.takeWhile isDigit ∧
        (bs ++ more).dropWhile isDigit = b :: tail ++ more := by
      rw [List.takeWhile_append, if_neg hlength, List.dropWhile_append, hdrop]
      exact ⟨rfl, rfl⟩
    rw [readNumber, htaken.1, htaken.2, hn, Option.map_some]
    rw [hdrop] at hv
    by_cases hfloat : b = 0x65
    · subst hfloat
      have heq := Prod.mk.inj hv
      rw [← heq.1, ← heq.2]
      rfl
    · split at hv
      · rename_i heq
        exact absurd (List.cons.inj heq).1 hfloat
      · have heq := Prod.mk.inj hv
        rw [← heq.1, ← heq.2]
        split
        · rename_i heq
          exact absurd (List.cons.inj heq).1 hfloat
        · rfl

theorem exists_digit {bs rest : Bytes} {v : JsonTree} (h : readNumber bs = some (v, rest)) :
    ∃ b tail, bs = b :: tail ∧ isDigit b := by
  rw [readNumber, Option.map_eq_some_iff] at h
  obtain ⟨n, hn, -⟩ := h
  rcases bs with _ | ⟨b, tail⟩
  · cases hn
  · refine ⟨b, tail, rfl, ?_⟩
    by_contra hb
    rw [List.takeWhile_cons_of_neg hb] at hn
    cases hn

theorem exists_quote {fuel : ℕ} {bs : Bytes} {r : (String × JsonTree) × Bytes}
    (h : readMember fuel bs = some r) : ∃ tail, bs = 0x22 :: tail := by
  rcases fuel with _ | fuel
  · cases h
  · rw [readMember, Option.bind_eq_some_iff] at h
    obtain ⟨name, hname, -⟩ := h
    rw [readQuoted.eq_def] at hname
    split at hname
    · exact ⟨_, rfl⟩
    · cases hname

/-- With so much fuel, a value that something follows, an object and the members of
one do not go on, and more fuel does not change them. -/
structure ReadsOn (fuel : ℕ) : Prop where
  value : ∀ bs rest v, read fuel bs = some (v, rest) →
    (rest ≠ [] ∨ bs.head? = some 0x7b) →
    ∀ fuel' ≥ fuel, ∀ more, read fuel' (bs ++ more) = some (v, rest ++ more)
  member : ∀ bs r, readMember fuel bs = some r → r.2 ≠ [] →
    ∀ fuel' ≥ fuel, ∀ more, readMember fuel' (bs ++ more) = some (r.1, r.2 ++ more)
  members : ∀ bs r, readMembers fuel bs = some r →
    ∀ fuel' ≥ fuel, ∀ more, readMembers fuel' (bs ++ more) = some (r.1, r.2 ++ more)

theorem readMembers_ne_nil {fuel : ℕ} {bs : Bytes} {r : List (String × JsonTree) × Bytes}
    (h : readMembers fuel bs = some r) : bs ≠ [] := by
  rintro rfl
  rcases fuel with _ | fuel
  · cases h
  · cases h

/-- A member, and the members after it. -/
theorem ReadsOn.both {fuel k : ℕ} (ih : ReadsOn fuel) (hk : fuel ≤ k) {bs : Bytes}
    {f : (String × JsonTree) × Bytes} {fs : List (String × JsonTree) × Bytes}
    (hf : readMember fuel bs = some f) (hfs : readMembers fuel f.2 = some fs)
    (more : Bytes) :
    readMember k (bs ++ more) = some (f.1, f.2 ++ more) ∧
      readMembers k (f.2 ++ more) = some (fs.1, fs.2 ++ more) :=
  ⟨ih.member bs f hf (readMembers_ne_nil hfs) k hk more, ih.members f.2 fs hfs k hk more⟩

theorem ReadsOn.value_succ {fuel : ℕ} (ih : ReadsOn fuel) {bs rest : Bytes} {v : JsonTree}
    (h : read (fuel + 1) bs = some (v, rest)) (hend : rest ≠ [] ∨ bs.head? = some 0x7b)
    {k : ℕ} (hk : fuel ≤ k) (more : Bytes) :
    read (k + 1) (bs ++ more) = some (v, rest ++ more) := by
  rw [read.eq_def] at h
  dsimp only at h
  split at h
  · cases h
    simp [read]
  · cases h
    simp [read]
  · cases h
    simp [read]
  · obtain ⟨r, hr, heq⟩ := Option.map_eq_some_iff.mp h
    have hquoted := readQuoted_append hr more
    cases heq
    rw [List.cons_append] at hquoted ⊢
    rw [read, hquoted]
    rfl
  · cases h
    simp [read]
  · obtain ⟨f, hf, hfs⟩ := Option.bind_eq_some_iff.mp h
    obtain ⟨fs, hread, heq⟩ := Option.map_eq_some_iff.mp hfs
    obtain ⟨tail, rfl⟩ := exists_quote hf
    obtain ⟨hmember, hmembers⟩ := ih.both hk hf hread more
    cases heq
    rw [List.cons_append] at hmember
    rw [List.cons_append, List.cons_append, read, hmember, Option.bind_some, hmembers]
    · rfl
    · simp
  · obtain ⟨b, tail, rfl, hb⟩ := exists_digit h
    have hrest : rest ≠ [] := by
      rcases hend with hrest | hhead
      · exact hrest
      · cases hhead
        exact absurd hb (by decide)
    have hnumber := readNumber_append h hrest more
    rw [List.cons_append] at hnumber ⊢
    rw [read_of_digit hb, hnumber]

theorem ReadsOn.member_succ {fuel : ℕ} (ih : ReadsOn fuel) {bs : Bytes}
    {r : (String × JsonTree) × Bytes} (h : readMember (fuel + 1) bs = some r)
    (hend : r.2 ≠ []) {k : ℕ} (hk : fuel ≤ k) (more : Bytes) :
    readMember (k + 1) (bs ++ more) = some (r.1, r.2 ++ more) := by
  rw [readMember, Option.bind_eq_some_iff] at h
  obtain ⟨⟨name, after⟩, hname, hvalue⟩ := h
  rw [readMember, readQuoted_append hname more, Option.bind_some]
  dsimp only at hvalue ⊢
  split at hvalue
  · rename_i tail
    obtain ⟨v, hv, heq⟩ := Option.map_eq_some_iff.mp hvalue
    have hne : v.2 ≠ [] := by
      rw [← heq] at hend
      exact hend
    have hread := ih.value _ _ _ hv (.inl hne) k hk more
    change (read k (tail ++ more)).map _ = _
    rw [hread, ← heq]
    rfl
  · cases hvalue

theorem ReadsOn.members_succ {fuel : ℕ} (ih : ReadsOn fuel) {bs : Bytes}
    {r : List (String × JsonTree) × Bytes} (h : readMembers (fuel + 1) bs = some r) {k : ℕ}
    (hk : fuel ≤ k) (more : Bytes) :
    readMembers (k + 1) (bs ++ more) = some (r.1, r.2 ++ more) := by
  rw [readMembers.eq_def] at h
  dsimp only at h
  split at h
  · cases h
    rfl
  · obtain ⟨f, hf, hfs⟩ := Option.bind_eq_some_iff.mp h
    obtain ⟨fs, hread, heq⟩ := Option.map_eq_some_iff.mp hfs
    obtain ⟨hmember, hmembers⟩ := ih.both hk hf hread more
    rw [List.cons_append, readMembers, hmember, Option.bind_some, hmembers, ← heq]
    rfl
  · cases h

theorem readsOn (fuel : ℕ) : ReadsOn fuel := by
  induction fuel with
  | zero => exact ⟨nofun, nofun, nofun⟩
  | succ fuel ih =>
      refine ⟨?_, ?_, ?_⟩
      · rintro bs rest v h hend (_ | k) hk more
        · cases hk
        · exact ih.value_succ h hend (Nat.le_of_succ_le_succ hk) more
      · rintro bs r h hend (_ | k) hk more
        · cases hk
        · exact ih.member_succ h hend (Nat.le_of_succ_le_succ hk) more
      · rintro bs r h (_ | k) hk more
        · cases hk
        · exact ih.members_succ h (Nat.le_of_succ_le_succ hk) more

/-! ## The library -/

theorem writeMembers_braces (fs : List (String × JsonTree)) :
    ∃ inner, writeMembers fs = inner ++ [0x7d] := by
  induction fs with
  | nil => exact ⟨[], rfl⟩
  | cons f fs ih =>
      obtain ⟨inner, hinner⟩ := ih
      refine ⟨0x2c :: (writeMember f ++ inner), ?_⟩
      rw [writeMembers, hinner, List.cons_append, List.append_assoc]

/-- The whole of a text is read. -/
def readAll (bs : Bytes) : Option JsonTree :=
  match read bs.length bs with
  | some (v, []) => some v
  | _ => none

def lib : JsonLib where
  write := write
  read := readAll
  reread := reread

theorem lib_lawful : lib.Lawful where
  text v hv := (printable_write v hv).text
  printable v hv := (printable_write v hv).le
  braces fields := by
    rcases fields with _ | ⟨f, fs⟩
    · exact ⟨[], rfl⟩
    · obtain ⟨inner, hinner⟩ := writeMembers_braces fs
      refine ⟨writeMember f ++ inner, ?_⟩
      change 0x7b :: (writeMember f ++ writeMembers fs) = _
      rw [hinner, List.append_assoc]
  read_write v hv := by
    have hread : read (write v).length (write v ++ []) = some (v.mapFloat reread, []) :=
      read_write v hv (size_le v hv) nofun
    rw [List.append_nil] at hread
    change readAll (write v) = _
    rw [readAll, hread]
    rfl
  read_cut fields hw p hprefix hne := by
    obtain ⟨more, hmore⟩ := hprefix
    change p ++ more = write (.obj fields) at hmore
    change p ≠ write (.obj fields) at hne
    have hread : read (write (.obj fields)).length (write (.obj fields) ++ []) =
        some ((JsonTree.obj fields).mapFloat reread, []) :=
      read_write _ hw (size_le _ hw) nofun
    rw [List.append_nil] at hread
    change readAll p = none
    rw [readAll]
    split
    · rename_i v hv
      have hhead : p.head? = some 0x7b := by
        rcases p with _ | ⟨b, tail⟩
        · cases hv
        · rcases fields with _ | ⟨f, fs⟩
          · exact congrArg some (List.cons.inj hmore).1
          · exact congrArg some (List.cons.inj hmore).1
      have hlength : p.length ≤ (write (.obj fields)).length := by
        rw [← hmore, List.length_append]
        omega
      have happend := (readsOn p.length).value p [] v hv (.inr hhead) _ hlength more
      rw [hmore, hread, List.nil_append, Option.some.injEq, Prod.mk.injEq] at happend
      rw [← happend.2, List.append_nil] at hmore
      exact absurd hmore hne
    · rfl

end CompactJson

end ReserveGrid.Support
