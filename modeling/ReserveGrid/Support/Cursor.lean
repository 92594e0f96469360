import ReserveGrid.Support.Codec
import ReserveGrid.Support.JsonText

/-!
# Readers and writers over a buffer

A reader takes fields off the front of its input one after another; a writer
appends fields to its buffer. Either may stop with an error. Both are related
to codecs: a reader that accepts what the codec decodes, and a writer that
writes what the codec encodes, agree with each other.
-/

namespace ReserveGrid.Support

variable {ε α β : Type}

/-- The state is the input that was not read yet. -/
abbrev Reader (ε : Type) := StateT Bytes (Except ε)

/-- The state is what was written so far. -/
abbrev Writer (ε : Type) := StateT Bytes (Except ε)

/-- Read a value from the front of the input, whatever follows it. -/
def Reader.decode (r : Reader ε α) (payload : Bytes) : Except ε α :=
  (r.run payload).map (·.1)

/-- A value that may be missing, or the error to stop with. -/
def Reader.orThrow (o : Option α) (e : ε) : Reader ε α :=
  match o with
  | some a => pure a
  | none => throw e

/-- What a writer writes to an empty buffer. -/
def Writer.intoBytes (w : Writer ε Unit) : Except ε Bytes :=
  (w.run []).map (·.2)

/-! ## Text -/

/-- Text written as the bytes of its UTF-8 form. -/
def Codec.text (c : Codec Bytes) : Codec String where
  Valid s := c.Valid (JsonText.utf8 s)
  encode s := c.encode (JsonText.utf8 s)
  decode bs := (c.decode bs).bind fun r =>
    (JsonText.fromUtf8 r.1).map fun s => (s, r.2)
  decode_encode s h rest := by
    rw [c.decode_encode _ h, Option.bind_some, JsonText.fromUtf8_utf8]
    rfl
  encode_decode bs s rest h := by
    obtain ⟨⟨part, rest'⟩, hpart, hof⟩ := Option.bind_eq_some_iff.mp h
    obtain ⟨s', hs', heq⟩ := Option.map_eq_some_iff.mp hof
    cases heq
    rw [JsonText.utf8_of_fromUtf8 hs']
    exact c.encode_decode _ _ _ hpart

/-! ## Readers -/

/-- The reader accepts what the codec decodes, and returns `f` of it. -/
def ReadsTo (c : Codec α) (f : α → β) (r : Reader ε β) : Prop :=
  ∀ bs, (r.run bs).toOption = (c.decode bs).map fun p => (f p.1, p.2)

/-- The reader accepts what the codec decodes. -/
abbrev Reads (c : Codec α) (r : Reader ε α) : Prop := ReadsTo c id r

theorem toOption_bind (x : Except ε α) (k : α → Except ε β) :
    (x >>= k).toOption = x.toOption.bind fun a => (k a).toOption := by
  cases x with
  | error e => rfl
  | ok a => rfl

/-- A computation after a reader sees the value and what follows it. -/
theorem Reads.toOption_bind {c : Codec α} {r : Reader ε α} (h : Reads c r)
    (k : α → Reader ε β) (bs : Bytes) :
    ((r >>= k).run bs).toOption =
      (c.decode bs).bind fun p => ((k p.1).run p.2).toOption := by
  have hr : (r.run bs).toOption = c.decode bs := by
    rw [h bs]
    exact Option.map_id'
  rw [StateT.run_bind, Support.toOption_bind, hr]

/-- The last field of a record. -/
theorem ReadsTo.last {c : Codec α} {f : α → β} {r : Reader ε α}
    (h : Reads c r) : ReadsTo c f (r >>= fun a => pure (f a)) := by
  intro bs
  rw [h.toOption_bind]
  cases c.decode bs with
  | none => rfl
  | some p => rfl

/-- A field of a record, with more to follow. -/
theorem ReadsTo.step {γ : Type} {c : Codec α} {d : Codec β} {f : α × β → γ}
    {r : Reader ε α} {k : α → Reader ε γ} (h : Reads c r)
    (hk : ∀ a, ReadsTo d (fun b => f (a, b)) (k a)) :
    ReadsTo (c.pair d) f (r >>= k) := by
  intro bs
  rw [h.toOption_bind]
  change _ = Option.map _ ((c.decode bs).bind _)
  rw [Option.map_bind]
  apply congrArg
  funext p
  rw [hk p.1 p.2]
  change _ = Option.map _ ((d.decode p.2).map _)
  rw [Option.map_map]
  rfl

/-- The values of a codec seen at another type. -/
theorem ReadsTo.map {γ : Type} {c : Codec α} {out : α → β} {of : β → α}
    {Valid : β → Prop} {hof : ∀ b, Valid b → c.Valid (of b) ∧ out (of b) = b}
    {hout : ∀ a, c.Valid a → Valid (out a) ∧ of (out a) = a} {f : β → γ}
    {r : Reader ε γ} (h : ReadsTo c (fun a => f (out a)) r) :
    ReadsTo (c.map out of Valid hof hout) f r := by
  intro bs
  rw [h bs]
  change _ = ((c.decode bs).map _).map _
  rw [Option.map_map]
  rfl

/-- A field that is checked when it was read. -/
theorem Reads.orThrow {c : Codec α} {r : Reader ε α} (h : Reads c r)
    (f : α → Option β) (e : α → ε) (bs : Bytes) :
    ((r >>= fun a => Reader.orThrow (f a) (e a)).run bs).toOption =
      (c.decode bs).bind fun p => (f p.1).map fun b => (b, p.2) := by
  rw [h.toOption_bind]
  apply congrArg
  funext p
  cases f p.1 with
  | none => rfl
  | some b => rfl

/-- A reader of a list of known length, one value after another. -/
def Reader.times (r : Reader ε α) : ℕ → Reader ε (List α)
  | 0 => pure []
  | n + 1 => do
      let a ← r
      let l ← r.times n
      return a :: l

theorem Reads.times {c : Codec α} {r : Reader ε α} (h : Reads c r) (n : ℕ)
    (bs : Bytes) :
    ((r.times n).run bs).toOption = c.decodeN n bs := by
  induction n generalizing bs with
  | zero => rfl
  | succ n ih =>
      rw [Reader.times, h.toOption_bind, Codec.decodeN]
      apply congrArg
      funext p
      rw [StateT.run_bind, Support.toOption_bind, ih]
      cases c.decodeN n p.2 with
      | none => rfl
      | some q => rfl

/-! ## Writers -/

/-- The writer appends what the codec encodes, and refuses the values that have
no encoding. -/
structure Writes (c : Codec α) (w : α → Writer ε Unit) : Prop where
  of_valid : ∀ a buf, c.Valid a → (w a).run buf = .ok ((), buf ++ c.encode a)
  of_not_valid : ∀ a buf, ¬ c.Valid a → ∃ e, (w a).run buf = .error e

theorem Writes.step {c : Codec α} {d : Codec β} {w : α → Writer ε Unit}
    {v : β → Writer ε Unit} (hw : Writes c w) (hv : Writes d v) :
    Writes (c.pair d) (fun p => do w p.1; v p.2) where
  of_valid p buf h := by
    obtain ⟨ha, hb⟩ := h
    rw [StateT.run_bind, hw.of_valid _ _ ha]
    change (v p.2).run _ = _
    rw [hv.of_valid _ _ hb, List.append_assoc]
    rfl
  of_not_valid p buf h := by
    rw [StateT.run_bind]
    by_cases ha : c.Valid p.1
    · have hb : ¬ d.Valid p.2 := fun hb => h ⟨ha, hb⟩
      rw [hw.of_valid _ _ ha]
      exact hv.of_not_valid _ _ hb
    · obtain ⟨e, he⟩ := hw.of_not_valid _ buf ha
      rw [he]
      exact ⟨e, rfl⟩

/-! ## Records -/

/-- A record is written field by field, in the parts that `of` says, and put
together by `out`, which may forget how a part was spelled. -/
structure Speaks {M : Type} (c : Codec α) (of : M → α) (out : α → M)
    (encode : M → Except ε Bytes) (decode : Bytes → Except ε M) : Prop where
  out_of : ∀ m, out (of m) = m
  writes : ∃ w : α → Writer ε Unit, Writes c w ∧
    ∀ m, encode m = (w (of m)).intoBytes
  reads : ∃ r : Reader ε M, ReadsTo c out r ∧ ∀ bs, decode bs = r.decode bs

namespace Speaks

variable {M : Type} {c : Codec α} {of : M → α} {out : α → M}
  {encode : M → Except ε Bytes} {decode : Bytes → Except ε M}

theorem encode_of_valid (h : Speaks c of out encode decode) {m : M}
    (hm : c.Valid (of m)) : encode m = .ok (c.encode (of m)) := by
  obtain ⟨w, hw, heq⟩ := h.writes
  rw [heq, Writer.intoBytes, hw.of_valid _ _ hm]
  rfl

/-- A record is refused exactly when one of its parts has no encoding. -/
theorem encode_fails_iff (h : Speaks c of out encode decode) (m : M) :
    (∃ e, encode m = .error e) ↔ ¬ c.Valid (of m) := by
  constructor
  · rintro ⟨e, he⟩ hm
    rw [h.encode_of_valid hm] at he
    cases he
  · intro hm
    obtain ⟨w, hw, heq⟩ := h.writes
    obtain ⟨e, he⟩ := hw.of_not_valid _ [] hm
    refine ⟨e, ?_⟩
    rw [heq, Writer.intoBytes, he]
    rfl

theorem decode_eq_ok (h : Speaks c of out encode decode) {bs : Bytes} {m : M} :
    decode bs = .ok m ↔ ∃ a rest, c.decode bs = some (a, rest) ∧ out a = m := by
  obtain ⟨r, hr, heq⟩ := h.reads
  have hrun := hr bs
  rw [heq, Reader.decode]
  cases hread : r.run bs with
  | error e =>
      rw [hread] at hrun
      have hnone : c.decode bs = none := Option.map_eq_none_iff.mp hrun.symm
      simp [hnone, Except.map]
  | ok p =>
      rw [hread] at hrun
      obtain ⟨⟨a, rest⟩, hdecode, rfl⟩ := Option.map_eq_some_iff.mp hrun.symm
      simp [hdecode, Except.map]

/-- A record whose parts have an encoding is read back. -/
theorem round_trip (h : Speaks c of out encode decode) {m : M}
    (hm : c.Valid (of m)) : ∃ bs, encode m = .ok bs ∧ decode bs = .ok m := by
  refine ⟨_, h.encode_of_valid hm, ?_⟩
  have hdecode := c.decode_encode _ hm []
  rw [List.append_nil] at hdecode
  exact h.decode_eq_ok.mpr ⟨_, _, hdecode, h.out_of m⟩

/-- What is read was spelled as the codec spells its parts. -/
theorem spelled (h : Speaks c of out encode decode) {bs : Bytes} {m : M}
    (hm : decode bs = .ok m) :
    ∃ a rest, c.Valid a ∧ bs = c.encode a ++ rest ∧ out a = m := by
  obtain ⟨a, rest, hdecode, hout⟩ := h.decode_eq_ok.mp hm
  obtain ⟨hvalid, hbs⟩ := c.encode_decode _ _ _ hdecode
  exact ⟨a, rest, hvalid, hbs, hout⟩

end Speaks

end ReserveGrid.Support
