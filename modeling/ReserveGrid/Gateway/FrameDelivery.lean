import ReserveGrid.Gateway.Transport
import ReserveGrid.Support.Result

/-!
# Every frame arrives

However the socket cuts the stream and whenever a waiting read is dropped, the
bytes in the two buffers of the reader and on the wire are at every moment what
the frames still to be returned look like, encrypted from some point on. So no
read fails, reads return the frames in the order they were written, and a read
waits with nothing on the wire only when all frames were returned.
-/

namespace ReserveGrid.Gateway

open Support

variable {σ : Type} {noise : Noise σ} {InStep : σ → σ → Prop}

/-! ## Frames in the decrypted stream -/

theorem Sv2Frame.toNat_msgLength (f : Sv2Frame) :
    f.header.msgLength.toNat = f.payload.length := by
  have hlt := f.payload_lt
  apply UInt32.toNat_ofNat_of_lt'
  change f.payload.length < 2 ^ 32
  omega

theorem Sv2FrameHeader.length_toBytes (h : Sv2FrameHeader) :
    h.toBytes.length = sv2FrameHeaderSize := by
  simp [toBytes, sv2FrameHeaderSize]

theorem Sv2Frame.parse_header (f : Sv2Frame) :
    Sv2FrameHeader.parse f.header.toBytes = f.header := by
  have hlt := f.payload_lt
  have hext : leNat (leBytes 2 f.extensionType.toNat) = f.extensionType.toNat :=
    leNat_leBytes_of_lt f.extensionType.toNat_lt
  have hlen : leNat (leBytes 3 f.payload.length) = f.payload.length :=
    leNat_leBytes_of_lt (by simpa using hlt)
  have htake : f.header.toBytes.take 2 = leBytes 2 f.extensionType.toNat := rfl
  have hdrop : (f.header.toBytes.drop 3).take 3 =
      leBytes 3 f.header.msgLength.toNat := rfl
  unfold Sv2FrameHeader.parse
  rw [htake, hdrop, f.toNat_msgLength, hext, hlen, UInt16.ofNat_toNat]
  rfl

theorem Sv2Frame.length_bytes (f : Sv2Frame) :
    f.bytes.length = sv2FrameHeaderSize + f.payload.length := by
  rw [bytes, List.length_append, Sv2FrameHeader.length_toBytes]

/-! ## What is under way -/

/-- Pieces that fit a Noise message. -/
def Fitting (pieces : List Bytes) : Prop :=
  ∀ c ∈ pieces, c ≠ [] ∧ c.length ≤ maxNoisePlaintextLen

theorem fitting_frame (f : Sv2Frame) :
    Fitting (chunks maxNoisePlaintextLen f.bytes) :=
  fun _ hc => chunk_bounds hc

theorem writeChunks_cons_eq_ok {c : Bytes} {pieces : List Bytes} {a a' : σ}
    {written : Bytes} :
    writeChunks noise (c :: pieces) a = .ok (written, a') ↔
      ∃ encrypted a₁ rest, noise.encrypt a c = some (encrypted, a₁) ∧
        writeChunks noise pieces a₁ = .ok (rest, a') ∧
        written = noiseFrame encrypted ++ rest := by
  rw [writeChunks]
  constructor
  · intro h
    split at h
    · cases h
    · rename_i encrypted a₁ henc
      split at h
      · cases h
      · rename_i rest a₂ hrest
        cases h
        exact ⟨encrypted, a₁, rest, henc, hrest, rfl⟩
  · rintro ⟨encrypted, a₁, rest, henc, hrest, rfl⟩
    rw [henc]
    dsimp only
    rw [hrest]

theorem writeChunks_append {pieces pieces' : List Bytes} {a a₁ a₂ : σ}
    {written written' : Bytes}
    (h : writeChunks noise pieces a = .ok (written, a₁))
    (h' : writeChunks noise pieces' a₁ = .ok (written', a₂)) :
    writeChunks noise (pieces ++ pieces') a = .ok (written ++ written', a₂) := by
  induction pieces generalizing a written with
  | nil =>
      cases h
      exact h'
  | cons c pieces ih =>
      obtain ⟨encrypted, b, rest, henc, hrest, rfl⟩ :=
        writeChunks_cons_eq_ok.mp h
      rw [List.cons_append, List.append_assoc]
      exact writeChunks_cons_eq_ok.mpr ⟨encrypted, b, _, henc, ih hrest, rfl⟩

/-- Pieces that fit are written, and the peer can follow. -/
theorem writeChunks_ok (hnoise : noise.Paired InStep) {pieces : List Bytes}
    (hfit : Fitting pieces) {a b : σ} (hab : InStep a b) :
    ∃ written a' b', writeChunks noise pieces a = .ok (written, a') ∧
      InStep a' b' := by
  induction pieces generalizing a b with
  | nil => exact ⟨[], a, b, rfl, hab⟩
  | cons c pieces ih =>
      have hc := (hfit c (by simp)).2
      obtain ⟨encrypted, a₁, b₁, henc, -, -, hab₁⟩ := hnoise a b c hab hc
      obtain ⟨rest, a', b', hrest, hab'⟩ :=
        ih (fun d hd => hfit d (by simp [hd])) hab₁
      have hcons := writeChunks_cons_eq_ok.mpr ⟨encrypted, a₁, rest, henc, hrest, rfl⟩
      exact ⟨_, a', b', hcons, hab'⟩

theorem noiseFrame_ne_nil (encrypted : Bytes) : noiseFrame encrypted ≠ [] := by
  intro h
  have hlength := congrArg List.length h
  simp [noiseFrame] at hlength

/-- The reader holds and the wire carries the bytes `plain` of the decrypted
stream: the first of them decrypted, the others in pieces that the reader is in
step with. -/
def Carries (noise : Noise σ) (InStep : σ → σ → Prop) (writer : σ)
    (t : Sv2Transport σ) (wire plain : Bytes) : Prop :=
  ∃ origin pieces, InStep origin t.codec ∧ Fitting pieces ∧
    writeChunks noise pieces origin = .ok (t.rawBuf ++ wire, writer) ∧
    plain = t.readBuf ++ pieces.flatten

/-- What is written joins what is under way. -/
theorem Carries.write (hnoise : noise.Paired InStep) {writer : σ}
    {t : Sv2Transport σ} {wire plain : Bytes} (f : Sv2Frame)
    (h : Carries noise InStep writer t wire plain) :
    ∃ written writer', writeFrame noise f writer = .ok (written, writer') ∧
      written ≠ [] ∧
      Carries noise InStep writer' t (wire ++ written) (plain ++ f.bytes) := by
  obtain ⟨origin, pieces, hstep, hfit, hpieces, rfl⟩ := h
  obtain ⟨_, writer₁, peer, hpieces', hpeer⟩ := writeChunks_ok hnoise hfit hstep
  rw [hpieces] at hpieces'
  cases hpieces'
  obtain ⟨written, writer', -, hwritten, -⟩ :=
    writeChunks_ok hnoise (fitting_frame f) hpeer
  have hflatten : (chunks maxNoisePlaintextLen f.bytes).flatten = f.bytes :=
    flatten_chunks (by decide) f.bytes
  refine ⟨written, writer', hwritten, ?_, origin,
    pieces ++ chunks maxNoisePlaintextLen f.bytes, hstep, ?_, ?_, ?_⟩
  · -- a frame has a header, so there is a first piece
    cases hcs : chunks maxNoisePlaintextLen f.bytes with
    | nil =>
        have hlength := f.length_bytes
        rw [hcs] at hflatten
        rw [← hflatten] at hlength
        simp [sv2FrameHeaderSize] at hlength
        omega
    | cons c cs =>
        rw [hcs] at hwritten
        obtain ⟨encrypted, _, rest, -, -, rfl⟩ :=
          writeChunks_cons_eq_ok.mp hwritten
        intro hnil
        exact noiseFrame_ne_nil encrypted (List.append_eq_nil_iff.mp hnil).1
  · intro c hc
    rcases List.mem_append.mp hc with hc | hc
    · exact hfit c hc
    · exact fitting_frame f c hc
  · rw [← List.append_assoc]
    exact writeChunks_append hpieces hwritten
  · rw [List.flatten_append, hflatten, List.append_assoc]

/-- Bytes move from the wire into the raw buffer. -/
theorem Carries.arrive {writer : σ} {t : Sv2Transport σ} {wire plain : Bytes}
    (n : ℕ) (h : Carries noise InStep writer t wire plain) :
    Carries noise InStep writer { t with rawBuf := t.rawBuf ++ wire.take n }
      (wire.drop n) plain := by
  obtain ⟨origin, pieces, hstep, hfit, hpieces, hplain⟩ := h
  refine ⟨origin, pieces, hstep, hfit, ?_, hplain⟩
  rw [List.append_assoc, List.take_append_drop]
  exact hpieces

theorem length_noiseFrame (encrypted : Bytes) :
    (noiseFrame encrypted).length = 2 + encrypted.length := by
  simp [noiseFrame]

/-- The length in front of a Noise message is read back. -/
theorem leNat_noiseFrame {encrypted : Bytes} (rest : Bytes)
    (hlen : encrypted.length ≤ maxNoiseFrameLen) :
    leNat ((noiseFrame encrypted ++ rest).take 2).reverse = encrypted.length := by
  have htake : (noiseFrame encrypted ++ rest).take 2 =
      (leBytes 2 encrypted.length).reverse := by
    rw [noiseFrame, List.append_assoc]
    exact List.take_left' (by simp)
  rw [htake, List.reverse_reverse]
  apply leNat_leBytes_of_lt
  have hmax : maxNoiseFrameLen < 256 ^ 2 := by decide
  omega

/-- A Noise message that is whole in the raw buffer is taken out of it. -/
theorem readNoiseFrame_of_whole {t : Sv2Transport σ} {encrypted more plain : Bytes}
    {codec : σ} (hraw : t.rawBuf = noiseFrame encrypted ++ more)
    (hpos : 0 < encrypted.length) (hlen : encrypted.length ≤ maxNoiseFrameLen)
    (hdecrypt : noise.decrypt t.codec encrypted = some (plain, codec)) :
    readNoiseFrame noise t =
      .ok (some { codec, readBuf := t.readBuf ++ plain, rawBuf := more }) := by
  have hlength : t.rawBuf.length = 2 + encrypted.length + more.length := by
    rw [hraw, List.length_append, length_noiseFrame]
  have hfield : leNat (t.rawBuf.take 2).reverse = encrypted.length := by
    rw [hraw]
    exact leNat_noiseFrame more hlen
  have hpart : (t.rawBuf.drop 2).take encrypted.length = encrypted := by
    rw [hraw, noiseFrame, List.append_assoc, List.drop_left' (by simp)]
    exact List.take_left' rfl
  have hrest : t.rawBuf.drop (2 + encrypted.length) = more := by
    rw [hraw]
    exact List.drop_left' (length_noiseFrame encrypted)
  unfold readNoiseFrame
  dsimp only
  rw [hfield, if_pos (by omega), if_neg (by omega), if_pos (by omega), hpart,
    hdecrypt, hrest]

/-- A Noise message that is not whole yet is waited for. -/
theorem readNoiseFrame_of_part {t : Sv2Transport σ} {encrypted more rest : Bytes}
    (hraw : t.rawBuf ++ more = noiseFrame encrypted ++ rest)
    (hpos : 0 < encrypted.length) (hlen : encrypted.length ≤ maxNoiseFrameLen)
    (hshort : t.rawBuf.length < (noiseFrame encrypted).length) :
    readNoiseFrame noise t = .ok none := by
  rw [length_noiseFrame] at hshort
  unfold readNoiseFrame
  dsimp only
  by_cases htwo : 2 ≤ t.rawBuf.length
  · have hfield : leNat (t.rawBuf.take 2).reverse = encrypted.length := by
      rw [← leNat_noiseFrame rest hlen, ← hraw, List.take_append_of_le_length htwo]
    rw [hfield, if_pos htwo, if_neg (by omega), if_neg (by omega)]
  · rw [if_neg htwo]

/-- Reading a Noise message out of what is under way gives more of the
decrypted stream; when the reader must wait with nothing on the wire, it holds
all of it. -/
theorem Carries.readNoiseFrame_cases (hnoise : noise.Paired InStep) {writer : σ}
    {t : Sv2Transport σ} {wire plain : Bytes}
    (h : Carries noise InStep writer t wire plain) :
    (∃ t', readNoiseFrame noise t = .ok (some t') ∧
      Carries noise InStep writer t' wire plain) ∨
    (readNoiseFrame noise t = .ok none ∧ (wire = [] → t.readBuf = plain)) := by
  obtain ⟨origin, pieces, hstep, hfit, hpieces, rfl⟩ := h
  cases pieces with
  | nil =>
      have hraw : t.rawBuf = [] := by
        rw [writeChunks] at hpieces
        injection hpieces with hpair
        exact (List.append_eq_nil_iff.mp (congrArg Prod.fst hpair).symm).1
      refine Or.inr ⟨?_, fun _ => by simp⟩
      unfold readNoiseFrame
      rw [hraw, if_neg (by simp)]
  | cons c pieces =>
      obtain ⟨hne, hc⟩ := hfit c (by simp)
      obtain ⟨encrypted, a₁, rest, henc, hrest, heq⟩ :=
        writeChunks_cons_eq_ok.mp hpieces
      obtain ⟨encrypted', a₁', b₁, henc', hlength, hdecrypt, hstep₁⟩ :=
        hnoise origin t.codec c hstep hc
      rw [henc] at henc'
      cases henc'
      have hpos : 0 < encrypted.length := by
        rw [hlength, aeadMacLen]
        omega
      have hmax : encrypted.length ≤ maxNoiseFrameLen := by
        rw [hlength]
        unfold maxNoisePlaintextLen maxNoiseFrameLen aeadMacLen at *
        omega
      rcases cut_cases heq with ⟨more, hraw, rfl⟩ | hshort
      · refine Or.inl ⟨_, readNoiseFrame_of_whole hraw hpos hmax hdecrypt,
          a₁, pieces, hstep₁, fun d hd => hfit d (by simp [hd]), hrest, ?_⟩
        rw [List.flatten_cons, List.append_assoc]
      · refine Or.inr ⟨readNoiseFrame_of_part heq hpos hmax hshort, ?_⟩
        intro hwire
        rw [hwire, List.append_nil] at heq
        rw [heq, List.length_append] at hshort
        omega

/-- The reader fills its buffer to `n` bytes, or waits with fewer. -/
theorem Carries.fillTo_cases (hnoise : noise.Paired InStep) {writer : σ}
    {t : Sv2Transport σ} {wire plain : Bytes} (n : ℕ)
    (h : Carries noise InStep writer t wire plain) :
    ∃ t', Carries noise InStep writer t' wire plain ∧
      ((fillTo noise n t = .ok (true, t') ∧ n ≤ t'.readBuf.length) ∨
        (fillTo noise n t = .ok (false, t') ∧ t'.readBuf.length < n ∧
          (wire = [] → t'.readBuf = plain))) := by
  fun_induction fillTo noise n t with
  | case1 t hn => exact ⟨t, h, Or.inl ⟨rfl, hn⟩⟩
  | case2 t hn e hread =>
      rcases h.readNoiseFrame_cases hnoise with ⟨t', ht', -⟩ | ⟨hnone, -⟩
      · rw [hread] at ht'
        cases ht'
      · rw [hread] at hnone
        cases hnone
  | case3 t hn hread =>
      rcases h.readNoiseFrame_cases hnoise with ⟨t', ht', -⟩ | ⟨-, hall⟩
      · rw [hread] at ht'
        cases ht'
      · exact ⟨t, h, Or.inr ⟨rfl, Nat.lt_of_not_le hn, hall⟩⟩
  | case4 t hn t' hread ih =>
      rcases h.readNoiseFrame_cases hnoise with ⟨t₁, ht₁, hcarries⟩ | ⟨hnone, -⟩
      · rw [hread] at ht₁
        cases ht₁
        exact ih hcarries
      · rw [hread] at hnone
        cases hnone

/-! ## Reads -/

/-- The frames in the decrypted stream. -/
def streamOf (frames : List Sv2Frame) : Bytes := frames.flatMap Sv2Frame.bytes

/-- What the reader holds decrypted is the start of the stream. -/
theorem Carries.readBuf_le {writer : σ} {t : Sv2Transport σ}
    {wire plain : Bytes} (h : Carries noise InStep writer t wire plain) :
    t.readBuf <+: plain := by
  obtain ⟨-, pieces, -, -, -, rfl⟩ := h
  exact List.prefix_append _ _

/-- The start of the stream is the start of a buffer that is long enough. -/
theorem Carries.take_front {writer : σ} {t : Sv2Transport σ}
    {wire front rest : Bytes}
    (h : Carries noise InStep writer t wire (front ++ rest))
    (hlen : front.length ≤ t.readBuf.length) :
    t.readBuf.take front.length = front := by
  have hfront : front <+: t.readBuf :=
    List.prefix_of_prefix_length_le (List.prefix_append _ _) h.readBuf_le hlen
  exact (List.prefix_iff_eq_take.mp hfront).symm

/-- What was returned is dropped from the decrypted buffer. -/
theorem Carries.drop {writer : σ} {t : Sv2Transport σ} {wire front rest : Bytes}
    (h : Carries noise InStep writer t wire (front ++ rest))
    (hlen : front.length ≤ t.readBuf.length) :
    Carries noise InStep writer
      { t with readBuf := t.readBuf.drop front.length } wire rest := by
  obtain ⟨origin, pieces, hstep, hfit, hpieces, hplain⟩ := h
  refine ⟨origin, pieces, hstep, hfit, hpieces, ?_⟩
  have hdrop := congrArg (List.drop front.length) hplain
  rw [List.drop_left, List.drop_append_of_le_length hlen] at hdrop
  exact hdrop

/-- A suspended read remembers the header of the frame that comes next. -/
def Expects (frames : List Sv2Frame) : ReadAt → Prop
  | .header => True
  | .payload header => ∃ f rest, frames = f :: rest ∧ header = f.header

/-- What a read of the next frame comes to: the frame, or waiting; waiting with
nothing on the wire, no frame is left. -/
def ReturnsNext (noise : Noise σ) (InStep : σ → σ → Prop) (writer : σ)
    (wire : Bytes) (frames : List Sv2Frame)
    (result : Except TransportError (Poll σ)) : Prop :=
  (∃ f rest t, frames = f :: rest ∧ result = .ok (.ready (f.header, f.payload) t) ∧
    Carries noise InStep writer t wire (streamOf rest)) ∨
  (∃ at_ t, result = .ok (.pending at_ t) ∧
    Carries noise InStep writer t wire (streamOf frames) ∧ Expects frames at_ ∧
    (wire = [] → frames = []))

theorem readPayload_next (hnoise : noise.Paired InStep) {writer : σ}
    {t : Sv2Transport σ} {wire : Bytes} {f : Sv2Frame} {rest : List Sv2Frame}
    (h : Carries noise InStep writer t wire (streamOf (f :: rest))) :
    ReturnsNext noise InStep writer wire (f :: rest)
      (readPayload noise f.header t) := by
  have htotal : sv2FrameHeaderSize + f.header.msgLength.toNat = f.bytes.length := by
    rw [f.toNat_msgLength, f.length_bytes]
  obtain ⟨t', hcarries, hfill⟩ := h.fillTo_cases hnoise f.bytes.length
  unfold readPayload
  dsimp only
  rw [htotal]
  rcases hfill with ⟨hfill, hlen⟩ | ⟨hfill, hlen, hall⟩
  · rw [hfill]
    have htake : t'.readBuf.take f.bytes.length = f.bytes :=
      hcarries.take_front hlen
    have hpayload : f.bytes.drop sv2FrameHeaderSize = f.payload :=
      List.drop_left' f.header.length_toBytes
    refine Or.inl ⟨f, rest, _, rfl, ?_, hcarries.drop hlen⟩
    dsimp only
    rw [htake, hpayload]
  · rw [hfill]
    refine Or.inr ⟨_, t', rfl, hcarries, ⟨f, rest, rfl, rfl⟩, ?_⟩
    intro hwire
    have hall := congrArg List.length (hall hwire)
    simp only [streamOf, List.flatMap_cons, List.length_append] at hall
    omega

theorem readFrame_next (hnoise : noise.Paired InStep) {writer : σ}
    {t : Sv2Transport σ} {wire : Bytes} {frames : List Sv2Frame}
    (h : Carries noise InStep writer t wire (streamOf frames)) :
    ReturnsNext noise InStep writer wire frames (readFrame noise t) := by
  obtain ⟨t', hcarries, hfill⟩ := h.fillTo_cases hnoise sv2FrameHeaderSize
  unfold readFrame
  rcases hfill with ⟨hfill, hlen⟩ | ⟨hfill, hlen, hall⟩
  · rw [hfill]
    cases frames with
    | nil =>
        have hpre := hcarries.readBuf_le.length_le
        simp [streamOf] at hpre
        simp [hpre, sv2FrameHeaderSize] at hlen
    | cons f rest =>
        have hheader : t'.readBuf.take sv2FrameHeaderSize = f.header.toBytes := by
          have hfront := hcarries
          rw [streamOf, List.flatMap_cons, Sv2Frame.bytes, List.append_assoc] at hfront
          rw [← f.header.length_toBytes] at hlen ⊢
          exact hfront.take_front hlen
        have hle : ¬ maxSv2PayloadLen < f.header.msgLength.toNat := by
          rw [f.toNat_msgLength]
          exact Nat.not_lt.mpr f.payload_le
        dsimp only
        rw [hheader, f.parse_header, if_neg hle]
        exact readPayload_next hnoise hcarries
  · rw [hfill]
    refine Or.inr ⟨_, t', rfl, hcarries, trivial, ?_⟩
    intro hwire
    rw [hall hwire] at hlen
    cases frames with
    | nil => rfl
    | cons f rest =>
        rw [streamOf, List.flatMap_cons, List.length_append, f.length_bytes] at hlen
        omega

theorem resumeRead_next (hnoise : noise.Paired InStep) {writer : σ}
    {t : Sv2Transport σ} {wire : Bytes} {frames : List Sv2Frame} {at_ : ReadAt}
    (h : Carries noise InStep writer t wire (streamOf frames))
    (hat : Expects frames at_) :
    ReturnsNext noise InStep writer wire frames (resumeRead noise at_ t) := by
  cases at_ with
  | header => exact readFrame_next hnoise h
  | payload header =>
      obtain ⟨f, rest, rfl, rfl⟩ := hat
      exact readPayload_next hnoise h

/-! ## Runs of a link -/

/-- The frames `frames` are written and not returned, the bytes under way are
theirs, and nothing has failed. A read that waits with nothing on the wire has
no frame to wait for. -/
structure Link.Sound (noise : Noise σ) (InStep : σ → σ → Prop)
    (sent : List (Sv2FrameHeader × Bytes)) (frames : List Sv2Frame)
    (s : Link σ) : Prop where
  failed : s.failed = none
  sent : sent = s.received ++ frames.map fun f => (f.header, f.payload)
  carries : Carries noise InStep s.writer s.reader s.wire (streamOf frames)
  expects : ∀ at_ ∈ s.pending, Expects frames at_
  waits : s.pending.isSome → s.wire = [] → frames = []

theorem Expects.append {frames : List Sv2Frame} {at_ : ReadAt}
    (h : Expects frames at_) (f : Sv2Frame) : Expects (frames ++ [f]) at_ := by
  cases at_ with
  | header => trivial
  | payload header =>
      obtain ⟨g, rest, rfl, hheader⟩ := h
      exact ⟨g, rest ++ [f], rfl, hheader⟩

/-- A read that is polled returns a frame, or waits. -/
theorem Link.Sound.polled {sent : List (Sv2FrameHeader × Bytes)}
    {frames : List Sv2Frame} {s : Link σ}
    {result : Except TransportError (Poll σ)}
    (hfailed : s.failed = none)
    (hsent : sent = s.received ++ frames.map fun f => (f.header, f.payload))
    (h : ReturnsNext noise InStep s.writer s.wire frames result) :
    ∃ frames', (s.polled result).Sound noise InStep sent frames' ∧
      (s.polled result).wire = s.wire ∧
      (frames'.length < frames.length ∨
        (frames' = frames ∧ (s.polled result).pending.isSome)) := by
  rcases h with ⟨f, rest, t, rfl, rfl, hcarries⟩ | ⟨at_, t, rfl, hcarries, hat, hall⟩
  · refine ⟨rest, ⟨hfailed, ?_, hcarries, ?_, ?_⟩, rfl, Or.inl (by simp)⟩
    · rw [hsent]
      simp [Link.polled]
    · intro at_ hat
      cases hat
    · intro hpending
      cases hpending
  · refine ⟨frames, ⟨hfailed, hsent, hcarries, ?_, fun _ => hall⟩, rfl,
      Or.inr ⟨rfl, rfl⟩⟩
    intro at' hat'
    cases hat'
    exact hat

theorem Link.Sound.write (hnoise : noise.Paired InStep)
    {sent : List (Sv2FrameHeader × Bytes)} {frames : List Sv2Frame} {s : Link σ}
    (h : s.Sound noise InStep sent frames) (f : Sv2Frame) :
    (s.step noise (.write f)).Sound noise InStep
      (sent ++ [(f.header, f.payload)]) (frames ++ [f]) := by
  obtain ⟨written, writer', hwrite, hne, hcarries⟩ := h.carries.write hnoise f
  have hstream : streamOf (frames ++ [f]) = streamOf frames ++ f.bytes := by
    simp [streamOf]
  unfold Link.step
  dsimp only
  rw [hwrite]
  constructor
  · exact h.failed
  · rw [h.sent]
    simp
  · rw [hstream]
    exact hcarries
  · intro at_ hat
    exact (h.expects at_ hat).append f
  · intro _ hwire
    exact absurd (List.append_eq_nil_iff.mp hwire).2 hne

theorem Link.Sound.read (hnoise : noise.Paired InStep)
    {sent : List (Sv2FrameHeader × Bytes)} {frames : List Sv2Frame} {s : Link σ}
    (h : s.Sound noise InStep sent frames) :
    ∃ frames', (s.step noise .read).Sound noise InStep sent frames' ∧
      (s.step noise .read).wire = s.wire ∧
      (frames'.length < frames.length ∨
        (frames' = frames ∧ (s.step noise .read).pending.isSome)) := by
  unfold Link.step
  cases hpending : s.pending with
  | some at_ => exact ⟨frames, h, rfl, Or.inr ⟨rfl, by simp [hpending]⟩⟩
  | none => exact Link.Sound.polled h.failed h.sent (readFrame_next hnoise h.carries)

theorem Link.Sound.arrive (hnoise : noise.Paired InStep)
    {sent : List (Sv2FrameHeader × Bytes)} {frames : List Sv2Frame} {s : Link σ}
    (h : s.Sound noise InStep sent frames) (n : ℕ) :
    ∃ frames', (s.step noise (.arrive n)).Sound noise InStep sent frames' ∧
      frames'.length ≤ frames.length ∧
      (s.pending.isSome → (s.step noise (.arrive n)).wire =
        s.wire.drop (min n readChunk)) := by
  unfold Link.step
  dsimp only
  cases hpending : s.pending with
  | none => exact ⟨frames, h, le_rfl, fun hsome => by cases hsome⟩
  | some at_ =>
      dsimp only
      by_cases htake : s.wire.take (min n readChunk) = []
      · rw [if_pos htake]
        refine ⟨frames, h, le_rfl, fun _ => ?_⟩
        have happend := List.take_append_drop (min n readChunk) s.wire
        rw [htake] at happend
        exact happend.symm
      · rw [if_neg htake, onSocketRead, if_neg htake]
        have hnext := resumeRead_next hnoise (h.carries.arrive (min n readChunk))
          (h.expects at_ hpending)
        obtain ⟨frames', hsound, hwire, hframes⟩ := Link.Sound.polled
          (s := { s with wire := s.wire.drop (min n readChunk) })
          h.failed h.sent hnext
        refine ⟨frames', hsound, ?_, fun _ => hwire⟩
        rcases hframes with hlt | ⟨rfl, -⟩
        · exact hlt.le
        · exact le_rfl

theorem Link.Sound.step (hnoise : noise.Paired InStep)
    {sent : List (Sv2FrameHeader × Bytes)} {frames : List Sv2Frame} {s : Link σ}
    (h : s.Sound noise InStep sent frames) (e : LinkEvent) :
    ∃ frames', (s.step noise e).Sound noise InStep
      (sent ++ writtenIn [e]) frames' := by
  cases e with
  | write f => exact ⟨_, h.write hnoise f⟩
  | read =>
      obtain ⟨frames', hsound, -⟩ := h.read hnoise
      refine ⟨frames', ?_⟩
      simpa [writtenIn] using hsound
  | arrive n =>
      obtain ⟨frames', hsound, -⟩ := h.arrive hnoise n
      refine ⟨frames', ?_⟩
      simpa [writtenIn] using hsound
  | cancel =>
      refine ⟨frames, h.failed, ?_, h.carries, ?_, ?_⟩
      · change sent ++ [] = s.received ++ _
        rw [List.append_nil]
        exact h.sent
      · intro at_ hat
        cases hat
      · intro hpending
        cases hpending

theorem Link.Sound.after (hnoise : noise.Paired InStep)
    {sent : List (Sv2FrameHeader × Bytes)} {frames : List Sv2Frame} {s : Link σ}
    (h : s.Sound noise InStep sent frames) (events : List LinkEvent) :
    ∃ frames', (s.after noise events).Sound noise InStep
      (sent ++ writtenIn events) frames' := by
  induction events generalizing s sent frames with
  | nil => exact ⟨frames, by simpa [Link.after, writtenIn] using h⟩
  | cons e events ih =>
      obtain ⟨frames₁, h₁⟩ := h.step hnoise e
      obtain ⟨frames', h'⟩ := ih h₁
      refine ⟨frames', ?_⟩
      rw [List.append_assoc, writtenIn, writtenIn, ← List.filterMap_append] at h'
      exact h'

theorem Link.start_sound {writer reader : σ} (h : InStep writer reader) :
    (Link.start writer reader).Sound noise InStep [] [] where
  failed := rfl
  sent := rfl
  carries := ⟨writer, [], h, (fun _ hc => absurd hc List.not_mem_nil), rfl, rfl⟩
  expects at_ hat := by cases hat
  waits _ _ := rfl

/-- Events that let reads go on. -/
def LinkEvent.isReading : LinkEvent → Bool
  | .read | .arrive _ => true
  | _ => false

/-- Reads that go on return all that was written. -/
theorem Link.Sound.drains (hnoise : noise.Paired InStep)
    {sent : List (Sv2FrameHeader × Bytes)} {frames : List Sv2Frame} {s : Link σ}
    (h : s.Sound noise InStep sent frames) :
    ∃ more : List LinkEvent, (∀ e ∈ more, e.isReading = true) ∧
      (s.after noise more).received = sent := by
  -- each read returns a frame, or waits for bytes that are on the wire
  induction hm : s.wire.length + frames.length using Nat.strong_induction_on
    generalizing s frames with
  | _ m ih =>
      by_cases hframes : frames = []
      · refine ⟨[], by simp, ?_⟩
        rw [h.sent, hframes]
        exact (List.append_nil _).symm
      obtain ⟨frames₁, h₁, hwire₁, hlt | ⟨rfl, hpending⟩⟩ := h.read hnoise
      · obtain ⟨more, hmore, hdone⟩ := ih _ (by rw [hwire₁]; omega) h₁ rfl
        refine ⟨.read :: more, ?_, hdone⟩
        simpa [LinkEvent.isReading] using hmore
      · obtain ⟨frames₂, h₂, hle, hwire₂⟩ := h₁.arrive hnoise 1
        have hone : min 1 readChunk = 1 := by decide
        have hne : s.wire ≠ [] := by
          intro hnil
          exact hframes (h₁.waits hpending (by rw [hwire₁, hnil]))
        have hpos : 0 < s.wire.length := List.length_pos_iff.mpr hne
        obtain ⟨more, hmore, hdone⟩ := ih _ (by
          rw [hwire₂ hpending, hwire₁, hone, List.length_drop]
          omega) h₂ rfl
        refine ⟨.read :: .arrive 1 :: more, ?_, hdone⟩
        simpa [LinkEvent.isReading] using hmore

/-- However the stream is cut and whenever waiting reads are dropped, no read
fails, reads return the frames that were written, in order and as they were
written, a read waits with nothing on the wire only when all were returned, and
reads that go on return all. -/
theorem frames_arrive_in_order (hnoise : noise.Paired InStep) {writer reader : σ}
    (hstep : InStep writer reader) (events : List LinkEvent) :
    ((Link.start writer reader).after noise events).failed = none ∧
    ((Link.start writer reader).after noise events).received <+:
      writtenIn events ∧
    (((Link.start writer reader).after noise events).pending.isSome →
      ((Link.start writer reader).after noise events).wire = [] →
      ((Link.start writer reader).after noise events).received =
        writtenIn events) ∧
    ∃ more : List LinkEvent, (∀ e ∈ more, e.isReading = true) ∧
      ((Link.start writer reader).after noise (events ++ more)).received =
        writtenIn events := by
  obtain ⟨frames, h⟩ := (Link.start_sound hstep).after hnoise events
  rw [List.nil_append] at h
  obtain ⟨more, hmore, hdone⟩ := h.drains hnoise
  refine ⟨h.failed, ?_, ?_, more, hmore, ?_⟩
  · rw [h.sent]
    exact List.prefix_append _ _
  · intro hpending hwire
    rw [h.sent, h.waits hpending hwire]
    exact (List.append_nil _).symm
  · rw [← hdone, Link.after, Link.after, Link.after, List.foldl_append]

/-! A cipher that depends on how many messages came before, and authenticates
their count. -/

def countingNoise : Noise ℕ where
  encrypt n plain :=
    some (plain.map (· ^^^ UInt8.ofNat n) ++ leBytes aeadMacLen n, n + 1)
  decrypt n encrypted :=
    let len := encrypted.length - aeadMacLen
    if aeadMacLen ≤ encrypted.length ∧ encrypted.drop len = leBytes aeadMacLen n
    then some ((encrypted.take len).map (· ^^^ UInt8.ofNat n), n + 1)
    else none

theorem countingNoise_paired : countingNoise.Paired Eq := by
  intro n _ plain hn _
  subst hn
  have hlength : (plain.map (· ^^^ UInt8.ofNat n) ++ leBytes aeadMacLen n).length =
      plain.length + aeadMacLen := by simp
  have hlen : plain.length + aeadMacLen - aeadMacLen =
      (plain.map (· ^^^ UInt8.ofNat n)).length := by simp
  have hxor : (plain.map (· ^^^ UInt8.ofNat n)).map (· ^^^ UInt8.ofNat n) = plain := by
    rw [List.map_map]
    have hid : ((· ^^^ UInt8.ofNat n) ∘ (· ^^^ UInt8.ofNat n)) = id := by
      funext b
      rw [Function.comp_apply, UInt8.xor_assoc, UInt8.xor_self, UInt8.xor_zero]
      rfl
    rw [hid, List.map_id]
  refine ⟨_, n + 1, n + 1, rfl, hlength, ?_, rfl⟩
  unfold countingNoise
  dsimp only
  rw [hlength, hlen, List.drop_left, List.take_left, hxor, if_pos ⟨by omega, rfl⟩]

def setTargetFrame : Sv2Frame where
  extensionType := 0x8000
  msgType := 0x21
  payload := List.replicate 36 0xff
  payload_le := by decide
  payload_lt := by decide

theorem frames_arrive_in_order_after_cancel :
    let events : List LinkEvent := [.read, .write setTargetFrame, .arrive 1, .cancel,
      .write setTargetFrame, .read, .arrive 70]
    let s := (Link.start 0 0).after countingNoise events
    countingNoise.Paired Eq ∧ s.failed = none ∧ s.received <+: writtenIn events :=
  have h := frames_arrive_in_order countingNoise_paired rfl
    [.read, .write setTargetFrame, .arrive 1, .cancel, .write setTargetFrame, .read,
      .arrive 70]
  ⟨countingNoise_paired, h.1, h.2.1⟩

end ReserveGrid.Gateway
