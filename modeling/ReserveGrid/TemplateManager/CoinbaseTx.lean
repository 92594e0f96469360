import ReserveGrid.TemplateManager.Coinbase

/-!
# The coinbase transaction

The transaction that the coinbase halves spell around an extranonce, and the
height at the front of its script: what the template manager pushes, the
verifier reads back.
-/

namespace ReserveGrid.TemplateManager

open Support Bitcoin Consensus

/-! ## The halves as a transaction -/

/-- The coinbase with the given script, paying the value to the payout script
and, when there is one, carrying the commitment. -/
def coinbaseTx (script : Bytes) (value : UInt64) (payout : Bytes)
    (commitment : Option Bytes) : Transaction where
  version := 2
  input := [⟨OutPoint.null, script, 0xffffffff, []⟩]
  output := ⟨value, payout⟩ :: (commitment.map fun wc => ⟨0, wc⟩).toList
  lockTime := 0

theorem compactSizeEncode_of_lt {n : ℕ} (h : n < 253) :
    compactSizeEncode n = [UInt8.ofNat n] :=
  if_pos h

theorem txOut_encode {value : UInt64} {script : Bytes}
    (h : script.length < 253) :
    txOut.encode ⟨value, script⟩ = coinbaseOutput value.toNat script := by
  change leBytes 8 value.toNat ++ (compactSizeEncode script.length ++ script) = _
  rw [compactSizeEncode_of_lt h]
  rfl

theorem outputs_encode_coinbaseTx {script payout : Bytes} {value : UInt64}
    {commitment : Option Bytes} (hpayout : payout.length < 253)
    (hcommitment : ∀ wc ∈ commitment, wc.length < 253) :
    outputs.encode (coinbaseTx script value payout commitment).output =
      [if commitment.isSome then 0x02 else 0x01] ++
        (coinbaseOutput value.toNat payout ++
          (commitment.map (coinbaseOutput 0)).getD []) := by
  cases commitment with
  | none =>
      change [0x01] ++ (txOut.encode ⟨value, payout⟩ ++ []) = _
      rw [txOut_encode hpayout]
      rfl
  | some wc =>
      change [0x02] ++ (txOut.encode ⟨value, payout⟩ ++
        (txOut.encode ⟨0, wc⟩ ++ [])) = _
      rw [txOut_encode hpayout, txOut_encode (hcommitment wc rfl), List.append_nil]
      rfl

/-- The halves around an extranonce are the transaction's legacy
serialisation. -/
theorem legacyEncode_coinbaseTx {push aux e payout : Bytes} {value : UInt64}
    {commitment : Option Bytes} (hscript : (push ++ aux ++ e).length < 253)
    (hpayout : payout.length < 253)
    (hcommitment : ∀ wc ∈ commitment, wc.length < 253) :
    (coinbaseTx (push ++ aux ++ e) value payout commitment).legacyEncode =
      coinbasePrefix (push ++ aux ++ e).length push aux ++ e ++
        coinbaseSuffix value payout commitment := by
  have hinputs : inputs.encode ((coinbaseTx (push ++ aux ++ e) value payout
      commitment).input.map TxIn.strip) = [0x01] ++ (List.replicate 32 0x00 ++
        (leBytes 4 0xffffffff ++ ([UInt8.ofNat (push ++ aux ++ e).length] ++
          ((push ++ aux ++ e) ++ leBytes 4 0xffffffff)))) := by
    change [0x01] ++ (((List.replicate 32 0x00 ++ leBytes 4 0xffffffff) ++
      ((compactSizeEncode (push ++ aux ++ e).length ++ (push ++ aux ++ e)) ++
        leBytes 4 0xffffffff)) ++ []) = _
    rw [compactSizeEncode_of_lt hscript]
    simp only [List.append_assoc, List.append_nil]
  rw [Transaction.legacyEncode, hinputs,
    outputs_encode_coinbaseTx hpayout hcommitment]
  change leBytes 4 2 ++ (_ ++ (_ ++ leBytes 4 0)) = _
  simp only [coinbasePrefix, coinbaseSuffix, List.append_assoc]

theorem encodable_coinbaseTx {script payout : Bytes} {value : UInt64}
    {commitment : Option Bytes} (hscript : script.length < 253)
    (hpayout : payout.length < 253)
    (hcommitment : ∀ wc ∈ commitment, wc.length < 253) :
    (coinbaseTx script value payout commitment).Encodable where
  inputs := by
    refine ⟨(by decide : 1 < 2 ^ 64), ?_⟩
    intro i hi
    rw [List.mem_map] at hi
    obtain ⟨i, hi, rfl⟩ := hi
    cases List.mem_singleton.mp hi
    exact ⟨rfl, lt_trans hscript (by decide)⟩
  outputs := by
    cases commitment with
    | none =>
        refine ⟨(by decide : 1 < 2 ^ 64), ?_⟩
        intro o ho
        cases List.mem_singleton.mp ho
        exact lt_trans hpayout (by decide)
    | some wc =>
        refine ⟨(by decide : 2 < 2 ^ 64), ?_⟩
        intro o ho
        rcases List.mem_cons.mp ho with rfl | ho
        · exact lt_trans hpayout (by decide)
        · cases List.mem_singleton.mp ho
          exact lt_trans (hcommitment wc rfl) (by decide)
  witnesses := by
    intro i hi
    cases List.mem_singleton.mp hi
    exact ⟨(by decide : 0 < 2 ^ 64), by simp⟩

/-- The halves around an extranonce parse, with no byte left over, as the
coinbase whose script is the push, the auxiliary bytes and the extranonce. -/
theorem decodeAll_coinbaseTx {push aux e payout : Bytes} {value : UInt64}
    {commitment : Option Bytes} (hscript : (push ++ aux ++ e).length < 253)
    (hpayout : payout.length < 253)
    (hcommitment : ∀ wc ∈ commitment, wc.length < 253) :
    transaction.decodeAll (coinbasePrefix (push ++ aux ++ e).length push aux ++
        e ++ coinbaseSuffix value payout commitment) =
      some (coinbaseTx (push ++ aux ++ e) value payout commitment) := by
  rw [transaction.decodeAll_eq_some]
  refine ⟨encodable_coinbaseTx hscript hpayout hcommitment, ?_⟩
  rw [← legacyEncode_coinbaseTx hscript hpayout hcommitment]
  rfl

theorem buildCoinbaseHalves_eq_ok {height : UInt32} {value : UInt64}
    {script aux : Bytes} {extranonceSize : ℕ} {commitment : Option Bytes}
    {halves : Bytes × Bytes}
    (h : buildCoinbaseHalves height value script extranonceSize aux commitment =
      .ok halves) :
    (bip34HeightPush height).length + aux.length + extranonceSize ≤ 100 ∧
      script.length < 253 ∧ (∀ wc ∈ commitment, wc.length < 253) ∧
      halves = (coinbasePrefix
        ((bip34HeightPush height).length + aux.length + extranonceSize)
        (bip34HeightPush height) aux,
        coinbaseSuffix value script commitment) := by
  unfold buildCoinbaseHalves at h
  dsimp only at h
  split at h
  · simp at h
  · rename_i hlen
    split at h
    · simp at h
    · split at h
      · simp at h
      · rename_i hscript
        split at h
        · simp at h
        · rename_i hcommitment
          cases h
          refine ⟨not_not.mp hlen, not_not.mp hscript, ?_, rfl⟩
          intro wc hwc
          cases hwc
          simpa using hcommitment

/-! ## The height push -/

theorem leNat_minimalLe {width n : ℕ} (h : n < 256 ^ width) :
    leNat (minimalLe width n) = n := by
  induction width generalizing n with
  | zero =>
      rw [Nat.pow_zero] at h
      simp only [minimalLe, leNat]
      omega
  | succ width ih =>
      unfold minimalLe
      split
      · rename_i hzero
        simp [leNat, hzero]
      · have hdiv : n / 256 < 256 ^ width := by
          rw [Nat.pow_succ'] at h
          exact Nat.div_lt_of_lt_mul h
        have hbyte : (UInt8.ofNat n).toNat = n % 256 := UInt8.toNat_ofNat'
        rw [leNat, ih hdiv, hbyte]
        omega

theorem length_minimalLe_le (width n : ℕ) :
    (minimalLe width n).length ≤ width := by
  induction width generalizing n with
  | zero => simp [minimalLe]
  | succ width ih =>
      unfold minimalLe
      split
      · simp
      · have := ih (n / 256)
        rw [List.length_cons]
        omega

/-- A positive number ends in a byte that is not zero. -/
theorem minimalLe_eq_append {width n : ℕ} (hpos : 0 < n)
    (h : n < 256 ^ width) :
    ∃ init last, minimalLe width n = init ++ [last] ∧ last ≠ 0 := by
  induction width generalizing n with
  | zero => simp at h; omega
  | succ width ih =>
      have hbyte : (UInt8.ofNat n).toNat = n % 256 := UInt8.toNat_ofNat'
      rw [minimalLe, if_neg (by omega)]
      by_cases hdiv : n / 256 = 0
      · refine ⟨[], UInt8.ofNat n, ?_, ?_⟩
        · rw [hdiv]
          cases width <;> simp [minimalLe]
        · intro hzero
          rw [hzero] at hbyte
          have : n % 256 = 0 := hbyte.symm
          omega
      · have hlt : n / 256 < 256 ^ width := by
          rw [Nat.pow_succ'] at h
          exact Nat.div_lt_of_lt_mul h
        obtain ⟨init, last, heq, hlast⟩ := ih (by omega) hlt
        exact ⟨UInt8.ofNat n :: init, last, by rw [heq]; rfl, hlast⟩

theorem and_7f_of_and_80 : ∀ b : UInt8, b &&& 0x80 = 0 → b &&& 0x7f = b :=
  forall_byte (by decide +kernel)

theorem le_toNat_of_and_80 : ∀ b : UInt8, b &&& 0x80 ≠ 0 → 128 ≤ b.toNat :=
  forall_byte (by decide +kernel)

theorem heightValue_append {init : Bytes} {last : UInt8}
    (h : last &&& 0x80 = 0) :
    heightValue (init ++ [last]) = leNat (init ++ [last]) := by
  rw [heightValue, List.dropLast_concat, List.getLastD_concat,
    and_7f_of_and_80 last h]

/-- Reading a push of at most four bytes that ends without a sign bit and is
minimal. -/
theorem decodeBip34Height_append (init : Bytes) (last : UInt8) (rest : Bytes)
    (hlength : init.length < 4) (hsign : last &&& 0x80 = 0)
    (hminimal : init ≠ [] → last = 0 → init.getLastD 0 &&& 0x80 ≠ 0)
    (hvalue : leNat (init ++ [last]) < 2 ^ 32) :
    decodeBip34Height
        (UInt8.ofNat (init ++ [last]).length :: (init ++ [last] ++ rest)) =
      some (UInt32.ofNat (leNat (init ++ [last]))) := by
  have hlen : (UInt8.ofNat (init ++ [last]).length).toNat = init.length + 1 := by
    rw [UInt8.toNat_ofNat', List.length_append, List.length_singleton]
    omega
  have hrange : 0x01 ≤ UInt8.ofNat (init ++ [last]).length ∧
      UInt8.ofNat (init ++ [last]).length ≤ 0x04 := by
    rw [UInt8.le_iff_toNat_le, UInt8.le_iff_toNat_le, hlen]
    exact ⟨Nat.succ_le_succ (Nat.zero_le _), hlength⟩
  have hpayload : (init ++ [last] ++ rest).take (init.length + 1) =
      init ++ [last] := by
    rw [List.take_left' (by simp)]
  have hprevious : ¬ (1 < init.length + 1 ∧ last = 0 ∧
      (init ++ [last]).getD (init.length + 1 - 2) 0 &&& 0x80 = 0) := by
    rintro ⟨hone, hzero, hclear⟩
    have hne : init ≠ [] := by
      rintro rfl
      simp at hone
    refine hminimal hne hzero ?_
    rcases List.eq_nil_or_concat init with hnil | ⟨init', b, hinit⟩
    · exact absurd hnil hne
    · subst hinit
      simpa [List.getD_eq_getElem?_getD] using hclear
  rw [decodeBip34Height, if_neg (not_not.mpr hrange), hlen]
  dsimp only
  rw [if_neg (by simp), hpayload, List.getLastD_concat, if_neg (by simp [hsign]),
    if_neg hprevious, heightValue_append hsign, if_pos hvalue]

/-- The verifier reads back the height that the template manager pushed. -/
theorem decodeBip34Height_push {height : UInt32} (h : height.toNat < 2 ^ 31)
    (rest : Bytes) :
    decodeBip34Height (bip34HeightPush height ++ rest) = some height := by
  unfold bip34HeightPush
  split
  · rename_i hzero
    subst hzero
    exact decodeBip34Height_append [] 0 rest (by decide) (by decide) (by simp)
      (by decide)
  · rename_i hne
    have hpos : 0 < height.toNat := by
      rw [Nat.pos_iff_ne_zero]
      intro hzero
      exact hne (UInt32.toNat_inj.mp hzero)
    have hlt : height.toNat < 256 ^ 4 := lt_trans h (by decide)
    obtain ⟨init, last, heq, hlast⟩ := minimalLe_eq_append hpos hlt
    have hvalue : leNat (init ++ [last]) = height.toNat := by
      rw [← heq, leNat_minimalLe hlt]
    have hlength : init.length < 4 := by
      have := length_minimalLe_le 4 height.toNat
      rw [heq, List.length_append, List.length_singleton] at this
      omega
    dsimp only
    rw [heq, List.getLastD_concat]
    split
    · rename_i hsign
      -- A byte with the sign bit set, so that the number has three at most.
      have hthree : init.length < 3 := by
        by_contra hge
        have hinit : init.length = 3 := by omega
        have hbig := le_toNat_of_and_80 last hsign
        rw [leNat_append, hinit] at hvalue
        simp only [leNat] at hvalue
        omega
      have hextended : leNat (init ++ [last] ++ [0]) = height.toNat := by
        rw [leNat_append, hvalue]
        simp [leNat]
      have hread := decodeBip34Height_append (init ++ [last]) 0 rest
        (by rw [List.length_append, List.length_singleton]; omega) (by decide)
        (by simpa using hsign) (by omega)
      rw [hextended, UInt32.ofNat_toNat] at hread
      exact hread
    · rename_i hsign
      rw [not_not] at hsign
      have hread := decodeBip34Height_append init last rest hlength hsign
        (fun _ hzero => absurd hzero hlast) (by omega)
      rw [hvalue, UInt32.ofNat_toNat] at hread
      exact hread

/-- Bytes that do not end in zero are the minimal bytes of their number. -/
theorem minimalLe_leNat {width : ℕ} {init : Bytes} {last : UInt8}
    (hlast : last ≠ 0) (hlength : init.length < width) :
    minimalLe width (leNat (init ++ [last])) = init ++ [last] := by
  have hpositive : ∀ init : Bytes, leNat (init ++ [last]) ≠ 0 := by
    intro init
    have hbyte : last.toNat ≠ 0 := fun h => hlast (UInt8.toNat_inj.mp h)
    have hpow : 0 < 256 ^ init.length := Nat.pow_pos (by decide)
    have hvalue : leNat [last] = last.toNat := by simp [leNat]
    rw [leNat_append, hvalue]
    have := Nat.mul_pos hpow (Nat.pos_of_ne_zero hbyte)
    omega
  induction init generalizing width with
  | nil =>
      obtain ⟨width, rfl⟩ : ∃ w, width = w + 1 := ⟨width - 1, by simp at hlength; omega⟩
      have hbyte : last.toNat < 256 := last.toNat_lt
      have hvalue : leNat [last] = last.toNat := by simp [leNat]
      have hne : leNat [last] ≠ 0 := hpositive []
      rw [List.nil_append, minimalLe, if_neg hne, hvalue,
        Nat.div_eq_of_lt hbyte, UInt8.ofNat_toNat]
      cases width <;> simp [minimalLe]
  | cons b init ih =>
      obtain ⟨width, rfl⟩ : ∃ w, width = w + 1 := ⟨width - 1, by simp at hlength; omega⟩
      have hbyte : b.toNat < 256 := b.toNat_lt
      have hvalue : leNat (b :: init ++ [last]) =
          b.toNat + 256 * leNat (init ++ [last]) := rfl
      have hlow : UInt8.ofNat (b.toNat + 256 * leNat (init ++ [last])) = b := by
        rw [← UInt8.toNat_inj, UInt8.toNat_ofNat']
        omega
      have hhigh : (b.toNat + 256 * leNat (init ++ [last])) / 256 =
          leNat (init ++ [last]) := by omega
      rw [minimalLe, if_neg (hpositive _), hvalue, hlow, hhigh,
        ih (by simpa using hlength)]
      rfl

/-- The checks of the decoder, all passed. -/
theorem decodeBip34Height_cons {lenByte : UInt8} {rest : Bytes} {height : UInt32}
    (h : decodeBip34Height (lenByte :: rest) = some height) :
    (1 ≤ lenByte.toNat ∧ lenByte.toNat ≤ 4) ∧ lenByte.toNat ≤ rest.length ∧
      (rest.take lenByte.toNat).getLastD 0 &&& 0x80 = 0 ∧
      ¬ (1 < lenByte.toNat ∧ (rest.take lenByte.toNat).getLastD 0 = 0 ∧
        (rest.take lenByte.toNat).getD (lenByte.toNat - 2) 0 &&& 0x80 = 0) ∧
      heightValue (rest.take lenByte.toNat) < 2 ^ 32 ∧
      height = UInt32.ofNat (heightValue (rest.take lenByte.toNat)) := by
  rw [decodeBip34Height] at h
  split at h
  · cases h
  rename_i hrange
  dsimp only at h
  split at h
  · cases h
  rename_i hlong
  split at h
  · cases h
  rename_i hsign
  split at h
  · cases h
  rename_i hminimal
  split at h
  · rename_i hvalue
    rw [not_not, UInt8.le_iff_toNat_le, UInt8.le_iff_toNat_le] at hrange
    exact ⟨hrange, Nat.not_lt.mp hlong, not_not.mp hsign, hminimal, hvalue,
      (Option.some.inj h).symm⟩
  · cases h

/-- What the decoder accepts: a length byte from one to four, and as many
bytes, of which the last has no sign bit and is not redundant. -/
theorem decodeBip34Height_eq_some {script : Bytes} {height : UInt32}
    (h : decodeBip34Height script = some height) :
    ∃ init last rest,
      script = UInt8.ofNat (init ++ [last]).length :: (init ++ [last] ++ rest) ∧
        init.length < 4 ∧ last &&& 0x80 = 0 ∧
        (init ≠ [] → last = 0 → init.getLastD 0 &&& 0x80 ≠ 0) ∧
        leNat (init ++ [last]) < 2 ^ 32 ∧
        height = UInt32.ofNat (leNat (init ++ [last])) := by
  cases script with
  | nil => cases h
  | cons lenByte rest =>
      obtain ⟨hrange, hlong, hsign, hminimal, hvalue, hheight⟩ :=
        decodeBip34Height_cons h
      have hpayload : (rest.take lenByte.toNat).length = lenByte.toNat := by
        rw [List.length_take]
        omega
      have hne : rest.take lenByte.toNat ≠ [] := by
        rw [← List.length_pos_iff, hpayload]
        exact hrange.1
      obtain ⟨init, last, heq⟩ := List.eq_nil_or_concat'
        (rest.take lenByte.toNat) |>.resolve_left hne
      have hlen : lenByte.toNat = init.length + 1 := by
        rw [← hpayload, heq, List.length_append, List.length_singleton]
      rw [heq, List.getLastD_concat] at hsign hminimal
      rw [heq, heightValue_append hsign] at hvalue hheight
      refine ⟨init, last, rest.drop lenByte.toNat, ?_, by omega, hsign, ?_,
        hvalue, hheight⟩
      · rw [← heq, hpayload, UInt8.ofNat_toNat, List.take_append_drop]
      · intro hinit hzero hclear
        have hpos := List.length_pos_of_ne_nil hinit
        refine hminimal ⟨by omega, hzero, ?_⟩
        rcases List.eq_nil_or_concat' init with hnil | ⟨init', b, rfl⟩
        · exact absurd hnil hinit
        · rw [hlen]
          simpa [List.getD_eq_getElem?_getD] using hclear

/-- The push of a number whose minimal bytes are known. -/
theorem bip34HeightPush_eq {height : UInt32} {init : Bytes} {last : UInt8}
    (hlast : last ≠ 0) (hlength : init.length < 4)
    (hvalue : height.toNat = leNat (init ++ [last])) :
    bip34HeightPush height =
      if last &&& 0x80 ≠ 0 then
        UInt8.ofNat (init ++ [last] ++ [0x00]).length :: (init ++ [last] ++ [0x00])
      else UInt8.ofNat (init ++ [last]).length :: (init ++ [last]) := by
  have hminimal := minimalLe_leNat hlast hlength
  have hne : height ≠ 0 := by
    rintro rfl
    have hzero : leNat (init ++ [last]) = 0 := hvalue.symm
    rw [hzero] at hminimal
    simp [minimalLe] at hminimal
  unfold bip34HeightPush
  rw [if_neg hne, hvalue, hminimal]
  dsimp only
  rw [List.getLastD_concat]
  split
  · rfl
  · rfl

/-- A script that is read as a height begins with the push of that height. -/
theorem eq_push_append_of_decode {script : Bytes} {height : UInt32}
    (h : decodeBip34Height script = some height) :
    ∃ rest, script = bip34HeightPush height ++ rest := by
  obtain ⟨init, last, rest, rfl, hlength, hsign, hminimal, hvalue, rfl⟩ :=
    decodeBip34Height_eq_some h
  have hheight : (UInt32.ofNat (leNat (init ++ [last]))).toNat =
      leNat (init ++ [last]) := by
    rw [UInt32.toNat_ofNat', Nat.mod_eq_of_lt hvalue]
  refine ⟨rest, ?_⟩
  by_cases hzero : last = 0
  · subst hzero
    rcases List.eq_nil_or_concat' init with rfl | ⟨init', b, rfl⟩
    · rfl
    · -- The zero byte only clears the sign bit that the byte before it has.
      have hne : init' ++ [b] ≠ [] := by simp
      have hb : b &&& 0x80 ≠ 0 := by simpa using hminimal hne rfl
      have hbne : b ≠ 0 := by
        rintro rfl
        exact hb rfl
      have hnat : leNat (init' ++ [b] ++ [0]) = leNat (init' ++ [b]) := by
        rw [leNat_append]
        simp [leNat]
      have hlength' : init'.length < 4 := by
        rw [List.length_append] at hlength
        omega
      rw [bip34HeightPush_eq hbne hlength' (hheight.trans hnat), if_pos hb]
      rfl
  · rw [bip34HeightPush_eq hzero hlength hheight, if_neg (not_not.mpr hsign)]
    rfl

/-- Push and decoder are inverse to each other: every height below `2 ^ 31` is
read back, whatever follows its push, and a script that is read as a height has
that height's push in front. -/
theorem heightPush_inverse :
    (∀ (height : UInt32) (rest : Bytes), height.toNat < 2 ^ 31 →
        decodeBip34Height (bip34HeightPush height ++ rest) = some height) ∧
      ∀ (script : Bytes) (height : UInt32),
        decodeBip34Height script = some height →
          ∃ rest, script = bip34HeightPush height ++ rest :=
  ⟨fun _ rest h => decodeBip34Height_push h rest,
    fun _ _ => eq_push_append_of_decode⟩

theorem heightPush_inverse_signByte :
    decodeBip34Height (bip34HeightPush 0x800000 ++ [0x2f]) = some 0x800000 ∧
      ∃ rest, [0x01, 0x00, 0x2f] = bip34HeightPush 0 ++ rest :=
  ⟨heightPush_inverse.1 0x800000 [0x2f] (by decide),
    heightPush_inverse.2 _ 0 (by decide)⟩

end ReserveGrid.TemplateManager
