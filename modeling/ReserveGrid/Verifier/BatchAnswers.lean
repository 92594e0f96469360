import Mathlib.Data.List.Induction
import ReserveGrid.Verifier.BitcoindRpc

/-!
# Batch replies are matched by id

A batch of replies comes in any order, with ids that are missing, repeated or
of no request. What is returned for a request depends only on the replies that
carry its id: there is an answer exactly when there is one such reply.
-/

namespace ReserveGrid.Verifier

open Support

variable {R : Type}

/-- The replies that carry the id of request `i`. -/
def carriers (responses : List (BatchResponse R)) (i : ℕ) : List (BatchResponse R) :=
  responses.filter fun resp => resp.id.map UInt32.toNat = some i

/-- What the replies say about request `i`. -/
def answerFor (responses : List (BatchResponse R)) (i : ℕ) : BatchItem R :=
  match carriers responses i with
  | [resp] => resp.item
  | _ => .noResponse

/-- A reply that holds an error or a result. -/
def BatchResponse.Answers (resp : BatchResponse R) : Prop :=
  resp.error.isSome ∨ resp.result.isSome

section

variable {responses responses' : List (BatchResponse R)} {resp : BatchResponse R}
  {acc : BatchSlots R} {requestCount i : ℕ}

theorem item_eq_noResponse_iff : resp.item = .noResponse ↔ ¬ resp.Answers := by
  unfold BatchResponse.item BatchResponse.Answers
  cases resp.error with
  | some e => simp
  | none =>
      cases resp.result with
      | some r => simp
      | none => simp

theorem carriers_append_of_id (h : resp.id.map UInt32.toNat = some i) :
    carriers (responses ++ [resp]) i = carriers responses i ++ [resp] := by
  rw [carriers, List.filter_append, List.filter_cons_of_pos (by simpa only [decide_eq_true_eq])]
  rfl

theorem carriers_append_of_ne (h : resp.id.map UInt32.toNat ≠ some i) :
    carriers (responses ++ [resp]) i = carriers responses i := by
  rw [carriers, List.filter_append, List.filter_cons_of_neg (by simpa only [decide_eq_true_eq])]
  exact List.append_nil _

theorem carriers_perm (h : responses.Perm responses') (i : ℕ) :
    (carriers responses i).Perm (carriers responses' i) :=
  h.filter _

/-! ## The slots -/

/-- The slots after some replies: each holds the first reply with its id, and is
marked when there was a second. -/
structure BatchSlots.Matched (responses : List (BatchResponse R)) (requestCount : ℕ)
    (acc : BatchSlots R) : Prop where
  slots_length : acc.slots.length = requestCount
  duplicated_length : acc.duplicated.length = requestCount
  slot : ∀ i < requestCount,
    acc.slots[i]? = some ((carriers responses i).head?.map BatchResponse.item)
  duplicated : ∀ i < requestCount,
    acc.duplicated[i]? = some (decide (2 ≤ (carriers responses i).length))

theorem matched_empty (requestCount : ℕ) :
    BatchSlots.Matched ([] : List (BatchResponse R)) requestCount
      ⟨List.replicate requestCount none, List.replicate requestCount false⟩ where
  slots_length := List.length_replicate
  duplicated_length := List.length_replicate
  slot := fun i hi => by simp [carriers, hi]
  duplicated := fun i hi => by simp [carriers, hi]

/-- A reply with the id of no request changes nothing. -/
theorem BatchSlots.Matched.append_of_foreign (h : acc.Matched responses requestCount)
    (hforeign : ∀ i < requestCount, resp.id.map UInt32.toNat ≠ some i) :
    acc.Matched (responses ++ [resp]) requestCount where
  slots_length := h.slots_length
  duplicated_length := h.duplicated_length
  slot := fun i hi => by
    rw [carriers_append_of_ne (hforeign i hi)]
    exact h.slot i hi
  duplicated := fun i hi => by
    rw [carriers_append_of_ne (hforeign i hi)]
    exact h.duplicated i hi

/-- The first reply with the id of a request fills its slot. -/
theorem BatchSlots.Matched.append_of_first (h : acc.Matched responses requestCount)
    (hid : resp.id.map UInt32.toNat = some i) (hi : i < requestCount)
    (hfirst : carriers responses i = []) :
    BatchSlots.Matched (responses ++ [resp]) requestCount
      { acc with slots := acc.slots.set i (some resp.item) } where
  slots_length := by
    rw [List.length_set]
    exact h.slots_length
  duplicated_length := h.duplicated_length
  slot := fun j hj => by
    by_cases hij : i = j
    · subst hij
      rw [carriers_append_of_id hid, hfirst,
        List.getElem?_set_self (by rw [h.slots_length]; exact hi)]
      rfl
    · rw [carriers_append_of_ne (by simp [hid, hij]), List.getElem?_set_ne hij]
      exact h.slot j hj
  duplicated := fun j hj => by
    by_cases hij : i = j
    · subst hij
      rw [carriers_append_of_id hid, h.duplicated i hj, hfirst]
      rfl
    · rw [carriers_append_of_ne (by simp [hid, hij])]
      exact h.duplicated j hj

/-- A further reply with the id of a request marks its slot. -/
theorem BatchSlots.Matched.append_of_more (h : acc.Matched responses requestCount)
    (hid : resp.id.map UInt32.toNat = some i) (hi : i < requestCount)
    (hmore : carriers responses i ≠ []) :
    BatchSlots.Matched (responses ++ [resp]) requestCount
      { acc with duplicated := acc.duplicated.set i true } where
  slots_length := h.slots_length
  duplicated_length := by
    rw [List.length_set]
    exact h.duplicated_length
  slot := fun j hj => by
    by_cases hij : i = j
    · subst hij
      rw [carriers_append_of_id hid, h.slot i hj, List.head?_append_of_ne_nil _ hmore]
    · rw [carriers_append_of_ne (by simp [hid, hij])]
      exact h.slot j hj
  duplicated := fun j hj => by
    by_cases hij : i = j
    · subst hij
      have hlength : 2 ≤ (carriers responses i ++ [resp]).length := by
        have hpos := List.length_pos_iff.mpr hmore
        rw [List.length_append, List.length_singleton]
        omega
      rw [carriers_append_of_id hid,
        List.getElem?_set_self (by rw [h.duplicated_length]; exact hi),
        decide_eq_true hlength]
    · rw [carriers_append_of_ne (by simp [hid, hij]), List.getElem?_set_ne hij]
      exact h.duplicated j hj

/-- One turn of the loop over the replies. -/
theorem BatchSlots.Matched.take (h : acc.Matched responses requestCount)
    (resp : BatchResponse R) :
    (acc.take requestCount resp).Matched (responses ++ [resp]) requestCount := by
  unfold BatchSlots.take
  cases hid : resp.id with
  | none => exact h.append_of_foreign (by simp [hid])
  | some id =>
      dsimp only
      by_cases hforeign : requestCount ≤ id.toNat
      · rw [if_pos hforeign]
        apply h.append_of_foreign
        intro i hi heq
        simp only [hid, Option.map_some, Option.some.injEq] at heq
        omega
      · have hlt : id.toNat < requestCount := Nat.lt_of_not_le hforeign
        have hcarries : resp.id.map UInt32.toNat = some id.toNat := by simp [hid]
        rw [if_neg hforeign, h.slot id.toNat hlt]
        cases hfound : carriers responses id.toNat with
        | nil => exact h.append_of_first hcarries hlt hfound
        | cons first more => exact h.append_of_more hcarries hlt (by simp [hfound])

theorem matched_foldl (responses : List (BatchResponse R)) (requestCount : ℕ) :
    (responses.foldl (BatchSlots.take requestCount)
      ⟨List.replicate requestCount none, List.replicate requestCount false⟩).Matched
      responses requestCount := by
  induction responses using List.reverseRecOn with
  | nil => exact matched_empty requestCount
  | append_singleton responses resp ih =>
      rw [List.foldl_append]
      exact ih.take resp

/-- What is returned for a request is what its replies say. -/
theorem resolveBatch_getElem? (responses : List (BatchResponse R))
    (hi : i < requestCount) :
    (resolveBatch responses requestCount)[i]? = some (answerFor responses i) := by
  have hmatched := matched_foldl responses requestCount
  rw [resolveBatch, List.getElem?_zipWith, hmatched.slot i hi, hmatched.duplicated i hi]
  unfold answerFor BatchSlots.item
  cases carriers responses i with
  | nil => simp
  | cons first more =>
      cases more with
      | nil => simp
      | cons second more => simp

theorem answerFor_eq_item_iff {item : BatchItem R} (hitem : item ≠ .noResponse) :
    answerFor responses i = item ↔
      ∃ resp, carriers responses i = [resp] ∧ resp.item = item := by
  unfold answerFor
  cases carriers responses i with
  | nil => simpa using hitem.symm
  | cons first more =>
      cases more with
      | nil => simp
      | cons second more => simpa using hitem.symm

theorem answerFor_ne_noResponse_iff :
    answerFor responses i ≠ .noResponse ↔
      ∃ resp, carriers responses i = [resp] ∧ resp.Answers := by
  constructor
  · intro hne
    obtain ⟨resp, hcarriers, hitem⟩ := (answerFor_eq_item_iff hne).mp rfl
    refine ⟨resp, hcarriers, ?_⟩
    by_contra hempty
    rw [← hitem] at hne
    exact hne (item_eq_noResponse_iff.mpr hempty)
  · rintro ⟨resp, hcarriers, hanswers⟩ hnone
    rw [answerFor, hcarriers] at hnone
    exact item_eq_noResponse_iff.mp hnone hanswers

/-- Order does not matter. -/
theorem answerFor_perm (h : responses.Perm responses') (i : ℕ) :
    answerFor responses i = answerFor responses' i := by
  have hperm := carriers_perm h i
  unfold answerFor
  cases hcarriers : carriers responses i with
  | nil =>
      rw [hcarriers] at hperm
      rw [hperm.nil_eq]
  | cons first more =>
      rw [hcarriers] at hperm
      cases more with
      | nil => rw [← List.singleton_perm.mp hperm]
      | cons second more =>
          have hlength := hperm.length_eq
          cases hcarriers' : carriers responses' i with
          | nil => simp [hcarriers'] at hlength
          | cons first' more' =>
              cases more' with
              | nil => simp [hcarriers'] at hlength
              | cons second' more' => rfl

/-! ## Probes -/

theorem probeFromItem_eq_absent_iff {item : BatchItem R} :
    probeFromItem item = .absent ↔
      ∃ message, item = .failed mempoolMissingEntryCode message := by
  cases item with
  | ok r => simp [probeFromItem]
  | failed code message =>
      by_cases h : code = mempoolMissingEntryCode
      · simp [probeFromItem, h]
      · simp [probeFromItem, h]
  | noResponse => simp [probeFromItem]

theorem probeFromItem_eq_present_iff {item : BatchItem R} :
    probeFromItem item = .present ↔ ∃ r, item = .ok r := by
  cases item with
  | ok r => simp [probeFromItem]
  | failed code message =>
      by_cases h : code = mempoolMissingEntryCode
      · simp [probeFromItem, h]
      · simp [probeFromItem, h]
  | noResponse => simp [probeFromItem]

theorem item_eq_failed_iff {code : ℤ} :
    (∃ message, resp.item = .failed code message) ↔
      ∃ e, resp.error = some e ∧ e.code = code := by
  unfold BatchResponse.item
  cases resp.error with
  | some e => simp
  | none =>
      cases resp.result with
      | some r => simp
      | none => simp

theorem item_eq_ok_iff {r : R} :
    resp.item = .ok r ↔ resp.error = none ∧ resp.result = some r := by
  unfold BatchResponse.item
  cases resp.error with
  | some e => simp
  | none =>
      cases resp.result with
      | some r => simp
      | none => simp

theorem probe_answerFor_eq_absent_iff :
    probeFromItem (answerFor responses i) = .absent ↔
      ∃ resp e, carriers responses i = [resp] ∧ resp.error = some e ∧ e.code = -5 := by
  rw [probeFromItem_eq_absent_iff]
  constructor
  · rintro ⟨message, hfailed⟩
    obtain ⟨resp, hcarriers, hitem⟩ := (answerFor_eq_item_iff (by simp)).mp hfailed
    obtain ⟨e, herror, hcode⟩ := item_eq_failed_iff.mp ⟨message, hitem⟩
    exact ⟨resp, e, hcarriers, herror, hcode⟩
  · rintro ⟨resp, e, hcarriers, herror, hcode⟩
    obtain ⟨message, hitem⟩ := item_eq_failed_iff.mpr ⟨e, herror, hcode⟩
    exact ⟨message, (answerFor_eq_item_iff (by simp)).mpr ⟨resp, hcarriers, hitem⟩⟩

theorem probe_answerFor_eq_present_iff :
    probeFromItem (answerFor responses i) = .present ↔
      ∃ resp r, carriers responses i = [resp] ∧ resp.error = none ∧
        resp.result = some r := by
  rw [probeFromItem_eq_present_iff]
  constructor
  · rintro ⟨r, hok⟩
    obtain ⟨resp, hcarriers, hitem⟩ := (answerFor_eq_item_iff (by simp)).mp hok
    obtain ⟨herror, hresult⟩ := item_eq_ok_iff.mp hitem
    exact ⟨resp, r, hcarriers, herror, hresult⟩
  · rintro ⟨resp, r, hcarriers, herror, hresult⟩
    have hitem : resp.item = .ok r := item_eq_ok_iff.mpr ⟨herror, hresult⟩
    exact ⟨r, (answerFor_eq_item_iff (by simp)).mpr ⟨resp, hcarriers, hitem⟩⟩

end

/-- There is one result for each request. It is an answer exactly when one reply
alone carries the id of the request and holds an error or a result, and then it
is that reply's. A probe is absent exactly when that reply is the error of a
missing entry, and present exactly when it is a result without an error. The
order of the replies does not matter. -/
theorem resolveBatch_by_id (responses : List (BatchResponse R)) (requestCount : ℕ) :
    (resolveBatch responses requestCount).length = requestCount ∧
    (∀ i item, (resolveBatch responses requestCount)[i]? = some item →
      (item ≠ .noResponse ↔
        ∃ resp, carriers responses i = [resp] ∧ resp.Answers) ∧
      (∀ resp, carriers responses i = [resp] → item = resp.item) ∧
      (probeFromItem item = .absent ↔ ∃ resp e, carriers responses i = [resp] ∧
        resp.error = some e ∧ e.code = -5) ∧
      (probeFromItem item = .present ↔ ∃ resp r, carriers responses i = [resp] ∧
        resp.error = none ∧ resp.result = some r)) ∧
    ∀ responses', responses.Perm responses' →
      resolveBatch responses requestCount = resolveBatch responses' requestCount := by
  refine ⟨length_resolveBatch, ?_, ?_⟩
  · intro i item hget
    have hi : i < requestCount := by
      have hlt := (List.getElem?_eq_some_iff.mp hget).1
      rwa [length_resolveBatch] at hlt
    rw [resolveBatch_getElem? responses hi, Option.some.injEq] at hget
    subst hget
    refine ⟨answerFor_ne_noResponse_iff, ?_, probe_answerFor_eq_absent_iff,
      probe_answerFor_eq_present_iff⟩
    intro resp hcarriers
    rw [answerFor, hcarriers]
  · intro responses' hperm
    apply List.ext_getElem?
    intro i
    by_cases hi : i < requestCount
    · rw [resolveBatch_getElem? responses hi, resolveBatch_getElem? responses' hi,
        answerFor_perm hperm i]
    · rw [List.getElem?_eq_none (by rw [length_resolveBatch]; omega),
        List.getElem?_eq_none (by rw [length_resolveBatch]; omega)]

/-- A reply with a foreign id, one without an id and a repeated one: of three
requests the second alone has an answer. -/
def repliesOutOfOrder : List (BatchResponse Unit) :=
  [⟨some 9, some (), none⟩, ⟨some 2, some (), none⟩,
    ⟨some 1, none, some ⟨-5, "missing"⟩⟩, ⟨some 2, some (), none⟩, ⟨none, some (), none⟩]

theorem resolveBatch_by_id_three :
    (resolveBatch repliesOutOfOrder 3)[1]? = some (.failed (-5) "missing") ∧
      probeFromItem (.failed (-5) "missing" : BatchItem Unit) = .absent := by
  have hsecond : (resolveBatch repliesOutOfOrder 3)[1]? =
      some (.failed (-5) "missing") := rfl
  have hcarriers : carriers repliesOutOfOrder 1 =
      [⟨some 1, none, some ⟨-5, "missing"⟩⟩] := rfl
  have hmatched := (resolveBatch_by_id repliesOutOfOrder 3).2.1 1 _ hsecond
  exact ⟨hsecond, hmatched.2.2.1.mpr ⟨_, ⟨-5, "missing"⟩, hcarriers, rfl, rfl⟩⟩

end ReserveGrid.Verifier
