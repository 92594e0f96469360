import ReserveGrid.Verifier.PolicyUpdates

/-!
# Policy uploads

An upload of a policy as TOML text either replaces the policy and its text and
answers with success, or leaves both alone and answers with an error. The
message of the TOML library quotes the text that was uploaded and is cut to 200
bytes; where the cut falls within a character there is no answer at all.
-/

namespace ReserveGrid.Verifier

open Support JsonText

/-- What an upload reads and writes. -/
structure UploadState where
  holder : PolicyHolder
  throttle : List ℕ

/-- The handler of an upload at an instant. -/
def applyPolicyToml (libs : PolicyLibs) (now : ℕ) (s : UploadState) (body : Bytes) :
    PolicyAnswer × UploadState :=
  let check := checkWriteThrottle now s.throttle
  let s := { s with throttle := check.2 }
  if !check.1 then (.tooManyRequests, s)
  else
    match uploaded libs body with
    | .error answer => (answer, s)
    | .ok next => (.ok, { s with holder := next })

/-- The upload is let through, and the TOML library refuses its text with this
message. -/
def RefusedWith (libs : PolicyLibs) (now : ℕ) (s : UploadState) (body : Bytes)
    (detail : String) : Prop :=
  (checkWriteThrottle now s.throttle).1 = true ∧
    ∃ text, fromUtf8 body = some text ∧ libs.fromStr text = .error detail

/-- A message that is cut at a character boundary, or not cut at all. -/
def CutsCleanly (detail : String) : Prop :=
  200 < detail.utf8ByteSize → isCharBoundary detail.toList 200 = true

section

variable {libs : PolicyLibs} {now : ℕ} {s : UploadState} {body : Bytes}

theorem parseFailure_panicked_iff (detail : String) :
    parseFailure detail = .panicked ↔ ¬ CutsCleanly detail := by
  unfold parseFailure CutsCleanly
  by_cases hlong : 200 < detail.utf8ByteSize
  · rw [if_pos hlong, ← isSome_takeBytes]
    cases htake : takeBytes detail.toList 200 with
    | none => simp [hlong]
    | some cut => simp
  · simp [hlong]

/-- What an upload comes to, once it was let through. -/
theorem uploaded_cases (libs : PolicyLibs) (body : Bytes) :
    (∃ text detail, fromUtf8 body = some text ∧ libs.fromStr text = .error detail ∧
      uploaded libs body = .error (parseFailure detail)) ∨
    ((∀ text detail, fromUtf8 body = some text → libs.fromStr text ≠ .error detail) ∧
      ∃ error, uploaded libs body = .error (.badRequest error)) ∨
    (∃ text cfg, fromUtf8 body = some text ∧ libs.fromStr text = .ok cfg ∧
      cfg.validate libs = .ok () ∧ uploaded libs body = .ok ⟨cfg, text⟩) := by
  unfold uploaded
  cases htext : fromUtf8 body with
  | none => exact .inr (.inl ⟨by simp, _, rfl⟩)
  | some text =>
      cases hparsed : libs.fromStr text with
      | error detail => exact .inl ⟨text, detail, rfl, hparsed, by simp [hparsed]⟩
      | ok cfg =>
          cases hvalid : cfg.validate libs with
          | error e =>
              refine .inr (.inl ⟨?_, "policy validation failed: " ++ e,
                by simp only [hparsed, hvalid]⟩)
              intro text' detail heq
              cases heq
              simp [hparsed]
          | ok checked =>
              exact .inr (.inr ⟨text, cfg, rfl, hparsed, hvalid,
                by simp only [hparsed, hvalid]⟩)

/-- A message that is refused is the only one. -/
theorem RefusedWith.unique {detail detail' : String}
    (h : RefusedWith libs now s body detail) (h' : RefusedWith libs now s body detail') :
    detail = detail' := by
  obtain ⟨-, text, htext, hparsed⟩ := h
  obtain ⟨-, text', htext', hparsed'⟩ := h'
  cases htext.symm.trans htext'
  exact Except.error.inj (hparsed.symm.trans hparsed')

/-- How the handler ends. -/
theorem applyPolicyToml_cases (libs : PolicyLibs) (now : ℕ) (s : UploadState)
    (body : Bytes) :
    (∃ detail, RefusedWith libs now s body detail ∧
      (applyPolicyToml libs now s body).1 = parseFailure detail ∧
      (applyPolicyToml libs now s body).2.holder = s.holder) ∨
    ((∀ detail, ¬ RefusedWith libs now s body detail) ∧
      (applyPolicyToml libs now s body).1 ≠ .panicked ∧
      (applyPolicyToml libs now s body).1 ≠ .ok ∧
      (applyPolicyToml libs now s body).2.holder = s.holder) ∨
    ((∀ detail, ¬ RefusedWith libs now s body detail) ∧
      (applyPolicyToml libs now s body).1 = .ok ∧
      ∃ text cfg, fromUtf8 body = some text ∧ libs.fromStr text = .ok cfg ∧
        cfg.validate libs = .ok () ∧
        (applyPolicyToml libs now s body).2.holder = ⟨cfg, text⟩) := by
  unfold applyPolicyToml
  dsimp only
  cases hcheck : (checkWriteThrottle now s.throttle).1 with
  | false =>
      refine .inr (.inl ⟨fun detail h => ?_, by simp, by simp, rfl⟩)
      have hlet := h.1
      rw [hcheck] at hlet
      cases hlet
  | true =>
      simp only [Bool.not_true, Bool.false_eq_true, if_false]
      rcases uploaded_cases libs body with ⟨text, detail, htext, hparsed, hupload⟩ |
        ⟨hother, error, hupload⟩ | ⟨text, cfg, htext, hparsed, hvalid, hupload⟩
      · rw [hupload]
        exact .inl ⟨detail, ⟨hcheck, text, htext, hparsed⟩, rfl, rfl⟩
      · rw [hupload]
        refine .inr (.inl ⟨?_, by simp, by simp, rfl⟩)
        rintro detail ⟨-, text, htext, hparsed⟩
        exact hother text detail htext hparsed
      · rw [hupload]
        refine .inr (.inr ⟨?_, rfl, text, cfg, htext, hparsed, hvalid, rfl⟩)
        rintro detail ⟨-, text', htext', hparsed'⟩
        cases htext.symm.trans htext'
        rw [hparsed] at hparsed'
        cases hparsed'

end

/-- An upload is answered, and the policy and its text are replaced exactly when
it succeeds. -/
def AnsweredWhole (libs : PolicyLibs) (now : ℕ) (s : UploadState) (body : Bytes) :
    Prop :=
  (applyPolicyToml libs now s body).1 ≠ .panicked ∧
  ((applyPolicyToml libs now s body).1 = .ok →
    ∃ text cfg, fromUtf8 body = some text ∧ libs.fromStr text = .ok cfg ∧
      (applyPolicyToml libs now s body).2.holder = ⟨cfg, text⟩) ∧
  ((applyPolicyToml libs now s body).1 ≠ .ok →
    (applyPolicyToml libs now s body).2.holder = s.holder)

/-- An upload is answered and applied as a whole exactly when the message that
refuses it, if there is one, is cut at a character boundary or not at all. -/
theorem answeredWhole_iff (libs : PolicyLibs) (now : ℕ) (s : UploadState)
    (body : Bytes) :
    AnsweredWhole libs now s body ↔
      ∀ detail, RefusedWith libs now s body detail → CutsCleanly detail := by
  unfold AnsweredWhole
  rcases applyPolicyToml_cases libs now s body with ⟨detail, hrefused, hanswer, hholder⟩ |
    ⟨hnone, hpanic, hok, hholder⟩ | ⟨hnone, hok, text, cfg, htext, hparsed, -, hholder⟩
  · rw [hanswer, hholder]
    constructor
    · rintro ⟨hanswered, -, -⟩ detail' hrefused'
      cases hrefused.unique hrefused'
      by_contra hcut
      exact hanswered ((parseFailure_panicked_iff detail).mpr hcut)
    · intro hclean
      refine ⟨?_, fun hok => absurd hok (parseFailure_ne_ok detail), fun _ => rfl⟩
      intro hpanic
      exact (parseFailure_panicked_iff detail).mp hpanic (hclean detail hrefused)
  · refine iff_of_true ⟨hpanic, fun h => absurd h hok, fun _ => hholder⟩ ?_
    exact fun detail h => absurd h (hnone detail)
  · refine iff_of_true ⟨by simp [hok], fun _ => ⟨text, cfg, htext, hparsed, hholder⟩,
      fun h => absurd hok h⟩ ?_
    exact fun detail h => absurd h (hnone detail)

/-- A text of characters of four bytes, which is no key. -/
def fourByteText : String := String.ofList (List.replicate 50 (Char.ofNat 0x1F600))

/-- The message of the TOML library for a line that starts with no key. -/
def invalidKeyMessage (line : String) : String :=
  "TOML parse error at line 1, column 1\n  |\n1 | " ++ line ++ "\n  | ^\ninvalid key\n"

def invalidKeyLibs : PolicyLibs :=
  { patchLibs with fromStr := fun text => .error (invalidKeyMessage text) }

/-- The cut of this message falls within a character, and the upload has no
answer. -/
theorem not_answeredWhole_fourByteText :
    ¬ ∀ (libs : PolicyLibs) (now : ℕ) (s : UploadState) (body : Bytes),
      AnsweredWhole libs now s body := by
  intro hall
  have hupload : uploaded invalidKeyLibs (utf8 fourByteText) =
      .error (parseFailure (invalidKeyMessage fourByteText)) := by
    rw [uploaded, fromUtf8_utf8]
    simp only [invalidKeyLibs]
  have hthrottle : (checkWriteThrottle 0 []).1 = true := rfl
  have hanswer : (applyPolicyToml invalidKeyLibs 0 ⟨defaultHolder, []⟩
      (utf8 fourByteText)).1 = parseFailure (invalidKeyMessage fourByteText) := by
    rw [applyPolicyToml, hupload]
    simp only [hthrottle, Bool.not_true, Bool.false_eq_true, if_false]
  have hpanic : parseFailure (invalidKeyMessage fourByteText) = .panicked := by
    decide +kernel
  exact (hall invalidKeyLibs 0 ⟨defaultHolder, []⟩ (utf8 fourByteText)).1
    (hanswer.trans hpanic)

end ReserveGrid.Verifier
