import ReserveGrid.Verifier.VerdictLog

/-!
# What a rotation keeps

A rotation moves every generation up by one name and drops the oldest. When no
rotation overlaps another one, or the time in which an append has the log open
and its line not written, a line moves up by one name for every size check that
fires after it, and so it is kept for five of them.
-/

namespace ReserveGrid.Verifier

open Support

namespace AppendPc

/-- The append is between its size check and its last rename. -/
def isRotating : AppendPc → Bool
  | .removing _ | .renaming _ => true
  | _ => false

/-- The append has the log open and its line not written. -/
def isWriting : AppendPc → Bool
  | .writing _ => true
  | _ => false

end AppendPc

/-- The generation a rotation is about to fill. -/
def AppendPc.At (pc : AppendPc) (i : ℕ) : Prop :=
  pc = .removing i ∨ pc = .renaming i

theorem AppendPc.At.isRotating {pc : AppendPc} {i : ℕ} (h : pc.At i) :
    pc.isRotating = true := by
  rcases h with rfl | rfl <;> rfl

theorem AppendPc.not_at {pc : AppendPc} (h : pc.isRotating = false) (i : ℕ) :
    ¬ pc.At i := by
  intro hat
  rw [hat.isRotating] at h
  cases h

theorem AppendPc.ne_writing {pc : AppendPc} (h : pc.isWriting = false)
    (file : ℕ) : pc ≠ .writing file := by
  rintro rfl
  cases h

/-- A rotation starts when no other append is rotating or has its line to write
to an open log, an append opens the log when none is rotating, no rename fails,
and the verifier is not stopped within a rotation. -/
def RotatesAlone {B : Type} (s : LogState) : LogEvent B → Prop
  | .verdict _ => True
  | .advance k failure => ∀ c, s.calls k = some c →
      (c.pc = .checking → failure = none → s.files.atLimit = true →
        ∀ k' c', s.calls k' = some c' → k' ≠ k →
          c'.pc.isRotating = false ∧ c'.pc.isWriting = false) ∧
      (c.pc = .opening → ∀ k' c', s.calls k' = some c' →
        c'.pc.isRotating = false) ∧
      ∀ i, c.pc = .renaming i → failure = none
  | .restart => ∀ k c, s.calls k = some c → c.pc.isRotating = false

/-! ## Lines that returned -/

/-- An append that is past its write has a line, and so has one that returned. -/
structure LinesOfCalls (s : LogState) : Prop where
  written : ∀ k c, s.calls k = some c → c.pc.isWritten = true →
    ∃ l ∈ s.written, l.call = k ∧ l.text = c.text
  returned : ∀ k ∈ s.returned, ∃ l ∈ s.written, l.call = k

/-! ## The place of a line -/

/-- Where a line may be that was written `d` firing checks ago. A rotation under
way has moved the generations above its own. -/
def LogState.Placed (s : LogState) (j d : ℕ) : Prop :=
  j ≤ d ∧ ∀ k c i, s.calls k = some c → c.pc.At i → (j < i ∧ j + 1 ≤ d) ∨ i < j

structure LinesKept (s : LogState) : Prop where
  wellFormed : s.files.WellFormed
  handle : ∀ k c file, s.calls k = some c → c.pc = .writing file →
    s.files.dir 0 = some file
  alone : ∀ k c k' c', s.calls k = some c → s.calls k' = some c' → k' ≠ k →
    c.pc.isRotating = true →
      c'.pc.isRotating = false ∧ c'.pc.isWriting = false
  slot : ∀ k c i, s.calls k = some c → c.pc.At i → 1 ≤ i ∧ i ≤ 5
  fired_le : ∀ l ∈ s.written, l.fired ≤ s.fired
  line : ∀ l ∈ s.written, l.fired + 6 ≤ s.fired ∨
    ∃ j ≤ 5, s.files.Holds j ⟨l.call, l.text⟩ ∧ s.Placed j (s.fired - l.fired)

theorem linesKept_start {B : Type} (json : VerdictJson B) {files : LogFiles}
    (hwf : files.WellFormed) : LinesKept (.start json files) := by
  refine ⟨hwf, ?_, ?_, ?_, ?_, ?_⟩
  · intro k c file h
    cases h
  · intro k c k' c' h
    cases h
  · intro k c i h
    cases h
  · intro l h
    cases h
  · intro l h
    cases h

/-- A call that neither rotates nor writes may take the place of another one
that does not rotate, or of none. -/
theorem LinesKept.replace {s : LogState} (h : LinesKept s) {k : ℕ}
    {new : Option AppendCall} {calls : ℕ → Option AppendCall}
    (hcalls : calls = Function.update s.calls k new)
    (hnew : ∀ c, new = some c → c.pc.isRotating = false ∧ c.pc.isWriting = false) :
    LinesKept { s with calls := calls } := by
  subst hcalls
  refine ⟨h.wellFormed, ?_, ?_, ?_, h.fired_le, ?_⟩
  · intro k' c' file hc' hpc
    rcases update_eq_some hc' with ⟨rfl, hc⟩ | ⟨-, hold⟩
    · exact absurd hpc (AppendPc.ne_writing (hnew c' hc).2 _)
    · exact h.handle k' c' file hold hpc
  · intro k₁ c₁ k₂ c₂ h₁ h₂ hne hrot
    rcases update_eq_some h₁ with ⟨rfl, hc⟩ | ⟨-, hold₁⟩
    · rw [(hnew c₁ hc).1] at hrot
      cases hrot
    · rcases update_eq_some h₂ with ⟨rfl, hc⟩ | ⟨-, hold₂⟩
      · exact hnew c₂ hc
      · exact h.alone k₁ c₁ k₂ c₂ hold₁ hold₂ hne hrot
  · intro k' c' i hc' hat
    rcases update_eq_some hc' with ⟨rfl, hc⟩ | ⟨-, hold⟩
    · exact absurd hat (AppendPc.not_at (hnew c' hc).1 _)
    · exact h.slot k' c' i hold hat
  · intro l hl
    rcases h.line l hl with hold | ⟨j, hj, hholds, hle, hplaced⟩
    · exact .inl hold
    · refine .inr ⟨j, hj, hholds, hle, ?_⟩
      intro k' c' i hc' hat
      rcases update_eq_some hc' with ⟨rfl, hc⟩ | ⟨-, hold⟩
      · exact absurd hat (AppendPc.not_at (hnew c' hc).1 _)
      · exact hplaced k' c' i hold hat

/-- Files that still have every line where it was, and the log under its name. -/
theorem LinesKept.withFiles {s : LogState} (h : LinesKept s) {files : LogFiles}
    (hwf : files.WellFormed)
    (hdir : ∀ file, s.files.dir 0 = some file → files.dir 0 = some file)
    (hholds : ∀ j item, s.files.Holds j item → files.Holds j item) :
    LinesKept { s with files := files } := by
  refine ⟨hwf, ?_, h.alone, h.slot, h.fired_le, ?_⟩
  · intro k c file hc hpc
    exact hdir file (h.handle k c file hc hpc)
  · intro l hl
    rcases h.line l hl with hold | ⟨j, hj, hheld, hplaced⟩
    · exact .inl hold
    · exact .inr ⟨j, hj, hholds j _ hheld, hplaced⟩

theorem LinesKept.append {s : LogState} (h : LinesKept s) (file : ℕ)
    (items : List LogPiece) :
    LinesKept { s with files := s.files.append file items } :=
  h.withFiles (h.wellFormed.append file items) (fun _ hdir => hdir)
    fun _ _ hheld => hheld.append file items

/-- The counters and the list of returned appends do not matter. -/
theorem LinesKept.congr {s t : LogState} (h : LinesKept s)
    (hfiles : t.files = s.files) (hcalls : t.calls = s.calls)
    (hwritten : t.written = s.written) (hfired : t.fired = s.fired) :
    LinesKept t := by
  obtain ⟨files, counter, calls, spawned, written, returned, fired⟩ := t
  dsimp only at hfiles hcalls hwritten hfired
  subst hfiles hcalls hwritten hfired
  exact ⟨h.wellFormed, h.handle, h.alone, h.slot, h.fired_le, h.line⟩

section

variable {calls : ℕ → Option AppendCall} {k : ℕ} {c : AppendCall}

/-- When all the other calls neither rotate nor write, a call that does not
write leaves no line to be written. -/
theorem isWriting_update
    (hothers : ∀ k' c', calls k' = some c' → k' ≠ k →
      c'.pc.isRotating = false ∧ c'.pc.isWriting = false)
    (hwriting : c.pc.isWriting = false) {k₁ : ℕ} {c₁ : AppendCall}
    (h₁ : Function.update calls k (some c) k₁ = some c₁) :
    c₁.pc.isWriting = false := by
  rcases update_eq_some h₁ with ⟨-, hc⟩ | ⟨hne, hold⟩
  · cases hc
    exact hwriting
  · exact (hothers k₁ c₁ hold hne).2

/-- When all the other calls neither rotate nor write, a call may rotate. -/
theorem alone_update
    (hothers : ∀ k' c', calls k' = some c' → k' ≠ k →
      c'.pc.isRotating = false ∧ c'.pc.isWriting = false)
    {k₁ k₂ : ℕ} {c₁ c₂ : AppendCall}
    (h₁ : Function.update calls k (some c) k₁ = some c₁)
    (h₂ : Function.update calls k (some c) k₂ = some c₂) (hne : k₂ ≠ k₁)
    (hrot : c₁.pc.isRotating = true) :
    c₂.pc.isRotating = false ∧ c₂.pc.isWriting = false := by
  rcases update_eq_some h₁ with ⟨rfl, -⟩ | ⟨hne₁, hold₁⟩
  · rcases update_eq_some h₂ with ⟨rfl, -⟩ | ⟨hne₂, hold₂⟩
    · exact absurd rfl hne
    · exact hothers k₂ c₂ hold₂ hne₂
  · rw [(hothers k₁ c₁ hold₁ hne₁).1] at hrot
    cases hrot

end

/-- A size check that fires while no other append rotates or writes. -/
theorem LinesKept.fire {s : LogState} (h : LinesKept s) {k : ℕ} {c : AppendCall}
    (hothers : ∀ k' c', s.calls k' = some c' → k' ≠ k →
      c'.pc.isRotating = false ∧ c'.pc.isWriting = false) :
    LinesKept { s.goto k c (.removing verdictLogRotations) with
      fired := s.fired + 1 } := by
  refine ⟨h.wellFormed, ?_, ?_, ?_, ?_, ?_⟩
  · intro k' c' file hc' hpc
    exact absurd hpc (AppendPc.ne_writing (isWriting_update hothers rfl hc') _)
  · intro k₁ c₁ k₂ c₂ h₁ h₂ hne hrot
    exact alone_update hothers h₁ h₂ hne hrot
  · intro k' c' i hc' hat
    rcases update_eq_some hc' with ⟨-, hc⟩ | ⟨hne, hold⟩
    · cases hc
      rcases hat with hat | hat
      · cases hat
        decide
      · cases hat
    · exact h.slot k' c' i hold hat
  · intro l hl
    exact Nat.le_succ_of_le (h.fired_le l hl)
  · intro l hl
    rcases h.line l hl with hold | ⟨j, hj, hheld, hle, -⟩
    · exact .inl (Nat.le_succ_of_le hold)
    · have hfired := h.fired_le l hl
      change l.fired + 6 ≤ s.fired + 1 ∨ _
      by_cases hlast : j = 5
      · exact .inl (by omega)
      · refine .inr ⟨j, hj, hheld, ?_, ?_⟩
        · change j ≤ s.fired + 1 - l.fired
          omega
        · intro k' c' i hc' hat
          change (j < i ∧ j + 1 ≤ s.fired + 1 - l.fired) ∨ i < j
          rcases update_eq_some hc' with ⟨-, hc⟩ | ⟨hne, hold⟩
          · cases hc
            rcases hat with hat | hat
            · cases hat
              change (j < 5 ∧ _) ∨ _
              exact .inl ⟨by omega, by omega⟩
            · cases hat
          · exact absurd hat (AppendPc.not_at (hothers k' c' hold hne).1 _)

/-- One step of a rotation: every line keeps a place, in the files after the
step and for the next step of the rotation. -/
theorem LinesKept.rotate {s : LogState} (h : LinesKept s) {k i : ℕ}
    {c : AppendCall} (hc : s.calls k = some c) (hat : c.pc.At i)
    {files : LogFiles} {pc : AppendPc} (hwf : files.WellFormed)
    (hwriting : pc.isWriting = false)
    (hslot : ∀ i', pc.At i' → 1 ≤ i' ∧ i' ≤ 5)
    (hplace : ∀ j d item, j ≤ 5 → s.files.Holds j item → j ≤ d →
      (j < i ∧ j + 1 ≤ d) ∨ i < j →
      ∃ j' ≤ 5, files.Holds j' item ∧ j' ≤ d ∧
        ∀ i', pc.At i' → (j' < i' ∧ j' + 1 ≤ d) ∨ i' < j') :
    LinesKept { s.goto k c pc with files := files } := by
  have hothers : ∀ k' c', s.calls k' = some c' → k' ≠ k →
      c'.pc.isRotating = false ∧ c'.pc.isWriting = false :=
    fun k' c' hc' hne => h.alone k c k' c' hc hc' hne hat.isRotating
  refine ⟨hwf, ?_, ?_, ?_, h.fired_le, ?_⟩
  · intro k' c' file hc' hpc
    exact absurd hpc
      (AppendPc.ne_writing (isWriting_update hothers hwriting hc') _)
  · intro k₁ c₁ k₂ c₂ h₁ h₂ hne hrot
    exact alone_update hothers h₁ h₂ hne hrot
  · intro k' c' i' hc' hat'
    rcases update_eq_some hc' with ⟨-, hnew⟩ | ⟨-, hold⟩
    · cases hnew
      exact hslot i' hat'
    · exact h.slot k' c' i' hold hat'
  · intro l hl
    rcases h.line l hl with hold | ⟨j, hj, hheld, hle, hplaced⟩
    · exact .inl hold
    · obtain ⟨j', hj', hheld', hle', hnext⟩ :=
        hplace j _ _ hj hheld hle (hplaced k c i hc hat)
      refine .inr ⟨j', hj', hheld', hle', ?_⟩
      intro k' c' i' hc' hat'
      rcases update_eq_some hc' with ⟨-, hnew⟩ | ⟨hne, hold⟩
      · cases hnew
        exact hnext i' hat'
      · exact absurd hat' (AppendPc.not_at (hothers k' c' hold hne).1 _)

/-- The generation to be filled is removed: nothing that counts is there. -/
theorem LinesKept.removed {s : LogState} (h : LinesKept s) {k i : ℕ}
    {c : AppendCall} (hc : s.calls k = some c) (hpc : c.pc = .removing i)
    {files : LogFiles} (hfiles : files = s.files.remove i ∨ files = s.files) :
    LinesKept { s.goto k c (.renaming i) with files := files } := by
  have hat : c.pc.At i := .inl hpc
  have hslot := h.slot k c i hc hat
  have hwf : files.WellFormed := by
    rcases hfiles with rfl | rfl
    · exact h.wellFormed.remove i
    · exact h.wellFormed
  refine h.rotate hc hat hwf rfl ?_ ?_
  · rintro i' (hi' | hi')
    · cases hi'
    · cases hi'
      exact hslot
  · intro j d item hj hheld hle hplaced
    have hne : j ≠ i := by omega
    refine ⟨j, hj, ?_, hle, ?_⟩
    · rcases hfiles with rfl | rfl
      · exact hheld.remove hne
      · exact hheld
    · rintro i' (hi' | hi')
      · cases hi'
      · cases hi'
        exact hplaced

/-- The generation below moves up. -/
theorem LinesKept.renamed {s : LogState} (h : LinesKept s) {k i : ℕ}
    {c : AppendCall} (hc : s.calls k = some c) (hpc : c.pc = .renaming i) :
    LinesKept { s.goto k c (if i ≤ 1 then .opening else .removing (i - 1)) with
      files := s.files.rename (i - 1) i } := by
  have hat : c.pc.At i := .inr hpc
  obtain ⟨hone, hfive⟩ := h.slot k c i hc hat
  have hnext : ∀ i', AppendPc.At
      (if i ≤ 1 then .opening else .removing (i - 1)) i' →
        1 < i ∧ i' = i - 1 := by
    intro i' hi'
    by_cases hlast : i ≤ 1
    · rw [if_pos hlast] at hi'
      rcases hi' with hi' | hi' <;> cases hi'
    · rw [if_neg hlast] at hi'
      rcases hi' with hi' | hi'
      · cases hi'
        exact ⟨by omega, rfl⟩
      · cases hi'
  refine h.rotate hc hat (h.wellFormed.rename _ _) ?_ ?_ ?_
  · by_cases hlast : i ≤ 1
    · rw [if_pos hlast]
      rfl
    · rw [if_neg hlast]
      rfl
  · intro i' hi'
    obtain ⟨hlt, rfl⟩ := hnext i' hi'
    omega
  · intro j d item hj hheld hle hplaced
    by_cases hmoved : j = i - 1
    · subst hmoved
      refine ⟨i, hfive, hheld.rename_moved i, by omega, ?_⟩
      intro i' hi'
      obtain ⟨-, rfl⟩ := hnext i' hi'
      omega
    · refine ⟨j, hj, hheld.rename_other hmoved (by omega), hle, ?_⟩
      intro i' hi'
      obtain ⟨-, rfl⟩ := hnext i' hi'
      omega

/-- The log is opened while nothing rotates. -/
theorem LinesKept.opened {s : LogState} (h : LinesKept s) {k : ℕ}
    {c : AppendCall}
    (hquiet : ∀ k' c', s.calls k' = some c' → c'.pc.isRotating = false) :
    LinesKept { s.goto k c (.writing (s.files.openAppend 0).2) with
      files := (s.files.openAppend 0).1 } := by
  have hfiles : LinesKept { s with files := (s.files.openAppend 0).1 } :=
    h.withFiles (h.wellFormed.openAppend 0)
      (fun _ hdir => Files.dir_openAppend_of_some hdir)
      fun _ _ hheld => hheld.openAppend h.wellFormed 0
  have hnone : ∀ k' c', Function.update s.calls k
      (some { c with pc := .writing (s.files.openAppend 0).2 }) k' = some c' →
        c'.pc.isRotating = false := by
    intro k' c' hc'
    rcases update_eq_some hc' with ⟨-, hc⟩ | ⟨-, hold⟩
    · cases hc
      rfl
    · exact hquiet k' c' hold
  refine ⟨hfiles.wellFormed, ?_, ?_, ?_, h.fired_le, ?_⟩
  · intro k' c' file hc' hpc
    rcases update_eq_some hc' with ⟨-, hc⟩ | ⟨-, hold⟩
    · cases hc
      cases hpc
      exact Files.dir_openAppend s.files 0
    · exact hfiles.handle k' c' file hold hpc
  · intro k₁ c₁ k₂ c₂ h₁ h₂ hne hrot
    rw [hnone k₁ c₁ h₁] at hrot
    cases hrot
  · intro k' c' i hc' hat
    exact absurd hat (AppendPc.not_at (hnone k' c' hc') _)
  · intro l hl
    rcases hfiles.line l hl with hold | ⟨j, hj, hheld, hle, -⟩
    · exact .inl hold
    · refine .inr ⟨j, hj, hheld, hle, ?_⟩
      intro k' c' i hc' hat
      exact absurd hat (AppendPc.not_at (hnone k' c' hc') _)

/-- While an append has its line to write, nothing rotates. -/
theorem LinesKept.quiet {s : LogState} (h : LinesKept s) {k file : ℕ}
    {c : AppendCall} (hc : s.calls k = some c) (hpc : c.pc = .writing file)
    {k' : ℕ} {c' : AppendCall} (hc' : s.calls k' = some c') :
    c'.pc.isRotating = false := by
  by_contra hrot
  rw [Bool.not_eq_false] at hrot
  by_cases hk : k = k'
  · subst hk
    cases hc.symm.trans hc'
    rw [hpc] at hrot
    cases hrot
  · exact absurd hpc (AppendPc.ne_writing (h.alone k' c' k c hc' hc hk hrot).2 _)

/-- A line that is written is in the log. -/
theorem LinesKept.wrote {s : LogState} (h : LinesKept s) {k file : ℕ}
    {c : AppendCall} (hc : s.calls k = some c) (hpc : c.pc = .writing file) :
    LinesKept { s.goto k c (.ending file) with
      files := s.files.append file [⟨k, c.text⟩]
      written := s.written ++ [⟨k, c.logId, c.text, s.fired⟩] } := by
  have hmoved : LinesKept { s.goto k c (.ending file) with
      files := s.files.append file [⟨k, c.text⟩] } := by
    apply (h.append file [⟨k, c.text⟩]).replace rfl
    intro c' hc'
    cases hc'
    exact ⟨rfl, rfl⟩
  refine ⟨hmoved.wellFormed, hmoved.handle, hmoved.alone, hmoved.slot, ?_, ?_⟩
  · intro l hl
    rcases List.mem_append.mp hl with hold | hnew
    · exact h.fired_le l hold
    · cases List.mem_singleton.mp hnew
      exact le_refl _
  · intro l hl
    rcases List.mem_append.mp hl with hold | hnew
    · exact hmoved.line l hold
    · cases List.mem_singleton.mp hnew
      refine .inr ⟨0, by omega, ?_, Nat.zero_le _, ?_⟩
      · exact Files.holds_append_self (h.handle k c file hc hpc) _
      · intro k' c' i hc' hat
        rcases update_eq_some hc' with ⟨-, hnew⟩ | ⟨-, hold⟩
        · cases hnew
          exact absurd hat (AppendPc.not_at rfl _)
        · exact absurd hat (AppendPc.not_at (h.quiet hc hpc hold) _)

/-- An append ends, or goes on to a step that neither rotates nor writes. -/
theorem LinesKept.goto {s : LogState} (h : LinesKept s) (k : ℕ) (c : AppendCall)
    (pc : AppendPc) (hrotating : pc.isRotating = false)
    (hwriting : pc.isWriting = false) : LinesKept (s.goto k c pc) := by
  apply h.replace rfl
  intro c' hc'
  cases hc'
  exact ⟨hrotating, hwriting⟩

theorem LinesKept.finish {s : LogState} (h : LinesKept s) (k : ℕ) :
    LinesKept (s.finish k) := by
  apply h.replace rfl
  intro c' hc'
  cases hc'

/-- Every file-system step keeps the lines, on the condition. -/
theorem LinesKept.advance {B : Type} {s : LogState} (h : LinesKept s) {k : ℕ}
    {c : AppendCall} {failure : Option ℕ} (hc : s.calls k = some c)
    (hcond : RotatesAlone s (.advance k failure : LogEvent B)) :
    LinesKept (s.advance k c failure) := by
  obtain ⟨hfires, hopens, hrenames⟩ := hcond c hc
  unfold LogState.advance
  split
  · next hpc =>
      by_cases hlimit : s.files.atLimit = true
      · rw [if_pos hlimit]
        exact h.fire (hfires hpc rfl hlimit)
      · rw [if_neg hlimit]
        exact h.goto k c _ rfl rfl
  · exact h.goto k c _ rfl rfl
  · next i hpc => exact h.removed hc hpc (.inl rfl)
  · next i n hpc => exact h.removed hc hpc (.inr rfl)
  · next i hpc =>
      rw [hrenames i hpc]
      exact h.renamed hc hpc
  · next hpc => exact h.opened (hopens hpc)
  · next file hpc => exact h.wrote hc hpc
  · next file n hpc => exact (h.append file _).finish k
  · next file hpc => exact (h.append file _).goto k c _ rfl rfl
  · exact (h.finish k).congr rfl rfl rfl rfl
  · exact h.finish k
  · exact h.finish k
  · exact h.finish k

theorem LinesKept.step {B : Type} {json : VerdictJson B} {s t : LogState}
    (h : LinesKept s) {event : LogEvent B} (hcond : RotatesAlone s event)
    (hstep : logStep json s event = some t) : LinesKept t := by
  cases event with
  | verdict body =>
      cases hstep
      have hnew := h.goto s.spawned ⟨s.counter, json.toText s.counter body,
        .checking⟩ .checking rfl rfl
      exact hnew.congr rfl rfl rfl rfl
  | advance k failure =>
      obtain ⟨c, hc, rfl⟩ := Option.map_eq_some_iff.mp hstep
      exact h.advance hc hcond
  | restart =>
      cases hstep
      refine ⟨h.wellFormed, nofun, nofun, nofun, h.fired_le, ?_⟩
      intro l hl
      rcases h.line l hl with hold | ⟨j, hj, hheld, hle, -⟩
      · exact .inl hold
      · exact .inr ⟨j, hj, hheld, hle, nofun⟩

/-! ## Lines of appends that returned -/

theorem LinesOfCalls.advance {s : LogState} (h : LinesOfCalls s) {k : ℕ}
    {c : AppendCall} (hc : s.calls k = some c) (failure : Option ℕ) :
    LinesOfCalls (s.advance k c failure) := by
  obtain ⟨new, hcalls, -, ⟨-, hwritten, hreturned, c₁, hnew, -, htext, -⟩ |
    ⟨hwritten, hreturned, hnew⟩⟩ := s.advance_cases k c failure
  · have hmem : ∀ {P : LogLine → Prop}, (∃ l ∈ s.written, P l) →
        ∃ l ∈ (s.advance k c failure).written, P l := by
      rintro P ⟨l, hl, hP⟩
      rw [hwritten]
      exact ⟨l, List.mem_append_left _ hl, hP⟩
    refine ⟨?_, ?_⟩
    · intro k' c' hc' hpc'
      rw [hcalls] at hc'
      rcases update_eq_some hc' with ⟨rfl, hc₁⟩ | ⟨-, hold⟩
      · cases hnew.symm.trans hc₁
        rw [hwritten]
        exact ⟨_, List.mem_append_right _ List.mem_cons_self, rfl, htext.symm⟩
      · exact hmem (h.written k' c' hold hpc')
    · rw [hreturned]
      exact fun k' hk' => hmem (h.returned k' hk')
  · refine ⟨?_, ?_⟩
    · intro k' c' hc' hpc'
      rw [hcalls] at hc'
      rw [hwritten]
      rcases update_eq_some hc' with ⟨rfl, hc₁⟩ | ⟨-, hold⟩
      · obtain ⟨-, htext, hpc⟩ := hnew c' hc₁
        rw [htext]
        exact h.written k' c hc (hpc ▸ hpc')
      · exact h.written k' c' hold hpc'
    · rw [hwritten]
      intro k' hk'
      rcases hreturned with hsame | ⟨hpc, hmore⟩
      · rw [hsame] at hk'
        exact h.returned k' hk'
      · rw [hmore] at hk'
        rcases List.mem_append.mp hk' with hold | hlast
        · exact h.returned k' hold
        · cases List.mem_singleton.mp hlast
          obtain ⟨l, hl, hcall, -⟩ := h.written k c hc hpc
          exact ⟨l, hl, hcall⟩

theorem LinesOfCalls.step {B : Type} {json : VerdictJson B} {s t : LogState}
    (h : LinesOfCalls s) {event : LogEvent B}
    (hstep : logStep json s event = some t) : LinesOfCalls t := by
  cases event with
  | verdict body =>
      cases hstep
      refine ⟨?_, h.returned⟩
      intro k c hc hpc
      rcases update_eq_some hc with ⟨-, hnew⟩ | ⟨-, hold⟩
      · cases hnew
        cases hpc
      · exact h.written k c hold hpc
  | advance k failure =>
      obtain ⟨c, hc, rfl⟩ := Option.map_eq_some_iff.mp hstep
      exact h.advance hc failure
  | restart =>
      cases hstep
      exact ⟨nofun, h.returned⟩

/-- Every line whose append returned is in the log or in one of its five
generations, unless a size check found the log at its limit six times after it,
in every run whose rotations are alone. -/
theorem returned_line_kept {B : Type} (json : VerdictJson B) (files : LogFiles)
    (hwf : files.WellFormed) (events : List (LogEvent B)) (s : LogState)
    (halone : Along (logStep json) RotatesAlone (.start json files) events)
    (hrun : run (logStep json) (.start json files) events = some s) :
    ∀ k ∈ s.returned, ∃ l ∈ s.written, l.call = k ∧
      ((∃ j ≤ verdictLogRotations, s.files.Holds j ⟨k, l.text⟩) ∨
        l.fired + 6 ≤ s.fired) := by
  have hkept : LinesKept s :=
    invariant_of_along (fun _ _ _ h hcond hstep => h.step hcond hstep)
      (linesKept_start json hwf) halone hrun
  have hlines : LinesOfCalls s :=
    invariant_of_run (fun _ _ _ h hstep => h.step hstep)
      (⟨nofun, nofun⟩ : LinesOfCalls (.start json files)) hrun
  intro k hk
  obtain ⟨l, hl, rfl⟩ := hlines.returned k hk
  refine ⟨l, hl, rfl, ?_⟩
  rcases hkept.line l hl with hold | ⟨j, hj, hheld, -⟩
  · exact .inr hold
  · exact .inl ⟨j, hj, hheld⟩

/-! ### A rotation while another append waits -/

/-- An append that advances while the others have not looked at the log yet. -/
theorem rotatesAlone_advance {B : Type} {s : LogState} {k : ℕ}
    (hothers : ∀ k' c', s.calls k' = some c' → k' ≠ k → c'.pc = .checking) :
    RotatesAlone s (.advance k none : LogEvent B) := by
  intro c hc
  refine ⟨?_, ?_, fun _ _ => rfl⟩
  · intro _ _ _ k' c' hc' hne
    rw [hothers k' c' hc' hne]
    exact ⟨rfl, rfl⟩
  · intro hpc k' c' hc'
    by_cases hk : k' = k
    · subst hk
      cases hc.symm.trans hc'
      rw [hpc]
      rfl
    · rw [hothers k' c' hc' hk]
      rfl

theorem along_advance {B : Type} {json : VerdictJson B} {s : LogState} {k : ℕ}
    (hothers : ∀ k' c', s.calls k' = some c' → k' ≠ k → c'.pc = .checking)
    (n : ℕ) :
    Along (logStep json) RotatesAlone s (List.replicate n (.advance k none)) := by
  induction n generalizing s with
  | zero => trivial
  | succ n ih =>
      refine ⟨rotatesAlone_advance hothers, ?_⟩
      intro t ht
      obtain ⟨c, -, rfl⟩ := Option.map_eq_some_iff.mp ht
      obtain ⟨new, hcalls, -⟩ := s.advance_cases k c none
      apply ih
      intro k' c' hc' hne
      rw [hcalls, Function.update_of_ne hne] at hc'
      exact hothers k' c' hc' hne

theorem along_appendEvents {B : Type} {json : VerdictJson B} {s : LogState}
    (hidle : s.calls = fun _ => none) (body : B) :
    Along (logStep json) RotatesAlone s (appendEvents s.spawned body) := by
  refine .cons (t := s.given json body) trivial rfl (along_advance ?_ 5)
  intro k' c' hc' hne
  rcases update_eq_some hc' with ⟨hk, -⟩ | ⟨-, hold⟩
  · exact absurd hk hne
  · rw [hidle] at hold
    cases hold

/-- The first of two appends rotates the log, the second one goes on when the
first has returned. -/
theorem along_rotationEvents {B : Type} {json : VerdictJson B} {s : LogState}
    (hidle : s.calls = fun _ => none) (hlimit : s.files.atLimit = true)
    (hnone : ∀ j ≠ 0, s.files.dir j = none) (body : B) :
    Along (logStep json) RotatesAlone s (rotationEvents s.spawned body) := by
  let t := (s.given json body).given json body
  have hcall : ∀ k' c', t.calls k' = some c' →
      (k' = s.spawned ∨ k' = s.spawned + 1) ∧ c'.pc = .checking := by
    intro k' c' hc'
    rcases update_eq_some hc' with ⟨hk, hnew⟩ | ⟨-, hold⟩
    · cases hnew
      exact ⟨Or.inr hk, rfl⟩
    · rcases update_eq_some hold with ⟨hk, hnew⟩ | ⟨-, hold⟩
      · cases hnew
        exact ⟨Or.inl hk, rfl⟩
      · rw [hidle] at hold
        cases hold
  have hfirst : t.calls s.spawned = some (s.firstCall json body) :=
    (Function.update_of_ne (Nat.ne_of_lt (Nat.lt_succ_self _)) _ _).trans
      (Function.update_self _ _ _)
  refine .cons (t := s.given json body) trivial rfl (.cons (t := t) trivial rfl ?_)
  refine (along_advance ?_ 15).join (run_rotated hfirst rfl hlimit hnone)
    (along_advance ?_ 5)
  · intro k' c' hc' _
    exact (hcall k' c' hc').2
  · intro k' c' hc' hne
    rcases update_eq_some hc' with ⟨-, hnew⟩ | ⟨hk, hold⟩
    · cases hnew
    · rcases (hcall k' c' hold).1 with hsame | hsame
      · exact absurd hsame hk
      · exact absurd hsame hne

theorem returned_line_kept_rotated :
    ∃ (events : List (LogEvent Unit)) (s : LogState),
      run (logStep okVerdictJson)
          (.start okVerdictJson (Files.empty ℕ LogPiece)) events = some s ∧
        s.fired = 1 ∧ 3 ≤ s.returned.length ∧
        ∀ k ∈ s.returned, ∃ l ∈ s.written, l.call = k ∧
          ((∃ j ≤ verdictLogRotations, s.files.Holds j ⟨k, l.text⟩) ∨
            l.fired + 6 ≤ s.fired) := by
  have happends : ∀ s : LogState, AtRest s → s.spawned ≤ verdictLogMaxBytes →
      s.files.atLimit = false →
        Along (logStep okVerdictJson) RotatesAlone s (appendEvents s.spawned ()) := by
    intro s hrest _ _
    exact along_appendEvents hrest.calls ()
  obtain ⟨events, s, halong, hrun, hs, hrest, -, hlimit⟩ :=
    exists_fills okVerdictJson () happends
  have hrotates : run (logStep okVerdictJson) s (rotationEvents s.spawned ()) =
      some (s.twoWritten okVerdictJson ()) := by
    apply run_rotationEvents hlimit hs.generations
    have hshort := length_okVerdict_le s.counter
    have hmax : verdictLogMaxBytes = 52428800 := rfl
    omega
  have hrun' := run_join hrun hrotates
  refine ⟨_, _, hrun', ?_, ?_, ?_⟩
  · change s.fired + 1 = 1
    rw [hs.fired]
  · have hreturned : 1 ≤ s.returned.length := List.length_pos_of_mem hs.returned
    change 3 ≤ (s.returned ++ [_] ++ [_]).length
    simp only [List.length_append, List.length_singleton]
    omega
  · refine returned_line_kept okVerdictJson (Files.empty ℕ LogPiece)
      Files.wellFormed_empty _ _ ?_ hrun'
    exact halong.join hrun (along_rotationEvents hrest.calls hlimit hs.generations ())

/-! ## Two rotations at once -/

/-- A log that is moved and then removed leaves nothing behind. -/
theorem dir_rename_remove {files : LogFiles}
    (hnone : ∀ j ≠ 0, files.dir j = none) (j : ℕ) :
    ((files.rename 0 1).remove 1).dir j = none := by
  change Function.update (files.rename 0 1).dir 1 none j = none
  by_cases hone : j = 1
  · rw [hone, Function.update_self]
  rw [Function.update_of_ne hone]
  by_cases hzero : j = 0
  · rw [hzero]
    exact dir_rename_zero files
  cases hdir : files.dir 0 with
  | none =>
      rw [Files.rename_of_none hdir]
      exact hnone j hzero
  | some file =>
      rw [Files.rename_of_some hdir]
      dsimp only
      rw [Function.update_of_ne hone, Function.update_of_ne hzero]
      exact hnone j hzero

/-- Two appends find the log at its limit. -/
theorem exists_reaches_bothFire {B : Type} (json : VerdictJson B) (body : B)
    {s : LogState} (hlimit : s.files.atLimit = true) :
    ∃ t a b, ∃ first second : AppendCall, Reaches (logStep json) s t ∧
      a ≠ b ∧ t.calls a = some { first with pc := .removing 5 } ∧
      t.calls b = some { second with pc := .removing 5 } ∧
      t.files = s.files ∧ t.returned = s.returned ∧ t.fired = s.fired + 2 := by
  let a := s.spawned
  let b := s.spawned + 1
  have hab : a ≠ b := Nat.ne_of_lt (Nat.lt_succ_self _)
  let first : AppendCall := ⟨s.counter, json.toText s.counter body, .checking⟩
  let second : AppendCall :=
    ⟨s.counter + 1, json.toText (s.counter + 1) body, .checking⟩
  let s₁ : LogState :=
    { s with
      counter := s.counter + 1 + 1
      calls := Function.update (Function.update s.calls a (some first)) b
        (some second)
      spawned := s.spawned + 1 + 1 }
  have h₁ : Reaches (logStep json) s s₁ :=
    ⟨[.verdict body, .verdict body], rfl⟩
  have ha₁ : s₁.calls a = some first :=
    (Function.update_of_ne hab _ _).trans (Function.update_self _ _ _)
  have hb₁ : s₁.calls b = some second := Function.update_self _ _ _
  let s₂ : LogState :=
    { s₁.goto a first (.removing 5) with fired := s₁.fired + 1 }
  have h₂ : Reaches (logStep json) s₁ s₂ :=
    .of_step (logStep_fires ha₁ rfl hlimit)
  have hb₂ : s₂.calls b = some second :=
    (s₁.calls_goto_of_ne hab.symm _ _).trans hb₁
  let s₃ : LogState :=
    { s₂.goto b second (.removing 5) with fired := s₂.fired + 1 }
  have h₃ : Reaches (logStep json) s₂ s₃ :=
    .of_step (logStep_fires hb₂ rfl hlimit)
  refine ⟨s₃, a, b, first, second, h₁.trans <| h₂.trans h₃, hab, ?_, ?_, rfl,
    rfl, rfl⟩
  · exact (s₂.calls_goto_of_ne hab _ _).trans (s₁.calls_goto_self a first _)
  · exact s₂.calls_goto_self b second _

/-- Two appends find the log at its limit. The second one removes what the
first one has just moved. -/
theorem exists_reaches_lost {B : Type} (json : VerdictJson B) (body : B)
    {s : LogState} (hlimit : s.files.atLimit = true)
    (hnone : ∀ j ≠ 0, s.files.dir j = none) :
    ∃ t, Reaches (logStep json) s t ∧ (∀ j, t.files.dir j = none) ∧
      t.returned = s.returned ∧ t.fired = s.fired + 2 := by
  obtain ⟨s₁, a, b, first, second, h₁, hab, ha₁, hb₁, hfiles, hreturned,
    hfired⟩ := exists_reaches_bothFire json body hlimit
  rw [← hfiles] at hnone
  -- The first one goes on to its last rename, the second to its last removal.
  let s₂ := s₁.goto a first (.renaming 1)
  have h₂ : Reaches (logStep json) s₁ s₂ :=
    reaches_renaming ha₁ hnone
  have hb₂ : s₂.calls b = some { second with pc := .removing 5 } :=
    (s₁.calls_goto_of_ne hab.symm _ _).trans hb₁
  let s₃ := s₂.goto b second (.removing 1)
  have h₃ : Reaches (logStep json) s₂ s₃ :=
    reaches_last (c := { second with pc := .removing 5 }) (i := 4) hb₂ rfl hnone
  have ha₃ : s₃.calls a = some { first with pc := .renaming 1 } :=
    (s₂.calls_goto_of_ne hab _ _).trans (s₁.calls_goto_self a first _)
  -- The first one moves the log, the second one removes it.
  let s₄ : LogState :=
    { s₃.goto a first .opening with files := s₃.files.rename 0 1 }
  have h₄ : Reaches (logStep json) s₃ s₄ :=
    .of_step (logStep_renaming_last (c := { first with pc := .renaming 1 })
      ha₃ rfl)
  have hb₄ : s₄.calls b = some { second with pc := .removing 1 } :=
    (s₃.calls_goto_of_ne hab.symm _ _).trans (s₂.calls_goto_self b second _)
  let s₅ : LogState :=
    { s₄.goto b second (.renaming 1) with files := s₄.files.remove 1 }
  have h₅ : Reaches (logStep json) s₄ s₅ :=
    .of_step (logStep_removing (c := { second with pc := .removing 1 })
      hb₄ rfl)
  exact ⟨s₅, h₁.trans <| h₂.trans <| h₃.trans <| h₄.trans h₅,
    dir_rename_remove hnone, hreturned, hfired⟩

/-- A returned line is gone after two size checks. -/
theorem returned_line_lost :
    ¬ ∀ (events : List (LogEvent Unit)) (s : LogState),
      run (logStep okVerdictJson)
          (.start okVerdictJson (Files.empty ℕ LogPiece)) events = some s →
      ∀ k ∈ s.returned, ∃ l ∈ s.written, l.call = k ∧
        ((∃ j ≤ verdictLogRotations, s.files.Holds j ⟨k, l.text⟩) ∨
          l.fired + 6 ≤ s.fired) := by
  intro hkept
  obtain ⟨s, hfill, hs, hlimit⟩ := exists_reaches_atLimit okVerdictJson ()
  obtain ⟨t, hlose, hgone, hreturned, hfired⟩ :=
    exists_reaches_lost okVerdictJson () hlimit hs.generations
  obtain ⟨events, hrun⟩ := hfill.trans hlose
  have hmem : (firstLine okVerdictJson ()).call ∈ t.returned := by
    rw [hreturned]
    exact hs.returned
  obtain ⟨l, -, -, ⟨j, -, file, hdir, -⟩ | hlate⟩ :=
    hkept events t hrun _ hmem
  · rw [hgone j] at hdir
    cases hdir
  · rw [hfired, hs.fired] at hlate
    omega

end ReserveGrid.Verifier
