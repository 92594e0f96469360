import ReserveGrid.Verifier.VerdictLog

/-!
# The ids of verdict lines

Within one life of the verifier the counter gives every verdict a new id. A
restart takes the counter from what the current log reads back, which holds
every id given out only if the line with the largest one is still there.
-/

namespace ReserveGrid.Verifier

open Support

variable {B : Type} {json : VerdictJson B}

/-- The largest log id that the current log reads back. -/
def readBack (json : VerdictJson B) (files : LogFiles) : UInt64 :=
  maxLogId (match files.read 0 with
    | none => []
    | some pieces => parsedVerdicts json (piecesBytes pieces))

theorem loadVerdictLog_counter (maxEntries : ℕ) (files : LogFiles) :
    (loadVerdictLog json maxEntries files).2 = readBack json files + 1 := rfl

/-- The verifier is started again only when the current log reads back the
largest id written, and the counter does not wrap. -/
def KeepsIds (json : VerdictJson B) (s : LogState) : LogEvent B → Prop
  | .verdict _ => s.counter.toNat + 1 < 2 ^ 64
  | .advance _ _ => True
  | .restart => (∀ l ∈ s.written, l.logId.toNat ≤ (readBack json s.files).toNat) ∧
      (readBack json s.files).toNat + 1 < 2 ^ 64

theorem toNat_succ {n : UInt64} (h : n.toNat + 1 < 2 ^ 64) :
    (n + 1).toNat = n.toNat + 1 := by
  rw [UInt64.toNat_add, UInt64.toNat_one, Nat.mod_eq_of_lt h]

/-- The ids written so far are distinct, and so are those to be written. -/
structure DistinctIds (s : LogState) : Prop where
  nodup : (s.written.map LogLine.logId).Nodup
  written_lt : ∀ l ∈ s.written, l.logId.toNat < s.counter.toNat
  call_lt : ∀ k c, s.calls k = some c → c.logId.toNat < s.counter.toNat
  notMem : ∀ k c, s.calls k = some c → c.pc.isWritten = false →
    c.logId ∉ s.written.map LogLine.logId
  distinct : ∀ k c k' c', s.calls k = some c → s.calls k' = some c' → k ≠ k' →
    c.pc.isWritten = false → c'.pc.isWritten = false → c.logId ≠ c'.logId

/-- The counter is the id of no call. -/
theorem DistinctIds.ne_counter {s : LogState} (h : DistinctIds s) {k : ℕ}
    {c : AppendCall} (hc : s.calls k = some c) : c.logId ≠ s.counter := by
  intro hid
  have hlt := h.call_lt k c hc
  rw [hid] at hlt
  exact lt_irrefl _ hlt

theorem DistinctIds.verdict {s t : LogState} (h : DistinctIds s) {body : B}
    (hcounter : s.counter.toNat + 1 < 2 ^ 64)
    (hstep : logStep json s (.verdict body) = some t) : DistinctIds t := by
  cases hstep
  have hlt : ∀ {id : UInt64}, id.toNat < s.counter.toNat →
      id.toNat < (s.counter + 1).toNat := by
    intro id hid
    rw [toNat_succ hcounter]
    omega
  refine ⟨h.nodup, fun l hl => hlt (h.written_lt l hl), ?_, ?_, ?_⟩
  · intro k c hc
    rcases update_eq_some hc with ⟨-, hnew⟩ | ⟨-, hold⟩
    · cases hnew
      dsimp only
      rw [toNat_succ hcounter]
      exact Nat.lt_succ_self _
    · exact hlt (h.call_lt k c hold)
  · intro k c hc hpc
    rcases update_eq_some hc with ⟨-, hnew⟩ | ⟨-, hold⟩
    · cases hnew
      intro hmem
      obtain ⟨l, hl, hid⟩ := List.mem_map.mp hmem
      exact (h.written_lt l hl).ne (congrArg UInt64.toNat hid)
    · exact h.notMem k c hold hpc
  · intro k c k' c' hc hc' hne hpc hpc'
    rcases update_eq_some hc with ⟨rfl, hnew⟩ | ⟨-, hold⟩
    · rcases update_eq_some hc' with ⟨rfl, -⟩ | ⟨-, hold'⟩
      · exact absurd rfl hne
      · cases hnew
        exact (h.ne_counter hold').symm
    · rcases update_eq_some hc' with ⟨-, hnew⟩ | ⟨-, hold'⟩
      · cases hnew
        exact h.ne_counter hold
      · exact h.distinct k c k' c' hold hold' hne hpc hpc'

/-- A call writes its line. Its id was not written before. -/
theorem DistinctIds.wrote {s t : LogState} (h : DistinctIds s) {k : ℕ}
    {c c₁ : AppendCall} (hc : s.calls k = some c)
    (hpc : c.pc.isWritten = false)
    (hcalls : t.calls = Function.update s.calls k (some c₁))
    (hid₁ : c₁.logId = c.logId) (hpc₁ : c₁.pc.isWritten = true)
    (hcounter : t.counter = s.counter)
    (hwritten : t.written = s.written ++ [⟨k, c.logId, c.text, s.fired⟩]) :
    DistinctIds t := by
  have hold : ∀ k' c', t.calls k' = some c' → c'.pc.isWritten = false →
      k' ≠ k ∧ s.calls k' = some c' := by
    intro k' c' hc' hpc'
    rw [hcalls] at hc'
    rcases update_eq_some hc' with ⟨-, heq⟩ | hother
    · cases heq
      rw [hpc₁] at hpc'
      cases hpc'
    · exact hother
  refine ⟨?_, ?_, ?_, ?_, ?_⟩
  · rw [hwritten, List.map_append]
    apply h.nodup.append (List.nodup_singleton _)
    intro id hmem hlast
    cases List.mem_singleton.mp hlast
    exact h.notMem k c hc hpc hmem
  · rw [hwritten, hcounter]
    intro l hl
    rcases List.mem_append.mp hl with hbefore | hlast
    · exact h.written_lt l hbefore
    · cases List.mem_singleton.mp hlast
      exact h.call_lt k c hc
  · rw [hcounter, hcalls]
    intro k' c' hc'
    rcases update_eq_some hc' with ⟨-, heq⟩ | ⟨-, hother⟩
    · cases heq
      rw [hid₁]
      exact h.call_lt k c hc
    · exact h.call_lt k' c' hother
  · intro k' c' hc' hpc' hmem
    obtain ⟨hne, hother⟩ := hold k' c' hc' hpc'
    rw [hwritten, List.map_append] at hmem
    rcases List.mem_append.mp hmem with hbefore | hlast
    · exact h.notMem k' c' hother hpc' hbefore
    · exact h.distinct k' c' k c hother hc hne hpc' hpc
        (List.mem_singleton.mp hlast)
  · intro k₁ c₁ k₂ c₂ h₁ h₂ hne hpc₁ hpc₂
    exact h.distinct k₁ c₁ k₂ c₂ (hold k₁ c₁ h₁ hpc₁).2
      (hold k₂ c₂ h₂ hpc₂).2 hne hpc₁ hpc₂

/-- A call goes on or ends without writing. -/
theorem DistinctIds.quiet {s t : LogState} (h : DistinctIds s) {k : ℕ}
    {c : AppendCall} {new : Option AppendCall} (hc : s.calls k = some c)
    (hcalls : t.calls = Function.update s.calls k new)
    (hnew : ∀ c', new = some c' → c'.logId = c.logId ∧
      c'.pc.isWritten = c.pc.isWritten)
    (hcounter : t.counter = s.counter) (hwritten : t.written = s.written) :
    DistinctIds t := by
  have hold : ∀ k' c', t.calls k' = some c' →
      ∃ c₀, s.calls k' = some c₀ ∧ c₀.logId = c'.logId ∧
        c₀.pc.isWritten = c'.pc.isWritten := by
    intro k' c' hc'
    rw [hcalls] at hc'
    rcases update_eq_some hc' with ⟨rfl, heq⟩ | ⟨-, hother⟩
    · obtain ⟨hid, hpc⟩ := hnew c' heq
      exact ⟨c, hc, hid.symm, hpc.symm⟩
    · exact ⟨c', hother, rfl, rfl⟩
  refine ⟨?_, ?_, ?_, ?_, ?_⟩
  · rw [hwritten]
    exact h.nodup
  · rw [hwritten, hcounter]
    exact h.written_lt
  · rw [hcounter]
    intro k' c' hc'
    obtain ⟨c₀, h₀, hid, -⟩ := hold k' c' hc'
    rw [← hid]
    exact h.call_lt k' c₀ h₀
  · rw [hwritten]
    intro k' c' hc' hpc'
    obtain ⟨c₀, h₀, hid, hpc⟩ := hold k' c' hc'
    rw [← hid]
    exact h.notMem k' c₀ h₀ (hpc.trans hpc')
  · intro k₁ c₁ k₂ c₂ h₁ h₂ hne hpc₁ hpc₂
    obtain ⟨d₁, hd₁, hid₁, hp₁⟩ := hold k₁ c₁ h₁
    obtain ⟨d₂, hd₂, hid₂, hp₂⟩ := hold k₂ c₂ h₂
    rw [← hid₁, ← hid₂]
    exact h.distinct k₁ d₁ k₂ d₂ hd₁ hd₂ hne (hp₁.trans hpc₁) (hp₂.trans hpc₂)

theorem DistinctIds.advance {s : LogState} (h : DistinctIds s) {k : ℕ}
    {c : AppendCall} (hc : s.calls k = some c) (failure : Option ℕ) :
    DistinctIds (s.advance k c failure) := by
  obtain ⟨new, hcalls, hcounter, ⟨hpc, hwritten, -, c₁, rfl, hid₁, -, hpc₁⟩ |
    ⟨hwritten, -, hnew⟩⟩ := s.advance_cases k c failure
  · exact h.wrote hc hpc hcalls hid₁ hpc₁ hcounter hwritten
  · apply h.quiet hc hcalls _ hcounter hwritten
    intro c' hc'
    obtain ⟨hid, -, hpc⟩ := hnew c' hc'
    exact ⟨hid, hpc⟩

theorem DistinctIds.step {s t : LogState} (h : DistinctIds s)
    {event : LogEvent B} (hcond : KeepsIds json s event)
    (hstep : logStep json s event = some t) : DistinctIds t := by
  cases event with
  | verdict body => exact h.verdict hcond hstep
  | advance k failure =>
      obtain ⟨c, hc, rfl⟩ := Option.map_eq_some_iff.mp hstep
      exact h.advance hc failure
  | restart =>
      cases hstep
      obtain ⟨hread, hcounter⟩ := hcond
      refine ⟨h.nodup, ?_, nofun, nofun, nofun⟩
      intro l hl
      dsimp only
      rw [loadVerdictLog_counter, toNat_succ hcounter]
      exact Nat.lt_succ_of_le (hread l hl)

theorem distinctIds_of_run (json : VerdictJson B) (events : List (LogEvent B))
    (s : LogState)
    (hkeeps : Along (logStep json) (KeepsIds json)
      (.start json (Files.empty ℕ LogPiece)) events)
    (hrun : run (logStep json) (.start json (Files.empty ℕ LogPiece)) events =
      some s) :
    DistinctIds s := by
  have hstart : DistinctIds (.start json (Files.empty ℕ LogPiece)) :=
    ⟨List.nodup_nil, nofun, nofun, nofun, nofun⟩
  exact invariant_of_along (fun _ _ _ h hcond hstep => h.step hcond hstep)
    hstart hkeeps hrun

/-- No two lines ever written carry the same log id, in every run from an empty
directory whose restarts each read back the largest id written. -/
theorem log_ids_unique (json : VerdictJson B) (events : List (LogEvent B))
    (s : LogState)
    (hkeeps : Along (logStep json) (KeepsIds json)
      (.start json (Files.empty ℕ LogPiece)) events)
    (hrun : run (logStep json) (.start json (Files.empty ℕ LogPiece)) events =
      some s) :
    (s.written.map LogLine.logId).Nodup :=
  (distinctIds_of_run json events s hkeeps hrun).nodup

/-! ### A rotation, and a restart after the next lines -/

theorem keepsIds_advance (s : LogState) (k n : ℕ) :
    Along (logStep json) (KeepsIds json) s (List.replicate n (.advance k none)) := by
  apply Along.of_forall_mem
  intro event hevent t
  rw [List.eq_of_mem_replicate hevent]
  trivial

theorem keepsIds_appendEvents (s : LogState) (hlt : s.counter.toNat + 1 < 2 ^ 64)
    (body : B) : Along (logStep json) (KeepsIds json) s
      (appendEvents s.spawned body) :=
  .cons hlt rfl (keepsIds_advance _ _ _)

theorem keepsIds_rotationEvents (s : LogState) (hlt : s.counter.toNat + 2 < 2 ^ 64)
    (body : B) : Along (logStep json) (KeepsIds json) s
      (rotationEvents s.spawned body) := by
  have hnext : (s.given json body).counter.toNat + 1 < 2 ^ 64 := by
    change (s.counter + 1).toNat + 1 < 2 ^ 64
    rw [toNat_succ (by omega)]
    exact hlt
  refine .cons (t := s.given json body) (by exact Nat.lt_of_succ_lt hlt) rfl
    (.cons (t := (s.given json body).given json body) hnext rfl ?_)
  apply Along.of_forall_mem
  intro event hevent t
  rcases List.mem_append.mp hevent with hmem | hmem
  · rw [List.eq_of_mem_replicate hmem]
    trivial
  · rw [List.eq_of_mem_replicate hmem]
    trivial

theorem max_eq_of_toNat_le {m n : UInt64} (h : m.toNat ≤ n.toNat) : max m n = n :=
  if_pos (UInt64.le_iff_toNat_le.mpr h)

/-- The two lines after the rotation read back with the larger id. -/
theorem readBack_twoWritten (s : LogState) (hlt : s.counter.toNat + 1 < 2 ^ 64) :
    readBack okVerdictJson (s.twoWritten okVerdictJson ()).files = s.counter + 1 := by
  have hbytes : piecesBytes [⟨s.spawned, okVerdictJson.toText s.counter ()⟩,
      ⟨s.spawned, [10]⟩, ⟨s.spawned + 1, okVerdictJson.toText (s.counter + 1) ()⟩,
      ⟨s.spawned + 1, [10]⟩] =
        [s.counter, s.counter + 1].flatMap fun id =>
          okVerdictJson.toText id () ++ [10] := by
    simp [piecesBytes]
  rw [readBack, read_twoWritten]
  dsimp only
  rw [hbytes, parsedVerdicts_okVerdicts]
  change max (max 0 s.counter) (s.counter + 1) = s.counter + 1
  have hzero : (0 : UInt64).toNat ≤ s.counter.toNat := Nat.zero_le _
  rw [max_eq_of_toNat_le hzero, max_eq_of_toNat_le]
  rw [toNat_succ hlt]
  exact Nat.le_succ _

/-- The verifier stops and starts again. -/
def LogState.restarted (json : VerdictJson B) (s : LogState) : LogState :=
  { s with
    counter := (loadVerdictLog json defaultVerdictLogMaxEntries s.files).2
    calls := fun _ => none }

theorem LogState.files_restarted (json : VerdictJson B) (s : LogState) :
    (s.restarted json).files = s.files := rfl

/-- A restart after the rotation meets the condition: the log has the line with
the largest id. -/
theorem keepsIds_restart {s : LogState} (hs : DistinctIds s)
    (hlt : s.counter.toNat + 2 < 2 ^ 64) :
    KeepsIds okVerdictJson (s.twoWritten okVerdictJson ()) .restart := by
  rw [KeepsIds, readBack_twoWritten s (Nat.lt_of_succ_lt hlt),
    toNat_succ (Nat.lt_of_succ_lt hlt)]
  refine ⟨?_, hlt⟩
  intro l hl
  rcases List.mem_append.mp hl with hl | hlast
  · rcases List.mem_append.mp hl with hold | hfirst
    · exact (hs.written_lt l hold).le.trans (Nat.le_succ _)
    · rw [List.mem_singleton.mp hfirst]
      exact Nat.le_succ _
  · rw [List.mem_singleton.mp hlast]
    exact (toNat_succ (Nat.lt_of_succ_lt hlt)).le

/-- The log after the rotation is far below its limit. -/
theorem atLimit_twoWritten (s : LogState) :
    (s.twoWritten okVerdictJson ()).files.atLimit = false := by
  have hfirst := length_okVerdict_le s.counter
  have hsecond := length_okVerdict_le (s.counter + 1)
  have hmax : verdictLogMaxBytes = 52428800 := rfl
  rw [LogFiles.atLimit, read_twoWritten]
  dsimp only
  rw [decide_eq_false_iff_not, Nat.not_le]
  simp only [piecesBytes, List.flatMap_cons, List.flatMap_nil, List.length_append,
    List.length_cons, List.length_nil]
  omega

theorem log_ids_unique_rotated :
    ∃ (events : List (LogEvent Unit)) (s : LogState),
      run (logStep okVerdictJson)
          (.start okVerdictJson (Files.empty ℕ LogPiece)) events = some s ∧
        .restart ∈ events ∧ s.fired = 1 ∧ 4 ≤ s.written.length ∧
        (s.written.map LogLine.logId).Nodup := by
  have hmax : verdictLogMaxBytes = 52428800 := rfl
  have happends : ∀ s : LogState, AtRest s → s.spawned ≤ verdictLogMaxBytes →
      s.files.atLimit = false →
        Along (logStep okVerdictJson) (KeepsIds okVerdictJson) s
          (appendEvents s.spawned ()) := by
    intro s hrest hspawned _
    apply keepsIds_appendEvents
    rw [hrest.counter]
    omega
  obtain ⟨events, s, hkeeps, hrun, hs, hrest, hspawned, hlimit⟩ :=
    exists_fills okVerdictJson () happends
  have hlt : s.counter.toNat + 2 < 2 ^ 64 := by
    rw [hrest.counter]
    omega
  -- The log is rotated, the verifier starts again and goes on.
  let t := s.twoWritten okVerdictJson ()
  let u := t.restarted okVerdictJson
  have hrotates : run (logStep okVerdictJson) s (rotationEvents s.spawned ()) = some t := by
    apply run_rotationEvents hlimit hs.generations
    have hshort := length_okVerdict_le s.counter
    omega
  have hrestarts : logStep okVerdictJson t .restart = some u := rfl
  have hcounter : u.counter.toNat + 1 < 2 ^ 64 := by
    have hnext : (s.counter + 1).toNat = s.counter.toNat + 1 :=
      toNat_succ (Nat.lt_of_succ_lt hlt)
    change (readBack okVerdictJson t.files + 1).toNat + 1 < 2 ^ 64
    rw [readBack_twoWritten s (Nat.lt_of_succ_lt hlt), toNat_succ (by omega), hnext,
      hrest.counter]
    omega
  have hbelow : u.files.atLimit = false := by
    rw [LogState.files_restarted]
    exact atLimit_twoWritten s
  have hlast : run (logStep okVerdictJson) u (appendEvents u.spawned ()) =
      some (u.appended okVerdictJson ()) :=
    run_appendEvents hbelow ()
  have hafter : run (logStep okVerdictJson) t
      (.restart :: appendEvents u.spawned ()) = some (u.appended okVerdictJson ()) :=
    run_cons_eq_some.mpr ⟨u, hrestarts, hlast⟩
  have hdistinct := distinctIds_of_run okVerdictJson events s hkeeps hrun
  have hrun' := run_join hrun (run_join hrotates hafter)
  refine ⟨_, _, hrun', ?_, ?_, ?_, ?_⟩
  · exact List.mem_append_right _ (List.mem_append_right _ List.mem_cons_self)
  · change s.fired + 1 = 1
    rw [hs.fired]
  · have hwritten : 1 ≤ s.written.length := List.length_pos_of_mem hs.written
    change 4 ≤ (s.written ++ [_] ++ [_] ++ [_]).length
    simp only [List.length_append, List.length_singleton]
    omega
  · refine log_ids_unique okVerdictJson _ _ ?_ hrun'
    refine hkeeps.join hrun ((keepsIds_rotationEvents s hlt ()).join hrotates ?_)
    exact .cons (keepsIds_restart hdistinct hlt) hrestarts
      (keepsIds_appendEvents u hcounter ())

/-! ## A restart after a rotation -/

/-- A log at its limit is moved away by the next append. A verifier that stops
then starts again with the first id. -/
theorem exists_reaches_firstId (json : VerdictJson B) (body : B) {s : LogState}
    (hlimit : s.files.atLimit = true) (hnone : ∀ j ≠ 0, s.files.dir j = none) :
    ∃ t, Reaches (logStep json) s t ∧
      t.written.map LogLine.logId = s.written.map LogLine.logId ++ [1] := by
  let k := s.spawned
  let c : AppendCall := ⟨s.counter, json.toText s.counter body, .checking⟩
  let s₁ : LogState :=
    { s with
      counter := s.counter + 1
      calls := Function.update s.calls k (some c)
      spawned := s.spawned + 1 }
  have h₁ : Reaches (logStep json) s s₁ := .of_step (a := .verdict body) rfl
  have hc₁ : s₁.calls k = some c := Function.update_self _ _ _
  let s₂ : LogState :=
    { s₁.goto k c (.removing 5) with fired := s₁.fired + 1 }
  have h₂ : Reaches (logStep json) s₁ s₂ :=
    .of_step (logStep_fires hc₁ rfl hlimit)
  let s₃ := s₂.goto k c (.renaming 1)
  have h₃ : Reaches (logStep json) s₂ s₃ :=
    reaches_renaming (s₁.calls_goto_self k c _) hnone
  let s₄ : LogState :=
    { s₃.goto k c .opening with files := s₃.files.rename 0 1 }
  have h₄ : Reaches (logStep json) s₃ s₄ :=
    .of_step (logStep_renaming_last (c := { c with pc := .renaming 1 })
      (s₂.calls_goto_self k c _) rfl)
  -- The log is gone, so nothing is read back.
  have hdir : s₄.files.dir 0 = none := dir_rename_zero s₃.files
  have hread : s₄.files.read 0 = none := by
    rw [Files.read, hdir]
    rfl
  let s₅ : LogState := s₄.restarted json
  have h₅ : Reaches (logStep json) s₄ s₅ := .of_step (a := .restart) rfl
  have hcounter : s₅.counter = 1 := by
    change readBack json s₄.files + 1 = 1
    rw [readBack, hread]
    rfl
  have hbelow : s₅.files.atLimit = false := by
    rw [LogState.files_restarted, LogFiles.atLimit, hread]
  have h₆ : Reaches (logStep json) s₅ (s₅.appended json body) :=
    .of_run (run_appendEvents hbelow body)
  refine ⟨s₅.appended json body, h₁.trans <| h₂.trans <| h₃.trans <|
    h₄.trans <| h₅.trans h₆, ?_⟩
  change List.map LogLine.logId (s.written ++
    [⟨s₅.spawned, s₅.counter, json.toText s₅.counter body, s₅.fired⟩]) = _
  rw [List.map_append, List.map_singleton, hcounter]

/-- Two lines carry the log id 1. -/
theorem log_ids_repeat :
    ¬ ∀ (events : List (LogEvent Unit)) (s : LogState),
      run (logStep okVerdictJson)
          (.start okVerdictJson (Files.empty ℕ LogPiece)) events = some s →
      (s.written.map LogLine.logId).Nodup := by
  intro hunique
  obtain ⟨s, hfill, hs, hlimit⟩ := exists_reaches_atLimit okVerdictJson ()
  obtain ⟨t, hrepeat, hids⟩ :=
    exists_reaches_firstId okVerdictJson () hlimit hs.generations
  obtain ⟨events, hrun⟩ := hfill.trans hrepeat
  have hnodup := hunique events t hrun
  rw [hids] at hnodup
  have hfirst : (1 : UInt64) ∈ s.written.map LogLine.logId :=
    List.mem_map.mpr ⟨_, hs.written, rfl⟩
  exact List.disjoint_of_nodup_append hnodup hfirst List.mem_cons_self

end ReserveGrid.Verifier
