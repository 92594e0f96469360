import ReserveGrid.Support.Files
import ReserveGrid.Support.JsonTree
import ReserveGrid.Support.Run

/-!
# The verdict log

Every verdict gets the next log id and is appended to the log by a task of its
own. An append first rotates the log when it has reached its size limit, then
opens it and writes the line. The tasks share no lock, so a run is a list of
events in which each task advances by one file-system step at a time. A restart
drops the tasks and takes the next id from what the current log reads back.
-/

namespace ReserveGrid.Verifier

open Support JsonText

def verdictLogMaxBytes : ℕ := 50 * 1024 * 1024

def verdictLogRotations : ℕ := 5

def defaultVerdictLogMaxEntries : ℕ := 1000

/-- How a logged verdict is written and read. It is its log id and its other
fields. -/
structure VerdictJson (B : Type) where
  toText : UInt64 → B → Bytes
  fromStr : List Char → Option (UInt64 × B)

/-! ## Files -/

/-- What one write added to a file, with the append that made it. -/
structure LogPiece where
  call : ℕ
  bytes : Bytes
  deriving DecidableEq

/-- The log is the name 0 and its generations are the names from 1 on. -/
abbrev LogFiles := Files ℕ LogPiece

def piecesBytes (pieces : List LogPiece) : Bytes :=
  pieces.flatMap LogPiece.bytes

/-- Whether the log has reached its size limit. A log that is not there has
not. -/
def LogFiles.atLimit (files : LogFiles) : Bool :=
  match files.read 0 with
  | none => false
  | some pieces => verdictLogMaxBytes ≤ (piecesBytes pieces).length

/-! ## Loading -/

section

variable {B : Type} (json : VerdictJson B)

/-- The lines of a file up to the first that is not text. -/
def textLines : List Bytes → List String
  | [] => []
  | line :: rest =>
      match fromUtf8 line with
      | none => []
      | some s => s :: textLines rest

/-- The verdicts of a file. Blank lines and lines that are no verdict are passed
over. -/
def parsedVerdicts (file : Bytes) : List (UInt64 × B) :=
  (textLines (lines file)).filterMap fun line =>
    let line := trim line.toList
    if line.isEmpty then none else json.fromStr line

def maxLogId (verdicts : List (UInt64 × B)) : UInt64 :=
  verdicts.foldl (fun maxId v => max maxId v.1) 0

/-- The newest verdicts of the log and the next log id. -/
def loadVerdictLog (maxEntries : ℕ) (files : LogFiles) :
    List (UInt64 × B) × UInt64 :=
  let list :=
    match files.read 0 with
    | none => []
    | some pieces => parsedVerdicts json (piecesBytes pieces)
  (list.drop (list.length - maxEntries), maxLogId list + 1)

end

/-! ## Appending -/

/-- The next file-system step of an append. -/
inductive AppendPc where
  | checking
  | removing (i : ℕ)
  | renaming (i : ℕ)
  | opening
  | writing (file : ℕ)
  | ending (file : ℕ)
  | syncing
  deriving DecidableEq

/-- The append has written its line. -/
def AppendPc.isWritten : AppendPc → Bool
  | .ending _ | .syncing => true
  | _ => false

structure AppendCall where
  logId : UInt64
  text : Bytes
  pc : AppendPc
  deriving DecidableEq

/-- A line that was written: its append, its log id, and how often a size check
had found the log at its limit by then. -/
structure LogLine where
  call : ℕ
  logId : UInt64
  text : Bytes
  fired : ℕ

/-- A verifier with its log. The lines written, the appends that returned and
the number of size checks that fired are kept for the history. -/
structure LogState where
  files : LogFiles
  counter : UInt64
  calls : ℕ → Option AppendCall
  spawned : ℕ
  written : List LogLine
  returned : List ℕ
  fired : ℕ

namespace LogState

/-- An append goes on to its next step. -/
def goto (s : LogState) (k : ℕ) (c : AppendCall) (pc : AppendPc) : LogState :=
  { s with calls := Function.update s.calls k (some { c with pc := pc }) }

/-- An append ends. -/
def finish (s : LogState) (k : ℕ) : LogState :=
  { s with calls := Function.update s.calls k none }

/-- One file-system step of an append, which may fail. A write that fails may
have written part of its bytes. -/
def advance (s : LogState) (k : ℕ) (c : AppendCall) (failure : Option ℕ) :
    LogState :=
  match c.pc, failure with
  | .checking, none =>
      if s.files.atLimit then
        { s.goto k c (.removing verdictLogRotations) with fired := s.fired + 1 }
      else s.goto k c .opening
  | .checking, some _ => s.goto k c .opening
  | .removing i, none =>
      { s.goto k c (.renaming i) with files := s.files.remove i }
  | .removing i, some _ => s.goto k c (.renaming i)
  | .renaming i, failure =>
      let pc := if i ≤ 1 then .opening else .removing (i - 1)
      { s.goto k c pc with
        files := if failure.isNone then s.files.rename (i - 1) i else s.files }
  | .opening, none =>
      let opened := s.files.openAppend 0
      { s.goto k c (.writing opened.2) with files := opened.1 }
  | .writing file, none =>
      { s.goto k c (.ending file) with
        files := s.files.append file [⟨k, c.text⟩]
        written := s.written ++ [⟨k, c.logId, c.text, s.fired⟩] }
  | .writing file, some n =>
      { s.finish k with
        files := s.files.append file [⟨k, c.text.dropLast.take n⟩] }
  | .ending file, none =>
      { s.goto k c .syncing with files := s.files.append file [⟨k, [10]⟩] }
  | .syncing, none => { s.finish k with returned := s.returned ++ [k] }
  | .opening, some _ | .ending _, some _ | .syncing, some _ => s.finish k

/-- A step of an append writes its line, or leaves the lines alone. Only an
append that has written its line returns. -/
theorem advance_cases (s : LogState) (k : ℕ) (c : AppendCall)
    (failure : Option ℕ) :
    ∃ new, (s.advance k c failure).calls = Function.update s.calls k new ∧
      (s.advance k c failure).counter = s.counter ∧
      ((c.pc.isWritten = false ∧
          (s.advance k c failure).written =
            s.written ++ [⟨k, c.logId, c.text, s.fired⟩] ∧
          (s.advance k c failure).returned = s.returned ∧
          ∃ c', new = some c' ∧ c'.logId = c.logId ∧ c'.text = c.text ∧
            c'.pc.isWritten = true) ∨
        ((s.advance k c failure).written = s.written ∧
          ((s.advance k c failure).returned = s.returned ∨
            (c.pc.isWritten = true ∧
              (s.advance k c failure).returned = s.returned ++ [k])) ∧
          ∀ c', new = some c' → c'.logId = c.logId ∧ c'.text = c.text ∧
            c'.pc.isWritten = c.pc.isWritten)) := by
  have hsome : ∀ pc : AppendPc, pc.isWritten = c.pc.isWritten →
      ∀ c', some { c with pc := pc } = some c' → c'.logId = c.logId ∧
        c'.text = c.text ∧ c'.pc.isWritten = c.pc.isWritten := by
    intro pc hpc c' hc'
    cases hc'
    exact ⟨rfl, rfl, hpc⟩
  unfold advance
  split
  · next hpc =>
      split
      · exact ⟨_, rfl, rfl, .inr ⟨rfl, .inl rfl, hsome _ (by rw [hpc]; rfl)⟩⟩
      · exact ⟨_, rfl, rfl, .inr ⟨rfl, .inl rfl, hsome _ (by rw [hpc]; rfl)⟩⟩
  · next hpc =>
      exact ⟨_, rfl, rfl, .inr ⟨rfl, .inl rfl, hsome _ (by rw [hpc]; rfl)⟩⟩
  · next hpc =>
      exact ⟨_, rfl, rfl, .inr ⟨rfl, .inl rfl, hsome _ (by rw [hpc]; rfl)⟩⟩
  · next hpc =>
      exact ⟨_, rfl, rfl, .inr ⟨rfl, .inl rfl, hsome _ (by rw [hpc]; rfl)⟩⟩
  · next i hpc =>
      refine ⟨_, rfl, rfl, .inr ⟨rfl, .inl rfl, hsome _ ?_⟩⟩
      rw [hpc]
      by_cases hlast : i ≤ 1
      · rw [if_pos hlast]
        rfl
      · rw [if_neg hlast]
        rfl
  · next hpc =>
      exact ⟨_, rfl, rfl, .inr ⟨rfl, .inl rfl, hsome _ (by rw [hpc]; rfl)⟩⟩
  · next hpc =>
      exact ⟨_, rfl, rfl, .inl ⟨by rw [hpc]; rfl, rfl, rfl, _, rfl, rfl, rfl, rfl⟩⟩
  · exact ⟨_, rfl, rfl, .inr ⟨rfl, .inl rfl, nofun⟩⟩
  · next hpc =>
      exact ⟨_, rfl, rfl, .inr ⟨rfl, .inl rfl, hsome _ (by rw [hpc]; rfl)⟩⟩
  · next hpc =>
      exact ⟨_, rfl, rfl, .inr ⟨rfl, .inr ⟨by rw [hpc]; rfl, rfl⟩, nofun⟩⟩
  · exact ⟨_, rfl, rfl, .inr ⟨rfl, .inl rfl, nofun⟩⟩
  · exact ⟨_, rfl, rfl, .inr ⟨rfl, .inl rfl, nofun⟩⟩
  · exact ⟨_, rfl, rfl, .inr ⟨rfl, .inl rfl, nofun⟩⟩

end LogState

/-- A verdict is given, an append takes its next step, or the verifier stops at
any point and starts again. -/
inductive LogEvent (B : Type) where
  | verdict (body : B)
  | advance (call : ℕ) (failure : Option ℕ)
  | restart

section

variable {B : Type} (json : VerdictJson B)

def logStep (s : LogState) : LogEvent B → Option LogState
  | .verdict body =>
      some
        { s with
          counter := s.counter + 1
          calls := Function.update s.calls s.spawned
            (some ⟨s.counter, json.toText s.counter body, .checking⟩)
          spawned := s.spawned + 1 }
  | .advance k failure => (s.calls k).map fun c => s.advance k c failure
  | .restart =>
      some
        { s with
          counter := (loadVerdictLog json defaultVerdictLogMaxEntries s.files).2
          calls := fun _ => none }

/-- A verifier that starts on the files of a directory. -/
def LogState.start (files : LogFiles) : LogState where
  files := files
  counter := (loadVerdictLog json defaultVerdictLogMaxEntries files).2
  calls := fun _ => none
  spawned := 0
  written := []
  returned := []
  fired := 0

end

/-! ## Appends one after another -/

section

variable {B : Type} {json : VerdictJson B}

/-- The size of the log. -/
def LogFiles.size (files : LogFiles) : ℕ :=
  match files.read 0 with
  | none => 0
  | some pieces => (piecesBytes pieces).length

theorem LogFiles.atLimit_iff (files : LogFiles) :
    files.atLimit = true ↔ verdictLogMaxBytes ≤ files.size := by
  unfold LogFiles.atLimit LogFiles.size
  cases files.read 0 with
  | none => simp [verdictLogMaxBytes]
  | some pieces => simp

/-- The state after an append wrote its line and returned. -/
def LogState.wrote (s : LogState) (k : ℕ) (c : AppendCall) : LogState :=
  let opened := s.files.openAppend 0
  { s with
    files := (opened.1.append opened.2 [⟨k, c.text⟩]).append opened.2 [⟨k, [10]⟩]
    calls := Function.update s.calls k none
    written := s.written ++ [⟨k, c.logId, c.text, s.fired⟩]
    returned := s.returned ++ [k] }

/-- An append that finds the log below its limit. -/
theorem run_wrote {s : LogState} {k : ℕ} {c : AppendCall} (hc : s.calls k = some c)
    (hpc : c.pc = .checking) (hlimit : s.files.atLimit = false) :
    run (logStep json) s (List.replicate 5 (.advance k none)) =
      some (s.wrote k c) := by
  simp [List.replicate, run, logStep, LogState.advance, LogState.goto,
    LogState.finish, hc, hpc, hlimit, LogState.wrote]

/-- A line that was written is the last of the log. -/
theorem read_wrote (s : LogState) (k : ℕ) (c : AppendCall) :
    (s.wrote k c).files.read 0 =
      some ((s.files.read 0).getD [] ++ [⟨k, c.text⟩, ⟨k, [10]⟩]) := by
  cases hdir : s.files.dir 0 with
  | none =>
      simp [LogState.wrote, Files.read, Files.append, Files.openAppend_of_none hdir, hdir]
  | some file =>
      simp [LogState.wrote, Files.read, Files.append, Files.openAppend_of_some hdir, hdir]

/-- The state after a verdict was given. -/
def LogState.given (json : VerdictJson B) (s : LogState) (body : B) : LogState :=
  { s with
    counter := s.counter + 1
    calls := Function.update s.calls s.spawned
      (some ⟨s.counter, json.toText s.counter body, .checking⟩)
    spawned := s.spawned + 1 }

/-- The state after a verdict whose append found the log below its limit. -/
def LogState.appended (json : VerdictJson B) (s : LogState) (body : B) :
    LogState :=
  (s.given json body).wrote s.spawned
    ⟨s.counter, json.toText s.counter body, .checking⟩

/-- The events of one append from its verdict to its return. -/
def appendEvents (k : ℕ) (body : B) : List (LogEvent B) :=
  .verdict body :: List.replicate 5 (.advance k none)

theorem run_appendEvents {s : LogState} (hlimit : s.files.atLimit = false)
    (body : B) :
    run (logStep json) s (appendEvents s.spawned body) =
      some (s.appended json body) := by
  apply run_cons_eq_some.mpr
  refine ⟨s.given json body, rfl, ?_⟩
  exact run_wrote (Function.update_self _ _ _) rfl hlimit

/-- An append adds its line to the log. -/
theorem size_appended (s : LogState) (body : B) :
    (s.appended json body).files.size =
      s.files.size + (json.toText s.counter body).length + 1 := by
  rw [LogFiles.size, LogState.appended, read_wrote, LogFiles.size]
  change (piecesBytes ((s.files.read 0).getD [] ++ _)).length = _
  cases s.files.read 0 with
  | none => simp [piecesBytes]
  | some pieces => simp [piecesBytes, Nat.add_assoc]

/-- Nothing has been rotated yet, and the line `l` of an append that returned is
in the log. -/
structure Unrotated (l : LogLine) (s : LogState) : Prop where
  wellFormed : s.files.WellFormed
  generations : ∀ j ≠ 0, s.files.dir j = none
  fired : s.fired = 0
  written : l ∈ s.written
  returned : l.call ∈ s.returned
  holds : s.files.Holds 0 ⟨l.call, l.text⟩

theorem dir_appended (s : LogState) (body : B) {j : ℕ} (hj : j ≠ 0) :
    (s.appended json body).files.dir j = s.files.dir j := by
  change (s.files.openAppend 0).1.dir j = s.files.dir j
  cases hdir : s.files.dir 0 with
  | none =>
      rw [Files.openAppend_of_none hdir]
      exact Function.update_of_ne hj _ _
  | some file => rw [Files.openAppend_of_some hdir]

theorem Unrotated.appended {l : LogLine} {s : LogState} (h : Unrotated l s)
    (body : B) : Unrotated l (s.appended json body) := by
  refine ⟨h.wellFormed.openAppend 0, ?_, h.fired, ?_, ?_, ?_⟩
  · intro j hj
    rw [dir_appended s body hj]
    exact h.generations j hj
  · exact List.mem_append_left _ h.written
  · exact List.mem_append_left _ h.returned
  · exact ((h.holds.openAppend h.wellFormed 0).append _ _).append _ _

/-- The first line of a log. -/
def firstLine (json : VerdictJson B) (body : B) : LogLine :=
  ⟨0, 1, json.toText 1 body, 0⟩

theorem unrotated_first (body : B) :
    Unrotated (firstLine json body)
      ((LogState.start json (Files.empty ℕ LogPiece)).appended json body) := by
  refine ⟨Files.wellFormed_empty.openAppend 0, ?_, rfl, ?_, ?_, ?_⟩
  · intro j hj
    rw [dir_appended _ _ hj]
    rfl
  · exact List.mem_cons_self
  · exact List.mem_cons_self
  · exact (Files.holds_append_self (Files.dir_openAppend _ _) _).append _ _

/-- No append is under way, and the ids given out are those from 1 on. -/
structure AtRest (s : LogState) : Prop where
  calls : s.calls = fun _ => none
  counter : s.counter.toNat = s.spawned + 1

theorem atRest_start : AtRest (.start json (Files.empty ℕ LogPiece)) := ⟨rfl, rfl⟩

theorem AtRest.appended {s : LogState} (h : AtRest s)
    (hspawned : s.spawned ≤ verdictLogMaxBytes) (body : B) :
    AtRest (s.appended json body) := by
  constructor
  · change Function.update (Function.update s.calls s.spawned _) s.spawned none = _
    rw [Function.update_idem, h.calls, Function.update_eq_self_iff]
  · change (s.counter + 1).toNat = s.spawned + 1 + 1
    have hmax : verdictLogMaxBytes = 52428800 := rfl
    rw [UInt64.toNat_add, UInt64.toNat_one, h.counter, Nat.mod_eq_of_lt (by omega)]

/-- Enough appends bring the log to its limit. They may be asked to meet a
condition that single appends meet. -/
theorem exists_fills_size (json : VerdictJson B) (body : B)
    {C : LogState → LogEvent B → Prop}
    (hC : ∀ s : LogState, AtRest s → s.spawned ≤ verdictLogMaxBytes →
      s.files.atLimit = false →
        Along (logStep json) C s (appendEvents s.spawned body))
    (n : ℕ) (hn : n ≤ verdictLogMaxBytes) :
    ∃ events s, Along (logStep json) C (.start json (Files.empty ℕ LogPiece)) events ∧
      run (logStep json) (.start json (Files.empty ℕ LogPiece)) events = some s ∧
      Unrotated (firstLine json body) s ∧ AtRest s ∧ s.spawned ≤ n + 1 ∧
      n ≤ s.files.size := by
  induction n with
  | zero =>
      have hfirst : AtRest ((LogState.start json (Files.empty ℕ LogPiece)).appended
          json body) :=
        atRest_start.appended (Nat.zero_le _) body
      exact ⟨_, _, hC _ atRest_start (Nat.zero_le _) rfl, run_appendEvents rfl body,
        unrotated_first body, hfirst, Nat.le_refl 1, Nat.zero_le _⟩
  | succ n ih =>
      obtain ⟨events, s, halong, hrun, hs, hrest, hspawned, hsize⟩ := ih (by omega)
      by_cases hlimit : s.files.atLimit = true
      · rw [LogFiles.atLimit_iff] at hlimit
        exact ⟨events, s, halong, hrun, hs, hrest, by omega, by omega⟩
      · rw [Bool.not_eq_true] at hlimit
        refine ⟨_, s.appended json body,
          halong.join hrun (hC s hrest (by omega) hlimit),
          run_join hrun (run_appendEvents hlimit body), hs.appended body,
          hrest.appended (by omega) body, Nat.succ_le_succ hspawned, ?_⟩
        rw [size_appended]
        omega

/-- A log at its limit that has not been rotated. -/
theorem exists_fills (json : VerdictJson B) (body : B)
    {C : LogState → LogEvent B → Prop}
    (hC : ∀ s : LogState, AtRest s → s.spawned ≤ verdictLogMaxBytes →
      s.files.atLimit = false →
        Along (logStep json) C s (appendEvents s.spawned body)) :
    ∃ events s, Along (logStep json) C (.start json (Files.empty ℕ LogPiece)) events ∧
      run (logStep json) (.start json (Files.empty ℕ LogPiece)) events = some s ∧
      Unrotated (firstLine json body) s ∧ AtRest s ∧
      s.spawned ≤ verdictLogMaxBytes + 1 ∧ s.files.atLimit = true := by
  obtain ⟨events, s, halong, hrun, hs, hrest, hspawned, hsize⟩ :=
    exists_fills_size json body hC verdictLogMaxBytes le_rfl
  exact ⟨events, s, halong, hrun, hs, hrest, hspawned,
    (LogFiles.atLimit_iff _).mpr hsize⟩

theorem exists_reaches_atLimit (json : VerdictJson B) (body : B) :
    ∃ s, Reaches (logStep json) (.start json (Files.empty ℕ LogPiece)) s ∧
      Unrotated (firstLine json body) s ∧ s.files.atLimit = true := by
  have hanything : ∀ s : LogState, AtRest s → s.spawned ≤ verdictLogMaxBytes →
      s.files.atLimit = false →
        Along (logStep json) (fun _ _ => True) s (appendEvents s.spawned body) := by
    intro s _ _ _
    exact .of_forall_mem fun _ _ _ => trivial
  obtain ⟨events, s, -, hrun, hs, -, -, hlimit⟩ :=
    exists_fills json body hanything
  exact ⟨s, .of_run hrun, hs, hlimit⟩

/-! ## A rotation without older generations -/

theorem LogState.goto_goto (s : LogState) (k : ℕ) (c : AppendCall)
    (pc pc' : AppendPc) :
    (s.goto k c pc).goto k { c with pc := pc } pc' = s.goto k c pc' := by
  simp [LogState.goto]

theorem LogState.goto_self {s : LogState} {k : ℕ} {c : AppendCall}
    (hc : s.calls k = some c) : s.goto k c c.pc = s := by
  have hsame : Function.update s.calls k (some { c with pc := c.pc }) = s.calls :=
    Function.update_eq_self_iff.mpr hc.symm
  rw [LogState.goto, hsame]

@[simp] theorem LogState.calls_goto_self (s : LogState) (k : ℕ)
    (c : AppendCall) (pc : AppendPc) :
    (s.goto k c pc).calls k = some { c with pc := pc } :=
  Function.update_self _ _ _

theorem LogState.calls_goto_of_ne (s : LogState) {k k' : ℕ} (hne : k' ≠ k)
    (c : AppendCall) (pc : AppendPc) : (s.goto k c pc).calls k' = s.calls k' :=
  Function.update_of_ne hne _ _

/-- Without a file to move, a step of the rotation changes nothing. -/
theorem run_hollow {s : LogState} {k i : ℕ} {c : AppendCall}
    (hc : s.calls k = some c) (hpc : c.pc = .removing (i + 2))
    (hnone : ∀ j ≠ 0, s.files.dir j = none) :
    run (logStep json) s (List.replicate 2 (.advance k none)) =
      some (s.goto k c (.removing (i + 1))) := by
  have hremove : s.files.remove (i + 2) = s.files := by
    rw [Files.remove, Function.update_eq_self_iff.mpr]
    exact (hnone (i + 2) (by omega)).symm
  have hrename : s.files.rename (i + 1) (i + 2) = s.files :=
    Files.rename_of_none (hnone (i + 1) (by omega)) _
  simp [List.replicate, run, logStep, LogState.advance, LogState.goto, hc, hpc,
    hremove, hrename]

/-- A rotation of a log without generations comes down to its last rename. -/
theorem run_last {s : LogState} {k : ℕ} {c : AppendCall} {i : ℕ}
    (hc : s.calls k = some c) (hpc : c.pc = .removing (i + 1))
    (hnone : ∀ j ≠ 0, s.files.dir j = none) :
    run (logStep json) s (List.replicate (2 * i) (.advance k none)) =
      some (s.goto k c (.removing 1)) := by
  induction i generalizing s c with
  | zero =>
      rw [← hpc, LogState.goto_self hc]
      rfl
  | succ i ih =>
      have hrest := ih (s.calls_goto_self k c (.removing (i + 1))) rfl hnone
      rw [LogState.goto_goto] at hrest
      rw [Nat.mul_add, Nat.add_comm, List.replicate_add]
      exact run_join (run_hollow hc hpc hnone) hrest

theorem reaches_last {s : LogState} {k : ℕ} {c : AppendCall} {i : ℕ}
    (hc : s.calls k = some c) (hpc : c.pc = .removing (i + 1))
    (hnone : ∀ j ≠ 0, s.files.dir j = none) :
    Reaches (logStep json) s (s.goto k c (.removing 1)) :=
  .of_run (run_last hc hpc hnone)

/-- The size check of an append that finds the log at its limit. -/
theorem logStep_fires {s : LogState} {k : ℕ} {c : AppendCall}
    (hc : s.calls k = some c) (hpc : c.pc = .checking)
    (hlimit : s.files.atLimit = true) :
    logStep json s (.advance k none) =
      some { s.goto k c (.removing verdictLogRotations) with
        fired := s.fired + 1 } := by
  simp [logStep, hc, LogState.advance, hpc, hlimit]

/-- The last two steps of a rotation. -/
theorem logStep_removing {s : LogState} {k i : ℕ} {c : AppendCall}
    (hc : s.calls k = some c) (hpc : c.pc = .removing i) :
    logStep json s (.advance k none) =
      some { s.goto k c (.renaming i) with files := s.files.remove i } := by
  simp [logStep, hc, LogState.advance, hpc]

theorem logStep_renaming_last {s : LogState} {k : ℕ} {c : AppendCall}
    (hc : s.calls k = some c) (hpc : c.pc = .renaming 1) :
    logStep json s (.advance k none) =
      some { s.goto k c .opening with files := s.files.rename 0 1 } := by
  simp [logStep, hc, LogState.advance, hpc]

/-- The same rotation one step further. -/
theorem reaches_renaming {s : LogState} {k : ℕ} {c : AppendCall}
    (hc : s.calls k = some { c with pc := .removing 5 })
    (hnone : ∀ j ≠ 0, s.files.dir j = none) :
    Reaches (logStep json) s (s.goto k c (.renaming 1)) := by
  have hlast : Reaches (logStep json) s (s.goto k c (.removing 1)) :=
    reaches_last (c := { c with pc := .removing 5 }) (i := 4) hc rfl hnone
  have hremove : s.files.remove 1 = s.files := by
    rw [Files.remove, Function.update_eq_self_iff.mpr]
    exact (hnone 1 one_ne_zero).symm
  have hstep : logStep json (s.goto k c (.removing 1)) (.advance k none) =
      some (s.goto k c (.renaming 1)) := by
    rw [logStep_removing (s.calls_goto_self k c _) rfl, LogState.goto_goto]
    change some { s.goto k c (.renaming 1) with files := s.files.remove 1 } = _
    rw [hremove]
    rfl
  exact hlast.trans (.of_step hstep)

/-- After the last rename there is no log. -/
theorem dir_rename_zero (files : LogFiles) : (files.rename 0 1).dir 0 = none := by
  cases hdir : files.dir 0 with
  | none => rw [Files.rename_of_none hdir, hdir]
  | some file =>
      rw [Files.rename_of_some hdir]
      simp

/-- The state after the rotation of a log without generations. -/
def LogState.rotated (s : LogState) : LogState :=
  { s with files := s.files.rename 0 1, fired := s.fired + 1 }

/-- An append that finds the log at its limit, with no generation yet. -/
theorem run_rotated {s : LogState} {k : ℕ} {c : AppendCall} (hc : s.calls k = some c)
    (hpc : c.pc = .checking) (hlimit : s.files.atLimit = true)
    (hnone : ∀ j ≠ 0, s.files.dir j = none) :
    run (logStep json) s (List.replicate 15 (.advance k none)) =
      some (s.rotated.wrote k c) := by
  let t : LogState :=
    { s.goto k c (.removing verdictLogRotations) with fired := s.fired + 1 }
  have hremove : s.files.remove 1 = s.files := by
    rw [Files.remove, Function.update_eq_self_iff.mpr]
    exact (hnone 1 one_ne_zero).symm
  have hlast : run (logStep json) t (List.replicate 8 (.advance k none)) =
      some (t.goto k c (.removing 1)) :=
    run_last (c := { c with pc := .removing 5 }) (i := 4) (s.calls_goto_self k c _) rfl
      hnone
  apply run_cons_eq_some.mpr
  refine ⟨t, logStep_fires hc hpc hlimit, ?_⟩
  rw [List.replicate_add 8 6]
  apply run_join hlast
  simp [List.replicate, run, logStep, LogState.advance, LogState.goto,
    LogState.finish, hremove, LogState.wrote, LogState.rotated, t]

/-- Two verdicts at once. The append of the first rotates the log and writes its
line while that of the second waits. -/
def rotationEvents (k : ℕ) (body : B) : List (LogEvent B) :=
  .verdict body :: .verdict body ::
    (List.replicate 15 (.advance k none) ++ List.replicate 5 (.advance (k + 1) none))

/-- The appends of the two verdicts. -/
def LogState.firstCall (json : VerdictJson B) (s : LogState) (body : B) :
    AppendCall :=
  ⟨s.counter, json.toText s.counter body, .checking⟩

def LogState.twoWritten (json : VerdictJson B) (s : LogState) (body : B) : LogState :=
  ((((s.given json body).given json body).rotated).wrote s.spawned
    (s.firstCall json body)).wrote (s.spawned + 1)
      ((s.given json body).firstCall json body)

theorem read_rotated (s : LogState) : s.rotated.files.read 0 = none := by
  rw [Files.read]
  exact congrArg (Option.map _) (dir_rename_zero s.files)

/-- Both lines are in the log after the rotation, and nothing else. -/
theorem read_twoWritten (s : LogState) (body : B) :
    (s.twoWritten json body).files.read 0 =
      some [⟨s.spawned, json.toText s.counter body⟩, ⟨s.spawned, [10]⟩,
        ⟨s.spawned + 1, json.toText (s.counter + 1) body⟩,
        ⟨s.spawned + 1, [10]⟩] := by
  rw [LogState.twoWritten, read_wrote, read_wrote, read_rotated]
  rfl

theorem run_rotationEvents {s : LogState} (hlimit : s.files.atLimit = true)
    (hnone : ∀ j ≠ 0, s.files.dir j = none) (body : B)
    (hshort : (json.toText s.counter body).length + 1 < verdictLogMaxBytes) :
    run (logStep json) s (rotationEvents s.spawned body) =
      some (s.twoWritten json body) := by
  let t := (s.given json body).given json body
  have hne : s.spawned ≠ s.spawned + 1 := Nat.ne_of_lt (Nat.lt_succ_self _)
  have hfirst : t.calls s.spawned = some (s.firstCall json body) :=
    (Function.update_of_ne hne _ _).trans (Function.update_self _ _ _)
  have hsecond : t.calls (s.spawned + 1) =
      some ((s.given json body).firstCall json body) :=
    Function.update_self _ _ _
  have hwaits : (t.rotated.wrote s.spawned (s.firstCall json body)).calls
      (s.spawned + 1) = some ((s.given json body).firstCall json body) :=
    (Function.update_of_ne hne.symm _ _).trans hsecond
  have hbelow : (t.rotated.wrote s.spawned
      (s.firstCall json body)).files.atLimit = false := by
    rw [LogFiles.atLimit, read_wrote, read_rotated]
    change decide (verdictLogMaxBytes ≤ (piecesBytes _).length) = false
    rw [decide_eq_false_iff_not, Nat.not_le]
    simpa [piecesBytes, LogState.firstCall] using hshort
  refine run_cons_eq_some.mpr ⟨s.given json body, rfl,
    run_cons_eq_some.mpr ⟨t, rfl, ?_⟩⟩
  exact run_join (run_rotated hfirst rfl hlimit hnone) (run_wrote hwaits rfl hbelow)

end

/-! ## Accepted verdicts as they stand in the log -/

def okVerdictHeadText : String := "\x7b\"log_id\":"

def okVerdictHead : List Char := okVerdictHeadText.toList

def okVerdictTailText : String :=
  (",\"template_id\":1,\"height\":900000,\"total_fees\":0,\"tx_count\":1," ++
    "\"accepted\":true,\"reason\":\"ok\",\"reason_code\":null," ++
    "\"reason_detail\":null,\"timestamp\":1700000000,\"min_avg_fee_used\":0," ++
    "\"fee_tier\":\"low\",\"tier_source\":\"measured\"," ++
    "\"avg_fee_sats_per_tx\":0,\"template_weight\":null," ++
    "\"total_sigops\":null,\"coinbase_sigops\":null," ++
    "\"created_at_unix_ms\":null,\"safety_warnings\":[]\x7d")

def okVerdictTail : List Char := okVerdictTailText.toList

/-- Verdicts that differ in their log ids only. -/
def okVerdictJson : VerdictJson Unit where
  toText id _ := utf8 (String.ofList
    (okVerdictHead ++ Nat.toDigits 10 id.toNat ++ okVerdictTail))
  fromStr line :=
    if okVerdictHead.isPrefixOf line && okVerdictTail.isSuffixOf line then
      let digits := (line.drop okVerdictHead.length).take
        (line.length - okVerdictHead.length - okVerdictTail.length)
      match readDecimal (utf8 (String.ofList digits)) with
      | none => none
      | some n => if n < 2 ^ 64 then some (UInt64.ofNat n, ()) else none
    else none

theorem okVerdict_bytes (id : UInt64) :
    okVerdictJson.toText id () =
      asBytes okVerdictHead ++ (decimal id.toNat ++ asBytes okVerdictTail) := by
  change utf8 _ = _
  rw [utf8_eq_asBytes, String.toList_ofList, asBytes, List.flatMap_append,
    List.flatMap_append, List.append_assoc]
  congr 2
  exact asBytes_toDigits id.toNat

theorem okVerdictHead_bytes :
    ∃ rest, asBytes okVerdictHead = 0x7b :: rest ∧ 10 ∉ rest ∧ rest.length ≤ 20 := by
  have hbytes : asBytes okVerdictHead = utf8 okVerdictHeadText :=
    (utf8_eq_asBytes _).symm
  rw [hbytes]
  refine ⟨(utf8 okVerdictHeadText).tail, ?_⟩
  decide +kernel

theorem okVerdictTail_bytes :
    ∃ init, asBytes okVerdictTail = init ++ [0x7d] ∧ 10 ∉ init ∧
      init.length ≤ 450 := by
  have hbytes : asBytes okVerdictTail = utf8 okVerdictTailText :=
    (utf8_eq_asBytes _).symm
  rw [hbytes]
  refine ⟨(utf8 okVerdictTailText).dropLast, ?_⟩
  decide +kernel

/-- A verdict is short, and it is one line. -/
theorem length_okVerdict_le (id : UInt64) : (okVerdictJson.toText id ()).length ≤ 500 := by
  obtain ⟨rest, hhead, -, hrest⟩ := okVerdictHead_bytes
  obtain ⟨init, htail, -, hinit⟩ := okVerdictTail_bytes
  have hdigits : (decimal id.toNat).length ≤ 20 :=
    length_decimal_le (by decide) (id.toNat_lt.trans (by decide))
  rw [okVerdict_bytes, hhead, htail]
  simp only [List.length_append, List.length_cons, List.length_nil]
  omega

theorem isLine_okVerdict (id : UInt64) : IsLine (okVerdictJson.toText id ()) := by
  obtain ⟨rest, hhead, hrest, -⟩ := okVerdictHead_bytes
  obtain ⟨init, htail, hinit, -⟩ := okVerdictTail_bytes
  rw [okVerdict_bytes, hhead, htail, ← List.append_assoc, ← List.append_assoc]
  constructor
  · intro hmem
    rcases List.mem_append.mp hmem with hmem | hlast
    · rcases List.mem_append.mp hmem with hmem | hmem
      · rcases List.mem_append.mp hmem with hmem | hmem
        · rcases List.mem_cons.mp hmem with hfirst | hmem
          · exact absurd hfirst (by decide)
          · exact hrest hmem
        · exact absurd (mem_decimal hmem).1 (by decide)
      · exact hinit hmem
    · exact absurd (List.mem_singleton.mp hlast) (by decide)
  · rw [List.getLast?_concat]
    decide

/-- A verdict reads back with its id. -/
theorem okVerdict_fromStr (id : UInt64) :
    okVerdictJson.fromStr
      (okVerdictHead ++ Nat.toDigits 10 id.toNat ++ okVerdictTail) = some (id, ()) := by
  have hprefix : okVerdictHead.isPrefixOf
      (okVerdictHead ++ Nat.toDigits 10 id.toNat ++ okVerdictTail) = true := by
    rw [List.isPrefixOf_iff_prefix, List.append_assoc]
    exact List.prefix_append _ _
  have hsuffix : okVerdictTail.isSuffixOf
      (okVerdictHead ++ Nat.toDigits 10 id.toNat ++ okVerdictTail) = true := by
    rw [List.isSuffixOf_iff_suffix]
    exact List.suffix_append _ _
  have hdigits : ((okVerdictHead ++ Nat.toDigits 10 id.toNat ++ okVerdictTail).drop
      okVerdictHead.length).take
        ((okVerdictHead ++ Nat.toDigits 10 id.toNat ++ okVerdictTail).length -
          okVerdictHead.length - okVerdictTail.length) = Nat.toDigits 10 id.toNat := by
    rw [List.append_assoc, List.drop_left, List.length_append, List.length_append,
      Nat.add_sub_cancel_left, Nat.add_sub_cancel, List.take_left]
  have hread : readDecimal (utf8 (String.ofList (Nat.toDigits 10 id.toNat))) =
      some id.toNat := by
    rw [utf8_eq_asBytes, String.toList_ofList, asBytes_toDigits,
      readDecimal_decimal]
  simp only [okVerdictJson, hprefix, hsuffix, hdigits, hread, Bool.and_self, if_true,
    if_pos id.toNat_lt, UInt64.ofNat_toNat]

theorem trim_okVerdict (id : UInt64) :
    trim (okVerdictHead ++ Nat.toDigits 10 id.toNat ++ okVerdictTail) =
      okVerdictHead ++ Nat.toDigits 10 id.toNat ++ okVerdictTail := by
  obtain ⟨rest, hhead, -, -⟩ := okVerdictHead_bytes
  obtain ⟨init, htail, -, -⟩ := okVerdictTail_bytes
  have hbytes : asBytes (okVerdictHead ++ Nat.toDigits 10 id.toNat ++ okVerdictTail) =
      0x7b :: (rest ++ decimal id.toNat ++ init ++ [0x7d]) := by
    rw [asBytes, List.flatMap_append, List.flatMap_append]
    change asBytes _ ++ asBytes _ ++ asBytes _ = _
    rw [hhead, htail, asBytes_toDigits]
    simp
  exact trim_plain hbytes (by decide) (by decide)

/-- A log of such verdicts reads back with their ids. -/
theorem parsedVerdicts_okVerdicts (ids : List UInt64) :
    parsedVerdicts okVerdictJson
      (ids.flatMap fun id => okVerdictJson.toText id () ++ [10]) =
        ids.map fun id => (id, ()) := by
  induction ids with
  | nil => rfl
  | cons id ids ih =>
      unfold parsedVerdicts at ih ⊢
      rw [List.flatMap_cons, List.append_assoc, List.singleton_append,
        lines_append_lineFeed (isLine_okVerdict id)]
      have htext : okVerdictJson.toText id () = utf8 (String.ofList
          (okVerdictHead ++ Nat.toDigits 10 id.toNat ++ okVerdictTail)) := rfl
      have hsome : (okVerdictHead ++ Nat.toDigits 10 id.toNat ++
          okVerdictTail).isEmpty = false := by
        rw [List.isEmpty_eq_false_iff]
        exact List.append_ne_nil_of_left_ne_nil
          (List.append_ne_nil_of_left_ne_nil (by decide) _) _
      rw [htext, textLines, fromUtf8_utf8, List.filterMap_cons]
      dsimp only
      rw [String.toList_ofList, trim_okVerdict, hsome, if_neg Bool.false_ne_true,
        okVerdict_fromStr, ih]
      rfl

end ReserveGrid.Verifier
