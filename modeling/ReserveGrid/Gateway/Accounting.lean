import ReserveGrid.Gateway.Shares
import ReserveGrid.Gateway.Wal
import ReserveGrid.Support.Disk

/-!
# The accounting stream across crashes

`recordAccepted` makes the pending records of a batch durable and only then
emits its Event 1 lines; `recordForwarded` emits the Event 2 lines of a batch
and only then writes the completed records. The machine below runs these two
functions, the compaction and the startup recovery one disk or stream effect at
a time, and may crash between any two effects.

A crash of the process leaves a torn version of what was not yet synced. A
loss of power may in addition undo a rename whose directory was not synced.
A failed write ends the process in the source, so it is a crash of the process
here.

The result is that no share is lost: while a share's Event 1 has been emitted
and its Event 2 has not, every content the log may be found with replays to an
index that holds the share.
-/

namespace ReserveGrid.Gateway

open Support Support.Pairing

/-! ## Events and lines -/

def ShareAcceptedEvent.key (e : ShareAcceptedEvent) : Key :=
  (e.shareIdHex, e.eventIdHex)

def ShareAcceptedEvent.isAccepted (e : ShareAcceptedEvent) : Bool :=
  e.sv2Response == "success"

/-- What the share relay reports about one forward. -/
structure ShareForwardResult where
  shareIdHex : String
  eventIdHex : String
  forwarded : Bool
  upstreamAccepted : Option Bool
  upstreamHttpStatus : Option UInt16
  upstreamError : Option String
  reasonCode : Option String
  deriving DecidableEq, Repr

def ShareForwardResult.key (r : ShareForwardResult) : Key :=
  (r.shareIdHex, r.eventIdHex)

/-- The Event 2 of a relay result. -/
def ShareForwardResultEvent.fromRelay (now : UInt64) (r : ShareForwardResult) :
    ShareForwardResultEvent where
  eventType := "share_forward_result"
  shareIdHex := r.shareIdHex
  eventIdHex := r.eventIdHex
  forwarded := r.forwarded
  upstreamAccepted := r.upstreamAccepted
  upstreamHttpStatus := r.upstreamHttpStatus
  upstreamError := r.upstreamError
  reasonCode := r.reasonCode
  timestampMs := now

/-- One line of the accounting stream. -/
inductive AccountingLine where
  | event1 (e : ShareAcceptedEvent)
  | event2 (e : ShareForwardResultEvent)
  deriving DecidableEq, Repr

/-- The Event 1 line of the accepted share `k` has been emitted. -/
def Accepted (out : List AccountingLine) (k : Key) : Prop :=
  ∃ e, AccountingLine.event1 e ∈ out ∧ e.isAccepted = true ∧ e.key = k

/-- An Event 2 line of the share `k` has been emitted. -/
def Forwarded (out : List AccountingLine) (k : Key) : Prop :=
  ∃ e, AccountingLine.event2 e ∈ out ∧ e.key = k

/-- The share `k` still owes its Event 2. -/
def Owed (out : List AccountingLine) (k : Key) : Prop :=
  Accepted out k ∧ ¬ Forwarded out k

/-! ## The machine -/

/-- Where the process stands between two effects. -/
inductive Pc where
  /-- No process. -/
  | down
  /-- Startup: recovered events still to be emitted. -/
  | recovering (todo : List ShareForwardResultEvent)
  /-- `compact_inner` is about to start. -/
  | compact
  /-- The replacement is being written to the temporary file. -/
  | writeTmp (content : Bytes)
  /-- The temporary file is synced. -/
  | renameTmp (content : Bytes)
  /-- The rename is done and the directory is not synced. -/
  | syncDir
  /-- Between two batches. -/
  | idle
  /-- `record_accepted`: rejected events still to be emitted. -/
  | emitRejected (todo accepted : List ShareAcceptedEvent)
  /-- `mark_pending`: the records are written and not synced. -/
  | syncPending (now : UInt64) (accepted : List ShareAcceptedEvent)
  /-- `mark_pending`: the records are durable and not indexed. -/
  | indexPending (now : UInt64) (accepted : List ShareAcceptedEvent)
  /-- `record_accepted`: accepted events still to be emitted. -/
  | emitAccepted (todo : List ShareAcceptedEvent)
  /-- `record_forwarded`: Event 2 lines still to be emitted. -/
  | emitForwarded (todo : List ShareForwardResultEvent) (completed : List Key)
  /-- `mark_completed`: the records are written and not synced. -/
  | syncCompleted (completed : List Key)

/-- The gateway's accounting: program counter, log index, disk, and the lines
emitted so far over all processes. -/
structure Accounting where
  pc : Pc
  wal : ShareWal
  disk : Disk
  out : List AccountingLine

/-- One effect. Labels carry what the effect reads from its surroundings. -/
inductive Effect where
  | start (compactionThreshold : ℕ) (order : IterOrder (Σ _ : Key, UInt64))
      (now : Key → UInt64)
  | emit
  | finishRecovery
  | beginCompaction (env : CompactionEnv)
  | proceed
  | recordAccepted (events : List ShareAcceptedEvent)
  | markPending (now : UInt64)
  | recordForwarded (results : List ShareForwardResult)
      (now : ShareForwardResult → UInt64)
  | markCompleted (now : UInt64) (arrived : ℕ)
  | processCrash (left : Bytes)
  | powerLoss (image : ℕ) (left : Bytes)

namespace Accounting

variable (json : RecordJson)

/-- A gateway that has never run. -/
def initial : Accounting where
  pc := .down
  wal := ShareWal.openAt json none 0
  disk := ⟨⟨[], []⟩, [], none⟩
  out := []

/-- The next effect of the running process, or a crash. -/
def step (s : Accounting) : Effect → Option Accounting
  | .start compactionThreshold order now =>
      match s.pc with
      | .down =>
          let wal := ShareWal.openAt json (some s.disk.live) compactionThreshold
          let r := wal.recover order now
          some { s with pc := .recovering r.2.syntheticEvents, wal := r.1 }
      | _ => none
  | .emit =>
      match s.pc with
      | .recovering (e :: es) =>
          some { s with pc := .recovering es, out := s.out ++ [.event2 e] }
      | .emitRejected (e :: es) accepted =>
          some { s with
            pc := .emitRejected es accepted
            out := s.out ++ [.event1 e] }
      | .emitAccepted (e :: es) =>
          some { s with pc := .emitAccepted es, out := s.out ++ [.event1 e] }
      | .emitForwarded (e :: es) completed =>
          some { s with
            pc := .emitForwarded es completed
            out := s.out ++ [.event2 e] }
      | _ => none
  | .finishRecovery =>
      match s.pc with
      | .recovering [] => some { s with pc := .compact }
      | _ => none
  | .beginCompaction env =>
      match s.pc with
      | .compact =>
          some { s with
            pc := .writeTmp (s.wal.compactInner json env).2
            wal := s.wal.pruneCompletedEarly env.now
            disk := { s.disk with tmp := some [] } }
      | _ => none
  | .proceed =>
      match s.pc with
      | .writeTmp content =>
          some { s with
            pc := .renameTmp content
            disk := { s.disk with tmp := some content } }
      | .renameTmp content =>
          some { s with pc := .syncDir, disk := s.disk.replace content }
      | .syncDir =>
          some { s with
            pc := .idle
            wal := { s.wal with completedSinceCompaction := 0 }
            disk := s.disk.syncDir }
      | .syncPending now accepted =>
          some { s with pc := .indexPending now accepted, disk := s.disk.sync }
      | .indexPending now accepted =>
          some { s with
            pc := .emitAccepted accepted
            wal := s.wal.indexBatch now (accepted.map ShareAcceptedEvent.key) }
      | .emitAccepted [] => some { s with pc := .idle }
      | .syncCompleted completed =>
          let wal := s.wal.noteCompleted completed.length
          some { s with
            pc := if wal.compactionDue then .compact else .idle
            wal := wal
            disk := s.disk.sync }
      | _ => none
  | .recordAccepted events =>
      match s.pc with
      | .idle =>
          some { s with
            pc := .emitRejected (events.filter fun e => !e.isAccepted)
              (events.filter fun e => e.isAccepted) }
      | _ => none
  | .markPending now =>
      match s.pc with
      | .emitRejected [] accepted =>
          if accepted.isEmpty then some { s with pc := .emitAccepted [] }
          else
            let records := ShareWal.pendingRecords now
              (accepted.map ShareAcceptedEvent.key)
            some { s with
              pc := .syncPending now accepted
              disk := s.disk.write (json.appendRecords records) }
      | _ => none
  | .recordForwarded results now =>
      match s.pc with
      | .idle =>
          some { s with
            pc := .emitForwarded
              (results.map fun r =>
                ShareForwardResultEvent.fromRelay (now r) r)
              (results.map ShareForwardResult.key) }
      | _ => none
  | .markCompleted now arrived =>
      match s.pc with
      | .emitForwarded [] completed =>
          let records := ShareWal.completedRecords now completed
          some { s with
            pc := .syncCompleted completed
            wal := s.wal.completeBatch arrived completed
            disk := s.disk.write (json.appendRecords records) }
      | _ => none
  | .processCrash left =>
      if Torn json.records s.disk.current.unsynced left then
        some { s with pc := .down, disk := s.disk.afterProcessCrash left }
      else none
  | .powerLoss image left =>
      match s.disk.images[image]? with
      | some img =>
          if Torn json.records img.unsynced left then
            some { s with pc := .down, disk := s.disk.afterPowerLoss img left }
          else none
      | none => none

end Accounting

/-! ## Emitted lines -/

theorem accepted_append_event1 {out : List AccountingLine}
    {e : ShareAcceptedEvent} {k : Key} :
    Accepted (out ++ [.event1 e]) k ↔
      Accepted out k ∨ (e.isAccepted = true ∧ e.key = k) := by
  simp only [Accepted, List.mem_append, List.mem_singleton,
    AccountingLine.event1.injEq]
  constructor
  · rintro ⟨e', h | rfl, hacc, hkey⟩
    · exact Or.inl ⟨e', h, hacc, hkey⟩
    · exact Or.inr ⟨hacc, hkey⟩
  · rintro (⟨e', h, hacc, hkey⟩ | ⟨hacc, hkey⟩)
    · exact ⟨e', Or.inl h, hacc, hkey⟩
    · exact ⟨e, Or.inr rfl, hacc, hkey⟩

theorem accepted_append_event2 {out : List AccountingLine}
    {e : ShareForwardResultEvent} {k : Key} :
    Accepted (out ++ [.event2 e]) k ↔ Accepted out k := by
  simp [Accepted]

theorem forwarded_append_event1 {out : List AccountingLine}
    {e : ShareAcceptedEvent} {k : Key} :
    Forwarded (out ++ [.event1 e]) k ↔ Forwarded out k := by
  simp [Forwarded]

theorem forwarded_append_event2 {out : List AccountingLine}
    {e : ShareForwardResultEvent} {k : Key} :
    Forwarded (out ++ [.event2 e]) k ↔ Forwarded out k ∨ e.key = k := by
  simp only [Forwarded, List.mem_append, List.mem_singleton,
    AccountingLine.event2.injEq]
  constructor
  · rintro ⟨e', h | rfl, hkey⟩
    · exact Or.inl ⟨e', h, hkey⟩
    · exact Or.inr hkey
  · rintro (⟨e', h, hkey⟩ | hkey)
    · exact ⟨e', Or.inl h, hkey⟩
    · exact ⟨e, Or.inr rfl, hkey⟩

theorem owed_append_event2 {out : List AccountingLine}
    {e : ShareForwardResultEvent} {k : Key} :
    Owed (out ++ [.event2 e]) k ↔ Owed out k ∧ e.key ≠ k := by
  rw [Owed, accepted_append_event2, forwarded_append_event2, Owed]
  tauto

theorem owed_append_event1 {out : List AccountingLine}
    {e : ShareAcceptedEvent} {k : Key} :
    Owed (out ++ [.event1 e]) k ↔
      Owed out k ∨ (e.isAccepted = true ∧ e.key = k ∧ ¬ Forwarded out k) := by
  rw [Owed, accepted_append_event1, forwarded_append_event1, Owed]
  tauto

theorem owed_append_rejected {out : List AccountingLine}
    {e : ShareAcceptedEvent} (he : e.isAccepted = false) {k : Key} :
    Owed (out ++ [.event1 e]) k ↔ Owed out k := by
  simp [owed_append_event1, he]

/-! ## What the log says -/

/-- The text holds a pending record of the share. -/
def Opens (json : RecordJson) (bs : Bytes) (k : Key) : Prop :=
  ∃ r ∈ json.records bs, r.entry = (.opening, k)

/-- The text holds a completed record of the share. -/
def Closes (json : RecordJson) (bs : Bytes) (k : Key) : Prop :=
  ∃ r ∈ json.records bs, r.entry = (.closing, k)

section Texts

variable {json : RecordJson}

/-- A share with a pending record and no completed one is in the index. -/
theorem mem_readPendingIndex_of_opens {f : Bytes} {k : Key}
    (hopens : Opens json f k) (hcloses : ¬ Closes json f k) :
    k ∈ readPendingIndex json f := by
  rw [mem_readPendingIndex_iff]
  refine phaseAfter_eq_opened (by simp) ?_ (Or.inr ?_)
  · intro h
    obtain ⟨r, hr, hentry⟩ := List.mem_map.mp h
    exact hcloses ⟨r, hr, hentry⟩
  · obtain ⟨r, hr, hentry⟩ := hopens
    exact List.mem_map.mpr ⟨r, hr, hentry⟩

theorem opens_append_iff {f g : Bytes} (hf : Terminated f) {k : Key} :
    Opens json (f ++ g) k ↔ Opens json f k ∨ Opens json g k := by
  simp [Opens, RecordJson.records_append hf, or_and_right, exists_or]

theorem closes_append_iff {f g : Bytes} (hf : Terminated f) {k : Key} :
    Closes json (f ++ g) k ↔ Closes json f k ∨ Closes json g k := by
  simp [Closes, RecordJson.records_append hf, or_and_right, exists_or]

theorem opens_pendingRecords_iff (hjson : json.Lawful) {now : UInt64}
    {ks : List Key} {k : Key} :
    Opens json (json.appendRecords (ShareWal.pendingRecords now ks)) k ↔
      k ∈ ks := by
  simp [-Prod.exists, Opens, hjson.records_appendRecords,
    ShareWal.pendingRecords]

theorem not_closes_pendingRecords (hjson : json.Lawful) {now : UInt64}
    {ks : List Key} {k : Key} :
    ¬ Closes json (json.appendRecords (ShareWal.pendingRecords now ks)) k := by
  simp [Closes, hjson.records_appendRecords, ShareWal.pendingRecords]

theorem closes_completedRecords_iff (hjson : json.Lawful) {now : UInt64}
    {ks : List Key} {k : Key} :
    Closes json (json.appendRecords (ShareWal.completedRecords now ks)) k ↔
      k ∈ ks := by
  simp [-Prod.exists, Closes, hjson.records_appendRecords,
    ShareWal.completedRecords]

theorem not_closes_nil {k : Key} : ¬ Closes json [] k := by
  simp [Closes, RecordJson.records]

/-- A compaction keeps a pending record of every indexed share. -/
theorem opens_compactInner (hjson : json.Lawful) {wal : ShareWal}
    {env : CompactionEnv} {k : Key} (hk : k ∈ wal.pending) :
    Opens json (wal.compactInner json env).2 k := by
  rw [ShareWal.compactInner, ← RecordJson.appendRecords_eq, Opens,
    hjson.records_appendRecords]
  obtain ⟨e, he, rfl⟩ := List.mem_map.mp hk
  refine ⟨WalRecord.ofKey .pending e.2 e.1, ?_, rfl⟩
  exact List.mem_append_left _ (List.mem_map.mpr
    ⟨e, (env.pendingOrder.mem_visit).mpr he, rfl⟩)

/-- The completed records a compaction writes are early completions. -/
theorem closes_compactInner (hjson : json.Lawful) {wal : ShareWal}
    {env : CompactionEnv} {k : Key}
    (hk : Closes json (wal.compactInner json env).2 k) :
    k ∈ wal.completedEarly := by
  rw [ShareWal.compactInner, ← RecordJson.appendRecords_eq, Closes,
    hjson.records_appendRecords] at hk
  obtain ⟨r, hr, hentry⟩ := hk
  rcases List.mem_append.mp hr with h | h
  · obtain ⟨e, -, rfl⟩ := List.mem_map.mp h
    simp at hentry
  · obtain ⟨j, hj, rfl⟩ := List.mem_map.mp h
    have hkj : j = k := by simpa using hentry
    subst hkj
    exact HashMap.mem_of_mem_retain ((env.earlyOrder.mem_visit).mp hj)

theorem terminated_compactInner {wal : ShareWal} {env : CompactionEnv} :
    Terminated (wal.compactInner json env).2 :=
  terminated_unlines _

end Texts

/-! ## What a batch does to the index -/

namespace ShareWal

theorem indexPending_frame {wal : ShareWal} {rc : WalRecord × Bool} {k : Key} :
    (k ∈ wal.pending → k ∈ (wal.indexPending rc).pending) ∧
      (k ∈ (wal.indexPending rc).completedEarly → k ∈ wal.completedEarly) := by
  unfold indexPending
  split
  · exact ⟨id, fun h => (AList.mem_erase.mp h).2⟩
  · exact ⟨fun h => (AList.mem_insert _).mpr (Or.inr h), id⟩

theorem foldl_indexPending_frame (rcs : List (WalRecord × Bool))
    {wal : ShareWal} {k : Key} :
    (k ∈ wal.pending → k ∈ (rcs.foldl indexPending wal).pending) ∧
      (k ∈ (rcs.foldl indexPending wal).completedEarly →
        k ∈ wal.completedEarly) := by
  induction rcs generalizing wal with
  | nil => exact ⟨id, id⟩
  | cons rc rcs ih =>
      have hhead : (k ∈ wal.pending → k ∈ (wal.indexPending rc).pending) ∧
          (k ∈ (wal.indexPending rc).completedEarly →
            k ∈ wal.completedEarly) := indexPending_frame
      exact ⟨fun h => ih.1 (hhead.1 h), fun h => hhead.2 (ih.2 h)⟩

theorem mem_foldl_indexPending {early : HashMap Key ℕ} {now : UInt64}
    (shares : List Key) {wal : ShareWal} {consumed : Finset Key} {k : Key}
    (hk : k ∈ shares) :
    k ∈ early ∨ k ∈ (((pendingRecords now shares).zip
      (consumesEarly early consumed shares)).foldl indexPending wal).pending := by
  induction shares generalizing wal consumed with
  | nil => simp at hk
  | cons j js ih =>
      rw [consumesEarly, pendingRecords, List.map_cons]
      rcases List.mem_cons.mp hk with rfl | hmem
      · split
        · rename_i h
          exact Or.inl h.1
        · rw [List.zip_cons_cons, List.foldl_cons]
          refine Or.inr ((foldl_indexPending_frame _).1 ?_)
          simp [indexPending]
      · split
        · exact ih hmem
        · exact ih hmem

/-- A share of a durable batch is indexed, unless its completion came first. -/
theorem mem_pending_indexBatch {wal : ShareWal} {now : UInt64}
    {shares : List Key} {k : Key} (hk : k ∈ shares) :
    k ∈ wal.completedEarly ∨ k ∈ (wal.indexBatch now shares).pending :=
  mem_foldl_indexPending shares hk

theorem completeShare_frame {arrived : ℕ} {wal : ShareWal} {j k : Key} :
    (k ∈ wal.pending → k = j ∨ k ∈ (wal.completeShare arrived j).pending) ∧
      (k ∈ (wal.completeShare arrived j).completedEarly →
        k = j ∨ k ∈ wal.completedEarly) := by
  unfold completeShare
  split
  · refine ⟨fun h => ?_, Or.inr⟩
    by_cases hkj : k = j
    · exact Or.inl hkj
    · exact Or.inr (AList.mem_erase.mpr ⟨hkj, h⟩)
  · split
    · exact ⟨Or.inr, fun h => (AList.mem_insert _).mp h⟩
    · exact ⟨Or.inr, Or.inr⟩

/-- A batch of completions touches only the shares of the batch. -/
theorem completeBatch_frame {arrived : ℕ} (shares : List Key)
    {wal : ShareWal} {k : Key} :
    (k ∈ wal.pending →
        k ∈ shares ∨ k ∈ (wal.completeBatch arrived shares).pending) ∧
      (k ∈ (wal.completeBatch arrived shares).completedEarly →
        k ∈ shares ∨ k ∈ wal.completedEarly) := by
  induction shares generalizing wal with
  | nil => exact ⟨Or.inr, Or.inr⟩
  | cons j js ih =>
      have hhead : (k ∈ wal.pending →
          k = j ∨ k ∈ (wal.completeShare arrived j).pending) ∧
          (k ∈ (wal.completeShare arrived j).completedEarly →
            k = j ∨ k ∈ wal.completedEarly) := completeShare_frame
      refine ⟨fun h => ?_, fun h => ?_⟩
      · rcases hhead.1 h with hkj | hmem
        · exact Or.inl (by simp [hkj])
        · rcases ih.1 hmem with hjs | hres
          · exact Or.inl (by simp [hjs])
          · exact Or.inr hres
      · rcases ih.2 h with hjs | hmem
        · exact Or.inl (by simp [hjs])
        · rcases hhead.2 hmem with hkj | hearly
          · exact Or.inl (by simp [hkj])
          · exact Or.inr hearly

end ShareWal

/-! ## The invariant -/

namespace Accounting

/-- The disk keeps the accounting's promise: in every file the log's name may
come to refer to, completed records are of forwarded shares, and every share
that owes its Event 2 has a synced pending record. -/
structure DiskSound (json : RecordJson) (d : Disk)
    (out : List AccountingLine) : Prop where
  wellFormed : ∀ img ∈ d.images, img.WellFormed
  closed : ∀ img ∈ d.images, ∀ k,
    Closes json img.synced k ∨ Closes json img.unsynced k → Forwarded out k
  opened : ∀ img ∈ d.images, ∀ k, Owed out k → Opens json img.synced k

/-- The index keeps it too, while a process runs. -/
structure IndexSound (wal : ShareWal) (out : List AccountingLine) : Prop where
  early : ∀ k ∈ wal.completedEarly, Forwarded out k
  pending : ∀ k, Owed out k → k ∈ wal.pending

/-- Nothing is in flight on the disk. -/
structure Quiet (d : Disk) : Prop where
  stale : d.stale = []
  unsynced : d.current.unsynced = []
  terminated : Terminated d.current.synced

/-- A replacement file may take the place of the log. -/
structure Replaces (json : RecordJson) (content : Bytes)
    (out : List AccountingLine) : Prop where
  terminated : Terminated content
  closed : ∀ k, Closes json content k → Forwarded out k
  opened : ∀ k, Owed out k → Opens json content k

/-- What holds at each point of the program. -/
def PcSound (json : RecordJson) (s : Accounting) : Prop :=
  match s.pc with
  | .down => True
  | .recovering todo =>
      s.wal.completedEarly = ∅ ∧
        ∀ k, Owed s.out k → ∃ e ∈ todo, e.key = k
  | .compact => IndexSound s.wal s.out
  | .writeTmp content => IndexSound s.wal s.out ∧ Replaces json content s.out
  | .renameTmp content => IndexSound s.wal s.out ∧ Replaces json content s.out
  | .syncDir =>
      IndexSound s.wal s.out ∧ s.disk.current.unsynced = [] ∧
        Terminated s.disk.current.synced
  | .idle => IndexSound s.wal s.out ∧ Quiet s.disk
  | .emitRejected todo _ =>
      IndexSound s.wal s.out ∧ Quiet s.disk ∧
        ∀ e ∈ todo, e.isAccepted = false
  | .syncPending now accepted =>
      IndexSound s.wal s.out ∧ s.disk.stale = [] ∧
        Terminated s.disk.current.synced ∧
        s.disk.current.unsynced = json.appendRecords
          (ShareWal.pendingRecords now (accepted.map ShareAcceptedEvent.key))
  | .indexPending _ accepted =>
      IndexSound s.wal s.out ∧ Quiet s.disk ∧
        ∀ e ∈ accepted, Opens json s.disk.current.synced e.key
  | .emitAccepted todo =>
      IndexSound s.wal s.out ∧ Quiet s.disk ∧
        ∀ e ∈ todo, Opens json s.disk.current.synced e.key ∧
          (Forwarded s.out e.key ∨ e.key ∈ s.wal.pending)
  | .emitForwarded todo completed =>
      IndexSound s.wal s.out ∧ Quiet s.disk ∧
        ∀ k ∈ completed, Forwarded s.out k ∨ ∃ e ∈ todo, e.key = k
  | .syncCompleted _ =>
      IndexSound s.wal s.out ∧ s.disk.stale = [] ∧
        Terminated s.disk.current.synced ∧
        (∀ k, Closes json s.disk.current.unsynced k → Forwarded s.out k) ∧
        Terminated s.disk.current.unsynced

/-- The invariant of the accounting machine. -/
structure Sound (json : RecordJson) (s : Accounting) : Prop where
  disk : DiskSound json s.disk s.out
  pc : PcSound json s

variable {json : RecordJson}

theorem DiskSound.mem_readPendingIndex {d : Disk} {out : List AccountingLine}
    (h : DiskSound json d out) {k : Key} (hk : Owed out k) {f : Bytes}
    (hf : d.MayShow json.records f) :
    k ∈ readPendingIndex json f := by
  obtain ⟨img, himg, left, htorn, rfl⟩ := hf
  have hread := Torn.read_append
    (fun f g hf => RecordJson.records_append hf g) (h.wellFormed img himg) htorn
  refine mem_readPendingIndex_of_opens ?_ ?_
  · obtain ⟨r, hr, hentry⟩ := h.opened img himg k hk
    exact ⟨r, (hread r).1 hr, hentry⟩
  · rintro ⟨r, hr, hentry⟩
    refine hk.2 (h.closed img himg k ?_)
    rcases (hread r).2 hr with h1 | h1
    · exact Or.inl ⟨r, h1, hentry⟩
    · exact Or.inr ⟨r, h1, hentry⟩

/-! ## Emitting a line -/

/-- `out'` extends `out` without a new debt. -/
structure Later (out out' : List AccountingLine) : Prop where
  forwarded : ∀ k, Forwarded out k → Forwarded out' k
  owed : ∀ k, Owed out' k → Owed out k

theorem later_event2 (out : List AccountingLine)
    (e : ShareForwardResultEvent) :
    Later out (out ++ [.event2 e]) where
  forwarded _ h := forwarded_append_event2.mpr (Or.inl h)
  owed _ h := (owed_append_event2.mp h).1

theorem later_rejected (out : List AccountingLine) {e : ShareAcceptedEvent}
    (he : e.isAccepted = false) :
    Later out (out ++ [.event1 e]) where
  forwarded _ h := forwarded_append_event1.mpr h
  owed _ h := (owed_append_rejected he).mp h

theorem DiskSound.later {d : Disk} {out out' : List AccountingLine}
    (h : DiskSound json d out) (hlater : Later out out') :
    DiskSound json d out' where
  wellFormed := h.wellFormed
  closed img himg k hk := hlater.forwarded k (h.closed img himg k hk)
  opened img himg k hk := h.opened img himg k (hlater.owed k hk)

theorem IndexSound.later {wal : ShareWal} {out out' : List AccountingLine}
    (h : IndexSound wal out) (hlater : Later out out') :
    IndexSound wal out' where
  early k hk := hlater.forwarded k (h.early k hk)
  pending k hk := h.pending k (hlater.owed k hk)

/-- An Event 1 line may be emitted once its pending record is durable in the
only file there is and the share is indexed or already forwarded. -/
theorem DiskSound.accept {d : Disk} {out : List AccountingLine}
    (h : DiskSound json d out) (hstale : d.stale = [])
    {e : ShareAcceptedEvent} (he : Opens json d.current.synced e.key) :
    DiskSound json d (out ++ [.event1 e]) where
  wellFormed := h.wellFormed
  closed img himg k hk := forwarded_append_event1.mpr (h.closed img himg k hk)
  opened img himg k hk := by
    rcases owed_append_event1.mp hk with howed | ⟨-, hkey, -⟩
    · exact h.opened img himg k howed
    · have hcurrent : img = d.current := by
        simpa [Disk.images, hstale] using himg
      rw [hcurrent, ← hkey]
      exact he

theorem IndexSound.accept {wal : ShareWal} {out : List AccountingLine}
    (h : IndexSound wal out) {e : ShareAcceptedEvent}
    (he : Forwarded out e.key ∨ e.key ∈ wal.pending) :
    IndexSound wal (out ++ [.event1 e]) where
  early k hk := forwarded_append_event1.mpr (h.early k hk)
  pending k hk := by
    rcases owed_append_event1.mp hk with howed | ⟨-, hkey, hnot⟩
    · exact h.pending k howed
    · subst hkey
      exact he.resolve_left hnot

theorem sound_emit {s t : Accounting} (h : Sound json s)
    (hstep : s.step json .emit = some t) :
    Sound json t := by
  obtain ⟨hdisk, hpc⟩ := h
  obtain ⟨pc, wal, disk, out⟩ := s
  simp only [step] at hstep
  split at hstep
  · rename_i e es
    cases hstep
    refine ⟨hdisk.later (later_event2 out e), hpc.1, ?_⟩
    intro k hk
    obtain ⟨howed, hne⟩ := owed_append_event2.mp hk
    obtain ⟨e', he', rfl⟩ := hpc.2 k howed
    rcases List.mem_cons.mp he' with rfl | hmem
    · exact False.elim (hne rfl)
    · exact ⟨e', hmem, rfl⟩
  · rename_i e es accepted
    cases hstep
    obtain ⟨hindex, hquiet, htodo⟩ := hpc
    have hlater := later_rejected out (htodo e (by simp))
    exact ⟨hdisk.later hlater, hindex.later hlater, hquiet,
      fun e' he' => htodo e' (by simp [he'])⟩
  · rename_i e es
    cases hstep
    obtain ⟨hindex, hquiet, htodo⟩ := hpc
    obtain ⟨hopens, hknown⟩ := htodo e (by simp)
    refine ⟨hdisk.accept hquiet.stale hopens, hindex.accept hknown, hquiet, ?_⟩
    intro e' he'
    obtain ⟨hopens', hknown'⟩ := htodo e' (by simp [he'])
    exact ⟨hopens', hknown'.imp_left forwarded_append_event1.mpr⟩
  · rename_i e es completed
    cases hstep
    obtain ⟨hindex, hquiet, htodo⟩ := hpc
    have hlater := later_event2 out e
    refine ⟨hdisk.later hlater, hindex.later hlater, hquiet, ?_⟩
    intro k hk
    rcases htodo k hk with hforwarded | ⟨e', he', rfl⟩
    · exact Or.inl (hlater.forwarded k hforwarded)
    · rcases List.mem_cons.mp he' with rfl | hmem
      · exact Or.inl (forwarded_append_event2.mpr (Or.inr rfl))
      · exact Or.inr ⟨e', hmem, rfl⟩
  · cases hstep

/-! ## Startup -/

theorem live_mayShow (d : Disk) : d.MayShow json.records d.live :=
  ⟨d.current, by simp [Disk.images], d.current.unsynced, ⟨id, fun _ h => h⟩, rfl⟩

theorem sound_start {s t : Accounting} (h : Sound json s)
    {threshold : ℕ} {order : IterOrder (Σ _ : Key, UInt64)}
    {now : Key → UInt64}
    (hstep : s.step json (.start threshold order now) = some t) :
    Sound json t := by
  simp only [step] at hstep
  split at hstep
  · cases hstep
    refine ⟨h.disk, rfl, ?_⟩
    intro k hk
    have hmem := h.disk.mem_readPendingIndex hk (live_mayShow s.disk)
    obtain ⟨e, he, rfl⟩ := List.mem_map.mp hmem
    exact ⟨ShareWal.syntheticEvent (now e.1) e.1,
      List.mem_map.mpr ⟨e, (order.mem_visit).mpr he, rfl⟩, rfl⟩
  · cases hstep

theorem sound_finishRecovery {s t : Accounting} (h : Sound json s)
    (hstep : s.step json .finishRecovery = some t) :
    Sound json t := by
  obtain ⟨hdisk, hpc⟩ := h
  obtain ⟨pc, wal, disk, out⟩ := s
  simp only [step] at hstep
  split at hstep
  · cases hstep
    obtain ⟨hearly, htodo⟩ := hpc
    refine ⟨hdisk, ?_, ?_⟩
    · intro k hk
      exact False.elim (AList.notMem_empty k (hearly ▸ hk))
    · intro k hk
      obtain ⟨e, he, -⟩ := htodo k hk
      simp at he
  · cases hstep

/-! ## Compaction -/

theorem DiskSound.of_images {d d' : Disk} {out : List AccountingLine}
    (h : DiskSound json d out) (himages : d'.images = d.images) :
    DiskSound json d' out := by
  obtain ⟨hwf, hclosed, hopened⟩ := h
  rw [← himages] at hwf hclosed hopened
  exact ⟨hwf, hclosed, hopened⟩

theorem IndexSound.replaces (hjson : json.Lawful) {wal : ShareWal}
    {out : List AccountingLine} (h : IndexSound wal out)
    (env : CompactionEnv) :
    Replaces json (wal.compactInner json env).2 out where
  terminated := terminated_compactInner
  closed k hk := h.early k (closes_compactInner hjson hk)
  opened k hk := opens_compactInner hjson (h.pending k hk)

theorem IndexSound.prune {wal : ShareWal} {out : List AccountingLine}
    (h : IndexSound wal out) (now : ℕ) :
    IndexSound (wal.pruneCompletedEarly now) out where
  early k hk := h.early k (HashMap.mem_of_mem_retain hk)
  pending := h.pending

theorem sound_beginCompaction (hjson : json.Lawful) {s t : Accounting}
    (h : Sound json s) {env : CompactionEnv}
    (hstep : s.step json (.beginCompaction env) = some t) :
    Sound json t := by
  obtain ⟨hdisk, hpc⟩ := h
  obtain ⟨pc, wal, disk, out⟩ := s
  simp only [step] at hstep
  split at hstep
  · cases hstep
    exact ⟨hdisk.of_images rfl, IndexSound.prune hpc env.now,
      IndexSound.replaces hjson hpc env⟩
  · cases hstep

theorem DiskSound.replace {d : Disk} {out : List AccountingLine}
    (h : DiskSound json d out) {content : Bytes}
    (hcontent : Replaces json content out) :
    DiskSound json (d.replace content) out where
  wellFormed img himg := by
    rcases List.mem_cons.mp himg with rfl | hold
    · exact Or.inl rfl
    · exact h.wellFormed img hold
  closed img himg k hk := by
    rcases List.mem_cons.mp himg with rfl | hold
    · exact hcontent.closed k (hk.resolve_right not_closes_nil)
    · exact h.closed img hold k hk
  opened img himg k hk := by
    rcases List.mem_cons.mp himg with rfl | hold
    · exact hcontent.opened k hk
    · exact h.opened img hold k hk

theorem DiskSound.syncDir {d : Disk} {out : List AccountingLine}
    (h : DiskSound json d out) :
    DiskSound json d.syncDir out where
  wellFormed img himg := h.wellFormed img (Disk.mem_images_of_syncDir himg)
  closed img himg := h.closed img (Disk.mem_images_of_syncDir himg)
  opened img himg := h.opened img (Disk.mem_images_of_syncDir himg)

/-! ## Appending and syncing -/

theorem Quiet.images_write {d : Disk} (h : Quiet d) (bs : Bytes) :
    (d.write bs).images = [⟨d.current.synced, bs⟩] := by
  rw [Disk.images_write, h.stale, h.unsynced, List.nil_append]

theorem Quiet.unsynced_write {d : Disk} (h : Quiet d) (bs : Bytes) :
    (d.write bs).current.unsynced = bs := by
  simp [Disk.write, h.unsynced]

theorem DiskSound.write {d : Disk} {out : List AccountingLine}
    (h : DiskSound json d out) (hquiet : Quiet d) {bs : Bytes}
    (hbs : ∀ k, Closes json bs k → Forwarded out k) :
    DiskSound json (d.write bs) out where
  wellFormed img himg := by
    rw [hquiet.images_write, List.mem_singleton] at himg
    subst himg
    exact Or.inr hquiet.terminated
  closed img himg k hk := by
    rw [hquiet.images_write, List.mem_singleton] at himg
    subst himg
    rcases hk with hk | hk
    · exact h.closed d.current d.current_mem_images k (Or.inl hk)
    · exact hbs k hk
  opened img himg k hk := by
    rw [hquiet.images_write, List.mem_singleton] at himg
    subst himg
    exact h.opened d.current d.current_mem_images k hk

theorem DiskSound.sync {d : Disk} {out : List AccountingLine}
    (h : DiskSound json d out) (hterminated : Terminated d.current.synced) :
    DiskSound json d.sync out where
  wellFormed img himg := by
    rcases List.mem_cons.mp himg with rfl | hold
    · exact Or.inl rfl
    · exact h.wellFormed img (Disk.mem_images_iff.mpr (Or.inr hold))
  closed img himg k hk := by
    rcases List.mem_cons.mp himg with rfl | hold
    · have hlive : Closes json d.live k := hk.resolve_right not_closes_nil
      exact h.closed d.current d.current_mem_images k
        ((closes_append_iff hterminated).mp hlive)
    · exact h.closed img (Disk.mem_images_iff.mpr (Or.inr hold)) k hk
  opened img himg k hk := by
    rcases List.mem_cons.mp himg with rfl | hold
    · exact (opens_append_iff hterminated).mpr
        (Or.inl (h.opened d.current d.current_mem_images k hk))
    · exact h.opened img (Disk.mem_images_iff.mpr (Or.inr hold)) k hk

theorem quiet_sync {d : Disk} (hstale : d.stale = [])
    (hterminated : Terminated d.current.synced)
    (htail : Terminated d.current.unsynced) :
    Quiet d.sync where
  stale := hstale
  unsynced := rfl
  terminated := terminated_append hterminated htail

theorem IndexSound.indexBatch {wal : ShareWal} {out : List AccountingLine}
    (h : IndexSound wal out) (now : UInt64) (shares : List Key) :
    IndexSound (wal.indexBatch now shares) out where
  early k hk := h.early k ((ShareWal.foldl_indexPending_frame _).2 hk)
  pending k hk := (ShareWal.foldl_indexPending_frame _).1 (h.pending k hk)

theorem IndexSound.completeBatch {wal : ShareWal} {out : List AccountingLine}
    (h : IndexSound wal out) {arrived : ℕ} {shares : List Key}
    (hshares : ∀ k ∈ shares, Forwarded out k) :
    IndexSound (wal.completeBatch arrived shares) out where
  early k hk := by
    rcases (ShareWal.completeBatch_frame shares).2 hk with hmem | hearly
    · exact hshares k hmem
    · exact h.early k hearly
  pending k hk := by
    rcases (ShareWal.completeBatch_frame shares).1 (h.pending k hk) with
      hmem | hpending
    · exact False.elim (hk.2 (hshares k hmem))
    · exact hpending

theorem sound_markPending (hjson : json.Lawful) {s t : Accounting}
    (h : Sound json s) {now : UInt64}
    (hstep : s.step json (.markPending now) = some t) :
    Sound json t := by
  obtain ⟨hdisk, hpc⟩ := h
  obtain ⟨pc, wal, disk, out⟩ := s
  simp only [step] at hstep
  split at hstep
  · obtain ⟨hindex, hquiet, -⟩ := hpc
    split at hstep
    · cases hstep
      exact ⟨hdisk, hindex, hquiet, by simp⟩
    · cases hstep
      refine ⟨hdisk.write hquiet fun k hk =>
        False.elim (not_closes_pendingRecords hjson hk), hindex, hquiet.stale,
        hquiet.terminated, hquiet.unsynced_write _⟩
  · cases hstep

theorem sound_markCompleted (hjson : json.Lawful) {s t : Accounting}
    (h : Sound json s) {now : UInt64} {arrived : ℕ}
    (hstep : s.step json (.markCompleted now arrived) = some t) :
    Sound json t := by
  obtain ⟨hdisk, hpc⟩ := h
  obtain ⟨pc, wal, disk, out⟩ := s
  simp only [step] at hstep
  split at hstep
  · rename_i completed
    cases hstep
    obtain ⟨hindex, hquiet, htodo⟩ := hpc
    have hcompleted : ∀ k ∈ completed, Forwarded out k := by
      intro k hk
      simpa using htodo k hk
    have hcloses : ∀ k, Closes json (json.appendRecords
        (ShareWal.completedRecords now completed)) k → Forwarded out k :=
      fun k hk => hcompleted k ((closes_completedRecords_iff hjson).mp hk)
    refine ⟨hdisk.write hquiet hcloses, hindex.completeBatch hcompleted,
      hquiet.stale, hquiet.terminated, ?_, ?_⟩
    · intro k hk
      change Closes json (disk.write _).current.unsynced k at hk
      rw [hquiet.unsynced_write] at hk
      exact hcloses k hk
    · change Terminated (disk.write _).current.unsynced
      rw [hquiet.unsynced_write]
      exact RecordJson.terminated_appendRecords _
  · cases hstep

theorem sound_proceed (hjson : json.Lawful) {s t : Accounting}
    (h : Sound json s) (hstep : s.step json .proceed = some t) :
    Sound json t := by
  obtain ⟨hdisk, hpc⟩ := h
  obtain ⟨pc, wal, disk, out⟩ := s
  simp only [step] at hstep
  split at hstep
  · cases hstep
    exact ⟨hdisk.of_images rfl, hpc⟩
  · cases hstep
    exact ⟨hdisk.replace hpc.2, hpc.1, rfl, hpc.2.terminated⟩
  · cases hstep
    exact ⟨hdisk.syncDir, ⟨hpc.1.early, hpc.1.pending⟩, rfl, hpc.2.1, hpc.2.2⟩
  · rename_i now accepted
    cases hstep
    obtain ⟨hindex, hstale, hterminated, htail⟩ := hpc
    refine ⟨hdisk.sync hterminated, hindex, quiet_sync hstale hterminated ?_, ?_⟩
    · rw [htail]
      exact RecordJson.terminated_appendRecords _
    · intro e he
      refine (opens_append_iff hterminated).mpr (Or.inr ?_)
      rw [htail]
      exact (opens_pendingRecords_iff hjson).mpr
        (List.mem_map.mpr ⟨e, he, rfl⟩)
  · rename_i now accepted
    cases hstep
    obtain ⟨hindex, hquiet, hopens⟩ := hpc
    refine ⟨hdisk, hindex.indexBatch now _, hquiet, ?_⟩
    intro e he
    refine ⟨hopens e he, ?_⟩
    rcases ShareWal.mem_pending_indexBatch (List.mem_map.mpr ⟨e, he, rfl⟩) with
      hearly | hpending
    · exact Or.inl (hindex.early _ hearly)
    · exact Or.inr hpending
  · cases hstep
    exact ⟨hdisk, hpc.1, hpc.2.1⟩
  · rename_i completed
    cases hstep
    obtain ⟨hindex, hstale, hterminated, -, htail⟩ := hpc
    refine ⟨hdisk.sync hterminated, ?_⟩
    have hnoted : IndexSound (wal.noteCompleted completed.length) out :=
      ⟨hindex.early, hindex.pending⟩
    by_cases hdue : (wal.noteCompleted completed.length).compactionDue
    · simpa only [PcSound, hdue, if_true] using hnoted
    · simpa only [PcSound, hdue, if_false, Bool.false_eq_true] using
        ⟨hnoted, quiet_sync hstale hterminated htail⟩
  · cases hstep

/-! ## Batches and crashes -/

theorem sound_recordAccepted {s t : Accounting} (h : Sound json s)
    {events : List ShareAcceptedEvent}
    (hstep : s.step json (.recordAccepted events) = some t) :
    Sound json t := by
  obtain ⟨hdisk, hpc⟩ := h
  obtain ⟨pc, wal, disk, out⟩ := s
  simp only [step] at hstep
  split at hstep
  · cases hstep
    refine ⟨hdisk, hpc.1, hpc.2, ?_⟩
    intro e he
    simpa using (List.mem_filter.mp he).2
  · cases hstep

theorem sound_recordForwarded {s t : Accounting} (h : Sound json s)
    {results : List ShareForwardResult} {now : ShareForwardResult → UInt64}
    (hstep : s.step json (.recordForwarded results now) = some t) :
    Sound json t := by
  obtain ⟨hdisk, hpc⟩ := h
  obtain ⟨pc, wal, disk, out⟩ := s
  simp only [step] at hstep
  split at hstep
  · cases hstep
    refine ⟨hdisk, hpc.1, hpc.2, ?_⟩
    intro k hk
    obtain ⟨r, hr, rfl⟩ := List.mem_map.mp hk
    exact Or.inr ⟨_, List.mem_map.mpr ⟨r, hr, rfl⟩, rfl⟩
  · cases hstep

/-- A torn tail adds no completed record. -/
theorem closes_of_torn {written left : Bytes}
    (h : Torn json.records written left) {k : Key}
    (hk : Closes json left k) :
    Closes json written k := by
  obtain ⟨r, hr, hentry⟩ := hk
  exact ⟨r, h.2 r hr, hentry⟩

theorem sound_processCrash {s t : Accounting} (h : Sound json s)
    {left : Bytes} (hstep : s.step json (.processCrash left) = some t) :
    Sound json t := by
  simp only [step] at hstep
  split at hstep
  · rename_i htorn
    cases hstep
    refine ⟨⟨?_, ?_, ?_⟩, trivial⟩
    · intro img himg
      rcases List.mem_cons.mp himg with rfl | hold
      · rcases h.disk.wellFormed _ s.disk.current_mem_images with hnone | hterm
        · exact Or.inl (htorn.1 hnone)
        · exact Or.inr hterm
      · exact h.disk.wellFormed img (Disk.mem_images_iff.mpr (Or.inr hold))
    · intro img himg k hk
      rcases List.mem_cons.mp himg with rfl | hold
      · exact h.disk.closed _ s.disk.current_mem_images k
          (hk.imp_right (closes_of_torn htorn))
      · exact h.disk.closed img (Disk.mem_images_iff.mpr (Or.inr hold)) k hk
    · intro img himg k hk
      rcases List.mem_cons.mp himg with rfl | hold
      · exact h.disk.opened _ s.disk.current_mem_images k hk
      · exact h.disk.opened img (Disk.mem_images_iff.mpr (Or.inr hold)) k hk
  · cases hstep

theorem sound_powerLoss {s t : Accounting} (h : Sound json s)
    {image : ℕ} {left : Bytes}
    (hstep : s.step json (.powerLoss image left) = some t) :
    Sound json t := by
  simp only [step] at hstep
  split at hstep
  · rename_i img hget
    have himg : img ∈ s.disk.images := List.mem_of_getElem? hget
    split at hstep
    · rename_i htorn
      cases hstep
      have hread := Torn.read_append
        (fun f g hf => RecordJson.records_append hf g)
        (h.disk.wellFormed img himg) htorn
      refine ⟨⟨?_, ?_, ?_⟩, trivial⟩
      · intro img' himg'
        rw [Disk.images_afterPowerLoss, List.mem_singleton] at himg'
        subst himg'
        exact Or.inl rfl
      · intro img' himg' k hk
        rw [Disk.images_afterPowerLoss, List.mem_singleton] at himg'
        subst himg'
        obtain ⟨r, hr, hentry⟩ := hk.resolve_right not_closes_nil
        refine h.disk.closed img himg k ?_
        rcases (hread r).2 hr with hsynced | hunsynced
        · exact Or.inl ⟨r, hsynced, hentry⟩
        · exact Or.inr ⟨r, hunsynced, hentry⟩
      · intro img' himg' k hk
        rw [Disk.images_afterPowerLoss, List.mem_singleton] at himg'
        subst himg'
        obtain ⟨r, hr, hentry⟩ := h.disk.opened img himg k hk
        exact ⟨r, (hread r).1 hr, hentry⟩
    · cases hstep
  · cases hstep

/-! ## Runs -/

theorem sound_initial : Sound json (initial json) := by
  refine ⟨⟨?_, ?_, ?_⟩, trivial⟩
  · intro img himg
    have : img = ⟨[], []⟩ := by simpa [initial, Disk.images] using himg
    exact Or.inl (by rw [this])
  · intro img himg k hk
    have : img = ⟨[], []⟩ := by simpa [initial, Disk.images] using himg
    subst this
    rcases hk with hk | hk <;> exact False.elim (not_closes_nil hk)
  · rintro img - k ⟨⟨e, he, -⟩, -⟩
    simp [initial] at he

theorem sound_step (hjson : json.Lawful) {s t : Accounting} {a : Effect}
    (h : Sound json s) (hstep : s.step json a = some t) :
    Sound json t := by
  cases a with
  | start threshold order now => exact sound_start h hstep
  | emit => exact sound_emit h hstep
  | finishRecovery => exact sound_finishRecovery h hstep
  | beginCompaction env => exact sound_beginCompaction hjson h hstep
  | proceed => exact sound_proceed hjson h hstep
  | recordAccepted events => exact sound_recordAccepted h hstep
  | markPending now => exact sound_markPending hjson h hstep
  | recordForwarded results now => exact sound_recordForwarded h hstep
  | markCompleted now arrived => exact sound_markCompleted hjson h hstep
  | processCrash left => exact sound_processCrash h hstep
  | powerLoss image left => exact sound_powerLoss h hstep

/-- No lost share: in every run, a share whose Event 1 has been emitted and
whose Event 2 has not is in the index rebuilt from any content the log may
have, now or after a crash at this moment. -/
theorem owed_mem_readPendingIndex (hjson : json.Lawful) {s : Accounting}
    {effects : List Effect}
    (hrun : run (step json) (initial json) effects = some s) {k : Key}
    (haccepted : Accepted s.out k) (hforwarded : ¬ Forwarded s.out k)
    {f : Bytes} (hf : s.disk.MayShow json.records f) :
    k ∈ readPendingIndex json f := by
  have hsound : Sound json s :=
    invariant_of_run (fun _ _ _ => sound_step hjson) sound_initial hrun
  exact hsound.disk.mem_readPendingIndex ⟨haccepted, hforwarded⟩ hf

/-- An accepted event of one share. -/
def acceptedEvent (share event : String) : ShareAcceptedEvent :=
  ⟨"share_accepted", share, event, "success", none, none, "w", 1, 1, 1, 1, 0, 1⟩

/-- A first start, a batch of two shares of which the first one's line is out,
and a loss of power. -/
def crashInBatch : List Effect :=
  [.start 1000 (IterOrder.stored _) (fun _ => 0), .finishRecovery,
    .beginCompaction (WalState.storedEnv 0 0), .proceed, .proceed, .proceed,
    .recordAccepted [acceptedEvent "a1" "e1", acceptedEvent "a2" "e2"],
    .markPending 8, .proceed, .proceed, .emit, .powerLoss 0 []]

theorem owed_mem_readPendingIndex_crashInBatch :
    ∃ s, run (step RecordJson.compact) (initial RecordJson.compact)
        crashInBatch = some s ∧
      Accepted s.out ("a1", "e1") ∧ ¬ Forwarded s.out ("a1", "e1") ∧
      ("a1", "e1") ∈ readPendingIndex RecordJson.compact s.disk.live := by
  obtain ⟨s, hrun, hout⟩ : ∃ s, run (step RecordJson.compact)
      (initial RecordJson.compact) crashInBatch = some s ∧
        s.out = [.event1 (acceptedEvent "a1" "e1")] := ⟨_, rfl, rfl⟩
  have haccepted : Accepted s.out ("a1", "e1") := by
    rw [hout]
    exact ⟨acceptedEvent "a1" "e1", by simp, rfl, rfl⟩
  have hforwarded : ¬ Forwarded s.out ("a1", "e1") := by
    simp [hout, Forwarded]
  exact ⟨s, hrun, haccepted, hforwarded, owed_mem_readPendingIndex
    RecordJson.compact_lawful hrun haccepted hforwarded (live_mayShow _)⟩

end Accounting

end ReserveGrid.Gateway
