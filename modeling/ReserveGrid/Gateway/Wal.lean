import ReserveGrid.Support.HashMap
import ReserveGrid.Support.JsonText
import ReserveGrid.Support.Lines
import ReserveGrid.Support.Pairing
import ReserveGrid.Support.Run

/-!
# The share write-ahead log

The gateway emits two accounting events for an accepted share, and the log
remembers which shares still owe the second one. A pending record is appended
when a share's first event is received and a completed record when its forward
result is. Either may come first. The file is read back by an order-sensitive
replay, while the running process keeps its own index, forgets old early
completions and now and then rewrites the file.

The main result is that the two agree: whatever batches were recorded, replay
of the file rebuilds the key set of the in-memory pending index.
-/

namespace ReserveGrid.Gateway

open Support Support.Pairing

/-! ## Records and their file format -/

/-- Share identity and event identity, the join key of the two events. -/
abbrev Key := String × String

inductive WalStatus where
  | pending
  | completed
  deriving DecidableEq, Repr

/-- One record of the log. -/
structure WalRecord where
  status : WalStatus
  shareIdHex : String
  eventIdHex : String
  timestampMs : UInt64
  deriving DecidableEq, Repr

namespace WalRecord

def key (r : WalRecord) : Key := (r.shareIdHex, r.eventIdHex)

/-- A pending record opens its share, a completed one closes it. -/
def mark (r : WalRecord) : Mark :=
  match r.status with
  | .pending => .opening
  | .completed => .closing

def entry (r : WalRecord) : Mark × Key := (r.mark, r.key)

def ofKey (status : WalStatus) (now : UInt64) (k : Key) : WalRecord :=
  ⟨status, k.1, k.2, now⟩

@[simp] theorem key_ofKey (status : WalStatus) (now : UInt64) (k : Key) :
    (ofKey status now k).key = k := rfl

@[simp] theorem entry_ofKey_pending (now : UInt64) (k : Key) :
    (ofKey .pending now k).entry = (.opening, k) := rfl

@[simp] theorem entry_ofKey_completed (now : UInt64) (k : Key) :
    (ofKey .completed now k).entry = (.closing, k) := rfl

end WalRecord

/-- The JSON library, at the type of log records. -/
structure RecordJson where
  toString : WalRecord → Bytes
  fromStr : Bytes → Option WalRecord

/-- What the log relies on: a serialised record is one non-blank line of text,
and it parses back. -/
structure RecordJson.Lawful (json : RecordJson) : Prop where
  fromStr_toString : ∀ r, json.fromStr (json.toString r) = some r
  isLine_toString : ∀ r, IsLine (json.toString r)
  starts_toString : ∀ r, (json.toString r).head? = some 0x7b

/-- White space as `str::trim` removes it, for the ASCII characters. -/
def isWhitespace (b : UInt8) : Bool :=
  b = 32 || (9 ≤ b && b ≤ 13)

namespace RecordJson

variable (json : RecordJson)

/-- A line of the file as the reader sees it. Blank lines and lines that are
not a record are skipped. -/
def readRecord (line : Bytes) : Option WalRecord :=
  if line.all isWhitespace then none else json.fromStr line

/-- The records of a file, in file order. -/
def records (file : Bytes) : List WalRecord :=
  (lines file).filterMap json.readRecord

/-- The bytes one batch of records adds to the file. An empty batch adds
nothing. -/
def appendRecords (rs : List WalRecord) : Bytes :=
  if rs.isEmpty then [] else unlines (rs.map json.toString)

variable {json}

theorem Lawful.readRecord_toString (h : json.Lawful) (r : WalRecord) :
    json.readRecord (json.toString r) = some r := by
  have hblank : (json.toString r).all isWhitespace = false := by
    have hhead := h.starts_toString r
    cases htext : json.toString r with
    | nil => simp [htext] at hhead
    | cons b bs =>
        have hb : b = 0x7b := by simpa [htext] using hhead
        subst hb
        rfl
  rw [readRecord, hblank]
  exact h.fromStr_toString r

theorem appendRecords_eq (rs : List WalRecord) :
    json.appendRecords rs = unlines (rs.map json.toString) := by
  unfold appendRecords
  split
  · rename_i h
    rw [List.isEmpty_iff] at h
    simp [h, unlines]
  · rfl

theorem terminated_appendRecords (rs : List WalRecord) :
    Terminated (json.appendRecords rs) := by
  rw [appendRecords_eq]
  exact terminated_unlines _

theorem Lawful.records_appendRecords (h : json.Lawful) (rs : List WalRecord) :
    json.records (json.appendRecords rs) = rs := by
  rw [appendRecords_eq, records, lines_unlines]
  · rw [List.filterMap_map]
    have : json.readRecord ∘ json.toString = some := by
      funext r
      exact h.readRecord_toString r
    rw [this, List.filterMap_some]
  · intro l hl
    obtain ⟨r, -, rfl⟩ := List.mem_map.mp hl
    exact h.isLine_toString r

theorem records_append {file : Bytes} (hfile : Terminated file)
    (more : Bytes) :
    json.records (file ++ more) = json.records file ++ json.records more := by
  rw [records, lines_append_of_terminated hfile, List.filterMap_append]
  rfl

end RecordJson

/-! ### The serialised record

The text the serialiser writes for a record, and a reader for that text. The
library's own reader also takes other spellings of the same object. -/

namespace RecordJson

open JsonText

def statusText : WalStatus → Bytes
  | .pending => utf8 "pending"
  | .completed => utf8 "completed"

def statusPart : Bytes := 0x7b :: utf8 "\"status\":\""

def sharePart : Bytes := utf8 "\",\"share_id_hex\":\""

def eventPart : Bytes := utf8 ",\"event_id_hex\":\""

def timestampPart : Bytes := utf8 ",\"timestamp_ms\":"

/-- The compact text of a record, fields in declaration order. -/
def compactText (r : WalRecord) : Bytes :=
  statusPart ++ (statusText r.status ++ (sharePart ++
    (escape (utf8 r.shareIdHex) ++ (eventPart ++
      (escape (utf8 r.eventIdHex) ++ (timestampPart ++
        (decimal r.timestampMs.toNat ++ [0x7d])))))))

def readStatus (bs : Bytes) : Option (WalStatus × Bytes) :=
  match expect (statusText .pending) bs with
  | some rest => some (.pending, rest)
  | none => (expect (statusText .completed) bs).map fun rest => (.completed, rest)

/-- Read the compact text of a record. -/
def readCompact (bs : Bytes) : Option WalRecord := do
  let bs ← expect statusPart bs
  let (status, bs) ← readStatus bs
  let bs ← expect sharePart bs
  let (share, bs) ← unescape bs
  let shareIdHex ← fromUtf8 share
  let bs ← expect eventPart bs
  let (event, bs) ← unescape bs
  let eventIdHex ← fromUtf8 event
  let bs ← expect timestampPart bs
  guard (bs.getLast? = some 0x7d)
  let n ← readDecimal bs.dropLast
  guard (n < 2 ^ 64)
  return ⟨status, shareIdHex, eventIdHex, UInt64.ofNat n⟩

/-- The serialiser at the type of log records. -/
def compact : RecordJson := ⟨compactText, readCompact⟩

theorem readStatus_statusText (status : WalStatus) (rest : Bytes) :
    readStatus (statusText status ++ rest) = some (status, rest) := by
  cases status with
  | pending => simp [readStatus]
  | completed =>
      have hother : expect (statusText .pending)
          (statusText .completed ++ rest) = none := by
        rfl
      simp [readStatus, hother]

theorem readCompact_compactText (r : WalRecord) :
    readCompact (compactText r) = some r := by
  have hlt : r.timestampMs.toNat < 18446744073709551616 :=
    r.timestampMs.toNat_lt
  simp [readCompact, compactText, readStatus_statusText,
    unescape_escape_append, fromUtf8_utf8, readDecimal_decimal, guard, hlt]

theorem le_of_mem_compactText {r : WalRecord} {b : UInt8}
    (hb : b ∈ compactText r) :
    0x20 ≤ b := by
  have hfixed : ∀ text ∈ [statusPart, sharePart, eventPart, timestampPart,
      statusText .pending, statusText .completed, [0x7d]],
      ∀ b ∈ text, 0x20 ≤ b := by
    decide +kernel
  have hstatus : ∀ b ∈ statusText r.status, 0x20 ≤ b := by
    cases r.status with
    | pending => exact hfixed _ (by simp)
    | completed => exact hfixed _ (by simp)
  simp only [compactText, List.mem_append] at hb
  rcases hb with h | h | h | h | h | h | h | h | h
  · exact hfixed _ (by simp) b h
  · exact hstatus b h
  · exact hfixed _ (by simp) b h
  · exact le_of_mem_escape h
  · exact hfixed _ (by simp) b h
  · exact le_of_mem_escape h
  · exact hfixed _ (by simp) b h
  · have hdigit : 0x20 ≤ (0x30 : UInt8) := by decide
    exact UInt8.le_trans hdigit (mem_decimal h).1
  · exact hfixed _ (by simp) b h

theorem compact_lawful : compact.Lawful where
  fromStr_toString := readCompact_compactText
  isLine_toString r := by
    refine ⟨fun h => ?_, ?_⟩
    · exact absurd (le_of_mem_compactText h) (by decide)
    · simp [compact, compactText]
  starts_toString r := by
    simp [compact, compactText, statusPart]

end RecordJson

/-! ## Replay -/

/-- The replay's index: the pending shares, and the completions still waiting
for their pending record. -/
abbrev ReplayIndex := HashMap Key UInt64 × Finset Key

/-- One record of the replay. A completed record neutralises one pending
record of its share, whichever comes first. -/
def replayRecord (idx : ReplayIndex) (r : WalRecord) : ReplayIndex :=
  match r.status with
  | .pending =>
      if r.key ∈ idx.2 then (idx.1, idx.2.erase r.key)
      else (idx.1.insert r.key r.timestampMs, idx.2)
  | .completed =>
      if r.key ∈ idx.1 then (idx.1.erase r.key, idx.2)
      else (idx.1, insert r.key idx.2)

/-- The pending index rebuilt from a file. -/
def readPendingIndex (json : RecordJson) (file : Bytes) : HashMap Key UInt64 :=
  ((json.records file).foldl replayRecord (∅, ∅)).1

/-- What the records of a file say about each share. -/
def filePhase (json : RecordJson) (file : Bytes) : Key → Phase :=
  phaseAfter (fun _ => .idle) ((json.records file).map WalRecord.entry)

theorem replayRecord_follows {idx : ReplayIndex} {φ : Key → Phase}
    (h : Follows (· ∈ idx.1) (· ∈ idx.2) φ) (r : WalRecord) :
    Follows (· ∈ (replayRecord idx r).1) (· ∈ (replayRecord idx r).2)
      (advance φ r.entry) := by
  have ho := h.opened_iff r.key
  have he := h.early_iff r.key
  unfold replayRecord
  cases hs : r.status with
  | pending =>
      have hentry : r.entry = (.opening, r.key) := by
        simp [WalRecord.entry, WalRecord.mark, hs]
      rw [hentry]
      by_cases hearly : r.key ∈ idx.2
      · refine h.advance ?_ ?_ ?_
        · simp_all [Phase.next]
        · simp_all [Phase.next]
        · intro j hj
          simp [hearly, hj]
      · refine h.advance ?_ ?_ ?_
        · cases hφ : φ r.key <;> simp_all [Phase.next]
        · cases hφ : φ r.key <;> simp_all [Phase.next]
        · intro j hj
          simp [hearly, hj]
  | completed =>
      have hentry : r.entry = (.closing, r.key) := by
        simp [WalRecord.entry, WalRecord.mark, hs]
      rw [hentry]
      by_cases hopened : r.key ∈ idx.1
      · refine h.advance ?_ ?_ ?_
        · simp_all [Phase.next]
        · simp_all [Phase.next]
        · intro j hj
          simp [hopened, hj]
      · refine h.advance ?_ ?_ ?_
        · cases hφ : φ r.key <;> simp_all [Phase.next]
        · cases hφ : φ r.key <;> simp_all [Phase.next]
        · intro j hj
          simp [hopened, hj]

theorem foldl_replayRecord_follows {idx : ReplayIndex} {φ : Key → Phase}
    (h : Follows (· ∈ idx.1) (· ∈ idx.2) φ) (rs : List WalRecord) :
    Follows (· ∈ (rs.foldl replayRecord idx).1)
      (· ∈ (rs.foldl replayRecord idx).2)
      (phaseAfter φ (rs.map WalRecord.entry)) := by
  induction rs generalizing idx φ with
  | nil => exact h
  | cons r rs ih => exact ih (replayRecord_follows h r)

/-- Replay follows the pairing automaton: a share is in the rebuilt index
exactly when the file leaves it opened. -/
theorem mem_readPendingIndex_iff (json : RecordJson) (file : Bytes) (k : Key) :
    k ∈ readPendingIndex json file ↔ filePhase json file k = .opened := by
  have hstart : Follows (· ∈ (∅ : HashMap Key UInt64))
      (· ∈ (∅ : Finset Key)) (fun _ : Key => .idle) := by
    constructor <;> simp
  exact (foldl_replayRecord_follows hstart (json.records file)).opened_iff k

theorem filePhase_append {json : RecordJson} {file : Bytes}
    (hfile : Terminated file) (hjson : json.Lawful) (rs : List WalRecord) :
    filePhase json (file ++ json.appendRecords rs) =
      phaseAfter (filePhase json file) (rs.map WalRecord.entry) := by
  rw [filePhase, RecordJson.records_append hfile,
    hjson.records_appendRecords, List.map_append, phaseAfter_append]
  rfl

/-! ## The running log -/

/-- The in-memory side of the log. The append handle is the file itself, kept
beside this value by the machines below. Instants are nanoseconds of a
monotonic clock. -/
structure ShareWal where
  pending : HashMap Key UInt64
  completedSinceCompaction : ℕ
  compactionThreshold : ℕ
  completedEarly : HashMap Key ℕ

/-- How long an early completion is remembered, at least: ten seconds. -/
def earlyCompletionTtl : ℕ := 10 * 10 ^ 9

/-- Most early completions remembered at once. -/
def earlyCompletionCap : ℕ := 4096

/-- Event 2 of a share: the outcome of its forward. -/
structure ShareForwardResultEvent where
  eventType : String
  shareIdHex : String
  eventIdHex : String
  forwarded : Bool
  upstreamAccepted : Option Bool
  upstreamHttpStatus : Option UInt16
  upstreamError : Option String
  reasonCode : Option String
  timestampMs : UInt64
  deriving DecidableEq, Repr

def ShareForwardResultEvent.key (e : ShareForwardResultEvent) : Key :=
  (e.shareIdHex, e.eventIdHex)

structure WalRecovery where
  syntheticEvents : List ShareForwardResultEvent
  completedCount : ℕ

/-- What one compaction reads from its surroundings: the two clocks and the
orders in which it happens to visit the two maps. -/
structure CompactionEnv where
  now : ℕ
  rewrittenAt : UInt64
  pendingOrder : IterOrder (Σ _ : Key, UInt64)
  earlyOrder : IterOrder Key

namespace ShareWal

variable (json : RecordJson)

/-- Open the log over what its path holds; a missing file counts as empty. -/
def openAt (file : Option Bytes) (compactionThreshold : ℕ) : ShareWal where
  pending :=
    match file with
    | some f => readPendingIndex json f
    | none => ∅
  completedSinceCompaction := 0
  compactionThreshold := compactionThreshold
  completedEarly := ∅

/-- The synthetic forward result of a share that a crash orphaned. -/
def syntheticEvent (now : UInt64) (k : Key) : ShareForwardResultEvent where
  eventType := "share_forward_result"
  shareIdHex := k.1
  eventIdHex := k.2
  forwarded := false
  upstreamAccepted := none
  upstreamHttpStatus := none
  upstreamError := some "process crashed before forward completed"
  reasonCode := some "process_crash_recovery"
  timestampMs := now

/-- Drain the pending index into synthetic events. The file is not touched. -/
def recover (wal : ShareWal) (order : IterOrder (Σ _ : Key, UInt64))
    (now : Key → UInt64) : ShareWal × WalRecovery :=
  ({ wal with pending := ∅ },
    { syntheticEvents :=
        (order.visit wal.pending.entries).map fun e =>
          syntheticEvent (now e.1) e.1
      completedCount := 0 })

/-- Forget the early completions that are older than the time to live. -/
def pruneCompletedEarly (wal : ShareWal) (now : ℕ) : ShareWal :=
  { wal with
    completedEarly :=
      wal.completedEarly.retain fun _ completedAt =>
        now - completedAt < earlyCompletionTtl }

/-- The records a compaction writes, in the order it writes them. -/
def compactedRecords (wal : ShareWal) (env : CompactionEnv) :
    List WalRecord :=
  (env.pendingOrder.visit wal.pending.entries).map
      (fun e => WalRecord.ofKey .pending e.2 e.1) ++
    (env.earlyOrder.visit wal.completedEarly.keys).map
      (WalRecord.ofKey .completed env.rewrittenAt)

/-- Rewrite the log: the new in-memory side and the content of the
replacement file. -/
def compactInner (wal : ShareWal) (env : CompactionEnv) : ShareWal × Bytes :=
  let pruned := wal.pruneCompletedEarly env.now
  ({ pruned with completedSinceCompaction := 0 },
    unlines ((pruned.compactedRecords env).map json.toString))

/-- Finish startup recovery: always compact. -/
def finishRecovery (wal : ShareWal) (env : CompactionEnv) :
    ShareWal × Bytes :=
  wal.compactInner json env

/-- For each share of a batch, whether its pending record consumes an early
completion. Only the first record of a share in the batch does. -/
def consumesEarly (early : HashMap Key ℕ) :
    Finset Key → List Key → List Bool
  | _, [] => []
  | consumed, k :: ks =>
      if k ∈ early ∧ k ∉ consumed then
        true :: consumesEarly early (insert k consumed) ks
      else false :: consumesEarly early consumed ks

/-- Update the index for one durable pending record. -/
def indexPending (wal : ShareWal) (rc : WalRecord × Bool) : ShareWal :=
  if rc.2 then
    { wal with completedEarly := wal.completedEarly.erase rc.1.key }
  else { wal with pending := wal.pending.insert rc.1.key rc.1.timestampMs }

/-- The records of a batch of accepted shares. -/
def pendingRecords (now : UInt64) (shares : List Key) : List WalRecord :=
  shares.map (WalRecord.ofKey .pending now)

/-- The index after the pending records of a batch are durable. -/
def indexBatch (wal : ShareWal) (now : UInt64) (shares : List Key) :
    ShareWal :=
  ((pendingRecords now shares).zip
    (consumesEarly wal.completedEarly ∅ shares)).foldl indexPending wal

/-- Record a batch of accepted shares: the new index and the bytes appended
to the file before the index changed. -/
def markPending (wal : ShareWal) (now : UInt64) (shares : List Key) :
    ShareWal × Bytes :=
  (wal.indexBatch now shares, json.appendRecords (pendingRecords now shares))

/-- Take one completed share out of the index, or remember its completion
when there is nothing to take out and there is room. -/
def completeShare (arrived : ℕ) (wal : ShareWal) (k : Key) : ShareWal :=
  if k ∈ wal.pending then { wal with pending := wal.pending.erase k }
  else if wal.completedEarly.keys.length < earlyCompletionCap then
    { wal with completedEarly := wal.completedEarly.insert k arrived }
  else wal

/-- The records of a batch of forwarded shares. -/
def completedRecords (now : UInt64) (shares : List Key) : List WalRecord :=
  shares.map (WalRecord.ofKey .completed now)

/-- The index after a batch of completions, before the append. -/
def completeBatch (wal : ShareWal) (arrived : ℕ) (shares : List Key) :
    ShareWal :=
  shares.foldl (completeShare arrived) wal

/-- Count the completions of a batch that was appended. -/
def noteCompleted (wal : ShareWal) (n : ℕ) : ShareWal :=
  { wal with completedSinceCompaction := wal.completedSinceCompaction + n }

/-- Whether the completions so far call for a compaction. -/
def compactionDue (wal : ShareWal) : Bool :=
  0 < wal.compactionThreshold &&
    wal.compactionThreshold ≤ wal.completedSinceCompaction

/-- Record a batch of forwarded shares over the file: the new index and the
new file. -/
def markCompleted (wal : ShareWal) (file : Bytes) (now : UInt64)
    (arrived : ℕ) (env : CompactionEnv) (shares : List Key) :
    ShareWal × Bytes :=
  let records := completedRecords now shares
  let noted := (wal.completeBatch arrived shares).noteCompleted records.length
  if noted.compactionDue then noted.compactInner json env
  else (noted, file ++ json.appendRecords records)

/-! ## The index follows the automaton -/

/-- The in-memory index follows the pairing automaton in the phases `φ`. -/
def InPhase (wal : ShareWal) (φ : Key → Phase) : Prop :=
  Follows (· ∈ wal.pending) (· ∈ wal.completedEarly) φ

theorem indexPending_inPhase {wal : ShareWal} {φ : Key → Phase}
    (h : wal.InPhase φ) {r : WalRecord} {consumes : Bool}
    (hconsumes : consumes = true ↔ r.key ∈ wal.completedEarly) :
    (wal.indexPending (r, consumes)).InPhase (advance φ (.opening, r.key)) := by
  have ho := h.opened_iff r.key
  have he := h.early_iff r.key
  unfold indexPending InPhase
  cases consumes with
  | true =>
      have hearly : φ r.key = .early := he.mp (hconsumes.mp rfl)
      refine h.advance ?_ ?_ ?_
      · simp_all [Phase.next]
      · simp_all [Phase.next]
      · intro j hj
        simp [hj]
  | false =>
      have hearly : φ r.key ≠ .early := by
        intro hφ
        simpa using hconsumes.mpr (he.mpr hφ)
      refine h.advance ?_ ?_ ?_
      · cases hφ : φ r.key <;> simp_all [Phase.next]
      · cases hφ : φ r.key <;> simp_all [Phase.next]
      · intro j hj
        simp [hj]

/-- The flags are computed against the index as it was before the batch, and
applied while the index changes. They stay right because the early set at each
record is the first one less the shares already consumed. -/
theorem foldl_indexPending_inPhase {early : HashMap Key ℕ} {now : UInt64}
    (shares : List Key) {wal : ShareWal} {φ : Key → Phase}
    {consumed : Finset Key} (h : wal.InPhase φ)
    (hearly : ∀ k, k ∈ wal.completedEarly ↔ k ∈ early ∧ k ∉ consumed) :
    (((pendingRecords now shares).zip
        (consumesEarly early consumed shares)).foldl indexPending wal).InPhase
      (phaseAfter φ (shares.map (Mark.opening, ·))) := by
  induction shares generalizing wal φ consumed with
  | nil => exact h
  | cons k ks ih =>
      rw [consumesEarly, pendingRecords, List.map_cons, List.map_cons,
        phaseAfter_cons]
      split
      · rename_i hk
        rw [List.zip_cons_cons, List.foldl_cons]
        refine ih (indexPending_inPhase h ?_) ?_
        · simpa using (hearly k).mpr hk
        · intro j
          simp only [indexPending, if_true, AList.mem_erase, hearly,
            WalRecord.key_ofKey, Finset.mem_insert, not_or]
          tauto
      · rename_i hk
        rw [List.zip_cons_cons, List.foldl_cons]
        refine ih (indexPending_inPhase h ?_) ?_
        · simpa using fun hmem => hk ((hearly k).mp hmem)
        · intro j
          simpa [indexPending] using hearly j

theorem indexBatch_inPhase {wal : ShareWal} {φ : Key → Phase}
    (h : wal.InPhase φ) (now : UInt64) (shares : List Key) :
    (wal.indexBatch now shares).InPhase
      (phaseAfter φ (shares.map (Mark.opening, ·))) :=
  foldl_indexPending_inPhase shares h (by simp)

/-- A completion the index neither uses nor remembers: nothing is pending, the
share is not among the early completions, and these are at their cap. -/
def TurnsAway (wal : ShareWal) (k : Key) : Prop :=
  k ∉ wal.pending ∧ k ∉ wal.completedEarly ∧
    earlyCompletionCap ≤ wal.completedEarly.keys.length

instance (wal : ShareWal) (k : Key) : Decidable (wal.TurnsAway k) :=
  inferInstanceAs (Decidable (_ ∧ _ ∧ _))

/-- No completion of the batch is turned away. -/
def AdmitsBatch (arrived : ℕ) : ShareWal → List Key → Prop
  | _, [] => True
  | wal, k :: ks =>
      ¬ wal.TurnsAway k ∧ AdmitsBatch arrived (wal.completeShare arrived k) ks

theorem completeShare_inPhase {wal : ShareWal} {φ : Key → Phase}
    (h : wal.InPhase φ) {arrived : ℕ} {k : Key} (hk : ¬ wal.TurnsAway k) :
    (wal.completeShare arrived k).InPhase (advance φ (.closing, k)) := by
  have ho := h.opened_iff k
  have he := h.early_iff k
  unfold completeShare InPhase
  by_cases hpending : k ∈ wal.pending
  · have hφ : φ k = .opened := ho.mp hpending
    rw [if_pos hpending]
    refine h.advance ?_ ?_ ?_
    · simp [hφ, Phase.next]
    · simp_all [Phase.next]
    · intro j hj
      simp [hj]
  · have hφ : (φ k).next .closing = .early := by
      cases hφ : φ k <;> simp_all [Phase.next]
    rw [if_neg hpending]
    split
    · refine h.advance ?_ ?_ ?_
      · simp [hφ, hpending]
      · simp [hφ]
      · intro j hj
        simp [hj]
    · rename_i hfull
      have hearly : k ∈ wal.completedEarly := by
        by_contra hno
        exact hk ⟨hpending, hno, Nat.le_of_not_lt hfull⟩
      refine h.advance ?_ ?_ ?_
      · simp [hφ, hpending]
      · simp [hφ, hearly]
      · intro j _
        simp

theorem completeBatch_inPhase (shares : List Key) {wal : ShareWal}
    {φ : Key → Phase} (h : wal.InPhase φ) {arrived : ℕ}
    (hadmits : AdmitsBatch arrived wal shares) :
    (wal.completeBatch arrived shares).InPhase
      (phaseAfter φ (shares.map (Mark.closing, ·))) := by
  induction shares generalizing wal φ with
  | nil => exact h
  | cons k ks ih => exact ih (completeShare_inPhase h hadmits.1) hadmits.2

/-- Pruning forgets some early completions and nothing else, so what is left
still follows the automaton. -/
theorem pruneCompletedEarly_inPhase {wal : ShareWal} {φ : Key → Phase}
    (h : wal.InPhase φ) (now : ℕ) :
    ∃ ψ, (wal.pruneCompletedEarly now).InPhase ψ := by
  refine exists_follows fun k hpending hearly => ?_
  have hopened : φ k = .opened := (h.opened_iff k).mp hpending
  have : φ k = .early := (h.early_iff k).mp (HashMap.mem_of_mem_retain hearly)
  simp [hopened] at this

/-- The records a compaction writes lead back to the index they list. -/
theorem phaseAfter_compactedRecords {wal : ShareWal} {φ : Key → Phase}
    (h : wal.InPhase φ) (env : CompactionEnv) :
    phaseAfter (fun _ => .idle)
        ((wal.compactedRecords env).map WalRecord.entry) = φ := by
  have hlog : (wal.compactedRecords env).map WalRecord.entry =
      ((env.pendingOrder.visit wal.pending.entries).map Sigma.fst).map
          (Mark.opening, ·) ++
        (env.earlyOrder.visit wal.completedEarly.keys).map
          (Mark.closing, ·) := by
    simp [compactedRecords, Function.comp_def]
  rw [hlog]
  refine phaseAfter_snapshot ?_ ?_
  · intro k
    rw [← h.opened_iff k, AList.mem_keys]
    exact ((env.pendingOrder.perm _).map Sigma.fst).mem_iff
  · intro k
    rw [← h.early_iff k, IterOrder.mem_visit, AList.mem_keys]

end ShareWal

/-! ## Runs of the log -/

/-- The log at rest: the in-memory side and the file. -/
structure WalState where
  wal : ShareWal
  file : Bytes

/-- One successful call. -/
inductive WalOp where
  | markPending (now : UInt64) (shares : List Key)
  | markCompleted (now : UInt64) (arrived : ℕ) (env : CompactionEnv)
      (shares : List Key)

namespace WalState

variable (json : RecordJson)

def apply (s : WalState) : WalOp → WalState
  | .markPending now shares =>
      let r := s.wal.markPending json now shares
      ⟨r.1, s.file ++ r.2⟩
  | .markCompleted now arrived env shares =>
      let r := s.wal.markCompleted json s.file now arrived env shares
      ⟨r.1, r.2⟩

def step (s : WalState) (op : WalOp) : Option WalState :=
  some (s.apply json op)

/-- No completion of the call is turned away by the cap. -/
def Admits (s : WalState) : WalOp → Prop
  | .markPending _ _ => True
  | .markCompleted _ arrived _ shares =>
      ShareWal.AdmitsBatch arrived s.wal shares

/-- Where a run starts: with an empty log, or after a finished recovery from
whatever the file held. -/
inductive Start : WalState → Prop
  | emptyLog (compactionThreshold : ℕ) :
      Start ⟨ShareWal.openAt json none compactionThreshold, []⟩
  | recovered (file : Option Bytes) (compactionThreshold : ℕ)
      (order : IterOrder (Σ _ : Key, UInt64)) (now : Key → UInt64)
      (env : CompactionEnv) :
      Start
        (let opened := ShareWal.openAt json file compactionThreshold
         let r := (opened.recover order now).1.finishRecovery json env
         ⟨r.1, r.2⟩)

/-- The file is made of whole lines, and the index follows it. -/
structure Agrees (s : WalState) : Prop where
  terminated : Terminated s.file
  inPhase : s.wal.InPhase (filePhase json s.file)

variable {json}

/-- A compaction brings the file to the index, from whatever the file held. -/
theorem agrees_compactInner (hjson : json.Lawful) {wal : ShareWal}
    {φ : Key → Phase} (h : wal.InPhase φ) (env : CompactionEnv) :
    Agrees json
      ⟨(wal.compactInner json env).1, (wal.compactInner json env).2⟩ := by
  obtain ⟨ψ, hψ⟩ := ShareWal.pruneCompletedEarly_inPhase h env.now
  refine ⟨terminated_unlines _, ?_⟩
  have hfile : filePhase json (wal.compactInner json env).2 = ψ := by
    rw [filePhase, ShareWal.compactInner, ← RecordJson.appendRecords_eq,
      hjson.records_appendRecords]
    exact ShareWal.phaseAfter_compactedRecords hψ env
  change ((wal.compactInner json env).1).InPhase
    (filePhase json (wal.compactInner json env).2)
  rw [hfile]
  exact hψ

theorem Start.agrees (hjson : json.Lawful) {s : WalState}
    (h : Start json s) :
    Agrees json s := by
  cases h with
  | emptyLog compactionThreshold =>
      refine ⟨Or.inl rfl, ?_, ?_⟩ <;>
        simp [ShareWal.openAt, filePhase, RecordJson.records]
  | recovered file compactionThreshold order now env =>
      have hidle : ((ShareWal.openAt json file compactionThreshold).recover
          order now).1.InPhase fun _ => .idle := by
        constructor <;> simp [ShareWal.recover, ShareWal.openAt]
      exact agrees_compactInner hjson hidle env

theorem agrees_markPending (hjson : json.Lawful) {s : WalState}
    (h : Agrees json s) (now : UInt64) (shares : List Key) :
    Agrees json (s.apply json (.markPending now shares)) := by
  refine ⟨terminated_append h.terminated
    (RecordJson.terminated_appendRecords _), ?_⟩
  change (s.wal.indexBatch now shares).InPhase (filePhase json (s.file ++ _))
  rw [ShareWal.markPending, filePhase_append h.terminated hjson]
  have hentries : (ShareWal.pendingRecords now shares).map WalRecord.entry =
      shares.map (Mark.opening, ·) := by
    simp [ShareWal.pendingRecords, Function.comp_def]
  rw [hentries]
  exact ShareWal.indexBatch_inPhase h.inPhase now shares

theorem agrees_markCompleted (hjson : json.Lawful) {s : WalState}
    (h : Agrees json s) {now : UInt64} {arrived : ℕ} {env : CompactionEnv}
    {shares : List Key}
    (hadmits : ShareWal.AdmitsBatch arrived s.wal shares) :
    Agrees json (s.apply json (.markCompleted now arrived env shares)) := by
  have hentries : (ShareWal.completedRecords now shares).map WalRecord.entry =
      shares.map (Mark.closing, ·) := by
    simp [ShareWal.completedRecords, Function.comp_def]
  have hmem := ShareWal.completeBatch_inPhase shares h.inPhase hadmits
  unfold apply ShareWal.markCompleted
  dsimp only
  split
  · exact agrees_compactInner hjson hmem env
  · refine ⟨terminated_append h.terminated
      (RecordJson.terminated_appendRecords _), ?_⟩
    rw [filePhase_append h.terminated hjson, hentries]
    exact hmem

theorem agrees_step (hjson : json.Lawful) {s t : WalState} {op : WalOp}
    (h : Agrees json s) (hadmits : s.Admits op) (hstep : s.step json op = some t) :
    Agrees json t := by
  cases hstep
  cases op with
  | markPending now shares => exact agrees_markPending hjson h now shares
  | markCompleted now arrived env shares =>
      exact agrees_markCompleted hjson h hadmits

/-- Replay refines memory: after any batches, with no completion turned away,
the index rebuilt from the file has the keys of the index in memory. -/
theorem readPendingIndex_keys_eq (hjson : json.Lawful) {s t : WalState}
    {ops : List WalOp} (hstart : Start json s)
    (hadmits : Along (step json) Admits s ops)
    (hrun : run (step json) s ops = some t) :
    (readPendingIndex json t.file).keys.toFinset =
      t.wal.pending.keys.toFinset := by
  have hagrees : Agrees json t :=
    invariant_of_along (fun _ _ _ => agrees_step hjson)
      (hstart.agrees hjson) hadmits hrun
  ext k
  rw [List.mem_toFinset, List.mem_toFinset, ← AList.mem_keys,
    ← AList.mem_keys, mem_readPendingIndex_iff]
  exact (hagrees.inPhase.opened_iff k).symm

/-- A compaction that visits both maps in stored order. -/
def storedEnv (now : ℕ) (rewrittenAt : UInt64) : CompactionEnv :=
  ⟨now, rewrittenAt, IterOrder.stored _, IterOrder.stored _⟩

/-- A completion before its pending record, a batch that repeats a share, and
a completion that brings about a compaction. -/
def earlyThenPending : List WalOp :=
  [.markCompleted 7 0 (storedEnv 0 7) [("a1", "e1")],
    .markPending 8 [("a1", "e1"), ("a1", "e1"), ("a2", "e2")],
    .markCompleted 9 5 (storedEnv 5 9) [("a3", "e3")]]

theorem readPendingIndex_keys_eq_earlyThenPending :
    ∃ t, run (step RecordJson.compact)
        ⟨ShareWal.openAt RecordJson.compact none 2, []⟩ earlyThenPending =
          some t ∧
      t.wal.pending.keys = [("a2", "e2"), ("a1", "e1")] ∧
      (readPendingIndex RecordJson.compact t.file).keys.toFinset =
        t.wal.pending.keys.toFinset := by
  have hadmits : Along (step RecordJson.compact) Admits
      ⟨ShareWal.openAt RecordJson.compact none 2, []⟩ earlyThenPending := by
    refine ⟨⟨by decide, trivial⟩, ?_⟩
    rintro _ ⟨⟩
    refine ⟨trivial, ?_⟩
    rintro _ ⟨⟩
    refine ⟨⟨by decide, trivial⟩, ?_⟩
    rintro _ ⟨⟩
    trivial
  exact ⟨_, rfl, by decide, readPendingIndex_keys_eq
    RecordJson.compact_lawful (Start.emptyLog 2) hadmits rfl⟩

end WalState

end ReserveGrid.Gateway
