import ReserveGrid.Gateway.Accounting

/-!
# The machine that drains the accounting queues

On a stop the gateway drains its two queues through the functions of the main
loop, batch by batch, until one pass finds both empty. The machine below takes
one item, emits one line or makes one call of the log at a time, and items may
arrive between any two of its steps. Its trace records them all.
-/

namespace ReserveGrid.Gateway

open Support

/-! ## The machine -/

/-- One effect of a drain on the queues, the stream and the log. -/
inductive DrainEffect where
  | eventArrived (e : ShareAcceptedEvent)
  | resultArrived (r : ShareForwardResult)
  | eventTaken (e : ShareAcceptedEvent)
  | resultTaken (r : ShareForwardResult)
  /-- The queue of events is found empty at the start of a batch. -/
  | eventsEmpty
  /-- The queue of results is found empty at the start of a batch. -/
  | resultsEmpty
  /-- The Event 1 line of the event is emitted. -/
  | event1 (e : ShareAcceptedEvent)
  /-- The Event 2 line of the result is emitted. -/
  | event2 (now : UInt64) (r : ShareForwardResult)
  /-- The log is called. From here on its records may be written. -/
  | walCalled (op : WalOp)
  /-- The call has succeeded. Its records are durable. -/
  | walDone (op : WalOp)

/-- The line that an effect adds to the stream. -/
def DrainEffect.line : DrainEffect → Option AccountingLine
  | .event1 e => some (.event1 e)
  | .event2 now r => some (.event2 (ShareForwardResultEvent.fromRelay now r))
  | _ => none

/-- Why a drain did not end well. -/
inductive DrainError where
  | timedOut (events results : ℕ)
  | markPending
  | markCompleted
  deriving DecidableEq, Repr

/-- Where the drain stands between two steps. -/
inductive DrainPc where
  /-- The head of the loop, where the deadline is checked. -/
  | head
  | tryEvents
  /-- `take_queued` on the events. -/
  | takeEvents (batch : List ShareAcceptedEvent)
  /-- `record_accepted`: rejected events still to be emitted. -/
  | emitRejected (batch todo : List ShareAcceptedEvent)
  /-- `record_accepted`: the log is at work. -/
  | markPending (batch : List ShareAcceptedEvent) (op : WalOp)
  /-- `record_accepted`: accepted events still to be emitted. -/
  | emitAccepted (batch todo : List ShareAcceptedEvent)
  | tryResults
  /-- `take_queued` on the results. -/
  | takeResults (batch : List ShareForwardResult)
  /-- `record_forwarded`: the first results are emitted, the others not yet. -/
  | emitForwarded (sent todo : List ShareForwardResult)
  /-- `record_forwarded`: the log is at work. -/
  | markCompleted (batch : List ShareForwardResult) (op : WalOp)
  | returned (outcome : Except DrainError Unit)

/-- The queues, the counts of the drain, and what has happened so far. -/
structure DrainState where
  pc : DrainPc
  events : List ShareAcceptedEvent
  results : List ShareForwardResult
  moved : Bool
  drainedEvents : ℕ
  drainedResults : ℕ
  trace : List DrainEffect

inductive DrainLabel where
  | eventArrives (e : ShareAcceptedEvent)
  | resultArrives (r : ShareForwardResult)
  | clock (passed : Bool)
  | tryRecv
  | emit (now : UInt64)
  | proceed
  | walCall (now : UInt64) (arrived : ℕ) (env : CompactionEnv)
  | walReturn (ok : Bool)

/-- The most items of one batch. -/
def walBatchMax : ℕ := 1024

/-- The accepted events of a batch. -/
def acceptedOf (batch : List ShareAcceptedEvent) : List ShareAcceptedEvent :=
  batch.filter ShareAcceptedEvent.isAccepted

/-- The rejected events of a batch. -/
def rejectedOf (batch : List ShareAcceptedEvent) : List ShareAcceptedEvent :=
  batch.filter fun e => !e.isAccepted

namespace DrainState

def initial (events : List ShareAcceptedEvent) (results : List ShareForwardResult) :
    DrainState :=
  ⟨.head, events, results, false, 0, 0, []⟩

def note (s : DrainState) (x : DrainEffect) : DrainState :=
  { s with trace := s.trace ++ [x] }

def goto (s : DrainState) (pc : DrainPc) : DrainState := { s with pc := pc }

/-- A batch of events is recorded. -/
def countEvents (s : DrainState) (batch : List ShareAcceptedEvent) : DrainState :=
  { s with
    drainedEvents := s.drainedEvents + batch.length
    moved := true }

/-- A batch of results is recorded. -/
def countResults (s : DrainState) (batch : List ShareForwardResult) : DrainState :=
  { s with
    drainedResults := s.drainedResults + batch.length
    moved := true }

/-- One step. The flag says whether there is a log. -/
def step (walOn : Bool) (s : DrainState) : DrainLabel → Option DrainState
  | .eventArrives e =>
      match s.pc with
      | .returned _ => none
      | _ => some { s.note (.eventArrived e) with events := s.events ++ [e] }
  | .resultArrives r =>
      match s.pc with
      | .returned _ => none
      | _ => some { s.note (.resultArrived r) with results := s.results ++ [r] }
  | .clock passed =>
      match s.pc with
      | .head =>
          if passed then
            some (s.goto (.returned
              (.error (.timedOut s.events.length s.results.length))))
          else some { s.goto .tryEvents with moved := false }
      | _ => none
  | .tryRecv =>
      match s.pc with
      | .tryEvents =>
          match s.events with
          | [] => some ((s.note .eventsEmpty).goto .tryResults)
          | e :: es =>
              some { (s.note (.eventTaken e)).goto (.takeEvents [e]) with
                events := es }
      | .takeEvents batch =>
          if batch.length < walBatchMax then
            match s.events with
            | [] => some (s.goto (.emitRejected batch (rejectedOf batch)))
            | e :: es =>
                some { (s.note (.eventTaken e)).goto
                    (.takeEvents (batch ++ [e])) with
                  events := es }
          else none
      | .tryResults =>
          match s.results with
          | [] =>
              some ((s.note .resultsEmpty).goto
                (if s.moved then .head else .returned (.ok ())))
          | r :: rs =>
              some { (s.note (.resultTaken r)).goto (.takeResults [r]) with
                results := rs }
      | .takeResults batch =>
          if batch.length < walBatchMax then
            match s.results with
            | [] => some (s.goto (.emitForwarded [] batch))
            | r :: rs =>
                some { (s.note (.resultTaken r)).goto
                    (.takeResults (batch ++ [r])) with
                  results := rs }
          else none
      | _ => none
  | .emit now =>
      match s.pc with
      | .emitRejected batch (e :: todo) =>
          some ((s.note (.event1 e)).goto (.emitRejected batch todo))
      | .emitAccepted batch (e :: todo) =>
          some ((s.note (.event1 e)).goto (.emitAccepted batch todo))
      | .emitForwarded sent (r :: todo) =>
          some ((s.note (.event2 now r)).goto (.emitForwarded (sent ++ [r]) todo))
      | _ => none
  | .proceed =>
      match s.pc with
      | .takeEvents batch =>
          if batch.length < walBatchMax then none
          else some (s.goto (.emitRejected batch (rejectedOf batch)))
      | .emitRejected batch [] =>
          if walOn = true ∧ acceptedOf batch ≠ [] then none
          else some (s.goto (.emitAccepted batch (acceptedOf batch)))
      | .emitAccepted batch [] =>
          some ((s.countEvents batch).goto .tryResults)
      | .takeResults batch =>
          if batch.length < walBatchMax then none
          else some (s.goto (.emitForwarded [] batch))
      | .emitForwarded sent [] =>
          if walOn then none else some ((s.countResults sent).goto .head)
      | _ => none
  | .walCall now arrived env =>
      match s.pc with
      | .emitRejected batch [] =>
          if walOn = true ∧ acceptedOf batch ≠ [] then
            let op := WalOp.markPending now
              ((acceptedOf batch).map ShareAcceptedEvent.key)
            some ((s.note (.walCalled op)).goto (.markPending batch op))
          else none
      | .emitForwarded sent [] =>
          if walOn then
            let op := WalOp.markCompleted now arrived env
              (sent.map ShareForwardResult.key)
            some ((s.note (.walCalled op)).goto (.markCompleted sent op))
          else none
      | _ => none
  | .walReturn ok =>
      match s.pc with
      | .markPending batch op =>
          if ok then
            some ((s.note (.walDone op)).goto
              (.emitAccepted batch (acceptedOf batch)))
          else
            some ((s.countEvents batch).goto (.returned (.error .markPending)))
      | .markCompleted batch op =>
          if ok then some (((s.note (.walDone op)).countResults batch).goto .head)
          else
            some ((s.countResults batch).goto
              (.returned (.error .markCompleted)))
      | _ => none

end DrainState

/-! ## Reading the trace -/

namespace DrainEffect

def eventArrived? : DrainEffect → Option ShareAcceptedEvent
  | .eventArrived e => some e
  | _ => none

def resultArrived? : DrainEffect → Option ShareForwardResult
  | .resultArrived r => some r
  | _ => none

def eventTaken? : DrainEffect → Option ShareAcceptedEvent
  | .eventTaken e => some e
  | _ => none

def resultTaken? : DrainEffect → Option ShareForwardResult
  | .resultTaken r => some r
  | _ => none

def event1? : DrainEffect → Option ShareAcceptedEvent
  | .event1 e => some e
  | _ => none

def event2? : DrainEffect → Option ShareForwardResult
  | .event2 _ r => some r
  | _ => none

/-- The shares whose pending records the effect makes durable. -/
def pendingDurable : DrainEffect → List Key
  | .walDone (.markPending _ keys) => keys
  | _ => []

/-- The shares whose completed records may be written from the effect on. -/
def completedWritten : DrainEffect → List Key
  | .walCalled (.markCompleted _ _ _ keys) => keys
  | _ => []

end DrainEffect

section

variable (trace : List DrainEffect)

def arrivedEvents : List ShareAcceptedEvent :=
  trace.filterMap DrainEffect.eventArrived?

def arrivedResults : List ShareForwardResult :=
  trace.filterMap DrainEffect.resultArrived?

def takenEvents : List ShareAcceptedEvent :=
  trace.filterMap DrainEffect.eventTaken?

def takenResults : List ShareForwardResult :=
  trace.filterMap DrainEffect.resultTaken?

def emittedEvents : List ShareAcceptedEvent :=
  trace.filterMap DrainEffect.event1?

def emittedResults : List ShareForwardResult :=
  trace.filterMap DrainEffect.event2?

/-- The shares of the accepted events emitted, in order. -/
def acceptedKeys : List Key :=
  (acceptedOf (emittedEvents trace)).map ShareAcceptedEvent.key

/-- The shares of the results emitted, in order. -/
def forwardedKeys : List Key :=
  (emittedResults trace).map ShareForwardResult.key

/-- The lines of the stream. -/
def emittedLines : List AccountingLine := trace.filterMap DrainEffect.line

def durableKeys : List Key := trace.flatMap DrainEffect.pendingDurable

def writtenKeys : List Key := trace.flatMap DrainEffect.completedWritten

@[simp] theorem arrivedEvents_append (x : DrainEffect) :
    arrivedEvents (trace ++ [x]) = arrivedEvents trace ++ x.eventArrived?.toList := by
  rw [arrivedEvents, List.filterMap_append]
  cases x <;> rfl

@[simp] theorem arrivedResults_append (x : DrainEffect) :
    arrivedResults (trace ++ [x]) =
      arrivedResults trace ++ x.resultArrived?.toList := by
  rw [arrivedResults, List.filterMap_append]
  cases x <;> rfl

@[simp] theorem takenEvents_append (x : DrainEffect) :
    takenEvents (trace ++ [x]) = takenEvents trace ++ x.eventTaken?.toList := by
  rw [takenEvents, List.filterMap_append]
  cases x <;> rfl

@[simp] theorem takenResults_append (x : DrainEffect) :
    takenResults (trace ++ [x]) = takenResults trace ++ x.resultTaken?.toList := by
  rw [takenResults, List.filterMap_append]
  cases x <;> rfl

@[simp] theorem emittedEvents_append (x : DrainEffect) :
    emittedEvents (trace ++ [x]) = emittedEvents trace ++ x.event1?.toList := by
  rw [emittedEvents, List.filterMap_append]
  cases x <;> rfl

@[simp] theorem emittedResults_append (x : DrainEffect) :
    emittedResults (trace ++ [x]) = emittedResults trace ++ x.event2?.toList := by
  rw [emittedResults, List.filterMap_append]
  cases x <;> rfl

@[simp] theorem acceptedKeys_append (x : DrainEffect) :
    acceptedKeys (trace ++ [x]) = acceptedKeys trace ++
      (acceptedOf x.event1?.toList).map ShareAcceptedEvent.key := by
  rw [acceptedKeys, emittedEvents_append, acceptedOf, List.filter_append,
    List.map_append]
  rfl

@[simp] theorem forwardedKeys_append (x : DrainEffect) :
    forwardedKeys (trace ++ [x]) =
      forwardedKeys trace ++ x.event2?.toList.map ShareForwardResult.key := by
  rw [forwardedKeys, emittedResults_append, List.map_append]
  rfl

@[simp] theorem durableKeys_append (x : DrainEffect) :
    durableKeys (trace ++ [x]) = durableKeys trace ++ x.pendingDurable := by
  rw [durableKeys, List.flatMap_append, List.flatMap_singleton]
  rfl

@[simp] theorem writtenKeys_append (x : DrainEffect) :
    writtenKeys (trace ++ [x]) = writtenKeys trace ++ x.completedWritten := by
  rw [writtenKeys, List.flatMap_append, List.flatMap_singleton]
  rfl

/-- The accepted events of the stream are those that the trace has emitted. -/
theorem accepted_emittedLines {k : Key} :
    Accepted (emittedLines trace) k ↔ k ∈ acceptedKeys trace := by
  have hline : ∀ e, .event1 e ∈ emittedLines trace ↔ e ∈ emittedEvents trace := by
    intro e
    rw [emittedLines, emittedEvents, List.mem_filterMap, List.mem_filterMap]
    refine exists_congr fun x => and_congr_right fun _ => ?_
    cases x <;> simp [DrainEffect.line, DrainEffect.event1?]
  rw [Accepted, acceptedKeys, List.mem_map]
  refine exists_congr fun e => ?_
  rw [hline, acceptedOf, List.mem_filter, and_assoc]

/-- The results of the stream are those that the trace has emitted. -/
theorem forwarded_emittedLines {k : Key} :
    Forwarded (emittedLines trace) k ↔ k ∈ forwardedKeys trace := by
  rw [Forwarded, forwardedKeys, List.mem_map]
  constructor
  · rintro ⟨e, he, hkey⟩
    obtain ⟨x, hx, hline⟩ := List.mem_filterMap.mp he
    cases x with
    | event2 now r =>
        cases hline
        exact ⟨r, List.mem_filterMap.mpr ⟨_, hx, rfl⟩, hkey⟩
    | _ => cases hline
  · rintro ⟨r, hr, hkey⟩
    obtain ⟨x, hx, hline⟩ := List.mem_filterMap.mp hr
    cases x with
    | event2 now r' =>
        cases hline
        exact ⟨_, List.mem_filterMap.mpr ⟨_, hx, rfl⟩, hkey⟩
    | _ => cases hline

/-- A call of the log that has succeeded has appended and synced its batch, so
its pending records are durable. -/
theorem opens_of_pendingDurable {json : RecordJson} (hjson : json.Lawful)
    {wal : ShareWal} {d : Disk} (hlive : Terminated d.live) {now : UInt64}
    {keys : List Key} {k : Key}
    (hk : k ∈ (DrainEffect.walDone (.markPending now keys)).pendingDurable) :
    Opens json (d.write (wal.markPending json now keys).2).sync.current.synced
      k := by
  change Opens json (d.current.synced ++ (d.current.unsynced ++ _)) k
  rw [← List.append_assoc]
  exact (opens_append_iff hlive).mpr
    (.inr ((opens_pendingRecords_iff hjson).mpr hk))

/-- The completed records of a call are those of the shares that may be written
from the call on. -/
theorem closes_iff_completedWritten {json : RecordJson} (hjson : json.Lawful)
    {now : UInt64} {arrived : ℕ} {env : CompactionEnv} {keys : List Key}
    {k : Key} :
    Closes json (json.appendRecords (ShareWal.completedRecords now keys)) k ↔
      k ∈ (DrainEffect.walCalled
        (.markCompleted now arrived env keys)).completedWritten :=
  closes_completedRecords_iff hjson

/-- At every moment the accepted events emitted are the first of those whose
pending records are durable, and the shares whose completed records may be
written are the first of those whose results are emitted. -/
def InOrder : Prop :=
  ∀ earlier, earlier <+: trace →
    acceptedKeys earlier <+: durableKeys earlier ∧
      writtenKeys earlier <+: forwardedKeys earlier

end

end ReserveGrid.Gateway
