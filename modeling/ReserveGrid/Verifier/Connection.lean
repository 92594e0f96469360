import Mathlib.Data.List.DropRight
import ReserveGrid.Support.CompactJson
import ReserveGrid.Support.Run
import ReserveGrid.Support.Text
import ReserveGrid.Verifier.IdleStream
import ReserveGrid.Verifier.Ingress
import ReserveGrid.Wire

/-!
# Ingress connections

A connection reads lines and answers them one after another: a heartbeat with an
acknowledgment, a proposal with a verdict, which is logged first. Whether its
verdicts go out in an envelope is decided by the first line that parses. The
connections run next to each other and share the log of verdicts and the counter
of its ids.
-/

namespace ReserveGrid.Verifier

open Support JsonText Bitcoin Consensus Protocol

/-! ## Lines -/

/-- A line that was read: no text, an envelope, a bare proposal, or neither. -/
inductive ParsedLine where
  | notText
  | envelope (m : InternalMessage)
  | bare (t : TemplatePropose)
  | malformed

/-- What a line asks for. -/
inductive Request where
  | propose (t : TemplatePropose)
  | heartbeat

/-- The envelope is tried first, then the bare proposal. -/
def parseLine (lib : JsonLib) (line : Bytes) : ParsedLine :=
  match fromUtf8 line with
  | none => .notText
  | some s =>
      let tree := lib.read (asBytes (trim s.toList))
      match tree.bind InternalMessage.ofJson with
      | some m => .envelope m
      | none =>
          match tree.bind TemplatePropose.ofJson with
          | some t => .bare t
          | none => .malformed

namespace ParsedLine

/-- What a line says of the protocol its sender speaks. -/
def format : ParsedLine → Option Bool
  | .envelope _ => some true
  | .bare _ => some false
  | .notText | .malformed => none

/-- An envelope of another type, or with a payload that is no proposal, asks for
nothing. -/
def request : ParsedLine → Option Request
  | .envelope m =>
      if m.msgType = InternalMessage.templatePropose then
        (TemplatePropose.ofJson m.payload).map .propose
      else if m.msgType = InternalMessage.heartbeat then some .heartbeat
      else none
  | .bare t => some (.propose t)
  | .notText | .malformed => none

end ParsedLine

section

variable {lib : JsonLib}

/-- The line of an envelope is read as the envelope. -/
theorem parseLine_message (hlib : lib.Lawful) {m : InternalMessage}
    (h : m.payload.Writable) :
    parseLine lib (lib.write m.toJson ++ [10]) =
      .envelope { m with payload := m.payload.mapFloat lib.reread } := by
  obtain ⟨s, htext, hread⟩ := hlib.read_line (InternalMessage.writable_toJson h)
  rw [← InternalMessage.toJson] at htext hread
  rw [parseLine, htext]
  dsimp only
  rw [hread, Option.bind_some, InternalMessage.ofJson_mapFloat]

/-- A part of such a line says nothing, or what the line says. -/
theorem parseLine_part (hlib : lib.Lawful) {m : InternalMessage} (h : m.payload.Writable)
    {part : Bytes} (hpart : part <+: lib.write m.toJson ++ [10]) :
    parseLine lib part = .notText ∨ parseLine lib part = .malformed ∨
      parseLine lib part = .envelope { m with payload := m.payload.mapFloat lib.reread } := by
  rw [parseLine]
  rcases htext : fromUtf8 part with _ | s
  · exact .inl rfl
  · right
    dsimp only
    rcases hlib.read_part (InternalMessage.writable_toJson h) hpart htext with hread | hread
    · left
      rw [hread, Option.bind_none, Option.bind_none]
    · right
      rw [hread, Option.bind_some, ← InternalMessage.toJson, InternalMessage.ofJson_mapFloat]

/-- The line of a bare proposal is read as the proposal: it is no envelope, having
no type. -/
theorem parseLine_propose (hlib : lib.Lawful) (t : TemplatePropose) :
    parseLine lib (lib.write t.toJson ++ [10]) = .bare t := by
  obtain ⟨s, htext, hread⟩ := hlib.read_line t.writable_toJson
  rw [← TemplatePropose.toJson, t.mapFloat_toJson] at hread
  rw [← TemplatePropose.toJson] at htext
  have hnone : InternalMessage.ofJson t.toJson = none := by
    have htype : JsonTree.required JsonTree.readStr t.jsonFields "msg_type" = none := by
      rw [JsonTree.required, JsonTree.field_of_not_mem]
      simp [TemplatePropose.jsonFields]
    change InternalMessage.ofFields t.jsonFields = none
    rw [InternalMessage.ofFields, htype]
    rfl
  rw [parseLine, htext]
  dsimp only
  rw [hread, Option.bind_some, Option.bind_some, hnone, t.ofJson_toJson]

end

/-! ## Answers -/

/-- Represents a single verdict logged to memory and disk. -/
structure LoggedVerdict where
  logId : UInt64
  templateId : UInt64
  height : UInt32
  totalFees : UInt64
  txCount : UInt32
  accepted : Bool
  reason : Option String
  reasonCode : Option String := none
  reasonDetail : Option String := none
  timestamp : UInt64
  minAvgFeeUsed : UInt64
  feeTier : String
  tierSource : String := ""
  avgFeeSatsPerTx : UInt64
  templateWeight : Option UInt64 := none
  totalSigops : Option UInt32 := none
  coinbaseSigops : Option UInt32 := none
  createdAtUnixMs : Option UInt64 := none
  safetyWarnings : List String := []
  mempoolAdjudication : Option SecondChanceOutcome := none

def computeAvgFeeSatsPerTx (t : TemplatePropose) : UInt64 :=
  if t.txCount = 0 then 0 else t.totalFees / UInt64.ofNat t.txCount.toNat

section

variable (btc : RustBitcoin) (sha : Bytes → Bytes32)

/-- What is logged of a proposal. -/
def loggedVerdict (ctx : IngressContext) (logId timestamp : UInt64)
    (t : TemplatePropose) : LoggedVerdict :=
  match ctx.policy with
  | none =>
      { logId := logId
        templateId := t.id
        height := t.blockHeight
        totalFees := t.totalFees
        txCount := t.txCount
        accepted := false
        reason := some VerdictReason.policyLoadError.asStr
        reasonCode := some VerdictReason.policyLoadError.asStr
        reasonDetail := some "policy lock poisoned"
        timestamp := timestamp
        minAvgFeeUsed := 0
        feeTier := "unknown"
        tierSource := "fallback"
        avgFeeSatsPerTx := 0 }
  | some cfg =>
      let secondChance := secondChanceOf btc sha ctx cfg t
      let eval := withdraw (evaluatePropose btc sha ctx cfg t) secondChance
      let reasonCode := eval.reason.map VerdictReason.asStr
      { logId := logId
        templateId := t.id
        height := t.blockHeight
        totalFees := t.totalFees
        txCount := t.txCount
        accepted := eval.reason.isNone
        -- prefer the code, fall back to the detail, then to ok
        reason := (reasonCode.or eval.detail).or (some "ok")
        reasonCode := reasonCode
        reasonDetail := eval.detail
        timestamp := timestamp
        minAvgFeeUsed := eval.minAvgFeeUsed
        feeTier := eval.feeTier.asStr
        tierSource := if ctx.mempoolTxCount.isSome then "measured" else "fallback"
        avgFeeSatsPerTx := computeAvgFeeSatsPerTx t
        templateWeight := t.templateWeight.or t.observedWeight
        totalSigops := t.totalSigops
        coinbaseSigops := t.coinbaseSigops
        createdAtUnixMs := t.createdAtUnixMs
        safetyWarnings := eval.warnings.map fun w => w.reason.asStr
        mempoolAdjudication := secondChance }

end

/-- What a connection sends. -/
inductive Answer where
  | ack
  | verdict (v : TemplateVerdict)

/-- An acknowledgment is always in an envelope. -/
def Answer.toJson (usesEnvelope : Option Bool) : Answer → JsonTree
  | .ack =>
      InternalMessage.toJson
        { msgType := InternalMessage.heartbeatAck
          version := protocolVersion
          payload := .obj [] }
  | .verdict v =>
      if usesEnvelope = some true then
        InternalMessage.toJson
          { msgType := InternalMessage.templateVerdict
            version := protocolVersion
            payload := v.toJson }
      else v.toJson

def Answer.line (lib : JsonLib) (usesEnvelope : Option Bool) (a : Answer) : Bytes :=
  lib.write (a.toJson usesEnvelope) ++ [10]

/-! ## Connections -/

/-- Where a connection stands: reading, with a proposal to evaluate, with a
verdict to log, or with an answer to send. -/
inductive ConnectionPc where
  | reading
  | evaluating (t : TemplatePropose)
  | recording (logged : LoggedVerdict) (v : TemplateVerdict)
  | sending (answer : Answer)
  | closed

/-- A connection that is past a line that asked for something. -/
def ConnectionPc.isBusy : ConnectionPc → Bool
  | .evaluating _ | .recording _ _ | .sending _ => true
  | .reading | .closed => false

structure TcpConnection where
  pc : ConnectionPc := .reading
  usesEnvelope : Option Bool := none
  cadence : HeartbeatCadence
  shedAfterMs : UInt64
  sent : List (Option Bool × Answer) := []

namespace TcpConnection

/-- A line is read. The first one that parses settles the format. -/
def read (c : TcpConnection) (now : ℕ) (line : ParsedLine) : TcpConnection :=
  let c := { c with usesEnvelope := c.usesEnvelope.or line.format }
  match line, line.request with
  | .notText, _ => { c with pc := .closed }
  | _, none => c
  | _, some (.propose t) => { c with pc := .evaluating t }
  | _, some .heartbeat =>
      let observed := c.cadence.observe now c.shedAfterMs
      { c with
        cadence := observed.1
        shedAfterMs := observed.2
        pc := .sending .ack }

end TcpConnection

/-- The connections of the ingress and what they share: the log in memory, the
counter of its ids, and the verdicts handed to the log on disk, each under the
connection that had it. -/
structure IngressState where
  connections : ℕ → Option TcpConnection
  counter : UInt64
  log : List LoggedVerdict := []
  appended : List (ℕ × LoggedVerdict) := []

inductive IngressLabel where
  | connect (c : ℕ) (started : ℕ) (shedAfterMs : UInt64)
  | read (c : ℕ) (now : ℕ) (line : Bytes)
  /-- The proposal is evaluated and gets its log id. -/
  | evaluate (c : ℕ) (ctx : IngressContext) (timestamp : UInt64)
  /-- The verdict is logged and handed to the disk. -/
  | record (c : ℕ)
  | send (c : ℕ)
  /-- The connection ends: at its end of file, over the budget of a line, or on
  an error. From the id of a verdict to its entry in the log it does not. -/
  | close (c : ℕ)

namespace IngressState

def set (s : IngressState) (c : ℕ) (conn : TcpConnection) : IngressState :=
  { s with connections := Function.update s.connections c (some conn) }

section

variable (lib : JsonLib) (btc : RustBitcoin) (sha : Bytes → Bytes32) (maxLog : ℕ)

/-- One step of one connection. -/
def step (s : IngressState) : IngressLabel → Option IngressState
  | .connect c started shedAfterMs =>
      match s.connections c with
      | some _ => none
      | none =>
          some (s.set c { cadence := ⟨started, 0⟩, shedAfterMs := shedAfterMs })
  | .read c now line =>
      match s.connections c with
      | some conn =>
          match conn.pc with
          | .reading => some (s.set c (conn.read now (parseLine lib line)))
          | _ => none
      | none => none
  | .evaluate c ctx timestamp =>
      match s.connections c with
      | some conn =>
          match conn.pc with
          | .evaluating t =>
              some ({ s with counter := s.counter + 1 }.set c
                { conn with
                  pc := .recording (loggedVerdict btc sha ctx s.counter timestamp t)
                    (verdictFor btc sha ctx t) })
          | _ => none
      | none => none
  | .record c =>
      match s.connections c with
      | some conn =>
          match conn.pc with
          | .recording logged v =>
              let log := s.log ++ [logged]
              some ({ s with
                log := log.drop (log.length - maxLog)
                appended := s.appended ++ [(c, logged)] }.set c
                { conn with pc := .sending (.verdict v) })
          | _ => none
      | none => none
  | .send c =>
      match s.connections c with
      | some conn =>
          match conn.pc with
          | .sending answer =>
              some (s.set c
                { conn with
                  pc := .reading
                  sent := conn.sent ++ [(conn.usesEnvelope, answer)] })
          | _ => none
      | none => none
  | .close c =>
      match s.connections c with
      | some conn =>
          match conn.pc with
          | .recording _ _ => none
          | _ => some (s.set c { conn with pc := .closed })
      | none => none

end

section

variable {lib : JsonLib} {btc : RustBitcoin} {sha : Bytes → Bytes32} {maxLog : ℕ}
  {s t : IngressState} {a : IngressLabel} {c : ℕ}

theorem step_read {conn : TcpConnection} {now : ℕ} {line : Bytes} {parsed : ParsedLine}
    (hconn : s.connections c = some conn) (hpc : conn.pc = .reading)
    (hparse : parseLine lib line = parsed) :
    step lib btc sha maxLog s (.read c now line) =
      some (s.set c (conn.read now parsed)) := by
  subst hparse
  rw [step, hconn]
  dsimp only
  rw [hpc]

theorem set_connections (s : IngressState) (c c' : ℕ) (conn : TcpConnection) :
    (s.set c conn).connections c' = if c' = c then some conn else s.connections c' := by
  exact Function.update_apply _ _ _ _

/-- All that a step can do. -/
theorem step_cases (h : step lib btc sha maxLog s a = some t) :
    (∃ c started shedAfterMs, a = .connect c started shedAfterMs ∧
      s.connections c = none ∧
      t = s.set c { cadence := ⟨started, 0⟩, shedAfterMs := shedAfterMs }) ∨
    (∃ c now line conn, a = .read c now line ∧ s.connections c = some conn ∧
      conn.pc = .reading ∧ t = s.set c (conn.read now (parseLine lib line))) ∨
    (∃ c ctx timestamp conn template, a = .evaluate c ctx timestamp ∧
      s.connections c = some conn ∧ conn.pc = .evaluating template ∧
      t = { s with counter := s.counter + 1 }.set c
        { conn with
          pc := .recording (loggedVerdict btc sha ctx s.counter timestamp template)
            (verdictFor btc sha ctx template) }) ∨
    (∃ c conn logged v, a = .record c ∧ s.connections c = some conn ∧
      conn.pc = .recording logged v ∧
      t = { s with
        log := (s.log ++ [logged]).drop ((s.log ++ [logged]).length - maxLog)
        appended := s.appended ++ [(c, logged)] }.set c
        { conn with pc := .sending (.verdict v) }) ∨
    (∃ c conn answer, a = .send c ∧ s.connections c = some conn ∧
      conn.pc = .sending answer ∧
      t = s.set c
        { conn with
          pc := .reading
          sent := conn.sent ++ [(conn.usesEnvelope, answer)] }) ∨
    (∃ c conn, a = .close c ∧ s.connections c = some conn ∧
      (∀ logged v, conn.pc ≠ .recording logged v) ∧
      t = s.set c { conn with pc := .closed }) := by
  rcases a with ⟨c, started, shedAfterMs⟩ | ⟨c, now, line⟩ | ⟨c, ctx, timestamp⟩ | c | c | c
  · rw [step] at h
    split at h
    · cases h
    · rename_i hnone
      exact .inl ⟨c, started, shedAfterMs, rfl, hnone, (Option.some.inj h).symm⟩
  · rw [step] at h
    split at h
    · rename_i conn hconn
      split at h
      · rename_i hpc
        exact .inr (.inl ⟨c, now, line, conn, rfl, hconn, hpc, (Option.some.inj h).symm⟩)
      · cases h
    · cases h
  · rw [step] at h
    split at h
    · rename_i conn hconn
      split at h
      · rename_i template hpc
        exact .inr (.inr (.inl ⟨c, ctx, timestamp, conn, template, rfl, hconn, hpc,
          (Option.some.inj h).symm⟩))
      · cases h
    · cases h
  · rw [step] at h
    split at h
    · rename_i conn hconn
      split at h
      · rename_i logged v hpc
        exact .inr (.inr (.inr (.inl ⟨c, conn, logged, v, rfl, hconn, hpc,
          (Option.some.inj h).symm⟩)))
      · cases h
    · cases h
  · rw [step] at h
    split at h
    · rename_i conn hconn
      split at h
      · rename_i answer hpc
        exact .inr (.inr (.inr (.inr (.inl ⟨c, conn, answer, rfl, hconn, hpc,
          (Option.some.inj h).symm⟩))))
      · cases h
    · cases h
  · rw [step] at h
    split at h
    · rename_i conn hconn
      split at h
      · cases h
      · rename_i hpc
        exact .inr (.inr (.inr (.inr (.inr ⟨c, conn, rfl, hconn, hpc,
          (Option.some.inj h).symm⟩))))
    · cases h

end

end IngressState

/-! ## What a connection was asked and what it answers -/

/-- The connection a label is about. -/
def IngressLabel.conn : IngressLabel → ℕ
  | .connect c _ _ | .read c _ _ | .evaluate c _ _ | .record c | .send c | .close c => c

/-- The lines a connection has read. -/
def linesOf (lib : JsonLib) (c : ℕ) (labels : List IngressLabel) : List ParsedLine :=
  labels.filterMap fun
    | .read c' _ line => if c' = c then some (parseLine lib line) else none
    | _ => none

def requestsOf (lines : List ParsedLine) : List Request :=
  lines.filterMap ParsedLine.request

/-- What was read for the evaluations of a connection. -/
def contextsOf (c : ℕ) (labels : List IngressLabel) : List IngressContext :=
  labels.filterMap fun
    | .evaluate c' ctx _ => if c' = c then some ctx else none
    | _ => none

/-- The format the first line that parses settles. -/
def formatOf (lines : List ParsedLine) : Option Bool :=
  lines.findSome? ParsedLine.format

def Request.isPropose : Request → Bool
  | .propose _ => true
  | .heartbeat => false

/-- The answers to requests, the proposals among them evaluated in the given
contexts. -/
def answersTo (btc : RustBitcoin) (sha : Bytes → Bytes32) :
    List Request → List IngressContext → List Answer
  | .heartbeat :: requests, contexts => .ack :: answersTo btc sha requests contexts
  | .propose t :: requests, ctx :: contexts =>
      .verdict (verdictFor btc sha ctx t) :: answersTo btc sha requests contexts
  | _, _ => []

/-- Every proposal was evaluated. -/
def AllEvaluated (requests : List Request) (contexts : List IngressContext) : Prop :=
  requests.countP Request.isPropose = contexts.length

section

variable {btc : RustBitcoin} {sha : Bytes → Bytes32} {requests : List Request}
  {contexts : List IngressContext}

theorem answersTo_append (h : AllEvaluated requests contexts) (more : List Request)
    (moreContexts : List IngressContext) :
    answersTo btc sha (requests ++ more) (contexts ++ moreContexts) =
      answersTo btc sha requests contexts ++ answersTo btc sha more moreContexts := by
  induction requests generalizing contexts with
  | nil =>
      have hnil : contexts = [] := List.eq_nil_of_length_eq_zero h.symm
      rw [hnil]
      simp [answersTo]
  | cons r requests ih =>
      rcases r with template | _
      · rcases contexts with _ | ⟨ctx, contexts⟩
        · simp [AllEvaluated, Request.isPropose] at h
        · have hrest : AllEvaluated requests contexts := by
            simpa [AllEvaluated, List.countP_cons, Request.isPropose] using h
          simp [answersTo, ih hrest]
      · have hrest : AllEvaluated requests contexts := by
          simpa [AllEvaluated, List.countP_cons, Request.isPropose] using h
        simp [answersTo, ih hrest]

theorem answersTo_length (h : AllEvaluated requests contexts) :
    (answersTo btc sha requests contexts).length = requests.length := by
  induction requests generalizing contexts with
  | nil => simp [answersTo]
  | cons r requests ih =>
      rcases r with template | _
      · rcases contexts with _ | ⟨ctx, contexts⟩
        · simp [AllEvaluated, Request.isPropose] at h
        · have hrest : AllEvaluated requests contexts := by
            simpa [AllEvaluated, List.countP_cons, Request.isPropose] using h
          simp [answersTo, ih hrest]
      · have hrest : AllEvaluated requests contexts := by
          simpa [AllEvaluated, List.countP_cons, Request.isPropose] using h
        simp [answersTo, ih hrest]

/-- Further requests and evaluations change no answer. -/
theorem answersTo_prefix (requests more : List Request)
    (contexts moreContexts : List IngressContext) :
    answersTo btc sha requests contexts <+:
      answersTo btc sha (requests ++ more) (contexts ++ moreContexts) := by
  induction requests generalizing contexts with
  | nil => simp [answersTo]
  | cons r requests ih =>
      rcases r with template | _
      · rcases contexts with _ | ⟨ctx, contexts⟩
        · simp [answersTo]
        · exact List.cons_prefix_cons.mpr ⟨rfl, ih contexts⟩
      · exact List.cons_prefix_cons.mpr ⟨rfl, ih contexts⟩

/-- A verdict answers a proposal. -/
theorem mem_answersTo {v : TemplateVerdict}
    (h : .verdict v ∈ answersTo btc sha requests contexts) :
    ∃ t ctx, .propose t ∈ requests ∧ ctx ∈ contexts ∧ v = verdictFor btc sha ctx t := by
  induction requests generalizing contexts with
  | nil => simp [answersTo] at h
  | cons r requests ih =>
      rcases r with template | _
      · rcases contexts with _ | ⟨ctx, contexts⟩
        · simp [answersTo] at h
        · rcases List.mem_cons.mp h with heq | h
          · exact ⟨template, ctx, List.mem_cons_self, List.mem_cons_self,
              Answer.verdict.inj heq⟩
          · obtain ⟨t, ctx', ht, hctx, hv⟩ := ih h
            exact ⟨t, ctx', List.mem_cons_of_mem _ ht, List.mem_cons_of_mem _ hctx, hv⟩
      · rcases List.mem_cons.mp h with heq | h
        · cases heq
        · obtain ⟨t, ctx', ht, hctx, hv⟩ := ih h
          exact ⟨t, ctx', List.mem_cons_of_mem _ ht, hctx, hv⟩

/-- A verdict in the log says what was sent. -/
def LoggedVerdict.Records (logged : LoggedVerdict) (v : TemplateVerdict) : Prop :=
  logged.templateId = v.id ∧ logged.accepted = v.accepted ∧
    logged.reasonCode = v.reasonCode.map VerdictReason.asStr ∧
    logged.reasonDetail = v.reasonDetail

theorem loggedVerdict_records (btc : RustBitcoin) (sha : Bytes → Bytes32)
    (ctx : IngressContext) (logId timestamp : UInt64) (template : TemplatePropose) :
    (loggedVerdict btc sha ctx logId timestamp template).Records
      (verdictFor btc sha ctx template) := by
  rw [loggedVerdict, verdictFor]
  rcases ctx.policy with _ | cfg
  · exact ⟨rfl, rfl, rfl, rfl⟩
  · exact ⟨rfl, rfl, rfl, rfl⟩

/-- How far a connection has come with what it was asked. -/
def TcpConnection.Answers (btc : RustBitcoin) (sha : Bytes → Bytes32)
    (requests : List Request) (contexts : List IngressContext) (conn : TcpConnection) :
    Prop :=
  match conn.pc with
  | .reading =>
      AllEvaluated requests contexts ∧
        conn.sent.map Prod.snd = answersTo btc sha requests contexts
  | .evaluating template =>
      ∃ before, requests = before ++ [.propose template] ∧ AllEvaluated before contexts ∧
        conn.sent.map Prod.snd = answersTo btc sha before contexts
  | .recording logged v =>
      AllEvaluated requests contexts ∧ logged.Records v ∧
        conn.sent.map Prod.snd ++ [.verdict v] = answersTo btc sha requests contexts
  | .sending answer =>
      AllEvaluated requests contexts ∧
        conn.sent.map Prod.snd ++ [answer] = answersTo btc sha requests contexts
  | .closed => conn.sent.map Prod.snd <+: answersTo btc sha requests contexts

/-- A connection has answered its own lines, in the format of the first of them
that parses. -/
structure TcpConnection.Sound (btc : RustBitcoin) (sha : Bytes → Bytes32)
    (lines : List ParsedLine) (contexts : List IngressContext) (conn : TcpConnection) :
    Prop where
  format : conn.usesEnvelope = formatOf lines
  settled : conn.sent ≠ [] ∨ conn.pc.isBusy → conn.usesEnvelope.isSome
  sentFormat : ∀ p ∈ conn.sent, p.1 = conn.usesEnvelope
  answers : conn.Answers btc sha (requestsOf lines) contexts

section

variable {lines : List ParsedLine} {conn : TcpConnection}

theorem formatOf_append (lines : List ParsedLine) (line : ParsedLine) :
    formatOf (lines ++ [line]) = (formatOf lines).or line.format := by
  rw [formatOf, List.findSome?_append]
  simp [formatOf]

/-- A line that asks for something has settled the format. -/
theorem ParsedLine.isSome_format {line : ParsedLine} {r : Request}
    (h : line.request = some r) : line.format.isSome := by
  rcases line with _ | m | t | _
  · cases h
  · rfl
  · rfl
  · cases h

/-- What reading a line does, by what it asks for. -/
theorem TcpConnection.read_cases (conn : TcpConnection) (now : ℕ) (line : ParsedLine) :
    (line = .notText ∧ conn.read now line = { conn with pc := .closed }) ∨
    (line.request = none ∧ conn.read now line =
      { conn with usesEnvelope := conn.usesEnvelope.or line.format }) ∨
    (∃ t, line.request = some (.propose t) ∧ conn.read now line =
      { conn with
        usesEnvelope := conn.usesEnvelope.or line.format
        pc := .evaluating t }) ∨
    (line.request = some .heartbeat ∧ ∃ cadence shedAfterMs, conn.read now line =
      { conn with
        usesEnvelope := conn.usesEnvelope.or line.format
        cadence := cadence
        shedAfterMs := shedAfterMs
        pc := .sending .ack }) := by
  by_cases hline : line = .notText
  · subst hline
    left
    simp [TcpConnection.read, ParsedLine.format]
  · right
    rcases hrequest : line.request with _ | t | _
    · left
      refine ⟨rfl, ?_⟩
      simp only [TcpConnection.read]
      rw [hrequest]
      rcases line with _ | _ | _ | _
      · exact absurd rfl hline
      all_goals rfl
    · right; left
      refine ⟨t, rfl, ?_⟩
      simp only [TcpConnection.read]
      rw [hrequest]
      rcases line with _ | _ | _ | _
      · exact absurd rfl hline
      all_goals rfl
    · right; right
      refine ⟨rfl, (conn.cadence.observe now conn.shedAfterMs).1,
        (conn.cadence.observe now conn.shedAfterMs).2, ?_⟩
      simp only [TcpConnection.read]
      rw [hrequest]
      rcases line with _ | _ | _ | _
      · exact absurd rfl hline
      all_goals rfl

theorem requestsOf_append (lines : List ParsedLine) (line : ParsedLine) :
    requestsOf (lines ++ [line]) = requestsOf lines ++ line.request.toList := by
  rw [requestsOf, List.filterMap_append]
  rcases hrequest : line.request with _ | r
  · simp [requestsOf, hrequest]
  · simp [requestsOf, hrequest]

/-- The answers given so far have a format, which no later line changes. -/
theorem TcpConnection.Sound.sentFormat_or (h : conn.Sound btc sha lines contexts)
    (format : Option Bool) : ∀ p ∈ conn.sent, p.1 = conn.usesEnvelope.or format := by
  intro p hp
  have hsome := h.settled (.inl (List.ne_nil_of_mem hp))
  rw [h.sentFormat p hp, Option.or_of_isSome hsome]

/-- A line that is read keeps a connection sound. -/
theorem TcpConnection.Sound.read (h : conn.Sound btc sha lines contexts)
    (hpc : conn.pc = .reading) (now : ℕ) (line : ParsedLine) :
    (conn.read now line).Sound btc sha (lines ++ [line]) contexts := by
  have hanswers := h.answers
  simp only [TcpConnection.Answers, hpc] at hanswers
  obtain ⟨hall, hsent⟩ := hanswers
  have hformat : conn.usesEnvelope.or line.format = formatOf (lines ++ [line]) := by
    rw [formatOf_append, h.format]
  have hkept := h.sentFormat_or line.format
  have hsome : conn.usesEnvelope.isSome → (conn.usesEnvelope.or line.format).isSome := by
    intro hsome
    rwa [Option.or_of_isSome hsome]
  rcases conn.read_cases now line with ⟨rfl, hread⟩ | ⟨hrequest, hread⟩ |
    ⟨t, hrequest, hread⟩ | ⟨hrequest, cadence, shedAfterMs, hread⟩
  · rw [hread]
    have hnone : conn.usesEnvelope.or ParsedLine.notText.format = conn.usesEnvelope := by
      simp [ParsedLine.format]
    rw [hnone] at hformat
    refine ⟨hformat, ?_, h.sentFormat, ?_⟩
    · rintro (hne | hbusy)
      · exact h.settled (.inl hne)
      · cases hbusy
    · rw [requestsOf_append]
      simp [TcpConnection.Answers, ParsedLine.request, hsent]
  · rw [hread]
    refine ⟨hformat, ?_, hkept, ?_⟩
    · exact fun hcase => hsome (h.settled hcase)
    · rw [requestsOf_append, hrequest]
      simp only [TcpConnection.Answers, hpc]
      simpa using ⟨hall, hsent⟩
  · rw [hread]
    refine ⟨hformat, ?_, hkept, ?_⟩
    · intro _
      simp [Option.isSome_or, ParsedLine.isSome_format hrequest]
    · rw [requestsOf_append, hrequest]
      exact ⟨requestsOf lines, rfl, hall, hsent⟩
  · rw [hread]
    refine ⟨hformat, ?_, hkept, ?_⟩
    · intro _
      simp [Option.isSome_or, ParsedLine.isSome_format hrequest]
    · rw [requestsOf_append, hrequest]
      have happend : answersTo btc sha (requestsOf lines ++ [.heartbeat]) (contexts ++ []) =
          answersTo btc sha (requestsOf lines) contexts ++ [.ack] :=
        answersTo_append hall [.heartbeat] []
      rw [List.append_nil] at happend
      constructor
      · simpa [AllEvaluated, Request.isPropose, List.countP_append] using hall
      · rw [Option.toList_some, happend, hsent]

/-- The proposal is evaluated, whatever is logged of it. -/
theorem TcpConnection.Sound.evaluate {template : TemplatePropose}
    (h : conn.Sound btc sha lines contexts) (hpc : conn.pc = .evaluating template)
    (ctx : IngressContext) (logId timestamp : UInt64) :
    ({ conn with
        pc := .recording (loggedVerdict btc sha ctx logId timestamp template)
          (verdictFor btc sha ctx template) } : TcpConnection).Sound btc sha lines
      (contexts ++ [ctx]) := by
  have hanswers := h.answers
  simp only [TcpConnection.Answers, hpc] at hanswers
  obtain ⟨before, hrequests, hall, hsent⟩ := hanswers
  refine ⟨h.format, ?_, h.sentFormat, ?_⟩
  · intro _
    apply h.settled
    rw [hpc]
    exact .inr rfl
  · refine ⟨?_, loggedVerdict_records btc sha ctx logId timestamp template, ?_⟩
    · rw [hrequests]
      simpa [AllEvaluated, Request.isPropose, List.countP_append] using hall
    · rw [hrequests, answersTo_append hall, hsent]
      rfl

/-- A connection goes on with the answer it has, or sends it. -/
theorem TcpConnection.Sound.record {logged : LoggedVerdict} {v : TemplateVerdict}
    (h : conn.Sound btc sha lines contexts) (hpc : conn.pc = .recording logged v) :
    ({ conn with pc := .sending (.verdict v) } : TcpConnection).Sound btc sha lines
      contexts := by
  have hanswers := h.answers
  simp only [TcpConnection.Answers, hpc] at hanswers
  obtain ⟨hall, -, hsent⟩ := hanswers
  refine ⟨h.format, ?_, h.sentFormat, hall, hsent⟩
  intro _
  apply h.settled
  rw [hpc]
  exact .inr rfl

theorem TcpConnection.Sound.send {answer : Answer}
    (h : conn.Sound btc sha lines contexts) (hpc : conn.pc = .sending answer) :
    ({ conn with
        pc := .reading
        sent := conn.sent ++ [(conn.usesEnvelope, answer)] } : TcpConnection).Sound btc sha
      lines contexts := by
  have hanswers := h.answers
  simp only [TcpConnection.Answers, hpc] at hanswers
  obtain ⟨hall, hsent⟩ := hanswers
  refine ⟨h.format, ?_, ?_, hall, ?_⟩
  · intro _
    apply h.settled
    rw [hpc]
    exact .inr rfl
  · intro p hp
    rcases List.mem_append.mp hp with hp | hp
    · exact h.sentFormat p hp
    · rw [List.mem_singleton.mp hp]
  · rw [List.map_append]
    exact hsent

/-- A connection ends with the answers it has sent. -/
theorem TcpConnection.Sound.close (h : conn.Sound btc sha lines contexts) :
    ({ conn with pc := .closed } : TcpConnection).Sound btc sha lines contexts := by
  refine ⟨h.format, ?_, h.sentFormat, ?_⟩
  · rintro (hne | hbusy)
    · exact h.settled (.inl hne)
    · cases hbusy
  · have hanswers := h.answers
    rw [TcpConnection.Answers] at hanswers
    change conn.sent.map Prod.snd <+: _
    split at hanswers
    · rw [hanswers.2]
    · rename_i template hpc
      obtain ⟨before, hrequests, hall, hsent⟩ := hanswers
      have happend :
          answersTo btc sha (before ++ [.propose template]) (contexts ++ []) =
            answersTo btc sha before contexts ++ [] := answersTo_append hall _ []
      rw [List.append_nil, List.append_nil] at happend
      rw [hrequests, hsent, happend]
    · exact ⟨_, hanswers.2.2⟩
    · exact ⟨_, hanswers.2⟩
    · exact hanswers

end

end

/-! ## All connections -/

namespace IngressState

section

variable {lib : JsonLib} {btc : RustBitcoin} {sha : Bytes → Bytes32} {maxLog : ℕ}
  {labels : List IngressLabel} {s t : IngressState} {a : IngressLabel}

/-- Every connection has answered its own lines. -/
structure Sound (lib : JsonLib) (btc : RustBitcoin) (sha : Bytes → Bytes32)
    (labels : List IngressLabel) (s : IngressState) : Prop where
  lines : ∀ c, s.connections c = none → linesOf lib c labels = []
  contexts : ∀ c, s.connections c = none → contextsOf c labels = []
  conns : ∀ c conn, s.connections c = some conn →
    conn.Sound btc sha (linesOf lib c labels) (contextsOf c labels)

theorem linesOf_append (lib : JsonLib) (c : ℕ) (labels : List IngressLabel)
    (a : IngressLabel) :
    linesOf lib c (labels ++ [a]) = linesOf lib c labels ++ linesOf lib c [a] :=
  List.filterMap_append

theorem contextsOf_append (c : ℕ) (labels : List IngressLabel) (a : IngressLabel) :
    contextsOf c (labels ++ [a]) = contextsOf c labels ++ contextsOf c [a] :=
  List.filterMap_append

theorem linesOf_of_ne {c : ℕ} (h : c ≠ a.conn) : linesOf lib c [a] = [] := by
  rcases a with _ | ⟨c', _, _⟩ | _ | _ | _ | _
  case read => simpa [linesOf, IngressLabel.conn] using Ne.symm h
  all_goals rfl

theorem contextsOf_of_ne {c : ℕ} (h : c ≠ a.conn) : contextsOf c [a] = [] := by
  rcases a with _ | _ | ⟨c', _, _⟩ | _ | _ | _
  case evaluate => simpa [contextsOf, IngressLabel.conn] using Ne.symm h
  all_goals rfl

/-- A step of one connection leaves the others as they are. -/
theorem Sound.set {conn : TcpConnection} (h : s.Sound lib btc sha labels)
    (a : IngressLabel) (c : ℕ) (lines : List ParsedLine) (contexts : List IngressContext)
    (hc : a.conn = c)
    (hsame : t.connections = s.connections) (hlines : linesOf lib c [a] = lines)
    (hcontexts : contextsOf c [a] = contexts)
    (hconn : conn.Sound btc sha (linesOf lib c labels ++ lines)
      (contextsOf c labels ++ contexts)) :
    (t.set c conn).Sound lib btc sha (labels ++ [a]) := by
  subst hc hlines hcontexts
  have hother : ∀ c, (t.set a.conn conn).connections c = none →
      c ≠ a.conn ∧ s.connections c = none := by
    intro c hnone
    rw [set_connections, hsame] at hnone
    split at hnone
    · cases hnone
    · exact ⟨‹_›, hnone⟩
  refine ⟨?_, ?_, ?_⟩
  · intro c hnone
    obtain ⟨hne, hnone⟩ := hother c hnone
    rw [linesOf_append, h.lines c hnone, linesOf_of_ne hne, List.append_nil]
  · intro c hnone
    obtain ⟨hne, hnone⟩ := hother c hnone
    rw [contextsOf_append, h.contexts c hnone, contextsOf_of_ne hne, List.append_nil]
  · intro c conn' hconn'
    rw [linesOf_append, contextsOf_append]
    rcases update_eq_some hconn' with ⟨rfl, hnew⟩ | ⟨hne, hold⟩
    · cases hnew
      exact hconn
    · rw [hsame] at hold
      rw [linesOf_of_ne hne, contextsOf_of_ne hne, List.append_nil, List.append_nil]
      exact h.conns c conn' hold

theorem sound_new {cadence : HeartbeatCadence} {shedAfterMs : UInt64} :
    ({ cadence := cadence, shedAfterMs := shedAfterMs } : TcpConnection).Sound btc sha
      [] [] := by
  refine ⟨rfl, ?_, ?_, rfl, rfl⟩
  · rintro (hne | hbusy)
    · exact absurd rfl hne
    · cases hbusy
  · intro p hp
    cases hp

theorem Sound.step (h : s.Sound lib btc sha labels)
    (hstep : step lib btc sha maxLog s a = some t) :
    t.Sound lib btc sha (labels ++ [a]) := by
  rcases step_cases hstep with ⟨c, started, shedAfterMs, rfl, hnone, rfl⟩ |
    ⟨c, now, line, conn, rfl, hconn, hpc, rfl⟩ |
    ⟨c, ctx, timestamp, conn, template, rfl, hconn, hpc, rfl⟩ |
    ⟨c, conn, logged, v, rfl, hconn, hpc, rfl⟩ | ⟨c, conn, answer, rfl, hconn, hpc, rfl⟩ |
    ⟨c, conn, rfl, hconn, -, rfl⟩
  · refine h.set (.connect c started shedAfterMs) c [] [] rfl rfl rfl rfl ?_
    rw [h.lines c hnone, h.contexts c hnone]
    exact sound_new
  · have hlines : linesOf lib c [.read c now line] = [parseLine lib line] := by
      simp [linesOf]
    refine h.set (.read c now line) c _ [] rfl rfl hlines rfl ?_
    rw [List.append_nil]
    exact (h.conns c conn hconn).read hpc now (parseLine lib line)
  · have hcontexts : contextsOf c [.evaluate c ctx timestamp] = [ctx] := by
      simp [contextsOf]
    refine h.set (.evaluate c ctx timestamp) c [] _ rfl ?_ rfl hcontexts ?_
    · rfl
    rw [List.append_nil]
    exact (h.conns c conn hconn).evaluate hpc ctx s.counter timestamp
  · refine h.set (.record c) c [] [] rfl ?_ rfl rfl ?_
    · rfl
    rw [List.append_nil, List.append_nil]
    exact (h.conns c conn hconn).record hpc
  · refine h.set (.send c) c [] [] rfl rfl rfl rfl ?_
    rw [List.append_nil, List.append_nil]
    exact (h.conns c conn hconn).send hpc
  · refine h.set (.close c) c [] [] rfl rfl rfl rfl ?_
    rw [List.append_nil, List.append_nil]
    exact (h.conns c conn hconn).close

end

/-! ## The log -/

/-- The entries of the log that a connection had. -/
def entriesOf (c : ℕ) (appended : List (ℕ × LoggedVerdict)) : List LoggedVerdict :=
  (appended.filter fun p => p.1 = c).map Prod.snd

end IngressState

/-- The verdict in an answer. -/
def Answer.verdict? : Answer → Option TemplateVerdict
  | .ack => none
  | .verdict v => some v

def TcpConnection.verdicts (conn : TcpConnection) : List TemplateVerdict :=
  (conn.sent.map Prod.snd).filterMap Answer.verdict?

/-- The entries of a connection record the verdicts it has sent and the one it is
about to send, which it may fail to. -/
def TcpConnection.Logged (entries : List LoggedVerdict) (conn : TcpConnection) : Prop :=
  match conn.pc with
  | .reading | .evaluating _ => List.Forall₂ LoggedVerdict.Records entries conn.verdicts
  | .recording logged v =>
      logged.Records v ∧ List.Forall₂ LoggedVerdict.Records entries conn.verdicts
  | .sending answer =>
      List.Forall₂ LoggedVerdict.Records entries
        (conn.verdicts ++ answer.verdict?.toList)
  | .closed => ∃ unsent : Option TemplateVerdict,
      List.Forall₂ LoggedVerdict.Records entries (conn.verdicts ++ unsent.toList)

section

variable {btc : RustBitcoin} {sha : Bytes → Bytes32} {entries : List LoggedVerdict}
  {conn : TcpConnection}

theorem TcpConnection.Logged.read (h : conn.Logged entries) (hpc : conn.pc = .reading)
    (now : ℕ) (line : ParsedLine) : (conn.read now line).Logged entries := by
  simp only [TcpConnection.Logged, hpc] at h
  rcases conn.read_cases now line with ⟨-, hread⟩ | ⟨-, hread⟩ | ⟨t, -, hread⟩ |
    ⟨-, cadence, shedAfterMs, hread⟩
  · rw [hread]
    refine ⟨none, ?_⟩
    rw [Option.toList_none, List.append_nil]
    exact h
  · rw [hread]
    simp only [TcpConnection.Logged, hpc]
    exact h
  · rw [hread]
    exact h
  · rw [hread]
    simp only [TcpConnection.Logged, Answer.verdict?, Option.toList_none, List.append_nil]
    exact h

theorem TcpConnection.Logged.send {answer : Answer} (h : conn.Logged entries)
    (hpc : conn.pc = .sending answer) :
    ({ conn with
        pc := .reading
        sent := conn.sent ++ [(conn.usesEnvelope, answer)] } : TcpConnection).Logged
      entries := by
  simp only [TcpConnection.Logged, hpc] at h
  have hlast : [answer].filterMap Answer.verdict? = answer.verdict?.toList := by
    rcases answer with _ | v
    · rfl
    · rfl
  simp only [TcpConnection.Logged, TcpConnection.verdicts, List.map_append,
    List.filterMap_append, List.map_singleton]
  rw [hlast]
  exact h

theorem TcpConnection.Logged.exists_unsent (h : conn.Logged entries) :
    ∃ unsent : Option TemplateVerdict,
      List.Forall₂ LoggedVerdict.Records entries (conn.verdicts ++ unsent.toList) := by
  rw [TcpConnection.Logged] at h
  split at h
  · exact ⟨none, by simpa using h⟩
  · exact ⟨none, by simpa using h⟩
  · exact ⟨none, by simpa using h.2⟩
  · exact ⟨_, h⟩
  · exact h

end

namespace IngressState

section

variable {lib : JsonLib} {btc : RustBitcoin} {sha : Bytes → Bytes32} {maxLog : ℕ}
  {before : List LoggedVerdict} {s t : IngressState} {a : IngressLabel}

/-- The log holds the last entries, and those of each connection record its
verdicts. -/
structure LogSound (maxLog : ℕ) (before : List LoggedVerdict) (s : IngressState) :
    Prop where
  log : s.log = (before ++ s.appended.map Prod.snd).rtake maxLog
  fresh : ∀ c, s.connections c = none → entriesOf c s.appended = []
  logged : ∀ c conn, s.connections c = some conn → conn.Logged (entriesOf c s.appended)

/-- Only the last entries matter for those kept. -/
theorem rtake_rtake_append {α : Type} (n : ℕ) (l : List α) (x : α) :
    (l.rtake n ++ [x]).rtake n = (l ++ [x]).rtake n := by
  rcases n with _ | n
  · simp
  · rw [List.rtake_concat_succ, List.rtake_concat_succ]
    have hrtake : (l.rtake (n + 1)).rtake n = l.rtake n := by
      rw [List.rtake_eq_reverse_take_reverse, List.rtake_eq_reverse_take_reverse,
        List.rtake_eq_reverse_take_reverse, List.reverse_reverse, List.take_take,
        Nat.min_eq_left (Nat.le_succ n)]
    rw [hrtake]

theorem entriesOf_append (c c' : ℕ) (appended : List (ℕ × LoggedVerdict))
    (logged : LoggedVerdict) :
    entriesOf c' (appended ++ [(c, logged)]) =
      entriesOf c' appended ++ if c' = c then [logged] else [] := by
  rw [entriesOf, List.filter_append, List.map_append, ← entriesOf]
  congr 1
  by_cases hc : c' = c
  · simp [hc]
  · simp [hc, Ne.symm hc]

/-- A step that appends nothing. -/
theorem LogSound.set {conn : TcpConnection} {c : ℕ} (h : s.LogSound maxLog before)
    (hsame : t.connections = s.connections) (hlog : t.log = s.log)
    (happended : t.appended = s.appended)
    (hconn : conn.Logged (entriesOf c s.appended)) :
    (t.set c conn).LogSound maxLog before := by
  refine ⟨?_, ?_, ?_⟩
  · change t.log = (before ++ t.appended.map Prod.snd).rtake maxLog
    rw [hlog, happended]
    exact h.log
  · intro c' hnone
    change entriesOf c' t.appended = []
    rw [set_connections, hsame] at hnone
    rw [happended]
    split at hnone
    · cases hnone
    · exact h.fresh c' hnone
  · intro c' conn' hconn'
    change conn'.Logged (entriesOf c' t.appended)
    rw [happended]
    rcases update_eq_some hconn' with ⟨rfl, hnew⟩ | ⟨-, hold⟩
    · cases hnew
      exact hconn
    · rw [hsame] at hold
      exact h.logged c' conn' hold

/-- A verdict is recorded. -/
theorem LogSound.record {conn : TcpConnection} {c : ℕ} {logged : LoggedVerdict}
    {v : TemplateVerdict} (h : s.LogSound maxLog before) (hconn : s.connections c = some conn)
    (hpc : conn.pc = .recording logged v) :
    ({ s with
      log := (s.log ++ [logged]).drop ((s.log ++ [logged]).length - maxLog)
      appended := s.appended ++ [(c, logged)] }.set c
      { conn with pc := .sending (.verdict v) }).LogSound maxLog before := by
  have hlogged := h.logged c conn hconn
  simp only [TcpConnection.Logged, hpc] at hlogged
  refine ⟨?_, ?_, ?_⟩
  · change (s.log ++ [logged]).rtake maxLog =
      (before ++ (s.appended ++ [(c, logged)]).map Prod.snd).rtake maxLog
    rw [h.log, rtake_rtake_append, List.map_append, List.append_assoc]
    rfl
  · intro c' hnone
    change entriesOf c' (s.appended ++ [(c, logged)]) = []
    rw [set_connections] at hnone
    split at hnone
    · cases hnone
    · rename_i hne
      rw [entriesOf_append, if_neg hne, h.fresh c' hnone, List.append_nil]
  · intro c' conn' hconn'
    change conn'.Logged (entriesOf c' (s.appended ++ [(c, logged)]))
    rw [entriesOf_append]
    rcases update_eq_some hconn' with ⟨rfl, hnew⟩ | ⟨hne, hold⟩
    · cases hnew
      rw [if_pos rfl]
      exact List.rel_append hlogged.2 (.cons hlogged.1 .nil)
    · rw [if_neg hne, List.append_nil]
      exact h.logged c' conn' hold

theorem LogSound.step (h : s.LogSound maxLog before)
    (hstep : step lib btc sha maxLog s a = some t) : t.LogSound maxLog before := by
  rcases step_cases hstep with ⟨c, started, shedAfterMs, rfl, hnone, rfl⟩ |
    ⟨c, now, line, conn, rfl, hconn, hpc, rfl⟩ |
    ⟨c, ctx, timestamp, conn, template, rfl, hconn, hpc, rfl⟩ |
    ⟨c, conn, logged, v, rfl, hconn, hpc, rfl⟩ | ⟨c, conn, answer, rfl, hconn, hpc, rfl⟩ |
    ⟨c, conn, rfl, hconn, -, rfl⟩
  · refine h.set rfl rfl rfl ?_
    rw [h.fresh c hnone]
    exact .nil
  · exact h.set rfl rfl rfl ((h.logged c conn hconn).read hpc now _)
  · have hlogged := h.logged c conn hconn
    simp only [TcpConnection.Logged, hpc] at hlogged
    refine h.set (s := s) ?_ ?_ ?_ ⟨loggedVerdict_records btc sha ctx _ _ _, hlogged⟩
    · rfl
    · rfl
    · rfl
  · exact h.record hconn hpc
  · exact h.set rfl rfl rfl ((h.logged c conn hconn).send hpc)
  · exact h.set rfl rfl rfl (h.logged c conn hconn).exists_unsent

/-- The ingress of a verifier that was just started: its log was loaded, and its
counter continues the ids of the log. -/
def start (counter : UInt64) (log : List LoggedVerdict) : IngressState :=
  { connections := fun _ => none, counter := counter, log := log }

theorem sound_start (lib : JsonLib) (btc : RustBitcoin) (sha : Bytes → Bytes32)
    (counter : UInt64) (log : List LoggedVerdict) :
    (start counter log).Sound lib btc sha [] :=
  ⟨fun _ _ => rfl, fun _ _ => rfl, fun _ _ hconn => by cases hconn⟩

theorem logSound_start (maxLog : ℕ) (counter : UInt64) (before : List LoggedVerdict) :
    (start counter (before.rtake maxLog)).LogSound maxLog before := by
  refine ⟨?_, fun _ _ => rfl, fun _ _ hconn => by cases hconn⟩
  change before.rtake maxLog = (before ++ []).rtake maxLog
  rw [List.append_nil]

theorem sound_of_run {counter : UInt64} {log : List LoggedVerdict}
    {labels : List IngressLabel}
    (hrun : run (IngressState.step lib btc sha maxLog) (start counter log) labels = some s) :
    s.Sound lib btc sha labels := by
  have hsound : s.Sound lib btc sha ([] ++ labels) :=
    history_of_run (fun _ _ _ _ h hstep => Sound.step h hstep)
      (sound_start lib btc sha counter log) hrun
  exact hsound

theorem logSound_of_run {counter : UInt64} {labels : List IngressLabel}
    (hrun : run (IngressState.step lib btc sha maxLog) (start counter (before.rtake maxLog))
      labels = some s) : s.LogSound maxLog before :=
  invariant_of_run (fun _ _ _ h hstep => LogSound.step h hstep)
    (logSound_start maxLog counter before) hrun

/-- The log in memory holds the last of the verdicts loaded and logged, and the
entries of a connection record the verdicts that it sent, in their order. There is
at most one more: a verdict that could not be sent. -/
theorem verdict_log_records (lib : JsonLib) (btc : RustBitcoin) (sha : Bytes → Bytes32)
    (maxLog : ℕ) (counter : UInt64) (before : List LoggedVerdict)
    (labels : List IngressLabel) (s : IngressState)
    (hrun : run (step lib btc sha maxLog) (start counter (before.rtake maxLog)) labels =
      some s) :
    s.log = (before ++ s.appended.map Prod.snd).rtake maxLog ∧
      ∀ c conn, s.connections c = some conn →
        ∃ unsent : Option TemplateVerdict,
          List.Forall₂ LoggedVerdict.Records (entriesOf c s.appended)
            (conn.verdicts ++ unsent.toList) := by
  have hsound := logSound_of_run hrun
  exact ⟨hsound.log, fun c conn hconn => (hsound.logged c conn hconn).exists_unsent⟩

end

end IngressState

/-! ## Two connections -/

section

open IngressState CompactJson

/-- A proposal without a raw block. -/
def shieldlessTemplate : TemplatePropose where
  version := protocolVersion
  id := 7
  blockHeight := 840000
  prevHash := "0000000000000000000320283a032748cef8227873ff4872689bf23f1cda83a5"
  coinbaseValue := 312500000
  txCount := 2
  totalFees := 50000

/-- The policy lock is poisoned. -/
def poisonedContext : IngressContext where
  policy := none
  mempoolTxCount := none
  nowMs := 0
  mempoolSnap := none
  secondChance := none

def heartbeatMessage : InternalMessage where
  msgType := InternalMessage.heartbeat
  version := protocolVersion
  payload := .obj []

/-- The gateway sends heartbeats while the template manager has a proposal. -/
def twoSessions : List IngressLabel :=
  [.connect 0 0 0, .connect 1 0 0,
    .read 1 5 (lib.write shieldlessTemplate.toJson ++ [10]),
    .read 0 6 (lib.write heartbeatMessage.toJson ++ [10]),
    .evaluate 1 poisonedContext 9, .send 0,
    .read 0 7 (lib.write heartbeatMessage.toJson ++ [10]), .record 1, .send 0, .send 1]

theorem exists_twoSessions (btc : RustBitcoin) (sha : Bytes → Bytes32) :
    ∃ s conn₀ conn₁, run (step lib btc sha 1000) (start 1 []) twoSessions = some s ∧
      s.connections 0 = some conn₀ ∧ s.connections 1 = some conn₁ ∧
      conn₀.sent.length = 2 ∧ conn₀.pc = .reading ∧ conn₁.sent.length = 1 := by
  have hpropose : parseLine lib (lib.write shieldlessTemplate.toJson ++ [10]) =
      .bare shieldlessTemplate := parseLine_propose lib_lawful _
  have hheartbeat : parseLine lib (lib.write heartbeatMessage.toJson ++ [10]) =
      .envelope heartbeatMessage := parseLine_message lib_lawful trivial
  refine ⟨_, _, _, run_cons_eq_some.mpr ⟨_, rfl, run_cons_eq_some.mpr ⟨_, rfl,
    run_cons_eq_some.mpr ⟨_, step_read rfl rfl hpropose, run_cons_eq_some.mpr ⟨_,
      step_read rfl rfl hheartbeat, run_cons_eq_some.mpr ⟨_, rfl,
        run_cons_eq_some.mpr ⟨_, rfl, run_cons_eq_some.mpr ⟨_,
          step_read rfl rfl hheartbeat, run_cons_eq_some.mpr ⟨_, rfl,
            run_cons_eq_some.mpr ⟨_, rfl, run_cons_eq_some.mpr ⟨_, rfl, rfl⟩⟩⟩⟩⟩⟩⟩⟩⟩⟩,
    rfl, rfl, rfl, rfl, rfl⟩

theorem verdict_log_records_twoSessions :
    ∃ s conn, run (step lib (RustBitcoin.reference sha256) sha256 1000) (start 1 [])
        twoSessions = some s ∧ s.connections 1 = some conn ∧ conn.sent.length = 1 ∧
      s.log = ([] ++ s.appended.map Prod.snd).rtake 1000 ∧
      ∃ unsent : Option TemplateVerdict,
        List.Forall₂ LoggedVerdict.Records (entriesOf 1 s.appended)
          (conn.verdicts ++ unsent.toList) := by
  obtain ⟨s, -, conn, hrun, -, hconn, -, -, hlength⟩ :=
    exists_twoSessions (RustBitcoin.reference sha256) sha256
  have hrecords := verdict_log_records lib (RustBitcoin.reference sha256) sha256 1000 1 []
    twoSessions s hrun
  exact ⟨s, conn, hrun, hconn, hlength, hrecords.1, hrecords.2 1 conn hconn⟩

end

end ReserveGrid.Verifier
