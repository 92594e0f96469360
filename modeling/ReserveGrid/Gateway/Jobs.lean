import ReserveGrid.Gateway.Shares
import ReserveGrid.Support.Counter
import ReserveGrid.Support.HashMap

/-!
# Jobs

A job fixes the header fields and the coinbase halves that miners work on. The
gateway makes jobs from the templates it polls, keeps them in the job table for
share validation, and announces each to the connection handlers. The merkle
root of a share is computed from the halves, the extranonce of its channel, and
the merkle path of the coinbase.
-/

namespace ReserveGrid.Gateway

open Support Bitcoin

/-! ## Data -/

/-- Global job id counter of a gateway process. -/
abbrev JobIdAllocator := Counter

/-- An answer of the template manager's `/latest`. Halves, merkle path and
previous hash are hexadecimal, the hash in display order. -/
structure TemplateResponse where
  templateId : UInt64
  blockHeight : UInt32
  blockVersion : UInt32
  prevHash : String
  nbits : UInt32
  minNtime : UInt32
  curtime : UInt32
  coinbaseValue : UInt64
  coinbaseTxPrefix : String
  coinbaseTxSuffix : String
  merklePath : List String
  txCount : UInt32
  totalFees : UInt64
  sourceInstanceId : String
  observedWeight : Option UInt64 := none
  templateWeight : Option UInt64 := none
  totalSigops : Option UInt32 := none
  coinbaseSigops : Option UInt32 := none
  rawBlockHex : Option String := none
  deriving DecidableEq, Repr

/-- An empty template on the genesis block of the regression test network,
which pays to `OP_1` and leaves four bytes for the extranonce. -/
def TemplateResponse.regtest : TemplateResponse where
  templateId := 1
  blockHeight := 1
  blockVersion := 0x20000000
  prevHash := "0f9188f13cb7b2c71f2a335e3a4fc328bf5beb436012afca590b1a11466e2206"
  nbits := 0x207fffff
  minNtime := 1296688603
  curtime := 1700000000
  coinbaseValue := 5000000000
  coinbaseTxPrefix := "0200000001" ++
    "0000000000000000000000000000000000000000000000000000000000000000" ++
    "ffffffff060101"
  coinbaseTxSuffix := "ffffffff0100f2052a01000000015100000000"
  merklePath := []
  txCount := 0
  totalFees := 0
  sourceInstanceId := "tm-1"

/-- A job in the job table. The previous hash is in wire order, and `createdAt`
is a monotonic time in nanoseconds. -/
structure JobRecord where
  jobId : UInt32
  templateId : UInt64
  blockHeight : UInt32
  version : UInt32
  prevHash : Bytes32
  nbits : UInt32
  coinbaseTxPrefix : Bytes
  coinbaseTxSuffix : Bytes
  merklePath : List Bytes32
  activationMinNtime : UInt32
  rawMinNtime : UInt32
  rawCurtime : UInt32
  sourceInstanceId : String
  activated : Bool
  createdAt : ℕ
  deriving DecidableEq

/-- The change of previous hash that comes with a job. -/
structure PrevhashUpdate where
  prevHash : Bytes32
  minNtime : UInt32
  nbits : UInt32
  deriving DecidableEq

/-- What the main loop announces to the connection handlers. A job tied to a
new previous hash carries an update; a refresh of the same block carries a
least time instead. -/
structure JobBroadcast where
  jobId : UInt32
  version : UInt32
  coinbaseTxPrefix : Bytes
  coinbaseTxSuffix : Bytes
  merklePath : List Bytes32
  prevhashUpdate : Option PrevhashUpdate
  minNtime : Option UInt32
  deriving DecidableEq

/-! ## Merkle root -/

/-- The merkle root from the coinbase parts and the merkle path. Path elements
are used as they are. -/
def computeMerkleRoot (sha : Bytes → Bytes32)
    (coinbaseTxPrefix extranoncePrefix coinbaseTxSuffix : Bytes)
    (merklePath : List Bytes32) : Bytes32 :=
  let coinbase := coinbaseTxPrefix ++ extranoncePrefix ++ coinbaseTxSuffix
  merklePath.foldl (fun current sibling =>
    sha256d sha (current.toBytes ++ sibling.toBytes)) (sha256d sha coinbase)

/-- Parse hexadecimal path elements of 32 bytes. -/
def parseMerklePath : List String → Option (List Bytes32)
  | [] => some []
  | s :: ss =>
      match hexDecode s with
      | .ok bytes =>
          match Bytes32.ofBytes bytes with
          | some h => (parseMerklePath ss).map (h :: ·)
          | none => none
      | .error _ => none

/-- A hash in display order as wire bytes. -/
def displayHexToWireBytes (hexStr : String) : Except String Bytes32 :=
  match hexDecode hexStr with
  | .error e => .error ("invalid hex: " ++ e.message)
  | .ok bytes =>
      match Bytes32.ofBytes bytes with
      | none => .error ("expected 32 bytes, got " ++ toString bytes.length)
      | some h => .ok h.reverse

/-- The least time of a job: the later of the template's two times, but no
later than the gateway's clock and the allowance. -/
def effectiveMinNtime
    (templateMinNtime templateCurtime gatewayNow skewAllowance : UInt32) :
    UInt32 :=
  min (max templateMinNtime templateCurtime)
    (saturatingAdd32 gatewayNow skewAllowance)

/-- A duration given in milliseconds, in nanoseconds. -/
def millis (ms : UInt64) : ℕ := ms.toNat * 10 ^ 6

/-! ## The job table -/

/-- The jobs that shares may still refer to, by job id. -/
structure JobTable where
  jobs : HashMap UInt32 JobRecord := ∅
  retentionMs : UInt64
  maxEntries : ℕ

namespace JobTable

/-- Forget the jobs older than the retention. -/
def evictStale (now : ℕ) (table : JobTable) : JobTable :=
  { table with
    jobs := table.jobs.retain fun _ job =>
      now - job.createdAt < millis table.retentionMs }

/-- Make room in a full table: the job of least id goes. -/
def evictOldest (table : JobTable) : JobTable :=
  if table.maxEntries ≤ table.jobs.keys.length then
    match table.jobs.keys.min? with
    | some oldestId => { table with jobs := table.jobs.erase oldestId }
    | none => table
  else table

def insert (now : ℕ) (job : JobRecord) (table : JobTable) : JobTable :=
  let table := (table.evictStale now).evictOldest
  { table with jobs := table.jobs.insert job.jobId job }

def get (table : JobTable) (jobId : UInt32) : Option JobRecord :=
  table.jobs.lookup jobId

end JobTable

/-! ## Template deduplication -/

/-- The templates already put to the verifier, of the current source only. -/
structure TemplateDedupCache where
  seen : Finset (String × UInt64) := ∅
  maxEntries : ℕ
  currentSource : Option String := none

namespace TemplateDedupCache

/-- Whether the template was seen before; a template not seen is noted. The
cache starts over when the source changes and when it is full. -/
def isDuplicate (sourceInstanceId : String) (templateId : UInt64)
    (cache : TemplateDedupCache) : Bool × TemplateDedupCache :=
  let cache :=
    if cache.currentSource ≠ some sourceInstanceId then
      { cache with seen := ∅, currentSource := some sourceInstanceId }
    else cache
  if (sourceInstanceId, templateId) ∈ cache.seen then (true, cache)
  else
    let seen := if cache.maxEntries ≤ cache.seen.card then ∅ else cache.seen
    (false, { cache with seen := insert (sourceInstanceId, templateId) seen })

def remove (sourceInstanceId : String) (templateId : UInt64)
    (cache : TemplateDedupCache) : TemplateDedupCache :=
  { cache with seen := cache.seen.erase (sourceInstanceId, templateId) }

end TemplateDedupCache

/-! ## From template to job -/

/-- The clocks a step reads: monotonic time in nanoseconds, and the wall clock
in seconds and in milliseconds. -/
structure Clock where
  now : ℕ
  nowUnix : UInt32
  unixMs : UInt64

/-- What the making of jobs works on. -/
structure JobFeed where
  jobAlloc : JobIdAllocator := {}
  jobTable : JobTable
  activePrevHash : Option Bytes32 := none
  latestJob : Option JobBroadcast := none

/-- A template as a job record, when its fields parse. The job is active at
once when its previous hash is not the active one. -/
def jobFromTemplate (clock : Clock) (jobId : UInt32) (active : Option Bytes32)
    (template : TemplateResponse) : Option JobRecord :=
  match displayHexToWireBytes template.prevHash,
    parseMerklePath template.merklePath, hexDecode template.coinbaseTxPrefix,
    hexDecode template.coinbaseTxSuffix with
  | .ok prevHash, some merklePath, .ok coinbasePrefix, .ok coinbaseSuffix =>
      some {
        jobId
        templateId := template.templateId
        blockHeight := template.blockHeight
        version := template.blockVersion
        prevHash
        nbits := template.nbits
        coinbaseTxPrefix := coinbasePrefix
        coinbaseTxSuffix := coinbaseSuffix
        merklePath
        activationMinNtime :=
          effectiveMinNtime template.minNtime template.curtime clock.nowUnix 60
        rawMinNtime := template.minNtime
        rawCurtime := template.curtime
        sourceInstanceId := template.sourceInstanceId
        activated := active ≠ some prevHash
        createdAt := clock.now }
  | _, _, _, _ => none

namespace JobRecord

/-- The announcement of a job. -/
def broadcast (job : JobRecord) : JobBroadcast where
  jobId := job.jobId
  version := job.version
  coinbaseTxPrefix := job.coinbaseTxPrefix
  coinbaseTxSuffix := job.coinbaseTxSuffix
  merklePath := job.merklePath
  prevhashUpdate :=
    if job.activated then
      some ⟨job.prevHash, job.activationMinNtime, job.nbits⟩
    else none
  minNtime := if job.activated then none else some job.activationMinNtime

/-- The job has the identity and the content of the template. -/
structure ComesFrom (job : JobRecord) (template : TemplateResponse) : Prop where
  templateId : job.templateId = template.templateId
  sourceInstanceId : job.sourceInstanceId = template.sourceInstanceId
  blockHeight : job.blockHeight = template.blockHeight
  version : job.version = template.blockVersion
  nbits : job.nbits = template.nbits
  rawMinNtime : job.rawMinNtime = template.minNtime
  rawCurtime : job.rawCurtime = template.curtime
  prevHash : displayHexToWireBytes template.prevHash = .ok job.prevHash
  coinbaseTxPrefix : hexDecode template.coinbaseTxPrefix = .ok job.coinbaseTxPrefix
  coinbaseTxSuffix : hexDecode template.coinbaseTxSuffix = .ok job.coinbaseTxSuffix
  merklePath : parseMerklePath template.merklePath = some job.merklePath

end JobRecord

/-- Make a job of a template and put it in the job table. A template that does
not parse costs a job id. The result is the job put in the table, if any. -/
def prepareJob (clock : Clock) (template : TemplateResponse) (feed : JobFeed) :
    JobFeed × Option JobRecord :=
  match feed.jobAlloc.allocate with
  | (none, jobAlloc) => ({ feed with jobAlloc }, none)
  | (some jobId, jobAlloc) =>
      match jobFromTemplate clock jobId feed.activePrevHash template with
      | none => ({ feed with jobAlloc }, none)
      | some job =>
          ({ feed with
             jobAlloc
             jobTable := feed.jobTable.insert clock.now job
             activePrevHash :=
               if job.activated then some job.prevHash
               else feed.activePrevHash }, some job)

/-- Make the job the one that new channels start from. -/
def JobFeed.publish (feed : JobFeed) (job : JobBroadcast) : JobFeed :=
  { feed with latestJob := some job }

/-- Make a job of a template, put it in the job table and announce it. What the
connection handlers receive is the announcement of the job returned. -/
def broadcastJobFromTemplate (clock : Clock) (template : TemplateResponse)
    (feed : JobFeed) : JobFeed × Option JobRecord :=
  match prepareJob clock template feed with
  | (feed, none) => (feed, none)
  | (feed, some job) => (feed.publish job.broadcast, some job)

theorem jobFromTemplate_eq_some {clock : Clock} {jobId : UInt32}
    {active : Option Bytes32} {template : TemplateResponse} {job : JobRecord}
    (h : jobFromTemplate clock jobId active template = some job) :
    job.ComesFrom template ∧ job.jobId = jobId ∧
      job.activated = decide (active ≠ some job.prevHash) := by
  unfold jobFromTemplate at h
  split at h
  · rename_i prevHash merklePath coinbasePrefix coinbaseSuffix hprev hpath hpre
      hsuf
    rw [Option.some.injEq] at h
    subst h
    exact ⟨⟨rfl, rfl, rfl, rfl, rfl, rfl, rfl, hprev, hpre, hsuf, hpath⟩, rfl,
      rfl⟩
  · cases h

/-- Either no job is made, and only the counter moves, or the job is made of
the template, under an id issued now, and its previous hash becomes the active
one. -/
theorem prepareJob_cases (clock : Clock) (template : TemplateResponse)
    (feed : JobFeed) :
    (∃ issued jobAlloc, feed.jobAlloc.allocate = (issued, jobAlloc) ∧
      prepareJob clock template feed = ({ feed with jobAlloc }, none)) ∨
    ∃ job jobAlloc, feed.jobAlloc.allocate = (some job.jobId, jobAlloc) ∧
      job.ComesFrom template ∧
      job.activated = decide (feed.activePrevHash ≠ some job.prevHash) ∧
      prepareJob clock template feed =
        ({ feed with
           jobAlloc
           jobTable := feed.jobTable.insert clock.now job
           activePrevHash := some job.prevHash }, some job) := by
  unfold prepareJob
  split
  · rename_i jobAlloc halloc
    exact Or.inl ⟨none, jobAlloc, halloc, rfl⟩
  · rename_i jobId jobAlloc halloc
    split
    · exact Or.inl ⟨some jobId, jobAlloc, halloc, rfl⟩
    · rename_i job hjob
      obtain ⟨hfrom, rfl, hactivated⟩ := jobFromTemplate_eq_some hjob
      refine Or.inr ⟨job, jobAlloc, halloc, hfrom, hactivated, ?_⟩
      -- The active hash is left alone only when it is the job's own.
      have hactive : (if job.activated then some job.prevHash
          else feed.activePrevHash) = some job.prevHash := by
        by_cases hnew : feed.activePrevHash = some job.prevHash
        · rw [hnew, ite_self]
        · rw [hactivated, decide_eq_true hnew]
          rfl
      rw [hactive]

namespace JobTable

theorem get_of_get_evictStale {now : ℕ} {table : JobTable} {id : UInt32}
    {job : JobRecord} (h : (table.evictStale now).get id = some job) :
    table.get id = some job :=
  HashMap.lookup_of_lookup_retain h

theorem get_of_get_evictOldest {table : JobTable} {id : UInt32}
    {job : JobRecord} (h : table.evictOldest.get id = some job) :
    table.get id = some job := by
  unfold evictOldest at h
  split at h
  · split at h
    · exact HashMap.lookup_of_lookup_erase h
    · exact h
  · exact h

/-- After an insertion the table holds the new job and jobs it held before. -/
theorem get_insert {now : ℕ} {job job' : JobRecord} {table : JobTable}
    {id : UInt32} (h : (table.insert now job).get id = some job') :
    (id = job.jobId ∧ job' = job) ∨ table.get id = some job' := by
  by_cases hid : id = job.jobId
  · subst hid
    rw [insert, get, AList.lookup_insert, Option.some.injEq] at h
    exact Or.inl ⟨rfl, h.symm⟩
  · rw [insert, get, AList.lookup_insert_ne hid] at h
    exact Or.inr (get_of_get_evictStale (get_of_get_evictOldest h))

end JobTable

end ReserveGrid.Gateway
