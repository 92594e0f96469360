import Mathlib.Data.List.Perm.Basic
import ReserveGrid.Support.JsonText
import ReserveGrid.Support.Result
import ReserveGrid.Support.Run
import ReserveGrid.Support.Text
import ReserveGrid.Verifier.Policy

/-!
# Policy updates

A policy is replaced as a whole by a TOML upload and changed field by field by a
JSON patch. A patch copies the policy, changes and checks the copy and stores it
back, and takes the lock once to read and once to write. A run is a list of
events in which every request advances by one locked step at a time.
-/

namespace ReserveGrid.Verifier

open Support JsonText Protocol

/-! ## Checking a policy -/

/-- What the handlers take from elsewhere: the TOML library, the text of a
UTF-8 error, and the doubles, whether one is a finite number in (0, 1] and its
text. -/
structure PolicyLibs where
  fromStr : String → Except String PolicyConfig
  toStringPretty : PolicyConfig → Option String
  utf8Error : Bytes → String
  inUnitInterval : Float → Bool
  showF64 : Float → String

section

variable (libs : PolicyLibs)

/-- The check of a policy, in the order of the source. -/
def PolicyConfig.validate (cfg : PolicyConfig) : Except String Unit :=
  if cfg.protocolVersion ≠ Protocol.protocolVersion then
    .error ("policy.protocol_version=" ++ toString cfg.protocolVersion ++
      " does not match binary PROTOCOL_VERSION=" ++
      toString Protocol.protocolVersion)
  else if cfg.requiredPrevhashLen = 0 then
    .error "required_prevhash_len must be > 0"
  else if cfg.maxTxCount = 0 then .error "max_tx_count must be > 0"
  else if cfg.highMempoolTx < cfg.lowMempoolTx then
    .error ("low_mempool_tx (" ++ toString cfg.lowMempoolTx ++
      ") must be <= high_mempool_tx (" ++ toString cfg.highMempoolTx ++ ")")
  else if cfg.minAvgFeeMid < cfg.minAvgFeeLo then
    .error ("min_avg_fee_lo (" ++ toString cfg.minAvgFeeLo ++
      ") must be <= min_avg_fee_mid (" ++ toString cfg.minAvgFeeMid ++ ")")
  else if cfg.minAvgFeeHi < cfg.minAvgFeeMid then
    .error ("min_avg_fee_mid (" ++ toString cfg.minAvgFeeMid ++
      ") must be <= min_avg_fee_hi (" ++ toString cfg.minAvgFeeHi ++ ")")
  else if ¬ libs.inUnitInterval cfg.safety.maxWeightRatio then
    .error ("safety.max_weight_ratio (" ++
      libs.showF64 cfg.safety.maxWeightRatio ++
      ") must be a finite number in (0, 1]")
  else if ¬ libs.inUnitInterval cfg.safety.warnSigopsRatio then
    .error ("safety.warn_sigops_ratio (" ++
      libs.showF64 cfg.safety.warnSigopsRatio ++
      ") must be a finite number in (0, 1]")
  else .ok ()

end

/-! ## Requests -/

/-- The fields of a patch. -/
structure ApplyPolicyReq where
  lowMempoolTx : Option UInt64 := none
  highMempoolTx : Option UInt64 := none
  minAvgFeeLo : Option UInt64 := none
  minAvgFeeMid : Option UInt64 := none
  minAvgFeeHi : Option UInt64 := none
  minTotalFees : Option UInt64 := none
  maxTxCount : Option UInt32 := none
  rejectEmptyTemplates : Option Bool := none
  rejectCoinbaseZero : Option Bool := none
  enforceWeightRatio : Option Bool := none
  enforceTemplateAge : Option Bool := none
  maxWeightRatio : Option Float := none
  maxTemplateAgeMs : Option UInt64 := none
  warnSigopsRatio : Option Float := none
  warnCoinbaseSigopsMax : Option UInt32 := none

namespace ApplyPolicyReq

/-- The copy of a policy with the fields of a patch. -/
def patch (req : ApplyPolicyReq) (cfg : PolicyConfig) : PolicyConfig :=
  { cfg with
    lowMempoolTx := req.lowMempoolTx.getD cfg.lowMempoolTx
    highMempoolTx := req.highMempoolTx.getD cfg.highMempoolTx
    minAvgFeeLo := req.minAvgFeeLo.getD cfg.minAvgFeeLo
    minAvgFeeMid := req.minAvgFeeMid.getD cfg.minAvgFeeMid
    minAvgFeeHi := req.minAvgFeeHi.getD cfg.minAvgFeeHi
    minTotalFees := req.minTotalFees.getD cfg.minTotalFees
    maxTxCount := req.maxTxCount.getD cfg.maxTxCount
    rejectEmptyTemplates := req.rejectEmptyTemplates.getD cfg.rejectEmptyTemplates
    rejectCoinbaseZero := req.rejectCoinbaseZero.getD cfg.rejectCoinbaseZero
    safety :=
      { maxWeightRatio := req.maxWeightRatio.getD cfg.safety.maxWeightRatio
        enforceWeightRatio :=
          req.enforceWeightRatio.getD cfg.safety.enforceWeightRatio
        maxTemplateAgeMs :=
          (req.maxTemplateAgeMs.map some).getD cfg.safety.maxTemplateAgeMs
        enforceTemplateAge :=
          req.enforceTemplateAge.getD cfg.safety.enforceTemplateAge
        warnSigopsRatio := req.warnSigopsRatio.getD cfg.safety.warnSigopsRatio
        warnCoinbaseSigopsMax :=
          req.warnCoinbaseSigopsMax.getD cfg.safety.warnCoinbaseSigopsMax } }

/-- Which fields a patch has, in the order of their declaration. -/
def touched (req : ApplyPolicyReq) : List Bool :=
  [req.lowMempoolTx.isSome, req.highMempoolTx.isSome, req.minAvgFeeLo.isSome,
    req.minAvgFeeMid.isSome, req.minAvgFeeHi.isSome, req.minTotalFees.isSome,
    req.maxTxCount.isSome, req.rejectEmptyTemplates.isSome,
    req.rejectCoinbaseZero.isSome, req.enforceWeightRatio.isSome,
    req.enforceTemplateAge.isSome, req.maxWeightRatio.isSome,
    req.maxTemplateAgeMs.isSome, req.warnSigopsRatio.isSome,
    req.warnCoinbaseSigopsMax.isSome]

/-- No field is in both patches. -/
def Disjoint (a b : ApplyPolicyReq) : Prop :=
  ∀ p ∈ a.touched.zip b.touched, ¬ (p.1 = true ∧ p.2 = true)

/-- A policy has the values of a patch. -/
def Present (req : ApplyPolicyReq) (cfg : PolicyConfig) : Prop :=
  req.patch cfg = cfg

theorem getD_comm {α : Type*} {a b : Option α}
    (h : ¬ (a.isSome = true ∧ b.isSome = true)) (x : α) :
    a.getD (b.getD x) = b.getD (a.getD x) := by
  cases a with
  | none => rfl
  | some u =>
      cases b with
      | none => rfl
      | some v => exact absurd ⟨rfl, rfl⟩ h

/-- Patches of disjoint fields commute. -/
theorem Disjoint.comm {a b : ApplyPolicyReq} (h : a.Disjoint b)
    (cfg : PolicyConfig) : a.patch (b.patch cfg) = b.patch (a.patch cfg) := by
  simp only [Disjoint, touched, List.zip_cons_cons, List.zip_nil_right,
    List.forall_mem_cons] at h
  obtain ⟨h₁, h₂, h₃, h₄, h₅, h₆, h₇, h₈, h₉, h₁₀, h₁₁, h₁₂, h₁₃, h₁₄, h₁₅, -⟩ := h
  have hage : ¬ ((a.maxTemplateAgeMs.map some).isSome = true ∧
      (b.maxTemplateAgeMs.map some).isSome = true) := by
    rw [Option.isSome_map, Option.isSome_map]
    exact h₁₃
  simp only [patch, getD_comm h₁, getD_comm h₂, getD_comm h₃, getD_comm h₄,
    getD_comm h₅, getD_comm h₆, getD_comm h₇, getD_comm h₈, getD_comm h₉,
    getD_comm h₁₀, getD_comm h₁₁, getD_comm h₁₂, getD_comm hage, getD_comm h₁₄,
    getD_comm h₁₅]

theorem Disjoint.symm {a b : ApplyPolicyReq} (h : a.Disjoint b) :
    b.Disjoint a := by
  simp only [Disjoint, touched, List.zip_cons_cons, List.zip_nil_right,
    List.forall_mem_cons] at h ⊢
  simpa only [and_comm] using h

/-- A patch stays when one of other fields follows. -/
theorem Disjoint.present {a b : ApplyPolicyReq} (h : a.Disjoint b)
    {cfg : PolicyConfig} (ha : a.Present cfg) : a.Present (b.patch cfg) := by
  rw [Present, h.comm, ha]

end ApplyPolicyReq

inductive PolicyRequest where
  | patch (req : ApplyPolicyReq)
  | toml (body : Bytes)

/-- The policy with the text it is shown as. -/
structure PolicyHolder where
  config : PolicyConfig
  tomlText : String

/-- The answer to an update. A handler that panics gives none of its own. -/
inductive PolicyAnswer where
  | ok
  | tooManyRequests
  | badRequest (error : String)
  | panicked
  deriving DecidableEq

section

variable (libs : PolicyLibs)

/-- What a patch makes of the policy it copied. -/
def patched (req : ApplyPolicyReq) (base : PolicyConfig) :
    Except PolicyAnswer PolicyHolder :=
  let cfg := req.patch base
  match cfg.validate libs with
  | .error e => .error (.badRequest ("policy validation failed: " ++ e))
  | .ok () =>
      .ok ⟨cfg, (libs.toStringPretty cfg).getD "# policy serialization failed\n"⟩

/-- The answer to a text that does not parse. A long detail is cut after 200
bytes, which panics within a character. -/
def parseFailure (detail : String) : PolicyAnswer :=
  if 200 < detail.utf8ByteSize then
    match takeBytes detail.toList 200 with
    | none => .panicked
    | some cut =>
        .badRequest ("toml parse failed: " ++ (String.ofList cut ++ "..."))
  else .badRequest ("toml parse failed: " ++ detail)

/-- What a TOML upload puts in place of the policy. -/
def uploaded (body : Bytes) : Except PolicyAnswer PolicyHolder :=
  match fromUtf8 body with
  | none => .error (.badRequest ("body must be utf8 text: " ++ libs.utf8Error body))
  | some text =>
      match libs.fromStr text with
      | .error detail => .error (parseFailure detail)
      | .ok cfg =>
          match cfg.validate libs with
          | .error e => .error (.badRequest ("policy validation failed: " ++ e))
          | .ok () => .ok ⟨cfg, text⟩

/-- A request that runs alone. -/
def applyAlone (holder : PolicyHolder) :
    PolicyRequest → Except PolicyAnswer PolicyHolder
  | .patch req => patched libs req holder.config
  | .toml body => uploaded libs body

/-- Requests that run one after another. -/
def applyAll (holder : PolicyHolder) (order : List PolicyRequest) :
    Except PolicyAnswer PolicyHolder :=
  order.foldlM (applyAlone libs) holder

end

/-! ## The throttle -/

def writeThrottleWindowNanos : ℕ := 60 * 10 ^ 9

def writeThrottleMax : ℕ := 10

/-- Whether a write is let through, and the writes of the window after it. -/
def checkWriteThrottle (now : ℕ) (guard : List ℕ) : Bool × List ℕ :=
  let guard := guard.dropWhile fun t => writeThrottleWindowNanos < now - t
  if writeThrottleMax ≤ guard.length then (false, guard)
  else (true, guard ++ [now])

/-! ## Requests side by side -/

/-- What a request that is under way does next: read the policy, or store what
it made, of the policy it had read or of nothing. -/
inductive PolicyTask where
  | reading (req : ApplyPolicyReq)
  | storing (req : PolicyRequest) (base : Option PolicyConfig) (next : PolicyHolder)

/-- A verifier with its policy and the requests that came so far. The requests
that stored a policy are kept for the history, in the order of their stores. -/
structure PolicyState where
  holder : PolicyHolder
  throttle : List ℕ
  requests : List PolicyRequest
  tasks : ℕ → Option PolicyTask
  answers : List (ℕ × PolicyAnswer)
  stored : List (ℕ × PolicyRequest)

/-- A request arrives at an instant, or takes its next locked step. -/
inductive PolicyEvent where
  | arrive (now : ℕ) (req : PolicyRequest)
  | proceed (k : ℕ)

namespace PolicyState

def start (holder : PolicyHolder) : PolicyState :=
  ⟨holder, [], [], fun _ => none, [], []⟩

/-- A request ends with an answer. -/
def answer (s : PolicyState) (k : ℕ) (a : PolicyAnswer) : PolicyState :=
  { s with
    tasks := Function.update s.tasks k none
    answers := s.answers ++ [(k, a)] }

/-- A request goes on to its next step. -/
def await (s : PolicyState) (k : ℕ) (task : PolicyTask) : PolicyState :=
  { s with tasks := Function.update s.tasks k (some task) }

end PolicyState

section

variable (libs : PolicyLibs)

/-- A request that was let through. -/
def PolicyState.letThrough (s : PolicyState) (k : ℕ) : PolicyRequest → PolicyState
  | .patch req => s.await k (.reading req)
  | .toml body =>
      match uploaded libs body with
      | .error a => s.answer k a
      | .ok next => s.await k (.storing (.toml body) none next)

def policyStep (s : PolicyState) : PolicyEvent → Option PolicyState
  | .arrive now req =>
      let check := checkWriteThrottle now s.throttle
      let s' := { s with throttle := check.2, requests := s.requests ++ [req] }
      some (if check.1 then s'.letThrough libs s.requests.length req
        else s'.answer s.requests.length .tooManyRequests)
  | .proceed k =>
      match s.tasks k with
      | none => none
      | some (.reading req) =>
          match patched libs req s.holder.config with
          | .error a => some (s.answer k a)
          | .ok next =>
              some (s.await k (.storing (.patch req) (some s.holder.config) next))
      | some (.storing req _ next) =>
          some { s.answer k .ok with
            holder := next
            stored := s.stored ++ [(k, req)] }

end

/-! ## One after another -/

/-- A patch stores only while the policy is still the one it read. -/
def StoresFresh (s : PolicyState) : PolicyEvent → Prop
  | .arrive _ _ => True
  | .proceed k => ∀ req base next,
      s.tasks k = some (.storing req (some base) next) → s.holder.config = base

section

variable {libs : PolicyLibs} {first : PolicyHolder} {s : PolicyState}

/-- What a task holds comes from its request. -/
def PolicyTask.Of (libs : PolicyLibs) : PolicyTask → PolicyRequest → Prop
  | .reading p, req => req = .patch p
  | .storing r base next, req => r = req ∧
      match r with
      | .patch p => ∃ cfg, base = some cfg ∧ patched libs p cfg = .ok next
      | .toml body => uploaded libs body = .ok next

/-- The policy is the one that the stored requests make one after another. -/
structure InOrder (libs : PolicyLibs) (first : PolicyHolder) (s : PolicyState) :
    Prop where
  stored : applyAll libs first (s.stored.map Prod.snd) = .ok s.holder
  nodup : (s.stored.map Prod.fst).Nodup
  request : ∀ e ∈ s.stored, s.requests[e.1]? = some e.2
  task : ∀ k task, s.tasks k = some task → k ∉ s.stored.map Prod.fst ∧
    ∃ req, s.requests[k]? = some req ∧ task.Of libs req
  answered : ∀ k, (k, PolicyAnswer.ok) ∈ s.answers → k ∈ s.stored.map Prod.fst

theorem InOrder.start (libs : PolicyLibs) (first : PolicyHolder) :
    InOrder libs first (.start first) := by
  refine ⟨rfl, List.nodup_nil, ?_, ?_, ?_⟩
  · intro e he
    cases he
  · intro k task htask
    cases htask
  · intro k hk
    cases hk

theorem InOrder.lt_of_mem (h : InOrder libs first s) {k : ℕ}
    (hk : k ∈ s.stored.map Prod.fst) : k < s.requests.length := by
  obtain ⟨e, he, rfl⟩ := List.mem_map.mp hk
  exact (List.getElem?_eq_some_iff.mp (h.request e he)).1

theorem InOrder.arrive (h : InOrder libs first s) (throttle : List ℕ)
    (req : PolicyRequest) :
    InOrder libs first
      { s with throttle := throttle, requests := s.requests ++ [req] } := by
  have hkeep : ∀ {k : ℕ} {r : PolicyRequest}, s.requests[k]? = some r →
      (s.requests ++ [req])[k]? = some r := by
    intro k r hr
    rw [List.getElem?_append_left (List.getElem?_eq_some_iff.mp hr).1]
    exact hr
  refine ⟨h.stored, h.nodup, fun e he => hkeep (h.request e he), ?_, h.answered⟩
  intro k task htask
  obtain ⟨hnot, r, hr, hof⟩ := h.task k task htask
  exact ⟨hnot, r, hkeep hr, hof⟩

/-- A request ends without a store. -/
theorem InOrder.answer (h : InOrder libs first s) (k : ℕ) {a : PolicyAnswer}
    (ha : a ≠ .ok) : InOrder libs first (s.answer k a) := by
  refine ⟨h.stored, h.nodup, h.request, ?_, ?_⟩
  · intro k' task htask
    rcases update_eq_some htask with ⟨-, hnone⟩ | ⟨-, hold⟩
    · cases hnone
    · exact h.task k' task hold
  · intro k' hk'
    rcases List.mem_append.mp hk' with hold | hnew
    · exact h.answered k' hold
    · cases List.mem_singleton.mp hnew
      exact absurd rfl ha

theorem InOrder.await (h : InOrder libs first s) {k : ℕ} {task : PolicyTask}
    {req : PolicyRequest} (hnot : k ∉ s.stored.map Prod.fst)
    (hreq : s.requests[k]? = some req) (hof : task.Of libs req) :
    InOrder libs first (s.await k task) := by
  refine ⟨h.stored, h.nodup, h.request, ?_, h.answered⟩
  intro k' task' htask
  rcases update_eq_some htask with ⟨rfl, hnew⟩ | ⟨-, hold⟩
  · cases hnew
    exact ⟨hnot, req, hreq, hof⟩
  · exact h.task k' task' hold

theorem patched_ne_ok {req : ApplyPolicyReq} {base : PolicyConfig}
    {a : PolicyAnswer} (h : patched libs req base = .error a) : a ≠ .ok := by
  unfold patched at h
  dsimp only at h
  split at h
  · cases h
    exact nofun
  · cases h

theorem parseFailure_ne_ok (detail : String) : parseFailure detail ≠ .ok := by
  unfold parseFailure
  split
  · split <;> exact nofun
  · exact nofun

theorem uploaded_ne_ok {body : Bytes} {a : PolicyAnswer}
    (h : uploaded libs body = .error a) : a ≠ .ok := by
  unfold uploaded at h
  split at h
  · cases h
    exact nofun
  · split at h
    · cases h
      exact parseFailure_ne_ok _
    · split at h
      · cases h
        exact nofun
      · cases h

theorem InOrder.letThrough (h : InOrder libs first s) {k : ℕ} {req : PolicyRequest}
    (hnot : k ∉ s.stored.map Prod.fst) (hreq : s.requests[k]? = some req) :
    InOrder libs first (s.letThrough libs k req) := by
  cases req with
  | patch p => exact h.await hnot hreq rfl
  | toml body =>
      unfold PolicyState.letThrough
      dsimp only
      cases hup : uploaded libs body with
      | error a => exact h.answer k (uploaded_ne_ok hup)
      | ok next => exact h.await hnot hreq ⟨rfl, hup⟩

/-- A store puts its request at the end of the order. -/
theorem InOrder.store (h : InOrder libs first s) {k : ℕ} {req : PolicyRequest}
    {base : Option PolicyConfig} {next : PolicyHolder}
    (htask : s.tasks k = some (.storing req base next))
    (hfresh : StoresFresh s (.proceed k)) :
    InOrder libs first { s.answer k .ok with
      holder := next
      stored := s.stored ++ [(k, req)] } := by
  obtain ⟨hnot, r, hr, rfl, hmade⟩ := h.task k _ htask
  have happly : applyAlone libs s.holder req = .ok next := by
    cases req with
    | patch p =>
        obtain ⟨cfg, rfl, hpatched⟩ := hmade
        rw [applyAlone, hfresh _ _ _ htask]
        exact hpatched
    | toml body => exact hmade
  refine ⟨?_, ?_, ?_, ?_, ?_⟩
  · have hbefore := h.stored
    unfold applyAll at hbefore ⊢
    rw [List.map_append, List.foldlM_append, hbefore]
    simp only [List.map_cons, List.map_nil, List.foldlM_cons, List.foldlM_nil,
      happly, bind, Except.bind, pure, Except.pure]
  · rw [List.map_append]
    apply h.nodup.append (List.nodup_singleton _)
    intro k' hk' hlast
    cases List.mem_singleton.mp hlast
    exact hnot hk'
  · intro e he
    rcases List.mem_append.mp he with hold | hlast
    · exact h.request e hold
    · cases List.mem_singleton.mp hlast
      exact hr
  · intro k' task htask'
    rcases update_eq_some htask' with ⟨-, hnone⟩ | ⟨hk, hold⟩
    · cases hnone
    · obtain ⟨hnot', r', hr', hof⟩ := h.task k' task hold
      refine ⟨?_, r', hr', hof⟩
      rw [List.map_append]
      intro hmem
      rcases List.mem_append.mp hmem with hold | hlast
      · exact hnot' hold
      · exact hk (List.mem_singleton.mp hlast)
  · intro k' hk'
    rw [List.map_append]
    rcases List.mem_append.mp hk' with hold | hlast
    · exact List.mem_append_left _ (h.answered k' hold)
    · cases List.mem_singleton.mp hlast
      exact List.mem_append_right _ List.mem_cons_self

theorem InOrder.step (h : InOrder libs first s) {event : PolicyEvent}
    (hfresh : StoresFresh s event) {t : PolicyState}
    (hstep : policyStep libs s event = some t) : InOrder libs first t := by
  cases event with
  | arrive now req =>
      cases hstep
      have harrived := h.arrive (checkWriteThrottle now s.throttle).2 req
      by_cases hcheck : (checkWriteThrottle now s.throttle).1 = true
      · rw [if_pos hcheck]
        apply harrived.letThrough
        · intro hmem
          exact lt_irrefl _ (h.lt_of_mem hmem)
        · exact List.getElem?_concat_length
      · rw [if_neg hcheck]
        exact harrived.answer _ nofun
  | proceed k =>
      cases htask : s.tasks k with
      | none => simp [policyStep, htask] at hstep
      | some task =>
          obtain ⟨hnot, r, hr, hof⟩ := h.task k task htask
          cases task with
          | reading p =>
              simp only [policyStep, htask] at hstep
              cases hpatched : patched libs p s.holder.config with
              | error a =>
                  rw [hpatched] at hstep
                  cases hstep
                  exact h.answer k (patched_ne_ok hpatched)
              | ok next =>
                  rw [hpatched] at hstep
                  cases hstep
                  exact h.await hnot hr ⟨hof.symm, _, rfl, hpatched⟩
          | storing req base next =>
              simp only [policyStep, htask] at hstep
              cases hstep
              exact h.store htask hfresh

theorem filterMap_range_getElem? {α : Type*} (l : List α) :
    (List.range l.length).filterMap (fun k => l[k]?) = l := by
  induction l using List.reverseRecOn with
  | nil => rfl
  | append_singleton l a ih =>
      rw [List.length_append, List.length_singleton, List.range_succ,
        List.filterMap_append]
      have hinit : (List.range l.length).filterMap (fun k => (l ++ [a])[k]?) =
          (List.range l.length).filterMap (fun k => l[k]?) := by
        apply List.filterMap_congr
        intro k hk
        exact List.getElem?_append_left (List.mem_range.mp hk)
      rw [hinit, ih]
      simp

/-- When every request was answered with success, each of them stored once. -/
theorem InOrder.perm (h : InOrder libs first s)
    (hall : ∀ k < s.requests.length, (k, PolicyAnswer.ok) ∈ s.answers) :
    (s.stored.map Prod.snd).Perm s.requests := by
  have hids : (s.stored.map Prod.fst).Perm (List.range s.requests.length) := by
    apply (List.perm_ext_iff_of_nodup h.nodup List.nodup_range).mpr
    intro k
    rw [List.mem_range]
    exact ⟨h.lt_of_mem, fun hk => h.answered k (hall k hk)⟩
  have hreqs : (s.stored.map Prod.fst).filterMap (fun k => s.requests[k]?) =
      s.stored.map Prod.snd := by
    rw [List.filterMap_map, ← List.filterMap_eq_map]
    apply List.filterMap_congr
    intro e he
    exact h.request e he
  have hperm := hids.filterMap fun k => s.requests[k]?
  rw [hreqs, filterMap_range_getElem?] at hperm
  exact hperm

end

/-! ## Two patches at once -/

/-- The text of a policy, its whole numbers and truth values. -/
def prettyPolicy (cfg : PolicyConfig) : String :=
  "[policy]\nprotocol_version = " ++ toString cfg.protocolVersion ++
    "\nrequired_prevhash_len = " ++ toString cfg.requiredPrevhashLen ++
    "\nmin_total_fees = " ++ toString cfg.minTotalFees ++
    "\nmax_tx_count = " ++ toString cfg.maxTxCount ++
    "\nlow_mempool_tx = " ++ toString cfg.lowMempoolTx ++
    "\nhigh_mempool_tx = " ++ toString cfg.highMempoolTx ++
    "\nmin_avg_fee_lo = " ++ toString cfg.minAvgFeeLo ++
    "\nmin_avg_fee_mid = " ++ toString cfg.minAvgFeeMid ++
    "\nmin_avg_fee_hi = " ++ toString cfg.minAvgFeeHi ++
    "\nreject_empty_templates = " ++ toString cfg.rejectEmptyTemplates ++
    "\nreject_coinbase_zero = " ++ toString cfg.rejectCoinbaseZero ++
    "\nunknown_mempool_as_high = " ++ toString cfg.unknownMempoolAsHigh ++ "\n"

/-- Libraries for requests that are patches and leave the ratios alone. -/
def patchLibs : PolicyLibs where
  fromStr _ := .error "expected an equals, found a newline"
  toStringPretty cfg := some (prettyPolicy cfg)
  utf8Error _ := "invalid utf-8 sequence of 1 bytes from index 0"
  inUnitInterval _ := true
  showF64 _ := "0.999"

def defaultHolder : PolicyHolder := ⟨{}, prettyPolicy {}⟩

end ReserveGrid.Verifier
