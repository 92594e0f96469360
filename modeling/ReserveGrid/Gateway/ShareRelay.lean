import ReserveGrid.Gateway.Accounting
import ReserveGrid.Support.Run
import ReserveGrid.Support.Tasks

/-!
# The share relay

The relay takes the shares off its queue one after another and puts each to the
upstream in a task of its own. A task holds a permit from the moment it is
started to the moment its result is handed on, and no more permits are out than
the relay was configured with. Within a task the share is posted until an answer
settles it, or until the retries are used up.
-/

namespace ReserveGrid.Gateway

open Support

/-! ## One share -/

/-- Upstream response from the share endpoint. -/
structure ShareUpstreamResponse where
  accepted : Bool
  reason : Option String := none

/-- How one POST ends: with a response, whose body may not read as an answer, or
with an error of the client. -/
inductive PostOutcome where
  | response (status : UInt16) (body : Except String ShareUpstreamResponse)
  | timeout (e : String)
  | connect (e : String)
  | request (e : String)

def isSuccess (status : UInt16) : Bool := 200 ≤ status && status < 300

def isClientError (status : UInt16) : Bool := 400 ≤ status && status < 500

/-- The wait before an attempt that is not the first, in milliseconds. -/
def retryDelayMs (attempt : ℕ) : ℕ := 100 * min (2 ^ (attempt - 1)) (2 ^ 32 - 1)

section

variable (share : ShareSubmission)

/-- The result of an answer of the upstream. -/
def answeredResult (status : UInt16) (answer : ShareUpstreamResponse) :
    ShareForwardResult where
  shareIdHex := share.shareIdHex
  eventIdHex := share.eventIdHex
  forwarded := true
  upstreamAccepted := some answer.accepted
  upstreamHttpStatus := some status
  upstreamError := if answer.accepted then none else answer.reason
  reasonCode := if answer.accepted then none else some "share_upstream_rejected"

/-- The result of a refusal that is not retried. -/
def refusedResult (status : UInt16) : ShareForwardResult where
  shareIdHex := share.shareIdHex
  eventIdHex := share.eventIdHex
  forwarded := true
  upstreamAccepted := some false
  upstreamHttpStatus := some status
  upstreamError := some ("HTTP " ++ toString status.toNat ++ " (non-retryable)")
  reasonCode := some "share_forward_failed"

/-- The result when all retries are exhausted. -/
def exhaustedResult (lastError : Option String) : ShareForwardResult where
  shareIdHex := share.shareIdHex
  eventIdHex := share.eventIdHex
  forwarded := false
  upstreamAccepted := none
  upstreamHttpStatus := none
  upstreamError := lastError
  reasonCode := some "share_forward_failed"

/-- What one attempt comes to: a result, or an error to retry on. -/
def attemptResult : PostOutcome → Except String ShareForwardResult
  | .response status body =>
      if isSuccess status then
        match body with
        | .ok answer => .ok (answeredResult share status answer)
        | .error e => .error ("malformed response: " ++ e)
      else if isClientError status then .ok (refusedResult share status)
      else .error ("HTTP " ++ toString status.toNat)
  | .timeout e => .error ("timeout: " ++ e)
  | .connect e => .error ("connect: " ++ e)
  | .request e => .error ("request: " ++ e)

/-- The loop over the attempts that are left, with the waits it makes. -/
def forwardFrom (attempt : ℕ) (lastError : Option String) :
    List PostOutcome → List ℕ × ShareForwardResult
  | [] => ([], exhaustedResult share lastError)
  | outcome :: outcomes =>
      let wait := if 0 < attempt then [retryDelayMs attempt] else []
      match attemptResult share outcome with
      | .ok result => (wait, result)
      | .error e =>
          let rest := forwardFrom (attempt + 1) (some e) outcomes
          (wait ++ rest.1, rest.2)

/-- Forward a single share with retry logic: the waits that are made and the
result, when the attempts would end as given. -/
def forwardShareWithRetries (maxRetries : UInt32) (post : ℕ → PostOutcome) :
    List ℕ × ShareForwardResult :=
  forwardFrom share 0 none ((List.range (maxRetries.toNat + 1)).map post)

end

/-- An attempt that leaves the share to the next one. -/
def PostOutcome.Retryable (share : ShareSubmission) (outcome : PostOutcome) : Prop :=
  ∃ e, attemptResult share outcome = .error e

section

variable {share : ShareSubmission}

/-- The error of the last of some attempts. -/
def lastErrorOf (share : ShareSubmission) (before : Option String)
    (outcomes : List PostOutcome) : Option String :=
  outcomes.foldl (fun last outcome =>
    match attemptResult share outcome with
    | .ok _ => last
    | .error e => some e) before

/-- The waits before so many attempts from the given one on. -/
def waitsFrom (attempt count : ℕ) : List ℕ :=
  (List.range' attempt count).flatMap fun a =>
    if 0 < a then [retryDelayMs a] else []

theorem waitsFrom_succ (attempt count : ℕ) :
    waitsFrom attempt (count + 1) =
      (if 0 < attempt then [retryDelayMs attempt] else []) ++
        waitsFrom (attempt + 1) count := by
  simp [waitsFrom, List.range'_succ]

theorem forwardFrom_retried {outcome : PostOutcome} {e : String}
    (h : attemptResult share outcome = .error e) (attempt : ℕ)
    (lastError : Option String) (rest : List PostOutcome) :
    forwardFrom share attempt lastError (outcome :: rest) =
      ((if 0 < attempt then [retryDelayMs attempt] else []) ++
          (forwardFrom share (attempt + 1) (some e) rest).1,
        (forwardFrom share (attempt + 1) (some e) rest).2) := by
  rw [forwardFrom, h]

/-- Attempts that are retried lead to the ones that follow them. -/
theorem forwardFrom_append {outcomes : List PostOutcome}
    (h : ∀ o ∈ outcomes, o.Retryable share) (attempt : ℕ)
    (lastError : Option String) (rest : List PostOutcome) :
    forwardFrom share attempt lastError (outcomes ++ rest) =
      let later := forwardFrom share (attempt + outcomes.length)
        (lastErrorOf share lastError outcomes) rest
      (waitsFrom attempt outcomes.length ++ later.1, later.2) := by
  induction outcomes generalizing attempt lastError with
  | nil => simp [waitsFrom, lastErrorOf]
  | cons o outcomes ih =>
      obtain ⟨e, he⟩ := h o List.mem_cons_self
      have hrest := ih (fun o' ho' => h o' (List.mem_cons_of_mem _ ho')) (attempt + 1)
        (some e)
      have hlast : lastErrorOf share lastError (o :: outcomes) =
          lastErrorOf share (some e) outcomes := by
        simp [lastErrorOf, he]
      rw [List.cons_append, forwardFrom_retried he, hrest, List.length_cons,
        waitsFrom_succ, hlast, Nat.add_right_comm attempt 1, ← Nat.add_assoc]
      simp

/-- A settled attempt ends the loop. -/
theorem forwardFrom_settled {outcome : PostOutcome} {result : ShareForwardResult}
    (h : attemptResult share outcome = .ok result) (attempt : ℕ)
    (lastError : Option String) (rest : List PostOutcome) :
    forwardFrom share attempt lastError (outcome :: rest) =
      (waitsFrom attempt 1, result) := by
  rw [forwardFrom, h]
  simp [waitsFrom]

/-- The result names the share, however the attempt ended. -/
theorem attemptResult_key {outcome : PostOutcome} {result : ShareForwardResult}
    (h : attemptResult share outcome = .ok result) :
    result.key = (share.shareIdHex, share.eventIdHex) ∧ result.forwarded = true := by
  rcases outcome with ⟨status, body⟩ | e | e | e
  · rw [attemptResult.eq_def] at h
    dsimp only at h
    split at h
    · rcases body with e | answer
      · cases h
      · cases h
        exact ⟨rfl, rfl⟩
    · split at h
      · cases h
        exact ⟨rfl, rfl⟩
      · cases h
  all_goals cases h

/-- Attempts that settle nothing exhaust the loop. -/
theorem forwardFrom_exhausted {outcomes : List PostOutcome}
    (h : ∀ o ∈ outcomes, o.Retryable share) :
    forwardFrom share 0 none outcomes =
      (waitsFrom 0 outcomes.length,
        exhaustedResult share (lastErrorOf share none outcomes)) := by
  have happend := forwardFrom_append h 0 none []
  simpa [forwardFrom] using happend

/-- The attempt that settles the share decides the result. -/
theorem forwardFrom_decided {before after : List PostOutcome} {outcome : PostOutcome}
    {result : ShareForwardResult} (h : ∀ o ∈ before, o.Retryable share)
    (hok : attemptResult share outcome = .ok result) :
    forwardFrom share 0 none (before ++ outcome :: after) =
      (waitsFrom 0 (before.length + 1), result) := by
  have happend := forwardFrom_append h 0 none (outcome :: after)
  rw [happend, forwardFrom_settled hok]
  simp [waitsFrom, List.range'_concat]

/-- The waits before the first retries add up to a geometric sum. -/
theorem sum_waitsFrom {retries : ℕ} (h : retries ≤ 32) :
    (waitsFrom 0 (retries + 1)).sum = 100 * (2 ^ retries - 1) := by
  induction retries with
  | zero => rfl
  | succ n ih =>
      have hpow : 2 ^ n ≤ 2 ^ 31 := Nat.pow_le_pow_right (by norm_num) (by omega)
      have hdelay : retryDelayMs (n + 1) = 100 * 2 ^ n := by
        rw [retryDelayMs, Nat.add_sub_cancel, Nat.min_eq_left (by omega)]
      have hsplit : waitsFrom 0 (n + 1 + 1) =
          waitsFrom 0 (n + 1) ++ [retryDelayMs (n + 1)] := by
        rw [waitsFrom, List.range'_concat, List.flatMap_append]
        simp [waitsFrom]
      have hpos : 1 ≤ 2 ^ n := Nat.one_le_two_pow
      rw [hsplit, List.sum_append, ih (by omega), List.sum_singleton, hdelay, pow_succ]
      omega

theorem exists_result_of_not_retryable {outcome : PostOutcome}
    (h : ¬ outcome.Retryable share) :
    ∃ result, attemptResult share outcome = .ok result := by
  rcases hresult : attemptResult share outcome with e | result
  · exact absurd ⟨e, hresult⟩ h
  · exact ⟨result, rfl⟩

theorem map_range_split (post : ℕ → PostOutcome) {k n : ℕ} (hk : k ≤ n) :
    ∃ after, (List.range (n + 1)).map post =
      (List.range k).map post ++ post k :: after := by
  obtain ⟨m, rfl⟩ := Nat.exists_eq_add_of_le hk
  refine ⟨(List.range m).map fun i => post (k + (i + 1)), ?_⟩
  rw [Nat.add_assoc, List.range_add, List.range_succ_eq_map]
  simp [Function.comp_def]

/-- The first waits are no longer than all of them. -/
theorem sum_waitsFrom_le {count total : ℕ} (h : count ≤ total) :
    (waitsFrom 0 count).sum ≤ (waitsFrom 0 total).sum := by
  obtain ⟨more, rfl⟩ := Nat.exists_eq_add_of_le h
  rw [waitsFrom, waitsFrom, ← List.range'_append_1, List.flatMap_append, List.sum_append]
  exact Nat.le_add_right _ _

/-- The first attempt that can settles the share; otherwise the last one is
reported. -/
theorem forward_share_decided (share : ShareSubmission) (maxRetries : UInt32)
    (post : ℕ → PostOutcome) :
    (∃ k result, k ≤ maxRetries.toNat ∧
        (∀ i < k, (post i).Retryable share) ∧
        attemptResult share (post k) = .ok result ∧
        forwardShareWithRetries share maxRetries post =
          (waitsFrom 0 (k + 1), result) ∧
        result.forwarded = true) ∨
      (∀ i ≤ maxRetries.toNat, (post i).Retryable share) ∧
        ∃ e, attemptResult share (post maxRetries.toNat) = .error e ∧
          forwardShareWithRetries share maxRetries post =
            (waitsFrom 0 (maxRetries.toNat + 1), exhaustedResult share (some e)) := by
  classical
  by_cases hex : ∃ k ≤ maxRetries.toNat, ¬ (post k).Retryable share
  · left
    obtain ⟨hle, hnot⟩ := Nat.find_spec hex
    have hfirst : ∀ i < Nat.find hex, (post i).Retryable share := by
      intro i hi
      by_contra hno
      exact Nat.find_min hex hi ⟨by omega, hno⟩
    obtain ⟨result, hok⟩ := exists_result_of_not_retryable hnot
    obtain ⟨after, hsplit⟩ := map_range_split post hle
    refine ⟨Nat.find hex, result, hle, hfirst, hok, ?_, (attemptResult_key hok).2⟩
    rw [forwardShareWithRetries, hsplit, forwardFrom_decided _ hok, List.length_map,
      List.length_range]
    simpa using hfirst
  · right
    push Not at hex
    obtain ⟨e, he⟩ := hex maxRetries.toNat le_rfl
    refine ⟨hex, e, he, ?_⟩
    have hlast : lastErrorOf share none
        ((List.range (maxRetries.toNat + 1)).map post) = some e := by
      rw [List.range_succ, List.map_append, lastErrorOf, List.foldl_append]
      simp [he]
    rw [forwardShareWithRetries, forwardFrom_exhausted, hlast, List.length_map,
      List.length_range]
    intro o ho
    obtain ⟨i, hi, rfl⟩ := List.mem_map.mp ho
    exact hex i (by rw [List.mem_range] at hi; omega)

/-- A share is settled by the first attempt that can be, among one more than the
retries, and otherwise reported with the error of the last one. The waits double
from a tenth of a second on. -/
theorem forward_share_outcome (share : ShareSubmission) (maxRetries : UInt32)
    (post : ℕ → PostOutcome) :
    ((∃ k result, k ≤ maxRetries.toNat ∧
        (∀ i < k, (post i).Retryable share) ∧
        attemptResult share (post k) = .ok result ∧
        forwardShareWithRetries share maxRetries post =
          (waitsFrom 0 (k + 1), result) ∧
        result.forwarded = true) ∨
      (∀ i ≤ maxRetries.toNat, (post i).Retryable share) ∧
        ∃ e, attemptResult share (post maxRetries.toNat) = .error e ∧
          forwardShareWithRetries share maxRetries post =
            (waitsFrom 0 (maxRetries.toNat + 1), exhaustedResult share (some e))) ∧
      (maxRetries.toNat ≤ 32 →
        (forwardShareWithRetries share maxRetries post).1.sum ≤
          100 * (2 ^ maxRetries.toNat - 1)) := by
  have hdecided := forward_share_decided share maxRetries post
  refine ⟨hdecided, fun hfew => ?_⟩
  rw [← sum_waitsFrom hfew]
  rcases hdecided with ⟨k, result, hk, -, -, hforward, -⟩ | ⟨-, e, -, hforward⟩
  · rw [hforward]
    exact sum_waitsFrom_le (by omega)
  · rw [hforward]

end

/-! ## The relay -/

structure ShareRelayConfig where
  maxRetries : UInt32
  maxInFlight : ℕ

/-- A task of the relay: its share, the POSTs it has made, and its result once
it has one. -/
structure ForwardTask where
  share : ShareSubmission
  posts : List PostOutcome := []
  lastError : Option String := none
  result : Option ShareForwardResult := none

/-- A task that has ended: its result was sent unless nobody received it. -/
structure ForwardReport where
  share : ShareSubmission
  posts : List PostOutcome
  result : ShareForwardResult
  received : Bool

/-- The relay with its queue. The shares that were put on the queue, those taken
off it, and the tasks that have ended are kept for the history. -/
structure ShareRelay where
  queue : List ShareSubmission := []
  waiting : Option ShareSubmission := none
  permits : ℕ
  tasks : List ForwardTask := []
  shareUpstreamReachable : Bool := false
  stopped : Bool := false
  submitted : List ShareSubmission := []
  taken : List ShareSubmission := []
  reports : List ForwardReport := []

inductive RelayLabel where
  /-- A share is put on the queue. -/
  | submit (share : ShareSubmission)
  /-- The loop takes a share off the queue. -/
  | receive
  /-- The share gets a permit and a task of its own. -/
  | acquire
  /-- A task makes an attempt. -/
  | post (task : ℕ) (outcome : PostOutcome)
  /-- A task hands its result on and gives its permit back. -/
  | report (task : ℕ) (received : Bool)
  /-- The loop ends: on shutdown, or with the queue closed and empty. -/
  | stop

/-- One attempt of a task. The last one that may be made ends it either way. -/
def ForwardTask.post (cfg : ShareRelayConfig) (task : ForwardTask)
    (outcome : PostOutcome) : ForwardTask :=
  match attemptResult task.share outcome with
  | .ok result =>
      { task with posts := task.posts ++ [outcome], result := some result }
  | .error e =>
      { task with
        posts := task.posts ++ [outcome]
        lastError := some e
        result :=
          if task.posts.length = cfg.maxRetries.toNat then
            some (exhaustedResult task.share (some e))
          else none }

namespace ShareRelay

def new (cfg : ShareRelayConfig) : ShareRelay where
  permits := cfg.maxInFlight

/-- One step. The loop waits for a permit inside its branch, so it neither takes
another share nor sees the shutdown before it has one. -/
def step (cfg : ShareRelayConfig) (s : ShareRelay) : RelayLabel → Option ShareRelay
  | .submit share =>
      some { s with
        queue := s.queue ++ [share]
        submitted := s.submitted ++ [share] }
  | .receive =>
      match s.queue, s.waiting, s.stopped with
      | share :: queue, none, false =>
          some { s with
            queue := queue
            waiting := some share
            taken := s.taken ++ [share] }
      | _, _, _ => none
  | .acquire =>
      match s.waiting with
      | some share =>
          if 0 < s.permits then
            some { s with
              waiting := none
              permits := s.permits - 1
              tasks := s.tasks ++ [{ share := share }] }
          else none
      | none => none
  | .post i outcome =>
      match s.tasks[i]? with
      | some task =>
          if task.result.isNone then
            let task := task.post cfg outcome
            some { s with
              tasks := s.tasks.set i task
              shareUpstreamReachable :=
                (task.result.map ShareForwardResult.forwarded).getD
                  s.shareUpstreamReachable }
          else none
      | none => none
  | .report i received =>
      match s.tasks[i]? with
      | some task =>
          match task.result with
          | some result =>
              some { s with
                tasks := s.tasks.eraseIdx i
                permits := s.permits + 1
                reports := s.reports ++
                  [{ share := task.share
                     posts := task.posts
                     result := result
                     received := received }] }
          | none => none
      | none => none
  | .stop => if s.waiting.isNone then some { s with stopped := true } else none

/-- The results that were sent, in the order of sending. -/
def results (s : ShareRelay) : List ShareForwardResult :=
  (s.reports.filter ForwardReport.received).map ForwardReport.result

section

variable {cfg : ShareRelayConfig} {s t : ShareRelay} {a : RelayLabel}

/-- All that a step can do. -/
theorem step_cases (h : step cfg s a = some t) :
    (∃ share, a = .submit share ∧
      t = { s with
        queue := s.queue ++ [share]
        submitted := s.submitted ++ [share] }) ∨
    (∃ share queue, a = .receive ∧ s.queue = share :: queue ∧ s.waiting = none ∧
      t = { s with
        queue := queue
        waiting := some share
        taken := s.taken ++ [share] }) ∨
    (∃ share, a = .acquire ∧ s.waiting = some share ∧ 0 < s.permits ∧
      t = { s with
        waiting := none
        permits := s.permits - 1
        tasks := s.tasks ++ [{ share := share }] }) ∨
    (∃ before task after outcome, a = .post before.length outcome ∧
      s.tasks = before ++ task :: after ∧ task.result = none ∧
      t = { s with
        tasks := before ++ task.post cfg outcome :: after
        shareUpstreamReachable :=
          ((task.post cfg outcome).result.map ShareForwardResult.forwarded).getD
            s.shareUpstreamReachable }) ∨
    (∃ before task after result received, a = .report before.length received ∧
      s.tasks = before ++ task :: after ∧ task.result = some result ∧
      t = { s with
        tasks := before ++ after
        permits := s.permits + 1
        reports := s.reports ++ [⟨task.share, task.posts, result, received⟩] }) ∨
    (a = .stop ∧ t = { s with stopped := true }) := by
  rcases a with share | _ | _ | ⟨i, outcome⟩ | ⟨i, received⟩ | _
  · cases h
    exact .inl ⟨share, rfl, rfl⟩
  · right; left
    rw [step] at h
    split at h
    · rename_i share queue hqueue hwaiting hstopped
      cases h
      exact ⟨share, queue, rfl, hqueue, hwaiting, rfl⟩
    · cases h
  · right; right; left
    rw [step] at h
    split at h
    · rename_i share hwaiting
      split at h
      · rename_i hpermits
        cases h
        exact ⟨share, rfl, hwaiting, hpermits, rfl⟩
      · cases h
    · cases h
  · right; right; right; left
    rw [step] at h
    split at h
    · rename_i task htask
      split at h
      · rename_i hresult
        obtain ⟨before, after, hsplit, rfl⟩ := exists_split_of_getElem? htask
        cases h
        refine ⟨before, task, after, outcome, rfl, hsplit,
          Option.isNone_iff_eq_none.mp hresult, ?_⟩
        rw [hsplit, set_split]
      · cases h
    · cases h
  · right; right; right; right; left
    rw [step] at h
    split at h
    · rename_i task htask
      split at h
      · rename_i result hresult
        obtain ⟨before, after, hsplit, rfl⟩ := exists_split_of_getElem? htask
        cases h
        refine ⟨before, task, after, result, received, rfl, hsplit, hresult, ?_⟩
        rw [hsplit, eraseIdx_split]
      · cases h
    · cases h
  · right; right; right; right; right
    rw [step] at h
    split at h
    · cases h
      exact ⟨rfl, rfl⟩
    · cases h

end

end ShareRelay

/-! ## What the relay keeps -/

/-- The result is what forwarding the share returns, whatever the attempts that
were not made would have come to. -/
def Settles (cfg : ShareRelayConfig) (share : ShareSubmission)
    (posts : List PostOutcome) (result : ShareForwardResult) : Prop :=
  posts.length ≤ cfg.maxRetries.toNat + 1 ∧
    ∀ post : ℕ → PostOutcome, (List.range posts.length).map post = posts →
      (forwardShareWithRetries share cfg.maxRetries post).2 = result

/-- What a task knows: without a result every attempt was retried. -/
structure ForwardTask.Sound (cfg : ShareRelayConfig) (task : ForwardTask) : Prop where
  retried : task.result = none → ∀ o ∈ task.posts, o.Retryable task.share
  left : task.result = none → task.posts.length ≤ cfg.maxRetries.toNat
  lastError : task.result = none →
    task.lastError = lastErrorOf task.share none task.posts
  settles : ∀ result, task.result = some result →
    Settles cfg task.share task.posts result

section

variable {cfg : ShareRelayConfig} {task : ForwardTask} {share : ShareSubmission}
  {posts : List PostOutcome} {outcome : PostOutcome}

/-- Whatever an attempt comes to, the result names the share. -/
theorem forwardFrom_key (attempt : ℕ) (lastError : Option String)
    (outcomes : List PostOutcome) :
    (forwardFrom share attempt lastError outcomes).2.key =
      (share.shareIdHex, share.eventIdHex) := by
  induction outcomes generalizing attempt lastError with
  | nil => rfl
  | cons o outcomes ih =>
      rcases hresult : attemptResult share o with e | result
      · rw [forwardFrom_retried hresult]
        exact ih (attempt + 1) (some e)
      · rw [forwardFrom_settled hresult]
        exact (attemptResult_key hresult).1

theorem Settles.key {result : ShareForwardResult} (h : Settles cfg share posts result) :
    result.key = (share.shareIdHex, share.eventIdHex) := by
  have hpost : (List.range posts.length).map
      (fun i => posts.getD i (.timeout "")) = posts := by
    apply List.ext_getElem
    · simp
    · intro i hi hi'
      simp [hi']
  rw [← h.2 _ hpost]
  exact forwardFrom_key 0 none _

theorem ForwardTask.Sound.length_le (h : task.Sound cfg) :
    task.posts.length ≤ cfg.maxRetries.toNat + 1 := by
  rcases hresult : task.result with _ | result
  · exact (h.left hresult).trans (Nat.le_succ _)
  · exact (h.settles result hresult).1

theorem ForwardTask.sound_new (cfg : ShareRelayConfig) (share : ShareSubmission) :
    ForwardTask.Sound cfg { share := share } where
  retried _ := by simp
  left _ := Nat.zero_le _
  lastError _ := rfl
  settles _ h := by cases h

theorem settles_of_ok {result : ShareForwardResult}
    (hretried : ∀ o ∈ posts, o.Retryable share)
    (hleft : posts.length ≤ cfg.maxRetries.toNat)
    (hok : attemptResult share outcome = .ok result) :
    Settles cfg share (posts ++ [outcome]) result := by
  refine ⟨by simpa using hleft, fun post hpost => ?_⟩
  rw [List.length_append, List.length_singleton, List.range_succ, List.map_append] at hpost
  obtain ⟨hbefore, hlast⟩ := List.append_inj' hpost rfl
  have hlast : post posts.length = outcome := by simpa using hlast
  obtain ⟨after, hsplit⟩ := map_range_split post hleft
  rw [forwardShareWithRetries, hsplit, hbefore, hlast, forwardFrom_decided hretried hok]

theorem settles_of_exhausted {e : String}
    (hretried : ∀ o ∈ posts, o.Retryable share)
    (hleft : posts.length = cfg.maxRetries.toNat)
    (herror : attemptResult share outcome = .error e) :
    Settles cfg share (posts ++ [outcome]) (exhaustedResult share (some e)) := by
  refine ⟨by simp [hleft], fun post hpost => ?_⟩
  have hall : ∀ o ∈ posts ++ [outcome], o.Retryable share := by
    intro o ho
    rcases List.mem_append.mp ho with ho | ho
    · exact hretried o ho
    · rw [List.mem_singleton] at ho
      exact ho ▸ ⟨e, herror⟩
  have hlast : lastErrorOf share none (posts ++ [outcome]) = some e := by
    rw [lastErrorOf, List.foldl_append]
    simp [herror]
  have hlength : (posts ++ [outcome]).length = cfg.maxRetries.toNat + 1 := by
    simp [hleft]
  rw [hlength] at hpost
  rw [forwardShareWithRetries, hpost, forwardFrom_exhausted hall, hlast]

@[simp] theorem ForwardTask.post_share (cfg : ShareRelayConfig) (task : ForwardTask)
    (outcome : PostOutcome) : (task.post cfg outcome).share = task.share := by
  unfold ForwardTask.post
  split <;> rfl

theorem ForwardTask.Sound.post (h : task.Sound cfg) (hnone : task.result = none)
    (outcome : PostOutcome) : (task.post cfg outcome).Sound cfg := by
  have hretried := h.retried hnone
  have hleft := h.left hnone
  rcases hresult : attemptResult task.share outcome with e | result
  · have hpost : task.post cfg outcome =
        { task with
          posts := task.posts ++ [outcome]
          lastError := some e
          result :=
            if task.posts.length = cfg.maxRetries.toNat then
              some (exhaustedResult task.share (some e))
            else none } := by
      rw [ForwardTask.post, hresult]
    have hlast : lastErrorOf task.share none (task.posts ++ [outcome]) = some e := by
      rw [lastErrorOf, List.foldl_append]
      simp [hresult]
    rw [hpost]
    by_cases hfull : task.posts.length = cfg.maxRetries.toNat
    · rw [if_pos hfull]
      constructor
      · simp
      · simp
      · simp
      · intro result heq
        cases heq
        exact settles_of_exhausted hretried hfull hresult
    · rw [if_neg hfull]
      constructor
      · intro _ o ho
        rcases List.mem_append.mp ho with ho | ho
        · exact hretried o ho
        · rw [List.mem_singleton] at ho
          rw [ho]
          exact ⟨e, hresult⟩
      · intro _
        rw [List.length_append, List.length_singleton]
        omega
      · intro _
        exact hlast.symm
      · simp
  · have hpost : task.post cfg outcome =
        { task with posts := task.posts ++ [outcome], result := some result } := by
      rw [ForwardTask.post, hresult]
    rw [hpost]
    constructor
    · simp
    · simp
    · simp
    · intro result' heq
      cases heq
      exact settles_of_ok hretried hleft hresult

end

namespace ShareRelay

/-- Every permit is held by a task. Every share that was submitted is on the
queue or was taken off it, in this order, and a share that was taken is waiting
for a permit, in a task, or reported. -/
structure Sound (cfg : ShareRelayConfig) (s : ShareRelay) : Prop where
  permits : s.permits + s.tasks.length = cfg.maxInFlight
  order : s.submitted = s.taken ++ s.queue
  account : s.taken.Perm (s.waiting.toList ++
    (s.tasks.map ForwardTask.share ++ s.reports.map ForwardReport.share))
  tasks : ∀ task ∈ s.tasks, task.Sound cfg
  reports : ∀ r ∈ s.reports, Settles cfg r.share r.posts r.result

section

variable {cfg : ShareRelayConfig} {s t : ShareRelay} {a : RelayLabel}
  {labels : List RelayLabel}

theorem sound_new (cfg : ShareRelayConfig) : (new cfg).Sound cfg where
  permits := rfl
  order := rfl
  account := by simp [new]
  tasks := by simp [new]
  reports := by simp [new]

theorem Sound.step (h : s.Sound cfg) (hstep : step cfg s a = some t) : t.Sound cfg := by
  rcases step_cases hstep with ⟨share, -, rfl⟩ | ⟨share, queue, -, hqueue, hwaiting, rfl⟩ |
    ⟨share, -, hwaiting, hpermits, rfl⟩ | ⟨before, task, after, outcome, -, htasks, hnone, rfl⟩ |
    ⟨before, task, after, result, received, -, htasks, hresult, rfl⟩ | ⟨-, rfl⟩
  · exact { h with order := by simp [h.order] }
  · -- a share moves from the queue to the loop
    refine { h with order := ?_, account := ?_ }
    · simp [h.order, hqueue]
    · have haccount := h.account
      rw [hwaiting] at haccount
      have hcons := (List.perm_append_singleton share s.taken).trans
        (haccount.cons share)
      simpa using hcons
  · -- and on into a task, with a permit
    refine { h with permits := ?_, account := ?_, tasks := ?_ }
    · have hsum := h.permits
      simp only [List.length_append, List.length_singleton]
      omega
    · have haccount := h.account
      rw [hwaiting] at haccount
      refine haccount.trans ?_
      have hmiddle : (s.tasks.map ForwardTask.share ++
          share :: s.reports.map ForwardReport.share).Perm
          (share :: (s.tasks.map ForwardTask.share ++
            s.reports.map ForwardReport.share)) := List.perm_middle
      simpa using hmiddle.symm
    · intro task htask
      rcases List.mem_append.mp htask with htask | htask
      · exact h.tasks task htask
      · rw [List.mem_singleton] at htask
        exact htask ▸ ForwardTask.sound_new cfg share
  · refine { h with permits := ?_, account := ?_, tasks := ?_ }
    · have hsum := h.permits
      rw [htasks] at hsum
      simpa using hsum
    · have haccount := h.account
      rw [htasks] at haccount
      simpa using haccount
    · have hsound := h.tasks
      rw [htasks] at hsound
      exact forall_mem_set hsound ((hsound task (by simp)).post hnone outcome)
  · -- a task ends: its share goes over to the reports, its permit comes back
    have hsound := h.tasks
    rw [htasks] at hsound
    refine { h with permits := ?_, account := ?_, tasks := ?_, reports := ?_ }
    · have hsum := h.permits
      rw [htasks, List.length_append, List.length_cons] at hsum
      change s.permits + 1 + (before ++ after).length = cfg.maxInFlight
      rw [List.length_append]
      omega
    · have haccount := h.account
      rw [htasks] at haccount
      refine haccount.trans ?_
      apply List.Perm.append_left
      simp only [List.map_append, List.map_cons, List.map_nil, List.append_assoc,
        List.cons_append]
      apply List.Perm.append_left
      rw [← List.append_assoc]
      exact (List.perm_append_singleton _ _).symm
    · exact forall_mem_erase hsound
    · intro r hr
      rcases List.mem_append.mp hr with hr | hr
      · exact h.reports r hr
      · rw [List.mem_singleton] at hr
        subst hr
        exact (hsound task (by simp)).settles result hresult
  · exact { h with }

theorem sound_of_run (hrun : run (step cfg) (new cfg) labels = some s) : s.Sound cfg :=
  invariant_of_run (fun _ _ _ h hstep => h.step hstep) (sound_new cfg) hrun

end

/-! ## The relay comes to rest -/

/-- The steps that the relay takes by itself. -/
def isOwn : RelayLabel → Bool
  | .receive | .acquire | .post _ _ | .report _ _ => true
  | .submit _ | .stop => false

section

variable {cfg : ShareRelayConfig} {s t : ShareRelay} {a : RelayLabel}
  {labels : List RelayLabel}

/-- No step of the relay's own is possible. -/
def AtRest (cfg : ShareRelayConfig) (s : ShareRelay) : Prop :=
  ∀ a, isOwn a = true → step cfg s a = none

/-- A relay at rest has no share left that it was given. -/
theorem AtRest.idle (h : s.Sound cfg) (hrest : s.AtRest cfg)
    (hpermits : 0 < cfg.maxInFlight) :
    s.waiting = none ∧ s.tasks = [] ∧ (s.stopped = false → s.queue = []) := by
  have htasks : s.tasks = [] := by
    rcases hsplit : s.tasks with _ | ⟨task, tasks⟩
    · rfl
    · rcases hresult : task.result with _ | result
      · have hnone := hrest (.post 0 (.timeout "")) rfl
        simp [ShareRelay.step, hsplit, hresult] at hnone
      · have hnone := hrest (.report 0 true) rfl
        simp [ShareRelay.step, hsplit, hresult] at hnone
  have hwaiting : s.waiting = none := by
    rcases hwait : s.waiting with _ | share
    · rfl
    · have hsum := h.permits
      have hnone := hrest .acquire rfl
      rw [htasks, List.length_nil, Nat.add_zero] at hsum
      simp only [ShareRelay.step, hwait] at hnone
      rw [hsum, if_pos hpermits] at hnone
      cases hnone
  refine ⟨hwaiting, htasks, fun hstopped => ?_⟩
  rcases hqueue : s.queue with _ | ⟨share, queue⟩
  · rfl
  · have hnone := hrest .receive rfl
    simp [ShareRelay.step, hqueue, hwaiting, hstopped] at hnone

/-- The relay never has more tasks than it may, posts no share more often than
once more than the retries, and loses none: a share that was submitted is on the
queue, waits for a permit, is in a task, or has exactly one report, with the
result that forwarding it returns. -/
theorem share_relay_conserves (cfg : ShareRelayConfig) (labels : List RelayLabel)
    (hrun : run (step cfg) (new cfg) labels = some s) :
    s.tasks.length ≤ cfg.maxInFlight ∧
      s.submitted.Perm (s.queue ++ (s.waiting.toList ++
        (s.tasks.map ForwardTask.share ++ s.reports.map ForwardReport.share))) ∧
      (∀ task ∈ s.tasks, task.posts.length ≤ cfg.maxRetries.toNat + 1) ∧
      ∀ r ∈ s.reports, r.posts.length ≤ cfg.maxRetries.toNat + 1 ∧
        r.result.key = (r.share.shareIdHex, r.share.eventIdHex) ∧
        ∀ post : ℕ → PostOutcome, (List.range r.posts.length).map post = r.posts →
          (forwardShareWithRetries r.share cfg.maxRetries post).2 = r.result := by
  have hsound := sound_of_run hrun
  refine ⟨?_, ?_, fun task htask => (hsound.tasks task htask).length_le, ?_⟩
  · have hsum := hsound.permits
    omega
  · rw [hsound.order]
    exact (List.perm_append_comm).trans (hsound.account.append_left s.queue)
  · intro r hr
    have hsettles := hsound.reports r hr
    exact ⟨hsettles.1, hsettles.key, hsettles.2⟩

/-- A share of a worker that names nothing. -/
def plainShare : ShareSubmission where
  shareIdHex := "aa"
  version := 0x20000000
  prevHashWireHex := ""
  prevHashDisplayHex := ""
  merkleRootWireHex := ""
  merkleRootDisplayHex := ""
  ntime := 1700000000
  nbits := 0x207fffff
  nonce := 7
  eventIdHex := "bb"
  workerId := "worker"
  validationLevel := "full"
  gatewayInstanceId := "gw"
  channelId := 1
  sequenceNumber := 1
  jobId := 1
  templateId := 1
  blockHeight := 1
  poolAccountId := none
  timestampMs := 0
  difficultyU64 := 1
  difficultyDisplay := 1
  sourceInstanceId := ""
  gatewaySignatureHex := ""

/-- A share that is accepted at the second attempt. -/
def retriedShare : List RelayLabel :=
  [.submit plainShare, .receive, .acquire, .post 0 (.timeout "deadline"),
    .post 0 (.response 200 (.ok { accepted := true })), .report 0 true]

theorem share_relay_conserves_retried :
    ∃ s, run (step ⟨3, 8⟩) (new ⟨3, 8⟩) retriedShare = some s ∧
      s.reports.length = 1 ∧
      s.submitted.Perm (s.queue ++ (s.waiting.toList ++
        (s.tasks.map ForwardTask.share ++ s.reports.map ForwardReport.share))) :=
  ⟨_, rfl, rfl, (share_relay_conserves ⟨3, 8⟩ retriedShare rfl).2.1⟩

end

end ShareRelay

end ReserveGrid.Gateway
