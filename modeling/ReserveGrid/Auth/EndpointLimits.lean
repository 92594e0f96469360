import ReserveGrid.Common.RateLimiter
import ReserveGrid.Dashboard.ClientAddr
import ReserveGrid.Support.Run

/-!
# The budgets of the account endpoints

Eight endpoints of the account service are limited, each with a number of
requests a minute of its own. All of them ask one limiter, and the limiter has
one window for an address whatever it asks for. A request is therefore refused
when the client has spent the budget of its endpoint anywhere.
-/

namespace ReserveGrid.Auth

open Common
open Support
open Support.SlidingWindow
open Dashboard (HeaderMap toStr trim)

/-! ## Answers -/

/-- The JSON of an answer: `err_json`, `ok_json`, and that of a key which is
not valid. -/
inductive Body where
  | errJson (code detail : String)
  | okJson (message : String)
  | invalidKey (reason : String)
  deriving DecidableEq, Repr

structure Response where
  statusCode : ℕ
  body : Body
  deriving DecidableEq, Repr

/-! ## Endpoints -/

/-- The limited endpoints. -/
inductive Endpoint where
  | register
  | verifyEmail
  | login
  | approveConfirm
  | denyConfirm
  | forgotPassword
  | resetPassword
  | validateKey
  deriving DecidableEq, Repr

namespace Endpoint

/-- The requests a minute, before the multiplier. -/
def perMinute : Endpoint → UInt32
  | register => 5
  | verifyEmail => 5
  | login => 10
  | approveConfirm => 3
  | denyConfirm => 3
  | forgotPassword => 3
  | resetPassword => 5
  | validateKey => 20

/-- What a refused request is answered. -/
def tooManyRequests : Endpoint → Response
  | register | login | forgotPassword | resetPassword =>
      ⟨429, .errJson "rate_limited" "Too many requests"⟩
  | verifyEmail | approveConfirm | denyConfirm =>
      ⟨429, .errJson "rate_limited" "Too many requests."⟩
  | validateKey => ⟨429, .invalidKey "rate_limited"⟩

end Endpoint

/-- The settings the limiter depends on. -/
structure AuthConfig where
  rateMaxIps : ℕ
  rateGlobalCeiling : Option UInt32
  rateLimitMultiplier : UInt32
  trustProxy : Bool
  multiplier_pos : 1 ≤ rateLimitMultiplier

/-- What the limiter sees of a request: the clock as it reads, the address of
the connection, the headers, and the order in which the tracked addresses are
visited if one has to go. -/
structure Call where
  now : ℕ
  addr : IpAddr
  headers : HeaderMap
  order : IterOrder (Σ _ : IpAddr, List ℕ)

/-- The first entry of `x-forwarded-for` when the proxy is trusted and the
entry is an address, else the address of the connection. -/
def clientIp (headers : HeaderMap) (addr : IpAddr) (trustProxy : Bool) :
    IpAddr :=
  if trustProxy then
    let named := do
      let xff ← headers.lookup "x-forwarded-for"
      let val ← toStr xff
      let first ← (val.splitOn 44).head?
      IpAddr.parse (trim first)
    named.getD addr
  else addr

namespace AuthConfig

/-- The limiter the service starts with. -/
def rateLimiter (cfg : AuthConfig) : RateLimiter :=
  .withConfig cfg.rateMaxIps cfg.rateGlobalCeiling

/-- The limit of an endpoint. The product has 32 bits. -/
def maxPerWindow (cfg : AuthConfig) (endpoint : Endpoint) : UInt32 :=
  endpoint.perMinute * cfg.rateLimitMultiplier

def clientOf (cfg : AuthConfig) (call : Call) : IpAddr :=
  clientIp call.headers call.addr cfg.trustProxy

/-- What an endpoint asks the limiter. -/
def admitCall (cfg : AuthConfig) (endpoint : Endpoint) (call : Call) :
    AdmitCall where
  now := call.now
  ip := cfg.clientOf call
  maxPerWindow := cfg.maxPerWindow endpoint
  order := call.order

/-- The first step of every limited handler. The answer is that of a refused
request; an admitted one has none yet. -/
def limit (cfg : AuthConfig) (endpoint : Endpoint) (call : Call)
    (limiter : RateLimiter) : Option Response × RateLimiter :=
  let (allowed, limiter) := limiter.check (cfg.admitCall endpoint call)
  if !allowed then (some endpoint.tooManyRequests, limiter)
  else (none, limiter)

end AuthConfig

/-! ## Runs -/

/-- What happens to the limiter: a request to a limited endpoint, or the
cleanup that the service does every five minutes. -/
inductive AuthEvent where
  | request (endpoint : Endpoint) (call : Call)
  | cleanup (now : ℕ)

namespace AuthEvent

/-- The clock reading of an event. -/
def now : AuthEvent → ℕ
  | request _ call => call.now
  | cleanup now => now

def apply (cfg : AuthConfig) (limiter : RateLimiter) : AuthEvent → RateLimiter
  | request endpoint call => (cfg.limit endpoint call limiter).2
  | cleanup now => limiter.cleanup now

/-- The event of the limiter itself. -/
def toLimiter (cfg : AuthConfig) : AuthEvent → LimiterEvent
  | request endpoint call => .request (cfg.admitCall endpoint call)
  | cleanup now => .cleanup now

/-- The time at which the client made a request to the endpoint. -/
def timeTo (cfg : AuthConfig) (client : IpAddr) (endpoint : Endpoint) :
    AuthEvent → Option ℕ
  | request endpoint' call =>
      if endpoint' = endpoint ∧ cfg.clientOf call = client then some call.now
      else none
  | cleanup _ => none

end AuthEvent

namespace AuthConfig

variable (cfg : AuthConfig)

def limiterAfter (history : List AuthEvent) : RateLimiter :=
  history.foldl (AuthEvent.apply cfg) cfg.rateLimiter

/-- The requests the client made to the endpoint in the minute before. -/
def made (client : IpAddr) (endpoint : Endpoint) (now : ℕ)
    (history : List AuthEvent) : ℕ :=
  (within (60 * 1000000000) now
    (history.filterMap (AuthEvent.timeTo cfg client endpoint))).length

/-- The requests of the client, to any endpoint, that were admitted in the
minute before and since the client was last evicted. -/
def spent (client : IpAddr) (now : ℕ) (history : List AuthEvent) : ℕ :=
  (within (60 * 1000000000) now
    (spentFrom client cfg.rateLimiter []
      (history.map (AuthEvent.toLimiter cfg)))).length

/-- The requests of all clients that were admitted in the minute before. -/
def passed (now : ℕ) (history : List AuthEvent) : ℕ :=
  (within (60 * 1000000000) now
    (passedFrom cfg.rateLimiter (history.map (AuthEvent.toLimiter cfg)))).length

/-- A request is not refused when the client has made fewer requests to its
endpoint within the last minute than the limit of the endpoint. -/
def Keeps (history : List AuthEvent) : AuthEvent → Prop
  | .request endpoint call =>
      cfg.made (cfg.clientOf call) endpoint call.now history <
          (cfg.maxPerWindow endpoint).toNat →
        (cfg.limit endpoint call (cfg.limiterAfter history)).1 = none
  | .cleanup _ => True

/-- The client has made as many requests to the endpoint as its limit, or has
spent fewer on all endpoints together, and all clients together are below the
ceiling if there is one. -/
def Unspent (history : List AuthEvent) : AuthEvent → Prop
  | .request endpoint call =>
      (cfg.maxPerWindow endpoint).toNat ≤
          cfg.made (cfg.clientOf call) endpoint call.now history ∨
        (cfg.spent (cfg.clientOf call) call.now history <
            (cfg.maxPerWindow endpoint).toNat ∧
          ∀ ceiling ∈ cfg.rateGlobalCeiling,
            cfg.passed call.now history < ceiling.toNat)
  | .cleanup _ => True

end AuthConfig

/-- A run, whose state is what has happened so far. -/
def happen (history : List AuthEvent) (event : AuthEvent) :
    Option (List AuthEvent) :=
  some (history ++ [event])

/-! ## The limiter below -/

variable {cfg : AuthConfig} {history events : List AuthEvent}

theorem AuthEvent.now_toLimiter (event : AuthEvent) :
    (event.toLimiter cfg).now = event.now := by
  cases event with
  | request endpoint call => rfl
  | cleanup now => rfl

theorem AuthConfig.limit_eq (endpoint : Endpoint) (call : Call)
    (limiter : RateLimiter) :
    cfg.limit endpoint call limiter =
      (if (limiter.admitRequest (cfg.admitCall endpoint call)).1.isOk then none
        else some endpoint.tooManyRequests,
        (limiter.admitRequest (cfg.admitCall endpoint call)).2) := by
  unfold AuthConfig.limit RateLimiter.check
  cases (limiter.admitRequest (cfg.admitCall endpoint call)).1.isOk with
  | true => rfl
  | false => rfl

/-- A refused request has the answer of its endpoint. -/
theorem AuthConfig.limit_eq_some {endpoint : Endpoint} {call : Call}
    {limiter : RateLimiter} {response : Response}
    (h : (cfg.limit endpoint call limiter).1 = some response) :
    response = endpoint.tooManyRequests := by
  rw [limit_eq] at h
  dsimp only at h
  split at h
  · cases h
  · exact (Option.some.inj h).symm

theorem AuthEvent.apply_eq (limiter : RateLimiter) (event : AuthEvent) :
    event.apply cfg limiter = (event.toLimiter cfg).apply limiter := by
  cases event with
  | request endpoint call => rw [AuthEvent.apply, AuthConfig.limit_eq]; rfl
  | cleanup now => rfl

theorem AuthConfig.limiterAfter_eq (cfg : AuthConfig)
    (history : List AuthEvent) :
    cfg.limiterAfter history =
      (history.map (AuthEvent.toLimiter cfg)).foldl LimiterEvent.apply
        cfg.rateLimiter := by
  rw [List.foldl_map]
  exact List.foldl_ext _ _ _ fun limiter event _ => event.apply_eq limiter

/-- A request goes on exactly when its client has spent less than the limit and
all clients are below the ceiling. -/
theorem AuthConfig.limit_eq_none_iff {endpoint : Endpoint} {call : Call}
    (hordered : history.Pairwise fun a b => a.now ≤ b.now)
    (hlater : ∀ event ∈ history, event.now ≤ call.now) :
    (cfg.limit endpoint call (cfg.limiterAfter history)).1 = none ↔
      cfg.spent (cfg.clientOf call) call.now history <
          (cfg.maxPerWindow endpoint).toNat ∧
        ∀ ceiling ∈ cfg.rateGlobalCeiling,
          cfg.passed call.now history < ceiling.toNat := by
  have hordered' : (history.map (AuthEvent.toLimiter cfg)).Pairwise
      fun a b => a.now ≤ b.now := by
    rw [List.pairwise_map]
    simpa only [AuthEvent.now_toLimiter] using hordered
  have hlater' : ∀ event ∈ history.map (AuthEvent.toLimiter cfg),
      event.now ≤ (cfg.admitCall endpoint call).now := by
    rw [List.forall_mem_map]
    intro event hmem
    rw [AuthEvent.now_toLimiter]
    exact hlater event hmem
  have hadmit := admitRequest_isOk_iff cfg.rateMaxIps cfg.rateGlobalCeiling
    hordered' hlater'
  rw [limit_eq, limiterAfter_eq]
  refine Iff.trans ?_ hadmit
  exact ite_eq_left_iff.trans (by simp [rateLimiter])

/-- A request meets the promise exactly when nothing spent elsewhere matters. -/
theorem AuthConfig.keeps_iff_unspent {event : AuthEvent}
    (hordered : (history ++ [event]).Pairwise fun a b => a.now ≤ b.now) :
    cfg.Keeps history event ↔ cfg.Unspent history event := by
  cases event with
  | cleanup now => exact Iff.rfl
  | request endpoint call =>
      obtain ⟨hhistory, -, hlast⟩ := List.pairwise_append.mp hordered
      have hlater : ∀ event ∈ history, event.now ≤ call.now :=
        fun event hmem => hlast event hmem _ (List.mem_singleton_self _)
      rw [Keeps, Unspent, limit_eq_none_iff hhistory hlater, ← not_lt]
      exact imp_iff_not_or

/-- The step of the run: what happened before and what follows are in order. -/
theorem along_keeps_iff
    (hordered : (history ++ events).Pairwise fun a b => a.now ≤ b.now) :
    Along happen cfg.Keeps history events ↔
      Along happen cfg.Unspent history events := by
  induction events generalizing history with
  | nil => exact Iff.rfl
  | cons event events ih =>
      have hsplit : history ++ event :: events =
          (history ++ [event]) ++ events := by simp
      rw [hsplit] at hordered
      apply and_congr
      · exact AuthConfig.keeps_iff_unspent (List.pairwise_append.mp hordered).1
      · apply forall₂_congr
        intro after hafter
        cases hafter
        exact ih hordered

/-- In any run, every request to an endpoint with limit `k` goes on whose client
made fewer than `k` to it in the minute before, if and only if at every such
request the client has spent fewer than `k` on all endpoints together, and all
clients are below the ceiling. -/
theorem budgets_independent_iff (cfg : AuthConfig) (events : List AuthEvent)
    (hordered : events.Pairwise fun a b => a.now ≤ b.now) :
    Along happen cfg.Keeps [] events ↔ Along happen cfg.Unspent [] events := by
  have hsplit : [] ++ events = events := List.nil_append events
  rw [← hsplit] at hordered
  exact along_keeps_iff hordered

/-! ## Three logins -/

/-- The settings without any in the environment. -/
def defaultConfig : AuthConfig where
  rateMaxIps := 10000
  rateGlobalCeiling := none
  rateLimitMultiplier := 1
  trustProxy := false
  multiplier_pos := by decide

/-- A request of one client, a number of seconds after the start. -/
def requestAt (seconds : ℕ) (endpoint : Endpoint) : AuthEvent :=
  .request endpoint
    { now := seconds * 1000000000
      addr := .v4 { a := 203, b := 0, c := 113, d := 7 }
      headers := []
      order := .stored _ }

instance (cfg : AuthConfig) (history : List AuthEvent) :
    (event : AuthEvent) → Decidable (cfg.Keeps history event)
  | .request endpoint call =>
      inferInstanceAs (Decidable
        (cfg.made (cfg.clientOf call) endpoint call.now history <
          (cfg.maxPerWindow endpoint).toNat → _ = none))
  | .cleanup _ => inferInstanceAs (Decidable True)

instance (cfg : AuthConfig) (history : List AuthEvent) :
    (event : AuthEvent) → Decidable (cfg.Unspent history event)
  | .request endpoint call =>
      -- the one ceiling there may be, not all numbers of 32 bits in turn
      have : Decidable (∀ ceiling ∈ cfg.rateGlobalCeiling,
          cfg.passed call.now history < ceiling.toNat) :=
        Option.decidableForallMem _
      inferInstanceAs (Decidable
        ((cfg.maxPerWindow endpoint).toNat ≤
            cfg.made (cfg.clientOf call) endpoint call.now history ∨
          (cfg.spent (cfg.clientOf call) call.now history <
              (cfg.maxPerWindow endpoint).toNat ∧
            ∀ ceiling ∈ cfg.rateGlobalCeiling,
              cfg.passed call.now history < ceiling.toNat)))
  | .cleanup _ => inferInstanceAs (Decidable True)

theorem budgets_independent_iff_twoLogins :
    Along happen defaultConfig.Keeps []
      [requestAt 0 .login, requestAt 1 .login, requestAt 2 .forgotPassword] := by
  apply (budgets_independent_iff defaultConfig _ (by decide)).mpr
  decide +kernel

/-- After three logins the client is refused its first request for a new
password. -/
theorem not_budgets_independent_threeLogins :
    let events := [requestAt 0 .login, requestAt 1 .login, requestAt 2 .login,
      requestAt 3 .forgotPassword]
    (events.Pairwise fun a b => a.now ≤ b.now) ∧
      ¬ Along happen defaultConfig.Keeps [] events := by
  intro events
  exact ⟨by decide, by decide +kernel⟩

end ReserveGrid.Auth
