import ReserveGrid.Auth.Database
import ReserveGrid.Auth.EndpointLimits
import ReserveGrid.Support.Text

/-!
# Registration, verification and reset

Each handler is a chain of statements under the lock of the database, without a
transaction. One that fails ends the handler or is only logged, and what the
statements before it did stays. So an answer and the tables agree exactly when
nothing fails from the first change on.
-/

namespace ReserveGrid.Auth

open Common
open Support

/-! ## Requests and answers -/

structure RegisterRequest where
  email : String
  name : String
  org : String
  password : String

structure TokenQuery where
  token : String

structure ResetPasswordRequest where
  token : String
  password : String

/-- The e-mails the handlers send. Whether one is delivered is only logged. -/
inductive Mail where
  | registrationAttempt (recipient : String)
  | verification (recipient siteUrl verifyToken : String)
  | adminNotification (recipient authUrl name email org : String)
      (approveToken denyToken : String)
  deriving DecidableEq, Repr

/-- The addresses in the settings. -/
structure Site where
  adminEmail : String
  siteUrl : String
  authUrl : String

/-- What a handler meets: the faults of its statements, whether the lock is
poisoned, how `password::hash` goes with the salt it draws, and the tokens it
generates. -/
structure Env extends Faults where
  lockPoisoned : Bool
  hash : String → Option String
  verifyToken : String
  approveToken : String
  denyToken : String

structure Answer where
  response : Response
  db : Database
  mail : Option Mail

def errAnswer (statusCode : ℕ) (code detail : String) (db : Database) :
    Answer where
  response := ⟨statusCode, .errJson code detail⟩
  db := db
  mail := none

/-! ## Validation -/

/-- At most 254 bytes without white space, at most 64 of them before the first
`@`, and a dot after it that is followed by two bytes or more. -/
def isValidEmail (email : String) : Bool :=
  if 254 < email.utf8ByteSize || email.toList.any isWhiteSpace then false
  else
    match email.toList.span (· != '@') with
    | (_, []) => false
    | (localPart, _ :: domain) =>
        if localPart.isEmpty || 64 < (asBytes localPart).length then false
        else if domain.isEmpty || !domain.contains '.' then false
        else
          let tld := domain.reverse.takeWhile (· != '.')
          2 ≤ (asBytes tld).length

def isWeak (password : String) : Bool :=
  password.utf8ByteSize < 8 || 1024 < password.utf8ByteSize

/-- The code and the text of the first check that a registration fails. -/
def RegisterRequest.invalid (req : RegisterRequest) : Option (String × String) :=
  if !isValidEmail req.email then
    some ("invalid_email", "Invalid email address")
  else if req.name.isEmpty || 200 < req.name.utf8ByteSize then
    some ("invalid_name", "Name is required (max 200 chars)")
  else if req.org.isEmpty || 200 < req.org.utf8ByteSize then
    some ("invalid_org", "Organization is required (max 200 chars)")
  else if isWeak req.password then
    some ("weak_password", "Password must be 8 to 1024 characters")
  else none

/-! ## Handlers -/

/-- The answer to a registration, whether the address was free or not. -/
def registered : Response :=
  ⟨201, .okJson "Registration successful. Check your email to verify."⟩

/-- The end of `register`, for an address without an account. -/
def createAccount (site : Site) (env : Env) (req : RegisterRequest)
    (hash : String) (db : Database) : Answer :=
  match db.insertUser env.toFaults req.email req.name req.org hash with
  | none => errAnswer 500 "internal_error" "Failed to create user" db
  | some (userId, db) =>
      { response := registered
        db :=
          (db.insertEmailToken env.toFaults .insertVerifyToken env.verifyToken
            userId "verify").getD db
        mail := some (.verification req.email site.siteUrl env.verifyToken) }

/-- `register`, once the limiter has admitted the request. -/
def register (site : Site) (env : Env) (req : RegisterRequest)
    (db : Database) : Answer :=
  match req.invalid with
  | some (code, detail) => errAnswer 400 code detail db
  | none =>
    match env.hash req.password with
    | none => errAnswer 500 "internal_error" "Failed to hash password" db
    | some hash =>
      if env.lockPoisoned then
        errAnswer 500 "internal_error" "Database error" db
      else
        match db.getUserByEmail env.toFaults req.email with
        | some (some _) =>
            { response := registered, db := db
              mail := some (.registrationAttempt req.email) }
        -- a lookup that fails is taken for an address without an account
        | _ => createAccount site env req hash db

/-- `verify_email`, once the limiter has admitted the request. -/
def verifyEmail (site : Site) (env : Env) (q : TokenQuery) (db : Database) :
    Answer :=
  if env.lockPoisoned then errAnswer 500 "internal_error" "Internal error." db
  else
    match db.consumeEmailToken env.toFaults q.token "verify" with
    | (some none, db) =>
        errAnswer 400 "invalid_token" "Invalid or expired verification link." db
    | (none, db) => errAnswer 500 "internal_error" "Internal error." db
    | (some (some userId), db) =>
      match db.updateUserStatus env.toFaults userId Status.pendingApproval with
      | none => errAnswer 500 "internal_error" "Internal error." db
      | some db =>
        let user := (db.getUserById env.toFaults userId).join
        let db :=
          (db.insertEmailToken env.toFaults .insertApproveToken
            env.approveToken userId "approve").getD db
        let db :=
          (db.insertEmailToken env.toFaults .insertDenyToken
            env.denyToken userId "deny").getD db
        { response :=
            ⟨200, .okJson
              "Email verified. Your request is pending admin approval."⟩
          db := db
          mail := user.map fun u =>
            .adminNotification site.adminEmail site.authUrl u.name u.email u.org
              env.approveToken env.denyToken }

/-- `reset_password`, once the limiter has admitted the request. -/
def resetPassword (env : Env) (req : ResetPasswordRequest) (db : Database) :
    Answer :=
  if isWeak req.password then
    errAnswer 400 "weak_password" "Password must be 8 to 1024 characters" db
  else if env.lockPoisoned then
    errAnswer 500 "internal_error" "Database error" db
  else
    match db.consumeEmailTokenTtl env.toFaults req.token "password_reset" 1 with
    | (some none, db) =>
        errAnswer 400 "invalid_token" "Invalid or expired reset link" db
    | (none, db) => errAnswer 500 "internal_error" "Database error" db
    | (some (some userId), db) =>
      match env.hash req.password with
      | none => errAnswer 500 "internal_error" "Failed to hash password" db
      | some hash =>
        match db.updatePassword env.toFaults userId hash with
        | none => errAnswer 500 "internal_error" "Failed to update password" db
        | some db =>
            { response :=
                ⟨200, .okJson
                  "Password reset successful. You can now log in."⟩
              db := (db.deleteSessionsForUser env.toFaults userId).getD db
              mail := none }

/-- A request that changes accounts. -/
inductive AccountRequest where
  | register (req : RegisterRequest)
  | verifyEmail (q : TokenQuery)
  | resetPassword (req : ResetPasswordRequest)

namespace AccountRequest

def endpoint : AccountRequest → Endpoint
  | register _ => .register
  | verifyEmail _ => .verifyEmail
  | resetPassword _ => .resetPassword

def handle (site : Site) (env : Env) (db : Database) : AccountRequest → Answer
  | register req => Auth.register site env req db
  | verifyEmail q => Auth.verifyEmail site env q db
  | resetPassword req => Auth.resetPassword env req db

/-- The whole handler. -/
def serve (cfg : AuthConfig) (site : Site) (env : Env) (call : Call)
    (limiter : RateLimiter) (db : Database) (request : AccountRequest) :
    Answer × RateLimiter :=
  match cfg.limit request.endpoint call limiter with
  | (some response, limiter) =>
      ({ response := response, db := db, mail := none }, limiter)
  | (none, limiter) => (request.handle site env db, limiter)

end AccountRequest

/-! ## Atomic answers -/

def Response.isSuccess (response : Response) : Bool :=
  200 ≤ response.statusCode && response.statusCode < 300

/-- Accounts, tokens and sessions are as before. -/
structure Unchanged (before after : Database) : Prop where
  users : after.users = before.users
  emailTokens : after.emailTokens = before.emailTokens
  sessions : after.sessions = before.sessions

/-- A success has its effects, and an error has none. -/
structure Atomic (before : Database) (answer : Answer)
    (effects : Database → Prop) : Prop where
  success : answer.response.isSuccess = true → effects answer.db
  error : answer.response.isSuccess = false → Unchanged before answer.db

/-- A token that was not there before has this row. -/
structure Issued (before after : Database) (token : String) (row : EmailToken) :
    Prop where
  new : token ∉ before.emailTokens
  lookup : after.emailTokens.lookup token = some row

/-- A token that could be consumed is used up. -/
structure Consumed (env : Env) (before after : Database)
    (token kind : String) (ttl : ℕ) (row : EmailToken) : Prop where
  pending :
    before.pendingToken (env.now .consumeToken) token kind ttl = some row
  used : after.emailTokens.lookup token = some { row with used := true }

/-- The new account of a registration, with the token that verifies it. -/
structure Created (env : Env) (req : RegisterRequest) (before after : Database)
    (userId : ℕ) (user : User) : Prop where
  new : userId ∉ before.users
  lookup : after.users.lookup userId = some user
  email : user.email = req.email
  name : user.name = req.name
  org : user.org = req.org
  password : some user.password = env.hash req.password
  status : user.status = Status.pendingVerification
  token : Issued before after env.verifyToken
    { userId := userId, kind := "verify"
      createdAt := env.now .insertVerifyToken, used := false }

/-- An address had an account and nothing changed, or it has one now. -/
def Registered (env : Env) (req : RegisterRequest) (before after : Database) :
    Prop :=
  (before.withEmail req.email ≠ none ∧ Unchanged before after) ∨
    ∃ userId user, Created env req before after userId user

/-- The token is used, its account waits for approval, and the administrator's
two tokens are there. -/
def Verified (env : Env) (q : TokenQuery) (before after : Database) : Prop :=
  ∃ row, Consumed env before after q.token "verify" (7 * 86400) row ∧
    (∃ user, after.users.lookup row.userId = some user ∧
      user.status = Status.pendingApproval) ∧
    Issued before after env.approveToken
      { userId := row.userId, kind := "approve"
        createdAt := env.now .insertApproveToken, used := false } ∧
    Issued before after env.denyToken
      { userId := row.userId, kind := "deny"
        createdAt := env.now .insertDenyToken, used := false }

/-- The token is used, its account has the new password, and the account has no
session. -/
def PasswordReset (env : Env) (req : ResetPasswordRequest)
    (before after : Database) : Prop :=
  ∃ row, Consumed env before after req.token "password_reset" (1 * 3600) row ∧
    (∃ user, after.users.lookup row.userId = some user ∧
      some user.password = env.hash req.password) ∧
    ∀ token session, after.sessions.lookup token = some session →
      session.userId ≠ row.userId

namespace AccountRequest

/-- What a request is to bring about. -/
def Effects (env : Env) (before after : Database) : AccountRequest → Prop
  | register req => Registered env req before after
  | verifyEmail q => Verified env q before after
  | resetPassword req => PasswordReset env req before after

end AccountRequest

/-! ## When answers are atomic -/

/-- A registration that reaches its first change. -/
structure RegisterReaches (env : Env) (req : RegisterRequest) (db : Database) :
    Prop where
  valid : req.invalid = none
  hashed : (env.hash req.password).isSome = true
  lock : env.lockPoisoned = false
  insert : db.CanInsertUser env.toFaults req.email

/-- A verification that consumes the token with this row. -/
structure VerifyReaches (env : Env) (q : TokenQuery) (db : Database)
    (row : EmailToken) : Prop where
  lock : env.lockPoisoned = false
  works : env.fails .consumeToken = false
  pending : db.pendingToken (env.now .consumeToken) q.token "verify"
    (7 * 86400) = some row

/-- A reset that consumes the token with this row. -/
structure ResetReaches (env : Env) (req : ResetPasswordRequest) (db : Database)
    (row : EmailToken) : Prop where
  strong : isWeak req.password = false
  lock : env.lockPoisoned = false
  works : env.fails .consumeToken = false
  pending : db.pendingToken (env.now .consumeToken) req.token "password_reset"
    (1 * 3600) = some row

/-- From the first change of a request on, nothing fails. Of a reset, the end of
the sessions may fail when there are none. -/
def NoneFails (env : Env) (db : Database) : AccountRequest → Prop
  | .register req => RegisterReaches env req db →
      env.fails .insertVerifyToken = false ∧ env.verifyToken ∉ db.emailTokens
  | .verifyEmail q => ∀ row, VerifyReaches env q db row →
      env.fails .selectTokenUser = false ∧ env.fails .updateStatus = false ∧
        env.fails .insertApproveToken = false ∧
        env.fails .insertDenyToken = false ∧
        env.approveToken ∉ db.emailTokens ∧ env.denyToken ∉ db.emailTokens ∧
        env.approveToken ≠ env.denyToken
  | .resetPassword req => ∀ row, ResetReaches env req db row →
      env.fails .selectTokenUser = false ∧
        (env.hash req.password).isSome = true ∧
        env.fails .updatePassword = false ∧
        (env.fails .deleteSessions = false ∨
          ∀ token session, db.sessions.lookup token = some session →
            session.userId ≠ row.userId)

/-! ## The handlers one by one -/

variable {site : Site} {env : Env} {db : Database}

theorem Unchanged.refl (db : Database) : Unchanged db db := ⟨rfl, rfl, rfl⟩

/-- An error that leaves the tables alone is atomic. -/
theorem atomic_errAnswer {statusCode : ℕ} (h : 300 ≤ statusCode)
    (code detail : String) (effects : Database → Prop) :
    Atomic db (errAnswer statusCode code detail db) effects := by
  have herror : (errAnswer statusCode code detail db).response.isSuccess =
      false := by
    rw [errAnswer, Response.isSuccess]
    simp only [Bool.and_eq_false_iff, decide_eq_false_iff_not]
    omega
  constructor
  · intro hsuccess
    rw [herror] at hsuccess
    cases hsuccess
  · intro _
    exact .refl db

/-- An error after a token was consumed is not. -/
theorem not_atomic_of_used {answer : Answer} {effects : Database → Prop}
    {token : String} {row : EmailToken}
    (herror : answer.response.isSuccess = false)
    (hbefore : db.emailTokens.lookup token = some row)
    (hunused : row.used = false)
    (hafter : answer.db.emailTokens.lookup token =
      some { row with used := true }) :
    ¬ Atomic db answer effects := by
  intro h
  rw [(h.error herror).emailTokens, hbefore, Option.some.injEq] at hafter
  rw [hafter] at hunused
  cases hunused

theorem atomic_createAccount (site : Site) {env : Env} {req : RegisterRequest}
    {hash : String} (db : Database)
    (hhash : env.hash req.password = some hash) :
    Atomic db (createAccount site env req hash db) (Registered env req db) ↔
      (db.CanInsertUser env.toFaults req.email →
        env.fails .insertVerifyToken = false ∧
          env.verifyToken ∉ db.emailTokens) := by
  unfold createAccount
  obtain ⟨hcannot, hinsert⟩ | ⟨hcan, userId, db', hinsert, hnew, huser, htokens⟩ :=
    db.insertUser_cases env.toFaults req.email req.name req.org hash
  · rw [hinsert]
    exact iff_of_true (atomic_errAnswer (by decide) _ _ _)
      fun hcan => absurd hcan hcannot
  · rw [hinsert]
    dsimp only
    have hmem : userId ∈ db'.users := by
      rw [← AList.lookup_isSome, huser]
      rfl
    obtain ⟨husers, -, -⟩ := Database.getD_insertEmailToken hmem env.toFaults
      .insertVerifyToken env.verifyToken "verify"
    have hlookup := huser
    rw [← husers] at hlookup
    rw [imp_iff_right hcan, ← htokens]
    constructor
    · intro hatomic
      obtain ⟨htaken, -⟩ | ⟨userId', user, hcreated⟩ := hatomic.success rfl
      · exact absurd hcan.free htaken
      · obtain ⟨hfresh, hrow⟩ := hcreated.token
        rw [← htokens] at hfresh
        exact ⟨Database.works_of_lookup_getD hmem hfresh hrow, hfresh⟩
    · rintro ⟨hworks, hfresh⟩
      have hrow := Database.lookup_getD_insertEmailToken hmem "verify" hworks
        hfresh
      rw [htokens] at hfresh
      have hcreated : Created env req db _ userId _ :=
        ⟨hnew, hlookup, rfl, rfl, rfl, hhash.symm, rfl, hfresh, hrow⟩
      exact ⟨fun _ => .inr ⟨userId, _, hcreated⟩, fun h => by cases h⟩

/-- A registration is atomic unless the verification token is not inserted. -/
theorem atomic_register (req : RegisterRequest) :
    Atomic db (register site env req db) (Registered env req db) ↔
      NoneFails env db (.register req) := by
  rw [NoneFails]
  unfold register
  cases hinvalid : req.invalid with
  | some e =>
      refine iff_of_true (atomic_errAnswer (by decide) _ _ _) ?_
      intro hreaches
      cases hinvalid.symm.trans hreaches.valid
  | none =>
    cases hhash : env.hash req.password with
    | none =>
        refine iff_of_true (atomic_errAnswer (by decide) _ _ _) ?_
        intro hreaches
        rw [← Option.not_isSome_iff_eq_none] at hhash
        exact absurd hreaches.hashed hhash
    | some hash =>
      have hhashed : (env.hash req.password).isSome = true := by rw [hhash]; rfl
      cases hlock : env.lockPoisoned with
      | true =>
          refine iff_of_true (atomic_errAnswer (by decide) _ _ _) ?_
          intro hreaches
          cases hlock.symm.trans hreaches.lock
      | false =>
        have hreaches : RegisterReaches env req db ↔
            db.CanInsertUser env.toFaults req.email :=
          ⟨fun h => h.insert, fun h => ⟨hinvalid, hhashed, hlock, h⟩⟩
        have hcreate := atomic_createAccount site db hhash
        rw [hreaches]
        cases hget : db.getUserByEmail env.toFaults req.email with
        | none => exact hcreate
        | some found =>
            cases found with
            | none => exact hcreate
            | some user =>
                have htaken : db.withEmail req.email ≠ none := by
                  rw [Database.withEmail_of_getUserByEmail hget]
                  exact Option.some_ne_none user
                refine iff_of_true ⟨fun _ => .inl ⟨htaken, .refl db⟩, ?_⟩ ?_
                · intro herror
                  cases herror
                · intro hcan
                  exact absurd hcan.free htaken

/-- The administrator's tokens are both there exactly when both were new, differ
and were inserted. -/
theorem issued_adminTokens_iff {before : Database} {userId : ℕ}
    (hmem : userId ∈ db.users)
    (hbefore : ∀ t, t ∈ db.emailTokens ↔ t ∈ before.emailTokens)
    (env : Env) :
    let approving := (db.insertEmailToken env.toFaults .insertApproveToken
      env.approveToken userId "approve").getD db
    let denying := (approving.insertEmailToken env.toFaults .insertDenyToken
      env.denyToken userId "deny").getD approving
    (Issued before denying env.approveToken
          { userId := userId, kind := "approve"
            createdAt := env.now .insertApproveToken, used := false } ∧
        Issued before denying env.denyToken
          { userId := userId, kind := "deny"
            createdAt := env.now .insertDenyToken, used := false }) ↔
      env.fails .insertApproveToken = false ∧
        env.fails .insertDenyToken = false ∧
        env.approveToken ∉ before.emailTokens ∧
        env.denyToken ∉ before.emailTokens ∧
        env.approveToken ≠ env.denyToken := by
  intro approving denying
  obtain ⟨husers, -, -⟩ := Database.getD_insertEmailToken hmem env.toFaults
    .insertApproveToken env.approveToken "approve"
  have hmem' : userId ∈ approving.users := by
    simp only [approving, husers, hmem]
  -- the deny token is as new to the tables as it was before the approve token
  have hdeny : env.approveToken ≠ env.denyToken →
      env.denyToken ∉ before.emailTokens →
      env.denyToken ∉ approving.emailTokens := by
    intro hne hnew
    rw [← hbefore] at hnew
    rwa [← AList.lookup_eq_none, Database.lookup_getD_insertEmailToken_ne hmem
      env.toFaults .insertApproveToken "approve" hne.symm, AList.lookup_eq_none]
  constructor
  · rintro ⟨⟨hnew, hrow⟩, hnew', hrow'⟩
    have hne : env.approveToken ≠ env.denyToken := by
      intro heq
      rw [heq, hrow', Option.some.injEq, EmailToken.mk.injEq] at hrow
      exact absurd hrow.2.1 (by decide)
    have hfirst : approving.emailTokens.lookup env.approveToken = some _ :=
      (Database.lookup_getD_insertEmailToken_ne hmem' env.toFaults
        .insertDenyToken "deny" hne).symm.trans hrow
    have hwork := Database.works_of_lookup_getD hmem
      (fun h => hnew ((hbefore _).mp h)) hfirst
    have hwork' := Database.works_of_lookup_getD hmem' (hdeny hne hnew') hrow'
    exact ⟨hwork, hwork', hnew, hnew', hne⟩
  · rintro ⟨hwork, hwork', hnew, hnew', hne⟩
    have hfirst := Database.lookup_getD_insertEmailToken hmem "approve" hwork
      (fun h => hnew ((hbefore _).mp h))
    have hsecond := Database.lookup_getD_insertEmailToken hmem' "deny" hwork'
      (hdeny hne hnew')
    refine ⟨⟨hnew, ?_⟩, hnew', hsecond⟩
    exact (Database.lookup_getD_insertEmailToken_ne hmem' env.toFaults
      .insertDenyToken "deny" hne).trans hfirst

/-- The administrator's tokens change no account and no other token. -/
theorem adminTokens_keep {userId : ℕ} (hmem : userId ∈ db.users) (env : Env) :
    let approving := (db.insertEmailToken env.toFaults .insertApproveToken
      env.approveToken userId "approve").getD db
    let denying := (approving.insertEmailToken env.toFaults .insertDenyToken
      env.denyToken userId "deny").getD approving
    denying.users = db.users ∧
      ∀ t, t ≠ env.approveToken → t ≠ env.denyToken →
        denying.emailTokens.lookup t = db.emailTokens.lookup t := by
  intro approving denying
  obtain ⟨husers, -, -⟩ := Database.getD_insertEmailToken hmem env.toFaults
    .insertApproveToken env.approveToken "approve"
  have hmem' : userId ∈ approving.users := by
    simp only [approving, husers, hmem]
  obtain ⟨husers', -, -⟩ := Database.getD_insertEmailToken hmem' env.toFaults
    .insertDenyToken env.denyToken "deny"
  refine ⟨husers'.trans husers, ?_⟩
  intro t happrove hdeny
  exact (Database.lookup_getD_insertEmailToken_ne hmem' _ _ _ hdeny).trans
    (Database.lookup_getD_insertEmailToken_ne hmem _ _ _ happrove)

/-- A handler that starts by consuming a token and ends with an error when there
is none. Once the token is used, its account has to be read, and the rest of the
handler decides. -/
theorem atomic_of_consume {answer : Answer} {effects : Database → Prop}
    {token kind : String} {ttl : ℕ} {Finishes : EmailToken → Prop}
    (hstops : ∀ found db', db.consumeWithin env.toFaults token kind ttl =
        (found, db') → found.join = none →
      answer.response.isSuccess = false ∧ answer.db = db')
    (hrest : ∀ row, db.pendingToken (env.now .consumeToken) token kind ttl =
        some row →
      db.consumeWithin env.toFaults token kind ttl =
        (some (some row.userId), db.markUsed token) →
      (Atomic db answer effects ↔ Finishes row)) :
    Atomic db answer effects ↔
      ∀ row, env.fails .consumeToken = false ∧
          db.pendingToken (env.now .consumeToken) token kind ttl = some row →
        env.fails .selectTokenUser = false ∧ Finishes row := by
  have hunchanged : ∀ found, db.consumeWithin env.toFaults token kind ttl =
      (found, db) → found.join = none → Atomic db answer effects := by
    intro found hconsume hjoin
    obtain ⟨herror, hdb⟩ := hstops found db hconsume hjoin
    refine ⟨fun hsuccess => ?_, fun _ => hdb ▸ .refl db⟩
    cases herror.symm.trans hsuccess
  obtain ⟨hfails, hconsume⟩ | ⟨-, hnone, hconsume⟩ | ⟨hworks, row, hrow, hread⟩ :=
    db.consumeWithin_cases env.toFaults token kind ttl
  · refine iff_of_true (hunchanged none hconsume rfl) ?_
    rintro row ⟨hworks, -⟩
    cases hfails.symm.trans hworks
  · refine iff_of_true (hunchanged (some none) hconsume rfl) ?_
    rintro row ⟨-, hpending⟩
    cases hnone.symm.trans hpending
  · have honly : ∀ row', (env.fails .consumeToken = false ∧
        db.pendingToken (env.now .consumeToken) token kind ttl = some row') ↔
          row' = row := by
      intro row'
      constructor
      · rintro ⟨-, hpending⟩
        exact Option.some.inj (hpending.symm.trans hrow)
      · rintro rfl
        exact ⟨hworks, hrow⟩
    simp only [honly, forall_eq]
    obtain ⟨hselect, hconsume⟩ | ⟨hselect, hconsume⟩ := hread
    · obtain ⟨hbefore, -, hunused, -⟩ := Database.pendingToken_eq_some hrow
      obtain ⟨herror, hdb⟩ := hstops none _ hconsume rfl
      refine iff_of_false ?_ ?_
      · apply not_atomic_of_used herror hbefore hunused
        rw [hdb]
        exact Database.lookup_markUsed hbefore
      · rintro ⟨hselect', -⟩
        cases hselect.symm.trans hselect'
    · rw [hselect, hrest row hrow hconsume]
      simp

/-- A verification is atomic when nothing fails once its token is used. -/
theorem atomic_verifyEmail (q : TokenQuery) :
    Atomic db (verifyEmail site env q db) (Verified env q db) ↔
      NoneFails env db (.verifyEmail q) := by
  rw [NoneFails]
  unfold verifyEmail Database.consumeEmailToken
  cases hlock : env.lockPoisoned with
  | true =>
      refine iff_of_true (atomic_errAnswer (by decide) _ _ _) ?_
      intro row hreaches
      cases hlock.symm.trans hreaches.lock
  | false =>
    have hreaches : ∀ row, VerifyReaches env q db row ↔
        env.fails .consumeToken = false ∧ db.pendingToken
          (env.now .consumeToken) q.token "verify" (7 * 86400) = some row :=
      fun row => ⟨fun h => ⟨h.works, h.pending⟩, fun h => ⟨hlock, h.1, h.2⟩⟩
    simp only [hreaches]
    rw [if_neg Bool.false_ne_true]
    apply atomic_of_consume
    · intro found db' hconsume hjoin
      rw [hconsume]
      cases found with
      | none => exact ⟨rfl, rfl⟩
      | some found =>
          cases hjoin
          exact ⟨rfl, rfl⟩
    · intro row hrow hconsume
      rw [hconsume]
      dsimp only
      obtain ⟨hbefore, -, hunused, -⟩ := Database.pendingToken_eq_some hrow
      have hused := Database.lookup_markUsed hbefore
      obtain ⟨hstatus, hupdate⟩ | ⟨hstatus, db', hupdate, htokens, user, huser,
          hpending⟩ := Database.updateUserStatus_cases hused env.toFaults
      · rw [hupdate]
        refine iff_of_false (not_atomic_of_used rfl hbefore hunused hused) ?_
        rintro ⟨hstatus', -⟩
        cases hstatus.symm.trans hstatus'
      · rw [hupdate]
        dsimp only
        have hmem : row.userId ∈ db'.users := by
          rw [← AList.lookup_isSome, huser]
          rfl
        have hsame : ∀ t, t ∈ db'.emailTokens ↔ t ∈ db.emailTokens := by
          intro t
          rw [htokens]
          exact Database.mem_markUsed
        have hpair := issued_adminTokens_iff hmem hsame env
        obtain ⟨husers, hkept⟩ := adminTokens_keep hmem env
        constructor
        · intro hatomic
          obtain ⟨row', hconsumed, -, hissued⟩ := hatomic.success rfl
          cases hrow.symm.trans hconsumed.pending
          exact ⟨hstatus, hpair.mp hissued⟩
        · rintro ⟨-, hgo⟩
          have hdiffers : ∀ t, t ∉ db.emailTokens → q.token ≠ t := by
            rintro t hnew rfl
            rw [← AList.lookup_eq_none, hbefore] at hnew
            cases hnew
          have hafter := hkept q.token (hdiffers _ hgo.2.2.1)
            (hdiffers _ hgo.2.2.2.1)
          rw [htokens, hused] at hafter
          refine ⟨fun _ => ⟨row, ⟨hrow, hafter⟩, ⟨user, ?_, hpending⟩,
            hpair.mpr hgo⟩, fun herror => by cases herror⟩
          rw [husers]
          exact huser

/-- A reset is atomic when nothing fails once its token is used, except that
there may be no session to end. -/
theorem atomic_resetPassword (req : ResetPasswordRequest) :
    Atomic db (resetPassword env req db) (PasswordReset env req db) ↔
      NoneFails env db (.resetPassword req) := by
  rw [NoneFails]
  unfold resetPassword Database.consumeEmailTokenTtl
  cases hweak : isWeak req.password with
  | true =>
      refine iff_of_true (atomic_errAnswer (by decide) _ _ _) ?_
      intro row hreaches
      cases hweak.symm.trans hreaches.strong
  | false =>
  rw [if_neg Bool.false_ne_true]
  cases hlock : env.lockPoisoned with
  | true =>
      refine iff_of_true (atomic_errAnswer (by decide) _ _ _) ?_
      intro row hreaches
      cases hlock.symm.trans hreaches.lock
  | false =>
    have hreaches : ∀ row, ResetReaches env req db row ↔
        env.fails .consumeToken = false ∧ db.pendingToken
          (env.now .consumeToken) req.token "password_reset" (1 * 3600) =
            some row :=
      fun row => ⟨fun h => ⟨h.works, h.pending⟩,
        fun h => ⟨hweak, hlock, h.1, h.2⟩⟩
    simp only [hreaches]
    rw [if_neg Bool.false_ne_true]
    apply atomic_of_consume
    · intro found db' hconsume hjoin
      rw [hconsume]
      cases found with
      | none => exact ⟨rfl, rfl⟩
      | some found =>
          cases hjoin
          exact ⟨rfl, rfl⟩
    · intro row hrow hconsume
      rw [hconsume]
      dsimp only
      obtain ⟨hbefore, -, hunused, -⟩ := Database.pendingToken_eq_some hrow
      have hused := Database.lookup_markUsed hbefore
      cases hhash : env.hash req.password with
      | none =>
          refine iff_of_false (not_atomic_of_used rfl hbefore hunused hused) ?_
          rintro ⟨hhashed, -⟩
          cases hhashed
      | some hash =>
        dsimp only
        obtain ⟨hupdated, hupdate⟩ | ⟨hupdated, db', hupdate, htokens,
            hsessions, user, huser, hpassword⟩ :=
          Database.updatePassword_cases hused env.toFaults hash
        · rw [hupdate]
          refine iff_of_false (not_atomic_of_used rfl hbefore hunused hused) ?_
          rintro ⟨-, hupdated', -⟩
          cases hupdated.symm.trans hupdated'
        · rw [hupdate]
          dsimp only
          obtain ⟨husers, hkept, hended⟩ :=
            Database.getD_deleteSessionsForUser env.toFaults db' row.userId
          rw [hsessions] at hended
          constructor
          · intro hatomic
            obtain ⟨row', hconsumed, -, hgone⟩ := hatomic.success rfl
            cases hrow.symm.trans hconsumed.pending
            exact ⟨rfl, hupdated, hended.mp hgone⟩
          · rintro ⟨-, -, hgo⟩
            refine ⟨fun _ => ⟨row, ⟨hrow, ?_⟩, ⟨user, ?_, ?_⟩,
              hended.mpr hgo⟩, fun herror => by cases herror⟩
            · rw [hkept, htokens]
              exact hused
            · rw [husers]
              exact huser
            · rw [hhash, hpassword]

/-! ## The whole handlers -/

/-- A handler's answer and the tables agree if and only if the limiter refuses
the request or nothing fails from its first change on. -/
theorem serve_atomic_iff (cfg : AuthConfig) (site : Site) (env : Env)
    (call : Call) (limiter : RateLimiter) (db : Database)
    (request : AccountRequest) :
    Atomic db (request.serve cfg site env call limiter db).1
        (fun after => request.Effects env db after) ↔
      ((cfg.limit request.endpoint call limiter).1 = none →
        NoneFails env db request) := by
  unfold AccountRequest.serve
  cases hlimit : cfg.limit request.endpoint call limiter with
  | mk refused limiter' =>
      cases refused with
      | some response =>
          have hresponse : response = request.endpoint.tooManyRequests :=
            AuthConfig.limit_eq_some (by rw [hlimit])
          have herror : response.isSuccess = false := by
            rw [hresponse]
            cases request <;> rfl
          refine iff_of_true ⟨?_, fun _ => .refl db⟩ fun hnone => by cases hnone
          intro hsuccess
          cases herror.symm.trans hsuccess
      | none =>
          rw [imp_iff_right rfl]
          cases request with
          | register req => exact atomic_register req
          | verifyEmail q => exact atomic_verifyEmail q
          | resetPassword req => exact atomic_resetPassword req

/-! ## Sessions that survive a reset -/

/-- The tables with one account, a token for a new password and a session. -/
def oneAccount : Database where
  users := AList.insert 1
    { email := "miner@example.org", name := "Miner", org := "Pool"
      password := "old", status := Status.approved, tier := Tier.shadow
      stripeCustomerId := none, createdAt := 0, verifiedAt := some 10
      approvedAt := some 20 } ∅
  userSeq := 1
  emailTokens := AList.insert "reset"
    { userId := 1, kind := "password_reset", createdAt := 100, used := false } ∅
  sessions := AList.insert "stolen"
    { userId := 1, createdAt := 50, expiresAt := 604850 } ∅
  emails_unique := by
    intro i j u v hu hv _
    obtain ⟨rfl, -⟩ | ⟨-, hu⟩ := HashMap.lookup_insert_cases hu
    · obtain ⟨rfl, -⟩ | ⟨-, hv⟩ := HashMap.lookup_insert_cases hv
      · rfl
      · cases hv
    · cases hu
  ids_le := by decide
  token_user := by
    intro t row ht
    obtain ⟨-, rfl⟩ | ⟨-, ht⟩ := HashMap.lookup_insert_cases ht
    · decide
    · cases ht
  session_user := by
    intro t row ht
    obtain ⟨-, rfl⟩ | ⟨-, ht⟩ := HashMap.lookup_insert_cases ht
    · decide
    · cases ht

/-- Only the end of the sessions fails. -/
def sessionsStay : Env where
  fails := fun place => place == .deleteSessions
  now := fun _ => 200
  lockPoisoned := false
  hash := some
  verifyToken := "v"
  approveToken := "a"
  denyToken := "d"

/-- The reset is answered with a success, and the session is still there. -/
theorem not_atomic_sessionsStay :
    let request : AccountRequest :=
      .resetPassword { token := "reset", password := "new-password" }
    let answer := (request.serve defaultConfig ⟨"", "", ""⟩ sessionsStay
      { now := 0, addr := .v4 ⟨203, 0, 113, 7⟩, headers := []
        order := .stored _ } defaultConfig.rateLimiter oneAccount).1
    ¬ Atomic oneAccount answer fun after =>
      request.Effects sessionsStay oneAccount after := by
  intro request answer hatomic
  obtain ⟨row, ⟨hpending, -⟩, -, hgone⟩ := hatomic.success (by decide +kernel)
  have hrow : oneAccount.pendingToken 200 "reset" "password_reset" (1 * 3600) =
      some
        { userId := 1, kind := "password_reset", createdAt := 100
          used := false } := by
    decide +kernel
  cases hrow.symm.trans hpending
  have hsession : answer.db.sessions.lookup "stolen" =
      some { userId := 1, createdAt := 50, expiresAt := 604850 } := by
    decide +kernel
  exact hgone "stolen" _ hsession rfl

end ReserveGrid.Auth
