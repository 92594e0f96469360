import Mathlib.Data.Nat.Notation
import ReserveGrid.Support.HashMap

/-!
# The account database

The tables of accounts, e-mailed tokens and sessions, with the constraints of
their schema, and the statements the handlers run on them. A statement may fail,
and then it changes nothing; what a row says survives until a statement changes
it. Times are numbers of seconds.
-/

namespace ReserveGrid.Auth

open Support

/-- A row of `users`, without its id. -/
structure User where
  email : String
  name : String
  org : String
  password : String
  status : String
  tier : String
  stripeCustomerId : Option String
  createdAt : ℕ
  verifiedAt : Option ℕ
  approvedAt : Option ℕ
  deriving DecidableEq, Repr

/-- A row of `email_tokens`, without its token. -/
structure EmailToken where
  userId : ℕ
  kind : String
  createdAt : ℕ
  used : Bool
  deriving DecidableEq, Repr

/-- A row of `sessions`, without the hash of its token. -/
structure Session where
  userId : ℕ
  createdAt : ℕ
  expiresAt : ℕ
  deriving DecidableEq, Repr

/-- The tables by their primary keys, and the largest id an account ever had.
E-mail addresses are unique, and the accounts of tokens and sessions exist. -/
structure Database where
  users : HashMap ℕ User
  userSeq : ℕ
  emailTokens : HashMap String EmailToken
  sessions : HashMap String Session
  emails_unique : ∀ i j u v, users.lookup i = some u → users.lookup j = some v →
    u.email = v.email → i = j
  ids_le : ∀ i ∈ users, i ≤ userSeq
  token_user : ∀ t row, emailTokens.lookup t = some row → row.userId ∈ users
  session_user : ∀ t row, sessions.lookup t = some row → row.userId ∈ users

/-- The places in the handlers at which a statement runs. -/
inductive Statement where
  | selectUserByEmail
  | insertUser
  | insertVerifyToken
  | consumeToken
  | selectTokenUser
  | updateStatus
  | selectUserById
  | insertApproveToken
  | insertDenyToken
  | updatePassword
  | deleteSessions
  deriving DecidableEq, Repr

/-- Which statements fail, and the time at which each of them runs. -/
structure Faults where
  fails : Statement → Bool
  now : Statement → ℕ

namespace Status

def pendingVerification := "pending_verification"
def pendingApproval := "pending_approval"
def approved := "approved"

end Status

/-- `tier::SHADOW`. -/
def Tier.shadow := "shadow"

/-- The largest id a row can have. -/
def maxRowId : ℕ := 9223372036854775807

namespace Database

variable (faults : Faults)

/-- The account with an e-mail address. -/
def withEmail (db : Database) (email : String) : Option (ℕ × User) :=
  (db.users.entries.find? fun e => e.2.email == email).map fun e => (e.1, e.2)

/-- The row that an `UPDATE` consumes: one of this kind, unused, and younger
than the time to live. -/
def pendingToken (db : Database) (now : ℕ) (token kind : String) (ttl : ℕ) :
    Option EmailToken :=
  (db.emailTokens.lookup token).filter fun row =>
    row.kind == kind && !row.used && now < row.createdAt + ttl

theorem lookup_of_withEmail_eq_none {db : Database} {email : String}
    (h : db.withEmail email = none) {i : ℕ} {u : User}
    (hu : db.users.lookup i = some u) :
    u.email ≠ email := by
  rw [withEmail, Option.map_eq_none_iff, List.find?_eq_none] at h
  simpa using h ⟨i, u⟩ (AList.mem_lookup_iff.mp hu)

/-! ## Changes of the tables -/

/-- The tables with a new account. -/
def addUser (db : Database) (user : User)
    (h : db.withEmail user.email = none) : Database :=
  { db with
    users := db.users.insert (db.userSeq + 1) user
    userSeq := db.userSeq + 1
    emails_unique := by
      intro i j u v hu hv heq
      obtain ⟨hi, hnew⟩ | ⟨-, hold⟩ := HashMap.lookup_insert_cases hu
      · obtain ⟨hj, -⟩ | ⟨-, hold⟩ := HashMap.lookup_insert_cases hv
        · exact hi.trans hj.symm
        · exact absurd (heq.symm.trans (congrArg User.email hnew))
            (lookup_of_withEmail_eq_none h hold)
      · obtain ⟨-, hnew⟩ | ⟨-, hold'⟩ := HashMap.lookup_insert_cases hv
        · exact absurd (heq.trans (congrArg User.email hnew))
            (lookup_of_withEmail_eq_none h hold)
        · exact db.emails_unique i j u v hold hold' heq
    ids_le := by
      intro i hi
      rcases AList.mem_insert _ |>.mp hi with rfl | hi
      · exact le_rfl
      · exact Nat.le_succ_of_le (db.ids_le i hi)
    token_user := fun t row ht =>
      (AList.mem_insert _).mpr (.inr (db.token_user t row ht))
    session_user := fun t row ht =>
      (AList.mem_insert _).mpr (.inr (db.session_user t row ht)) }

/-- The tables with a new e-mailed token of an account. -/
def addToken (db : Database) (token : String) (row : EmailToken)
    (h : row.userId ∈ db.users) : Database :=
  { db with
    emailTokens := db.emailTokens.insert token row
    token_user := by
      intro t row' ht
      obtain ⟨-, rfl⟩ | ⟨-, ht⟩ := HashMap.lookup_insert_cases ht
      · exact h
      · exact db.token_user t row' ht }

/-- The tables with a token marked as used. -/
def markUsed (db : Database) (token : String) : Database :=
  { db with
    emailTokens := db.emailTokens.modify token fun row =>
      { row with used := true }
    token_user := by
      intro t row ht
      rw [HashMap.lookup_modify] at ht
      by_cases heq : t = token
      · rw [if_pos heq, Option.map_eq_some_iff] at ht
        obtain ⟨row', hrow, rfl⟩ := ht
        exact db.token_user token row' hrow
      · rw [if_neg heq] at ht
        exact db.token_user t row ht }

/-- The tables with a change of one account that keeps its address. -/
def updateUser (db : Database) (userId : ℕ) (f : User → User)
    (hf : ∀ u, (f u).email = u.email) : Database :=
  { db with
    users := db.users.modify userId f
    emails_unique := by
      have hold : ∀ i u, (db.users.modify userId f).lookup i = some u →
          ∃ v, db.users.lookup i = some v ∧ v.email = u.email := by
        intro i u hu
        rw [HashMap.lookup_modify] at hu
        by_cases heq : i = userId
        · rw [if_pos heq, Option.map_eq_some_iff] at hu
          obtain ⟨v, hv, rfl⟩ := hu
          exact ⟨v, heq ▸ hv, (hf v).symm⟩
        · rw [if_neg heq] at hu
          exact ⟨u, hu, rfl⟩
      intro i j u v hu hv heq
      obtain ⟨u', hu', hemail⟩ := hold i u hu
      obtain ⟨v', hv', hemail'⟩ := hold j v hv
      exact db.emails_unique i j u' v' hu' hv'
        (hemail.trans (heq.trans hemail'.symm))
    ids_le := fun i hi => db.ids_le i (HashMap.mem_modify.mp hi)
    token_user := fun t row ht =>
      HashMap.mem_modify.mpr (db.token_user t row ht)
    session_user := fun t row ht =>
      HashMap.mem_modify.mpr (db.session_user t row ht) }

/-! ## Statements -/

/-- The outer `Option` is the failure of the statement. -/
def getUserByEmail (db : Database) (email : String) :
    Option (Option (ℕ × User)) :=
  if faults.fails .selectUserByEmail then none else some (db.withEmail email)

def getUserById (db : Database) (userId : ℕ) : Option (Option User) :=
  if faults.fails .selectUserById then none else some (db.users.lookup userId)

/-- The id of the new account is one more than the largest there ever was, and
there is a largest one. -/
def insertUser (db : Database) (email name org passwordHash : String) :
    Option (ℕ × Database) :=
  if faults.fails .insertUser || maxRowId ≤ db.userSeq then none
  else if h : db.withEmail email = none then
    let user : User :=
      { email := email, name := name, org := org, password := passwordHash
        status := Status.pendingVerification, tier := Tier.shadow
        stripeCustomerId := none, createdAt := faults.now .insertUser
        verifiedAt := none, approvedAt := none }
    some (db.userSeq + 1, db.addUser user h)
  else none

/-- The place is part of the call, as there are several. -/
def insertEmailToken (db : Database) (place : Statement) (token : String)
    (userId : ℕ) (kind : String) : Option Database :=
  if faults.fails place || token ∈ db.emailTokens then none
  else if h : userId ∈ db.users then
    some (db.addToken token
      { userId := userId, kind := kind, createdAt := faults.now place
        used := false } h)
  else none

/-- Two statements: the `UPDATE` that consumes a token, then the `SELECT` of its
account if there was one to consume. -/
def consumeWithin (db : Database) (token expectedKind : String) (ttl : ℕ) :
    Option (Option ℕ) × Database :=
  if faults.fails .consumeToken then (none, db)
  else
    match db.pendingToken (faults.now .consumeToken) token expectedKind ttl with
    | none => (some none, db)
    | some _ =>
        let db := db.markUsed token
        if faults.fails .selectTokenUser then (none, db)
        else
          ((db.emailTokens.lookup token).map fun row => some row.userId, db)

def consumeEmailToken (db : Database) (token expectedKind : String) :
    Option (Option ℕ) × Database :=
  db.consumeWithin faults token expectedKind (7 * 86400)

def consumeEmailTokenTtl (db : Database) (token expectedKind : String)
    (ttlHours : ℕ) : Option (Option ℕ) × Database :=
  db.consumeWithin faults token expectedKind (ttlHours * 3600)

def updateUserStatus (db : Database) (userId : ℕ) (newStatus : String) :
    Option Database :=
  let now := faults.now .updateStatus
  if faults.fails .updateStatus then none
  else if newStatus = Status.pendingApproval then
    some (db.updateUser userId
      (fun u => { u with status := newStatus, verifiedAt := some now })
      fun _ => rfl)
  else if newStatus = Status.approved then
    some (db.updateUser userId
      (fun u => { u with status := newStatus, approvedAt := some now })
      fun _ => rfl)
  else
    some (db.updateUser userId (fun u => { u with status := newStatus })
      fun _ => rfl)

def updatePassword (db : Database) (userId : ℕ) (passwordHash : String) :
    Option Database :=
  if faults.fails .updatePassword then none
  else
    some (db.updateUser userId (fun u => { u with password := passwordHash })
      fun _ => rfl)

def deleteSessionsForUser (db : Database) (userId : ℕ) : Option Database :=
  if faults.fails .deleteSessions then none
  else
    some { db with
      sessions := db.sessions.retain fun _ row => row.userId != userId
      session_user := fun t row ht =>
        db.session_user t row (HashMap.lookup_of_lookup_retain ht) }

/-! ## What a statement does -/

variable {faults : Faults} {db : Database}

/-- A lookup that does not fail finds what there is. -/
theorem withEmail_of_getUserByEmail {email : String}
    {found : Option (ℕ × User)}
    (h : db.getUserByEmail faults email = some found) :
    db.withEmail email = found := by
  unfold getUserByEmail at h
  by_cases hfails : faults.fails .selectUserByEmail = true
  · rw [if_pos hfails] at h
    cases h
  · rw [if_neg hfails] at h
    exact Option.some.inj h

/-- Nothing stands in the way of a new account. -/
structure CanInsertUser (faults : Faults) (db : Database) (email : String) :
    Prop where
  works : faults.fails .insertUser = false
  room : db.userSeq < maxRowId
  free : db.withEmail email = none

/-- A new account is refused or its row is there. -/
theorem insertUser_cases (faults : Faults) (db : Database)
    (email name org passwordHash : String) :
    (¬ CanInsertUser faults db email ∧
        db.insertUser faults email name org passwordHash = none) ∨
      (CanInsertUser faults db email ∧
        ∃ id db', db.insertUser faults email name org passwordHash =
            some (id, db') ∧
          id ∉ db.users ∧
          db'.users.lookup id = some
            { email := email, name := name, org := org, password := passwordHash
              status := Status.pendingVerification, tier := Tier.shadow
              stripeCustomerId := none, createdAt := faults.now .insertUser
              verifiedAt := none, approvedAt := none } ∧
          db'.emailTokens = db.emailTokens) := by
  unfold insertUser
  by_cases hstop : (faults.fails .insertUser || maxRowId ≤ db.userSeq) = true
  · rw [if_pos hstop]
    refine .inl ⟨?_, rfl⟩
    rintro ⟨hworks, hroom, -⟩
    rw [hworks, Bool.false_or, decide_eq_true_eq] at hstop
    omega
  · rw [if_neg hstop]
    rw [Bool.or_eq_true, not_or, decide_eq_true_eq, not_le, Bool.not_eq_true]
      at hstop
    by_cases hfree : db.withEmail email = none
    · rw [dif_pos hfree]
      refine .inr ⟨⟨hstop.1, hstop.2, hfree⟩, _, _, rfl, ?_, ?_, rfl⟩
      · intro hmem
        have hle := db.ids_le _ hmem
        omega
      · exact AList.lookup_insert _
    · rw [dif_neg hfree]
      exact .inl ⟨fun h => hfree h.free, rfl⟩

/-- The tables after a token was to be inserted and a failure was passed over. -/
theorem getD_insertEmailToken {userId : ℕ} (h : userId ∈ db.users)
    (faults : Faults) (place : Statement) (token kind : String) :
    let db' := (db.insertEmailToken faults place token userId kind).getD db
    db'.users = db.users ∧ db'.sessions = db.sessions ∧
      ((faults.fails place = true ∨ token ∈ db.emailTokens) ∧
          db'.emailTokens = db.emailTokens ∨
        (faults.fails place = false ∧ token ∉ db.emailTokens) ∧
          db'.emailTokens = db.emailTokens.insert token
            { userId := userId, kind := kind, createdAt := faults.now place
              used := false }) := by
  intro db'
  have hdb' : db' =
      (db.insertEmailToken faults place token userId kind).getD db := rfl
  unfold insertEmailToken at hdb'
  by_cases hstop : faults.fails place = true ∨ token ∈ db.emailTokens
  · rw [if_pos (by simpa using hstop), Option.getD_none] at hdb'
    rw [hdb']
    exact ⟨rfl, rfl, .inl ⟨hstop, rfl⟩⟩
  · rw [if_neg (by simpa using hstop), dif_pos h, Option.getD_some] at hdb'
    rw [hdb']
    rw [not_or, Bool.not_eq_true] at hstop
    exact ⟨rfl, rfl, .inr ⟨hstop, rfl⟩⟩

/-- A token that was not there is in place when its statement works. -/
theorem lookup_getD_insertEmailToken {userId : ℕ} (h : userId ∈ db.users)
    {faults : Faults} {place : Statement} {token : String} (kind : String)
    (hworks : faults.fails place = false) (hnew : token ∉ db.emailTokens) :
    ((db.insertEmailToken faults place token userId kind).getD
        db).emailTokens.lookup token =
      some
        { userId := userId, kind := kind, createdAt := faults.now place
          used := false } := by
  obtain ⟨-, -, ⟨hstop, -⟩ | ⟨-, heq⟩⟩ :=
    getD_insertEmailToken h faults place token kind
  · rw [hworks] at hstop
    exact absurd hstop (by simpa using hnew)
  · rw [heq, AList.lookup_insert]

/-- A token that was not there and is afterwards: its statement worked. -/
theorem works_of_lookup_getD {userId : ℕ} (h : userId ∈ db.users)
    {faults : Faults} {place : Statement} {token kind : String}
    {row : EmailToken} (hnew : token ∉ db.emailTokens)
    (hrow : ((db.insertEmailToken faults place token userId kind).getD
        db).emailTokens.lookup token = some row) :
    faults.fails place = false := by
  obtain ⟨-, -, ⟨-, heq⟩ | ⟨hgo, -⟩⟩ :=
    getD_insertEmailToken h faults place token kind
  · rw [heq, AList.lookup_eq_none.mpr hnew] at hrow
    cases hrow
  · exact hgo.1

/-- Other tokens stay as they are. -/
theorem lookup_getD_insertEmailToken_ne {userId : ℕ} (h : userId ∈ db.users)
    (faults : Faults) (place : Statement) {token other : String} (kind : String)
    (hne : other ≠ token) :
    ((db.insertEmailToken faults place token userId kind).getD
        db).emailTokens.lookup other = db.emailTokens.lookup other := by
  obtain ⟨-, -, ⟨-, heq⟩ | ⟨-, heq⟩⟩ :=
    getD_insertEmailToken h faults place token kind
  · rw [heq]
  · rw [heq, AList.lookup_insert_ne hne]

theorem lookup_markUsed {token : String} {row : EmailToken}
    (h : db.emailTokens.lookup token = some row) :
    (db.markUsed token).emailTokens.lookup token =
      some { row with used := true } := by
  rw [markUsed, HashMap.lookup_modify, if_pos rfl, h]
  rfl

theorem mem_markUsed {token other : String} :
    other ∈ (db.markUsed token).emailTokens ↔ other ∈ db.emailTokens :=
  HashMap.mem_modify

/-- The account of a token after a change of that account. -/
theorem lookup_updateUser {token : String} {row : EmailToken}
    (h : db.emailTokens.lookup token = some row) (f : User → User)
    (hf : ∀ u, (f u).email = u.email) :
    ∃ user, (db.updateUser row.userId f hf).users.lookup row.userId =
      some (f user) := by
  obtain ⟨user, huser⟩ := Option.isSome_iff_exists.mp
    (AList.lookup_isSome.mpr (db.token_user token row h))
  refine ⟨user, ?_⟩
  rw [updateUser, HashMap.lookup_modify, if_pos rfl, huser]
  rfl

theorem pendingToken_eq_some {now ttl : ℕ} {token kind : String}
    {row : EmailToken} (h : db.pendingToken now token kind ttl = some row) :
    db.emailTokens.lookup token = some row ∧ row.kind = kind ∧
      row.used = false ∧ now < row.createdAt + ttl := by
  obtain ⟨hrow, hmatch⟩ := Option.filter_eq_some_iff.mp h
  simp only [Bool.and_eq_true, beq_iff_eq, Bool.not_eq_true',
    decide_eq_true_eq] at hmatch
  exact ⟨hrow, hmatch.1.1, hmatch.1.2, hmatch.2⟩

/-- A verified account waits for approval, or the statement failed. -/
theorem updateUserStatus_cases {token : String} {row : EmailToken}
    (h : db.emailTokens.lookup token = some row) (faults : Faults) :
    (faults.fails .updateStatus = true ∧
        db.updateUserStatus faults row.userId Status.pendingApproval = none) ∨
      (faults.fails .updateStatus = false ∧
        ∃ db', db.updateUserStatus faults row.userId Status.pendingApproval =
            some db' ∧
          db'.emailTokens = db.emailTokens ∧
          ∃ user, db'.users.lookup row.userId = some user ∧
            user.status = Status.pendingApproval) := by
  unfold updateUserStatus
  cases hfails : faults.fails .updateStatus with
  | true => exact .inl ⟨rfl, if_pos rfl⟩
  | false =>
      obtain ⟨user, huser⟩ := lookup_updateUser h
        (fun u => { u with
          status := Status.pendingApproval
          verifiedAt := some (faults.now .updateStatus) }) fun _ => rfl
      exact .inr ⟨rfl, _, (if_neg Bool.false_ne_true).trans (if_pos rfl), rfl,
        _, huser, rfl⟩

/-- An account has its new password, or the statement failed. -/
theorem updatePassword_cases {token : String} {row : EmailToken}
    (h : db.emailTokens.lookup token = some row) (faults : Faults)
    (passwordHash : String) :
    (faults.fails .updatePassword = true ∧
        db.updatePassword faults row.userId passwordHash = none) ∨
      (faults.fails .updatePassword = false ∧
        ∃ db', db.updatePassword faults row.userId passwordHash = some db' ∧
          db'.emailTokens = db.emailTokens ∧ db'.sessions = db.sessions ∧
          ∃ user, db'.users.lookup row.userId = some user ∧
            user.password = passwordHash) := by
  unfold updatePassword
  cases hfails : faults.fails .updatePassword with
  | true => exact .inl ⟨rfl, if_pos rfl⟩
  | false =>
      obtain ⟨user, huser⟩ := lookup_updateUser h
        (fun u => { u with password := passwordHash }) fun _ => rfl
      exact .inr ⟨rfl, _, if_neg Bool.false_ne_true, rfl, rfl, _, huser, rfl⟩

/-- The tables after the sessions of an account were to be deleted and a failure
was passed over. -/
theorem getD_deleteSessionsForUser (faults : Faults) (db : Database)
    (userId : ℕ) :
    let db' := (db.deleteSessionsForUser faults userId).getD db
    db'.users = db.users ∧ db'.emailTokens = db.emailTokens ∧
      ((∀ token session, db'.sessions.lookup token = some session →
          session.userId ≠ userId) ↔
        faults.fails .deleteSessions = false ∨
          ∀ token session, db.sessions.lookup token = some session →
            session.userId ≠ userId) := by
  unfold deleteSessionsForUser
  cases hfails : faults.fails .deleteSessions with
  | true =>
      refine ⟨rfl, rfl, ?_⟩
      rw [if_pos rfl]
      simp
  | false =>
      refine ⟨rfl, rfl, iff_of_true ?_ (.inl rfl)⟩
      rw [if_neg Bool.false_ne_true, Option.getD_some]
      intro token session hsession
      dsimp only at hsession
      rw [HashMap.lookup_retain, Option.filter_eq_some_iff] at hsession
      simpa using hsession.2

/-- How far the consumption of a token gets. -/
theorem consumeWithin_cases (faults : Faults) (db : Database)
    (token kind : String) (ttl : ℕ) :
    let pending := db.pendingToken (faults.now .consumeToken) token kind ttl
    let result := db.consumeWithin faults token kind ttl
    (faults.fails .consumeToken = true ∧ result = (none, db)) ∨
      (faults.fails .consumeToken = false ∧ pending = none ∧
        result = (some none, db)) ∨
      (faults.fails .consumeToken = false ∧ ∃ row, pending = some row ∧
        ((faults.fails .selectTokenUser = true ∧
            result = (none, db.markUsed token)) ∨
          (faults.fails .selectTokenUser = false ∧
            result = (some (some row.userId), db.markUsed token)))) := by
  intro pending result
  have hresult : result = db.consumeWithin faults token kind ttl := rfl
  unfold consumeWithin at hresult
  cases hconsume : faults.fails .consumeToken with
  | true =>
      rw [if_pos hconsume] at hresult
      exact .inl ⟨rfl, hresult⟩
  | false =>
      rw [if_neg (by simp [hconsume])] at hresult
      cases hpending : pending with
      | none =>
          simp only [pending] at hpending
          rw [hpending] at hresult
          exact .inr (.inl ⟨rfl, rfl, hresult⟩)
      | some row =>
          simp only [pending] at hpending
          rw [hpending] at hresult
          refine .inr (.inr ⟨rfl, row, rfl, ?_⟩)
          cases hselect : faults.fails .selectTokenUser with
          | true =>
              dsimp only at hresult
              rw [if_pos hselect] at hresult
              exact .inl ⟨rfl, hresult⟩
          | false =>
              dsimp only at hresult
              rw [if_neg (by simp [hselect]),
                lookup_markUsed (pendingToken_eq_some hpending).1] at hresult
              exact .inr ⟨rfl, hresult⟩

end Database

end ReserveGrid.Auth
