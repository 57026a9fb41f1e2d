import Scrumboy.Auth.Enrollments
import Scrumboy.Go.Errors
import Scrumboy.Sql.SingleUse

/-!
# Login challenges and recovery codes

A login with a second factor starts with a challenge, a row of `login_2fa_pending` that
counts the attempts at it. It ends with a session, or with the challenge being withdrawn
after too many attempts. Recovery codes stand in for the second factor at a login, at the
linking of an identity, at the first password and at the replacement of the codes.

Challenges and recovery codes carry the number under which they were issued, and the state
records the attempts that were admitted, how challenges were closed, and which recovery
codes were used. These numbers and records are not stored, and nothing reads them.
-/

set_option linter.dupNamespace false

namespace Scrumboy

open Go Sql

structure LoginUser where
  id : ℤ
  email : String
  passwordHash : Option String
  twoFactorEnabled : Bool
  deriving DecidableEq, Repr

structure PendingRow where
  userID : ℤ
  tokenHash : String
  createdAt : ℤ
  expiresAt : ℤ
  attemptCount : ℕ
  lastAttemptAt : Option ℤ
  issue : ℕ
  deriving DecidableEq, Repr

structure RecoveryRow where
  id : ℤ
  userID : ℤ
  codeHash : String
  usedAt : Option ℤ
  createdAt : ℤ
  issue : ℕ
  deriving DecidableEq, Repr

structure SessionRow where
  userID : ℤ
  tokenHash : String
  createdAt : ℤ
  expiresAt : ℤ
  lastSeenAt : ℤ
  deriving DecidableEq, Repr

structure IdentityRow where
  userID : ℤ
  issuer : String
  subject : String
  emailAtLogin : String
  createdAt : ℤ
  deriving DecidableEq, Repr

/-- A row of `first_password_grants`. -/
structure PasswordGrant where
  tokenHash : String
  userID : ℤ
  sessionTokenHash : String
  createdAt : ℤ
  expiresAt : ℤ
  deriving DecidableEq, Repr

/-- How a challenge was closed by a request that presented it. -/
inductive Closing
  | loggedIn
  | exhausted
  deriving DecidableEq, Repr

structure LoginState where
  users : List LoginUser := []
  pending : List PendingRow := []
  recoveryCodes : List RecoveryRow := []
  sessions : List SessionRow := []
  identities : List IdentityRow := []
  passwordGrants : List PasswordGrant := []
  challengesIssued : ℕ := 0
  admitted : List ℕ := []
  closed : List (ℕ × Closing) := []
  codesIssued : ℕ := 0
  codesUsed : List ℕ := []
  deriving DecidableEq, Repr

/-- The id and the hash of a recovery code that was matched; the zero value is no proof. -/
structure RecoveryCodeProof where
  id : ℤ := 0
  hash : String := ""
  deriving DecidableEq, Repr

/-- What the store takes from libraries: the hash of a token, whether a bcrypt hash is one of
a text, and whether a text is a bcrypt hash at all. -/
structure LoginHashes where
  hashToken : String → String
  compareHashAndPassword : String → String → Bool
  isBcrypt : String → Bool

def recoveryCodeLength : ℕ := 8

def recoveryCodeCount : ℕ := 8

def login2FAPendingTTL : ℤ := 10 * 60 * 1000

def sessionDefaultTTL : ℤ := 30 * 24 * 60 * 60 * 1000

def minPasswordLength : ℕ := 8

def normalizeEmail (email : String) : String := toLower (trimSpace email)

/-- `LOWER(TRIM(email))`. -/
def LoginUser.sqlEmail (u : LoginUser) : String := lower (trimChar ' ' u.email)

def normalizeRecoveryCode (code : String) : String :=
  String.ofList ((toUpper (trimSpace code)).toList.filter (· ≠ '-'))

def validatePassword (password : String) : Result Unit := do
  reject (trimSpace password = "") ⟨.validation, "password required"⟩
  reject (byteLen (trimSpace password) < minPasswordLength) ⟨.validation, "password too short"⟩

/-- A proof is given whole or not at all. -/
def RecoveryCodeProof.Broken (proof : RecoveryCodeProof) : Prop :=
  proof.id < 0 ∨ (proof.id = 0 ∧ proof.hash ≠ "") ∨ (0 < proof.id ∧ proof.hash = "")

instance (proof : RecoveryCodeProof) : Decidable proof.Broken := by
  unfold RecoveryCodeProof.Broken
  infer_instance

/-- The unused row that a proof names. -/
def RecoveryCodeProof.names (proof : RecoveryCodeProof) (userID : ℤ) (r : RecoveryRow) : Bool :=
  r.id = proof.id ∧ r.userID = userID ∧ r.usedAt = none ∧ r.codeHash = proof.hash

namespace LoginState

/-- `user_id` references `users`. -/
def requireUser (s : LoginState) (userID : ℤ) (text : String) : Result Unit :=
  reject (userID ∉ s.users.map (·.id)) ⟨.internal, text⟩

/-- `INSERT INTO user_recovery_codes`. -/
def insertRecoveryCode (s : LoginState) (userID : ℤ) (nowMs : ℤ) (hash : String) : Result LoginState := do
  s.requireUser userID "insert recovery code"
  let row := RecoveryRow.mk (nextRowid (s.recoveryCodes.map (·.id))) userID hash none nowMs s.codesIssued
  pure { s with recoveryCodes := s.recoveryCodes ++ [row], codesIssued := s.codesIssued + 1 }

def insertHashedRecoveryCodesTx (s : LoginState) (userID : ℤ) (hashes : List String) (nowMs : ℤ) :
    Result LoginState :=
  hashes.foldlM (fun s hash => s.insertRecoveryCode userID nowMs hash) s

def consumeRecoveryProofTx (s : LoginState) (userID : ℤ) (proof : RecoveryCodeProof) (nowMs : ℤ) :
    Result LoginState := do
  reject (proof.id ≤ 0 ∨ proof.hash = "") ⟨.unauthorized, ""⟩
  reject (s.recoveryCodes.countP (proof.names userID) ≠ 1) ⟨.unauthorized, ""⟩
  pure { s with
    recoveryCodes := updateWhere (proof.names userID) (fun r => { r with usedAt := some nowMs })
      s.recoveryCodes
    codesUsed := s.codesUsed ++ (s.recoveryCodes.filter (proof.names userID)).map (·.issue) }

/-- `if proof.ID > 0`. -/
def consumeGivenProofTx (s : LoginState) (userID : ℤ) (proof : RecoveryCodeProof) (nowMs : ℤ) :
    Result LoginState :=
  if 0 < proof.id then s.consumeRecoveryProofTx userID proof nowMs else pure s

section

variable (hashes : LoginHashes)

def createLogin2FAPending (s : LoginState) (userID : ℤ) (ttl : ℤ) (token : Option String) (nowMs : ℤ) :
    Result LoginState := do
  reject (userID ≤ 0) ⟨.validation, "invalid user id"⟩
  let some token := token | throw ⟨.internal, "rand token"⟩
  let ttl := if ttl ≤ 0 then login2FAPendingTTL else ttl
  let pending := deleteWhere (fun r => r.userID == userID)
    (deleteWhere (fun r => decide (r.expiresAt < nowMs)) s.pending)
  s.requireUser userID "insert login 2fa pending"
  reject (hashes.hashToken token ∈ pending.map (·.tokenHash)) ⟨.internal, "insert login 2fa pending"⟩
  let row := PendingRow.mk userID (hashes.hashToken token) nowMs (nowMs + ttl) 0 none s.challengesIssued
  pure { s with pending := pending ++ [row], challengesIssued := s.challengesIssued + 1 }

/-- The challenge that a token presents, and that has not expired. -/
def presents (token : String) (nowMs : ℤ) (r : PendingRow) : Bool :=
  r.tokenHash = hashes.hashToken (trimSpace token) ∧ nowMs < r.expiresAt

/-- The first statement of `IncrementLogin2FAPendingAttempt`, and whether it changed one row. -/
def admitAttempt (s : LoginState) (token : String) (nowMs : ℤ) : LoginState × Bool :=
  let admits := fun r => presents hashes token nowMs r && decide (r.attemptCount < maxAttemptsPerToken)
  let pending := updateWhere admits
    (fun r => { r with attemptCount := r.attemptCount + 1, lastAttemptAt := some nowMs }) s.pending
  if s.pending.countP admits = 1 then
    ({ s with
      pending := pending
      admitted := s.admitted ++ (s.pending.filter admits).map (·.issue) }, true)
  else ({ s with pending := pending }, false)

/-- Deleting challenges that a request presents. -/
def close (s : LoginState) (closes : PendingRow → Bool) (how : Closing) : LoginState :=
  { s with
    pending := deleteWhere closes s.pending
    closed := s.closed ++ (s.pending.filter closes).map fun r => (r.issue, how) }

/-- The second statement, for a call whose first one changed nothing. -/
def withdraw (s : LoginState) (token : String) (nowMs : ℤ) : LoginState × AttemptResult :=
  let exhausted := fun r => presents hashes token nowMs r && decide (maxAttemptsPerToken ≤ r.attemptCount)
  if s.pending.countP exhausted = 1 then (s.close exhausted .exhausted, .tooManyAttempts)
  else ({ s with pending := deleteWhere exhausted s.pending }, .notFound)

def insertSessionTx (s : LoginState) (userID : ℤ) (tokenHash : String) (nowMs expiresAt : ℤ) :
    Result LoginState := do
  s.requireUser userID "insert session"
  reject (tokenHash ∈ s.sessions.map (·.tokenHash)) ⟨.conflict, ""⟩
  pure { s with sessions := s.sessions ++ [⟨userID, tokenHash, nowMs, expiresAt, nowMs⟩] }

/-- The row that the deletion of `CompleteLogin2FA` matches. -/
def completes (token : String) (userID : ℤ) (nowMs : ℤ) (r : PendingRow) : Bool :=
  presents hashes token nowMs r && decide (r.userID = userID ∧ 1 ≤ r.attemptCount ∧
    r.attemptCount ≤ maxAttemptsPerToken)

/-- `CompleteLogin2FA` draws the token of the session before its transaction. -/
def completeLogin2FA (s : LoginState) (token : String) (userID : ℤ) (proof : RecoveryCodeProof)
    (sessionTTL : ℤ) (draw : Option String) (nowMs : ℤ) : Result (LoginState × String) := do
  reject (trimSpace token = "" ∨ userID ≤ 0) ⟨.notFound, ""⟩
  reject proof.Broken ⟨.unauthorized, ""⟩
  let sessionTTL := if sessionTTL ≤ 0 then sessionDefaultTTL else sessionTTL
  let some sessionToken := draw | throw ⟨.internal, "rand session token"⟩
  reject (s.pending.countP (completes hashes token userID nowMs) ≠ 1) ⟨.notFound, ""⟩
  let s := s.close (completes hashes token userID nowMs) .loggedIn
  let s ← s.consumeGivenProofTx userID proof nowMs
  let s ← s.insertSessionTx userID (hashes.hashToken sessionToken) nowMs (nowMs + sessionTTL)
  pure (s, sessionToken)

def deleteLogin2FAPendingToken (s : LoginState) (token : String) : LoginState :=
  if trimSpace token = "" then s
  else { s with pending := deleteWhere (·.tokenHash == hashes.hashToken (trimSpace token)) s.pending }

/-- The id is zero and the hash empty when no unused code matches. -/
def matchRecoveryCodeProof (s : LoginState) (userID : ℤ) (code : String) : RecoveryCodeProof :=
  if byteLen (normalizeRecoveryCode code) ≠ recoveryCodeLength then {}
  else
    match s.recoveryCodes.find? fun r => r.userID == userID && r.usedAt.isNone &&
        hashes.compareHashAndPassword r.codeHash (normalizeRecoveryCode code) with
    | none => {}
    | some r => ⟨r.id, r.codeHash⟩

/-- `LinkOIDCIdentityExplicit`, with a proof or without one. -/
def linkOIDCIdentityExplicit (s : LoginState) (userID : ℤ) (issuer subject verifiedEmail : String)
    (proof : RecoveryCodeProof) (nowMs : ℤ) : Result LoginState := do
  let verifiedEmail := normalizeEmail verifiedEmail
  let s ← s.consumeGivenProofTx userID proof nowMs
  let some u := s.users.find? (·.id == userID) | throw ⟨.notFound, ""⟩
  reject (normalizeEmail u.email ≠ verifiedEmail)
    ⟨.validation, "oidc email does not match canonical email"⟩
  reject (s.users.countP (·.sqlEmail == verifiedEmail) ≠ 1) ⟨.conflict, ""⟩
  match s.identities.find? fun i => i.issuer == issuer && i.subject == subject with
  | some i =>
      reject (i.userID ≠ userID) ⟨.conflict, ""⟩
      pure { s with
        identities := updateWhere
          (fun i => i.userID == userID && i.issuer == issuer && i.subject == subject)
          (fun i => { i with emailAtLogin := verifiedEmail }) s.identities }
  | none => pure { s with identities := s.identities ++ [⟨userID, issuer, subject, verifiedEmail, nowMs⟩] }

/-- `LinkOIDCIdentityExplicitWithRecoveryProof`. -/
def linkOIDCIdentityWithProof (s : LoginState) (userID : ℤ) (issuer subject verifiedEmail : String)
    (proof : RecoveryCodeProof) (nowMs : ℤ) : Result LoginState := do
  reject (proof.id ≤ 0 ∨ proof.hash = "") ⟨.unauthorized, ""⟩
  s.linkOIDCIdentityExplicit userID issuer subject verifiedEmail proof nowMs

def isUsablePasswordHash (hash : String) : Bool := trimSpace hash ≠ "" && hashes.isBcrypt hash

/-- `newHash` is what bcrypt makes of the password. -/
def setFirstPassword (s : LoginState) (userID : ℤ) (rawGrant sessionToken password : String)
    (newHash : Option String) (proof : RecoveryCodeProof) (nowMs : ℤ) : Result LoginState := do
  validatePassword password
  let some newHash := newHash | throw ⟨.internal, "hash first password"⟩
  reject (s.passwordGrants.all fun g => s.sessions.all fun t =>
    !(t.tokenHash == g.sessionTokenHash && t.userID == g.userID &&
      g.tokenHash == hashes.hashToken rawGrant && g.userID == userID &&
      g.sessionTokenHash == hashes.hashToken sessionToken && decide (nowMs < g.expiresAt) &&
      decide (nowMs < t.expiresAt))) ⟨.unauthorized, ""⟩
  let some u := s.users.find? (·.id == userID) | throw ⟨.notFound, ""⟩
  reject (u.passwordHash.any (isUsablePasswordHash hashes)) ⟨.conflict, ""⟩
  let s ← s.consumeGivenProofTx userID proof nowMs
  let sets := fun v : LoginUser => v.id == userID && v.passwordHash == u.passwordHash
  reject (s.users.countP sets ≠ 1) ⟨.conflict, ""⟩
  pure { s with
    users := updateWhere sets (fun v => { v with passwordHash := some newHash }) s.users
    passwordGrants := deleteWhere (·.tokenHash == hashes.hashToken rawGrant) s.passwordGrants }

/-- `SetFirstPasswordWithRecoveryCode`. -/
def setFirstPasswordWithRecoveryCode (s : LoginState) (userID : ℤ)
    (rawGrant sessionToken password : String) (newHash : Option String) (proof : RecoveryCodeProof)
    (nowMs : ℤ) : Result LoginState := do
  reject (proof.id ≤ 0 ∨ proof.hash = "") ⟨.unauthorized, ""⟩
  setFirstPassword hashes s userID rawGrant sessionToken password newHash proof nowMs

/-- `codeHashes` are the hashes of the new codes. -/
def replaceRecoveryCodes (s : LoginState) (userID : ℤ) (codeHashes : List String)
    (proof : RecoveryCodeProof) (nowMs : ℤ) : Result LoginState := do
  reject (userID ≤ 0) ⟨.validation, "invalid user id"⟩
  reject proof.Broken ⟨.unauthorized, ""⟩
  reject (codeHashes.length ≠ recoveryCodeCount) ⟨.validation, "expected 8 recovery codes"⟩
  let some u := s.users.find? (·.id == userID) | throw ⟨.notFound, ""⟩
  reject (u.twoFactorEnabled = false) ⟨.validation, "two-factor authentication is not enabled"⟩
  if 0 < proof.id then
    let s ← s.consumeRecoveryProofTx userID proof nowMs
    let s := { s with
      recoveryCodes := deleteWhere (fun r => r.userID == userID && r.id != proof.id) s.recoveryCodes }
    let s ← s.insertHashedRecoveryCodesTx userID codeHashes nowMs
    pure { s with
      recoveryCodes := deleteWhere (fun r => r.id == proof.id && r.userID == userID) s.recoveryCodes }
  else
    let s := { s with recoveryCodes := deleteWhere (·.userID == userID) s.recoveryCodes }
    s.insertHashedRecoveryCodesTx userID codeHashes nowMs

def clearUserTwoFactor (s : LoginState) (userID : ℤ) : LoginState :=
  { s with
    users := updateWhere (·.id == userID) (fun u => { u with twoFactorEnabled := false }) s.users
    recoveryCodes := deleteWhere (·.userID == userID) s.recoveryCodes }

def resetLocalPassword (s : LoginState) (userID : ℤ) (expectedHash password : String)
    (newHash : Option String) : Result LoginState := do
  reject (isUsablePasswordHash hashes expectedHash = false) ⟨.notFound, ""⟩
  validatePassword password
  let some newHash := newHash | throw ⟨.internal, "hash reset password"⟩
  let sets := fun v : LoginUser => v.id == userID && v.passwordHash == some expectedHash
  reject (s.users.countP sets ≠ 1) ⟨.conflict, ""⟩
  -- deleting sessions takes the password grants of these sessions along
  let gone := (s.sessions.filter (·.userID == userID)).map (·.tokenHash)
  pure { s with
    users := updateWhere sets (fun v => { v with passwordHash := some newHash }) s.users
    sessions := deleteWhere (·.userID == userID) s.sessions
    passwordGrants := deleteWhere (fun g => gone.contains g.sessionTokenHash) s.passwordGrants
    pending := deleteWhere (·.userID == userID) s.pending }

end

end LoginState

end Scrumboy
