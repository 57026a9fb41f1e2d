import Scrumboy.Auth.Logins
import Scrumboy.Auth.ResetTokens

/-!
# Password resets

Reset tokens are issued and used by requests that run next to each other, and next to
logins, first passwords and the recovery of an owner. The issuing of a token reads the
hash of the password and signs with it; a reset reads the hash, verifies the token with
it, and writes the new hash where the old one is still there.

The state records the tokens that were issued, the changes of password hashes and the
resets that succeeded, with the texts that were signed and the hashes that were ever
stored. These records are not stored, and nothing reads them.
-/

set_option linter.dupNamespace false

namespace Scrumboy

open Go Sql Transition

inductive ResetEvent
  | issued (text : String) (userID timestamp : ℤ) (passwordHash : String)
  | changed (userID : ℤ)
  | reset (token : ResetToken) (now : ℤ)
  deriving DecidableEq, Repr

def ResetEvent.token? : ResetEvent → Option ResetToken
  | .reset token _ => some token
  | _ => none

structure ResetState where
  login : LoginState
  log : List ResetEvent
  signed : List String
  seen : List String
  deriving DecidableEq, Repr

structure ResetConfig where
  anonymous : Bool
  localAuthDisabled : Bool
  encryptionKey : List ℕ
  deriving DecidableEq, Repr

/-- The clock is read in seconds as an `int64`. `newHash` is what bcrypt makes of a new
password, and `owners` are the users with the role of an owner. -/
structure ResetInput where
  now : {t : ℤ // IsInt64 t}
  newHash : Option String
  owners : List ℤ
  login : LoginInput

inductive ResetResult
  | notFound
  | rateLimited
  | unavailable
  | badRequest
  | failed (e : StoreError)
  | ok
  deriving DecidableEq, Repr

inductive IssuePC
  | start
  | generate (passwordHash : String)
  | done (text : Option String)
  deriving DecidableEq, Repr

inductive ResetPC
  | start
  | verify (token : ResetToken) (passwordHash : String)
  | write (token : ResetToken) (passwordHash : String) (now : ℤ)
  | done (result : ResetResult)
  deriving DecidableEq, Repr

inductive ResetProc
  | issue (userID : ℤ) (pc : IssuePC)
  | reset (text newPassword : String) (pc : ResetPC)
  | recover (email password : String)
  | recovered (email : String) (err : Option StoreError)
  | auth (p : LoginProc)
  deriving DecidableEq, Repr

/-- The hash of a user's password. -/
def passwordHashOf (users : List LoginUser) (userID : ℤ) : Option String :=
  (users.find? (·.id == userID)).bind (·.passwordHash)

/-- The users whose password hash is another one afterwards. -/
def changedUsers (users users' : List LoginUser) : List ℤ :=
  (users.map (·.id)).filter fun userID => passwordHashOf users userID ≠ passwordHashOf users' userID

def storedHashes (users : List LoginUser) : List String := users.filterMap (·.passwordHash)

namespace ResetState

def begin (login : LoginState) : ResetState := ⟨login, [], [], storedHashes login.users⟩

def sign (s : ResetState) (text : String) : ResetState := { s with signed := s.signed ++ [text] }

def record (s : ResetState) (e : ResetEvent) : ResetState := { s with log := s.log ++ [e] }

/-- After a transaction that may have changed passwords. -/
def after (s : ResetState) (login : LoginState) : ResetState :=
  { s with
    login := login
    log := s.log ++ (changedUsers s.login.users login.users).map .changed
    seen := s.seen ++ storedHashes login.users }

end ResetState

section

variable (hashes : LoginHashes)

def getUserPasswordHash (s : LoginState) (userID : ℤ) : Result String :=
  match s.users.find? (·.id == userID) with
  | none => .error ⟨.notFound, ""⟩
  | some u =>
      match u.passwordHash.filter (LoginState.isUsablePasswordHash hashes) with
      | none => .error ⟨.notFound, ""⟩
      | some hash => .ok hash

def recoverOwnerPassword (s : LoginState) (owners : List ℤ) (email password : String)
    (newHash : Option String) : Result LoginState := do
  let email := normalizeEmail email
  reject (email = "") ⟨.validation, ""⟩
  validatePassword password
  let some newHash := newHash | throw ⟨.internal, "hash recovery password"⟩
  match s.users.filter (·.sqlEmail == email) with
  | [] => throw ⟨.notFound, ""⟩
  | [u] =>
      reject (u.id ∉ owners) ⟨.validation, "target is not an owner"⟩
      -- deleting sessions takes the password grants of these sessions along
      let gone := (s.sessions.filter (·.userID == u.id)).map (·.tokenHash)
      pure { s with
        users := updateWhere (·.id == u.id) (fun v => { v with passwordHash := some newHash }) s.users
        sessions := deleteWhere (·.userID == u.id) s.sessions
        passwordGrants := deleteWhere (fun g => gone.contains g.sessionTokenHash) s.passwordGrants
        pending := deleteWhere (·.userID == u.id) s.pending }
  | _ => throw ⟨.conflict, "normalized email is ambiguous"⟩

variable (config : ResetConfig)

/-- `GetUserPasswordHash` and `GeneratePasswordResetToken`. -/
def issueStep (s : ResetState) (userID : ℤ) (a : ResetInput) : IssuePC → ResetState × IssuePC
  | .start =>
      match getUserPasswordHash hashes s.login userID with
      | .error _ => (s, .done none)
      | .ok hash => (s, .generate hash)
  | .generate hash =>
      match generatePasswordResetToken config.encryptionKey userID hash a.now with
      | .error _ => (s, .done none)
      | .ok (text, _) =>
          ((s.sign (resetSignedText userID a.now hash)).record (.issued text userID a.now hash),
            .done (some text))
  | .done text => (s, .done text)

/-- `handleAuthResetPassword`. -/
def resetStep (s : ResetState) (text newPassword : String) (a : ResetInput) :
    ResetPC → ResetState × ResetPC
  | .start =>
      if config.anonymous ∨ config.localAuthDisabled then (s, .done .notFound)
      else if a.login.allowed = false then (s, .done .rateLimited)
      else if config.encryptionKey = [] then (s, .done .unavailable)
      else
        match parsePasswordResetToken text with
        | .error _ => (s, .done .badRequest)
        | .ok token =>
            match getUserPasswordHash hashes s.login token.userID with
            | .error _ => (s, .done .badRequest)
            | .ok hash => (s, .verify token hash)
  | .verify token hash =>
      let s := s.sign (resetSignedText token.userID token.timestamp hash)
      match verifyPasswordResetToken config.encryptionKey token hash a.now with
      | .error _ => (s, .done .badRequest)
      | .ok _ => (s, .write token hash a.now)
  | .write token hash now =>
      match LoginState.resetLocalPassword hashes s.login token.userID hash newPassword a.newHash with
      | .error e => (s, .done (.failed e))
      | .ok login => ((s.record (.reset token now)).after login, .done .ok)
  | .done result => (s, .done result)

def passwordStep (s : ResetState) (p : ResetProc) (a : ResetInput) : ResetState × ResetProc :=
  match p with
  | .issue userID pc =>
      let (s, pc) := issueStep hashes config s userID a pc
      (s, .issue userID pc)
  | .reset text newPassword pc =>
      let (s, pc) := resetStep hashes config s text newPassword a pc
      (s, .reset text newPassword pc)
  | .recover email password =>
      match recoverOwnerPassword s.login a.owners email password a.newHash with
      | .ok login => (s.after login, .recovered email none)
      | .error e => (s, .recovered email (some e))
  | .recovered email err => (s, .recovered email err)
  | .auth p =>
      let (login, p) := authStep hashes s.login p a.login
      (s.after login, .auth p)

end

/-- The hash that a call stores when it changes a password. -/
def AuthCall.newHash : AuthCall → Option String
  | .setFirstPassword _ _ _ _ newHash => newHash
  | .setFirstPasswordWithProof _ _ _ _ newHash _ => newHash
  | .resetPassword _ _ _ newHash => newHash
  | _ => none

def LoginProc.newHash : LoginProc → Option String
  | .call c => c.newHash
  | _ => none

/-- The hash that bcrypt makes in a step. -/
def ResetProc.newHash (a : ResetInput) : ResetProc → Option String
  | .reset _ _ _ => a.newHash
  | .recover _ _ => a.newHash
  | .auth p => p.newHash
  | _ => none

/-- The hash that a step makes was never stored before. -/
def FreshHash (s : Pool ResetState ResetProc) (ia : ℕ × ResetInput) : Prop :=
  ∀ hash ∈ ((s.procs[ia.1]?).bind (ResetProc.newHash ia.2)).toList, hash ∉ s.shared.seen

instance (s : Pool ResetState ResetProc) (ia : ℕ × ResetInput) : Decidable (FreshHash s ia) :=
  inferInstanceAs (Decidable (∀ _ ∈ _, _))

/-- A request that has not started. -/
def ResetProc.AtStart : ResetProc → Prop
  | .issue _ pc => pc = .start
  | .reset _ _ pc => pc = .start
  | _ => True

instance (p : ResetProc) : Decidable p.AtStart := by
  cases p <;> unfold ResetProc.AtStart <;> infer_instance

/-- The signed texts have different signatures. -/
def NoCollision (secret : List ℕ) (signed : List String) : Prop :=
  ∀ a ∈ signed, ∀ b ∈ signed, resetSignature secret a = resetSignature secret b → a = b

instance (secret : List ℕ) (signed : List String) : Decidable (NoCollision secret signed) :=
  inferInstanceAs (Decidable (∀ _ ∈ _, ∀ _ ∈ _, _ → _))

/-- What the step of a reset that succeeded does: it changes the hash of the user's password and
of no other, and leaves the user no session and no challenge. -/
structure Revoked (s s' : ResetState) (token : ResetToken) : Prop where
  changed : ∀ userID, passwordHashOf s'.login.users userID ≠ passwordHashOf s.login.users userID ↔
    userID = token.userID
  sessions : ∀ r ∈ s'.login.sessions, r.userID ≠ token.userID
  pending : ∀ r ∈ s'.login.pending, r.userID ≠ token.userID

/-- What holds of password resets: of the records of a state, and of the next step from it. -/
structure ResetsSafe (hashes : LoginHashes) (config : ResetConfig) (s : Pool ResetState ResetProc) :
    Prop where
  once : (s.shared.log.filterMap ResetEvent.token?).Nodup
  not_after_change : ∀ text userID timestamp hash token now,
    [.issued text userID timestamp hash, .changed userID, .reset token now].Sublist s.shared.log →
    parsePasswordResetToken text ≠ .ok token ∧
      token.signature ≠ resetSignature config.encryptionKey (resetSignedText userID timestamp hash)
  own_user : ∀ text userID timestamp hash token now,
    .issued text userID timestamp hash ∈ s.shared.log → .reset token now ∈ s.shared.log →
    token.signature = resetSignature config.encryptionKey (resetSignedText userID timestamp hash) →
    token.userID = userID ∧ token.timestamp = timestamp
  in_time : ∀ token now, .reset token now ∈ s.shared.log →
    now - tokenExpiry ≤ token.timestamp ∧ token.timestamp ≤ now + clockSkew
  revokes : ∀ ia token now, FreshHash s ia →
    .reset token now ∈ (s.step (passwordStep hashes config) ia).shared.log.drop s.shared.log.length →
    Revoked s.shared (s.step (passwordStep hashes config) ia).shared token

end Scrumboy
