import Scrumboy.Go.Errors
import Scrumboy.Go.Strings
import Scrumboy.Sql.SingleUse
import Scrumboy.Store.Schema
import Scrumboy.Transition.Runs

/-!
# Authorization codes and refresh tokens

The token endpoint exchanges an authorization code, or a refresh token, for a new pair of
tokens. An exchange is one transaction, and the store has one connection, so requests
interleave transaction by transaction. Codes and tokens are stored as hashes; the hash
functions are parameters, and the secrets that a transaction draws are its input.

Rows carry two numbers that are not stored: the number of the row in its table, counted
over all rows ever inserted, and, for a refresh token, the number of the authorization
code that it descends from. `codesRedeemed` and `tokensRedeemed` record the rows that
requests have exchanged.
-/

set_option linter.dupNamespace false

namespace Scrumboy

open Go Sql Transition

/-- The hash of a stored secret, and the S256 challenge of a verifier. -/
structure OAuthHashes where
  hashToken : String → String
  challengeOf : String → String

structure AuthCodeRow where
  codeHash : String
  clientID : String
  userID : ℤ
  redirectURI : String
  codeChallenge : String
  codeChallengeMethod : String
  resource : String
  createdAt : ℤ
  expiresAt : ℤ
  consumedAt : Option ℤ
  issue : ℕ
  deriving DecidableEq, Repr

structure OAuthTokenRow where
  tokenHash : String
  clientID : String
  userID : ℤ
  resource : String
  createdAt : ℤ
  expiresAt : ℤ
  revokedAt : Option ℤ
  deriving DecidableEq, Repr

structure RefreshTokenRow extends OAuthTokenRow where
  issue : ℕ
  code : ℕ
  deriving DecidableEq, Repr

structure OAuthState where
  authCodes : List AuthCodeRow := []
  accessTokens : List OAuthTokenRow := []
  refreshTokens : List RefreshTokenRow := []
  codesIssued : ℕ := 0
  codesRedeemed : List ℕ := []
  tokensIssued : ℕ := 0
  tokensRedeemed : List ℕ := []
  deriving DecidableEq, Repr

def authCodeTTL : ℤ := 60 * 1000

def accessTokenTTL : ℤ := 60 * 60 * 1000

def refreshTokenTTL : ℤ := 30 * 24 * 60 * 60 * 1000

structure OAuthTokenPair where
  accessToken : String
  refreshToken : String
  expiresIn : ℤ
  deriving DecidableEq, Repr

/-- What `CreateOAuthAuthCode` is called with, and the secret that it draws. -/
structure Authorization where
  clientID : String
  userID : ℤ
  redirectURI : String
  codeChallenge : String
  codeChallengeMethod : String
  resource : String
  secret : Option String
  nowMs : ℤ
  deriving DecidableEq, Repr

/-- The secrets of a new pair, unless the machine has none, and the clock at that time. -/
structure TokenDraw where
  secrets : Option (String × String)
  nowMs : ℤ
  deriving DecidableEq, Repr

/-- A request with an authorization code. -/
structure CodeExchange where
  code : String
  clientID : String
  redirectURI : String
  resource : String
  codeVerifier : String
  nowMs : ℤ
  draw : TokenDraw
  deriving DecidableEq, Repr

/-- A request with a refresh token. -/
structure TokenExchange where
  refreshToken : String
  clientID : String
  resource : String
  nowMs : ℤ
  draw : TokenDraw
  deriving DecidableEq, Repr

section

variable (hashes : OAuthHashes)

def verifyPKCE (method verifier challenge : String) : Bool :=
  method = "S256" ∧ verifier ≠ "" ∧ challenge ≠ "" ∧ hashes.challengeOf verifier = challenge

def createOAuthAuthCode (s : OAuthState) (q : Authorization) : Result (OAuthState × String) := do
  reject (q.clientID = "" ∨ q.userID ≤ 0 ∨ q.redirectURI = "" ∨ q.codeChallenge = "" ∨ q.resource = "")
    ⟨.validation, "missing required auth code fields"⟩
  let some secret := q.secret | throw ⟨.internal, ""⟩
  let codeHash := hashes.hashToken secret
  reject (∃ c ∈ s.authCodes, c.codeHash = codeHash) ⟨.internal, "insert oauth auth code"⟩
  let row := AuthCodeRow.mk codeHash q.clientID q.userID q.redirectURI q.codeChallenge
    q.codeChallengeMethod q.resource q.nowMs (q.nowMs + authCodeTTL) none s.codesIssued
  pure ({ s with authCodes := s.authCodes ++ [row], codesIssued := s.codesIssued + 1 }, secret)

def CodeExchange.codeHash (q : CodeExchange) : String := hashes.hashToken (trimSpace q.code)

/-- The row that the conditional update of a redemption matches. -/
def CodeExchange.consumes (q : CodeExchange) (ac c : AuthCodeRow) : Bool :=
  c.codeHash = q.codeHash hashes ∧ c.consumedAt = none ∧ q.nowMs < c.expiresAt ∧
    c.clientID = ac.clientID ∧ c.redirectURI = ac.redirectURI ∧ c.resource = ac.resource ∧
    c.codeChallenge = ac.codeChallenge ∧ c.codeChallengeMethod = ac.codeChallengeMethod

def redeemOAuthAuthCodeTx (s : OAuthState) (q : CodeExchange) : Result (OAuthState × AuthCodeRow) := do
  reject (trimSpace q.code = "" ∨ q.clientID = "" ∨ q.redirectURI = "" ∨ q.resource = "" ∨
    q.codeVerifier = "") ⟨.notFound, ""⟩
  let some ac := s.authCodes.find? fun c => decide (c.codeHash = q.codeHash hashes) &&
      decide (c.consumedAt = none) && decide (q.nowMs < c.expiresAt)
    | throw ⟨.notFound, ""⟩
  reject (ac.clientID ≠ q.clientID ∨ ac.redirectURI ≠ q.redirectURI ∨ ac.resource ≠ q.resource ∨
    verifyPKCE hashes ac.codeChallengeMethod q.codeVerifier ac.codeChallenge = false) ⟨.notFound, ""⟩
  reject (s.authCodes.countP (q.consumes hashes ac) = 0) ⟨.notFound, ""⟩
  let authCodes := updateWhere (q.consumes hashes ac)
    (fun c => { c with consumedAt := some q.nowMs }) s.authCodes
  pure ({ s with authCodes := authCodes, codesRedeemed := s.codesRedeemed ++ [ac.issue] }, ac)

/-- The pair descends from the authorization code `code`. -/
def issueOAuthTokenPairTx (s : OAuthState) (clientID : String) (userID : ℤ) (resource : String)
    (code : ℕ) (draw : TokenDraw) : Result (OAuthState × OAuthTokenPair) := do
  reject (clientID = "" ∨ userID ≤ 0 ∨ resource = "")
    ⟨.validation, "missing client id, user id, or resource"⟩
  let some (accessSecret, refreshSecret) := draw.secrets | throw ⟨.internal, ""⟩
  let access := OAuthTokenRow.mk (hashes.hashToken accessSecret) clientID userID resource draw.nowMs
    (draw.nowMs + accessTokenTTL) none
  let refresh := RefreshTokenRow.mk ⟨hashes.hashToken refreshSecret, clientID, userID, resource,
    draw.nowMs, draw.nowMs + refreshTokenTTL, none⟩ s.tokensIssued code
  reject (∃ r ∈ s.accessTokens, r.tokenHash = access.tokenHash) ⟨.internal, "insert oauth access token"⟩
  let s := { s with accessTokens := s.accessTokens ++ [access] }
  reject (∃ r ∈ s.refreshTokens, r.tokenHash = refresh.tokenHash) ⟨.internal, "insert oauth refresh token"⟩
  let s := { s with refreshTokens := s.refreshTokens ++ [refresh], tokensIssued := s.tokensIssued + 1 }
  pure (s, ⟨accessSecret, refreshSecret, accessTokenTTL / 1000⟩)

def redeemOAuthAuthCodeAndIssue (s : OAuthState) (q : CodeExchange) :
    Result (OAuthState × OAuthTokenPair) := do
  let (s, ac) ← redeemOAuthAuthCodeTx hashes s q
  issueOAuthTokenPairTx hashes s ac.clientID ac.userID ac.resource ac.issue q.draw

def TokenExchange.tokenHash (q : TokenExchange) : String := hashes.hashToken (trimSpace q.refreshToken)

/-- The row that the conditional update of a rotation matches. -/
def TokenExchange.consumes (q : TokenExchange) (grant r : RefreshTokenRow) : Bool :=
  r.tokenHash = q.tokenHash hashes ∧ r.revokedAt = none ∧ q.nowMs < r.expiresAt ∧
    r.clientID = grant.clientID ∧ r.resource = grant.resource

/-- `UPDATE oauth_refresh_tokens SET revoked_at`. -/
def RefreshTokenRow.revoke (nowMs : ℤ) (r : RefreshTokenRow) : RefreshTokenRow :=
  { r with revokedAt := some nowMs }

def consumeOAuthRefreshTokenTx (s : OAuthState) (q : TokenExchange) :
    Result (OAuthState × RefreshTokenRow) := do
  reject (trimSpace q.refreshToken = "" ∨ q.clientID = "" ∨ q.resource = "") ⟨.notFound, ""⟩
  let some grant := s.refreshTokens.find? fun r => decide (r.tokenHash = q.tokenHash hashes) &&
      decide (r.revokedAt = none) && decide (q.nowMs < r.expiresAt)
    | throw ⟨.notFound, ""⟩
  reject (grant.clientID ≠ q.clientID ∨ grant.resource ≠ q.resource) ⟨.notFound, ""⟩
  reject (s.refreshTokens.countP (q.consumes hashes grant) = 0) ⟨.notFound, ""⟩
  let refreshTokens := updateWhere (q.consumes hashes grant) (·.revoke q.nowMs) s.refreshTokens
  pure ({ s with refreshTokens := refreshTokens, tokensRedeemed := s.tokensRedeemed ++ [grant.issue] },
    grant)

def consumeOAuthRefreshTokenAndIssue (s : OAuthState) (q : TokenExchange) :
    Result (OAuthState × OAuthTokenPair) := do
  let (s, grant) ← consumeOAuthRefreshTokenTx hashes s q
  issueOAuthTokenPairTx hashes s grant.clientID grant.userID grant.resource grant.code q.draw

/-- What changes the tables: the two exchanges, the codes that users approve, and the single
statements of `RevokeOAuthToken` and of the hourly `DeleteExpiredOAuthArtifacts`. -/
inductive OAuthStep
  | authorize (q : Authorization)
  | redeem (q : CodeExchange)
  | rotate (q : TokenExchange)
  | revokeAccess (token : String) (nowMs : ℤ)
  | revokeRefresh (token : String) (nowMs : ℤ)
  | sweepCodes (nowMs : ℤ)
  | sweepAccess (nowMs : ℤ)
  | sweepRefresh (nowMs : ℤ)
  deriving DecidableEq, Repr

/-- The state after a transaction: an error rolls it back. -/
def afterTx {α : Type} (s : OAuthState) (r : Result (OAuthState × α)) : OAuthState :=
  match r with
  | .ok (s', _) => s'
  | .error _ => s

def oauthStep (s : OAuthState) : OAuthStep → OAuthState
  | .authorize q => afterTx s (createOAuthAuthCode hashes s q)
  | .redeem q => afterTx s (redeemOAuthAuthCodeAndIssue hashes s q)
  | .rotate q => afterTx s (consumeOAuthRefreshTokenAndIssue hashes s q)
  | .revokeAccess token nowMs =>
      if trimSpace token = "" then s
      else { s with
        accessTokens := updateWhere
          (fun r => r.tokenHash == hashes.hashToken (trimSpace token) && r.revokedAt.isNone)
          (fun r => { r with revokedAt := some nowMs }) s.accessTokens }
  | .revokeRefresh token nowMs =>
      if trimSpace token = "" then s
      else { s with
        refreshTokens := updateWhere
          (fun r => r.tokenHash == hashes.hashToken (trimSpace token) && r.revokedAt.isNone)
          (·.revoke nowMs) s.refreshTokens }
  | .sweepCodes nowMs =>
      { s with
        authCodes := deleteWhere (fun c => c.consumedAt.isSome || decide (c.expiresAt < nowMs)) s.authCodes }
  | .sweepAccess nowMs =>
      { s with
        accessTokens := deleteWhere (fun r => r.revokedAt.isSome || decide (r.expiresAt < nowMs))
          s.accessTokens }
  | .sweepRefresh nowMs =>
      { s with
        refreshTokens := deleteWhere (fun r => r.revokedAt.isSome || decide (r.expiresAt < nowMs))
          s.refreshTokens }

/-- A request whose code is stored for another client or redirect URI, or for another verifier. -/
def CodeExchange.Mismatched (q : CodeExchange) (s : OAuthState) : Prop :=
  ∀ c ∈ s.authCodes, c.codeHash = q.codeHash hashes →
    c.clientID ≠ q.clientID ∨ c.redirectURI ≠ q.redirectURI ∨
      verifyPKCE hashes c.codeChallengeMethod q.codeVerifier c.codeChallenge = false

/-- A request whose refresh token is stored for another client. -/
def TokenExchange.Mismatched (q : TokenExchange) (s : OAuthState) : Prop :=
  ∀ r ∈ s.refreshTokens, r.tokenHash = q.tokenHash hashes → r.clientID ≠ q.clientID

end

/-- A refresh token that can be exchanged at the time `nowMs`. -/
def RefreshTokenRow.live (nowMs : ℤ) (r : RefreshTokenRow) : Bool :=
  r.revokedAt = none ∧ nowMs < r.expiresAt

/-- A refresh token that was not revoked and descends from an authorization code. -/
def RefreshTokenRow.stands (code : ℕ) (r : RefreshTokenRow) : Bool :=
  r.revokedAt = none ∧ r.code = code

@[simp] theorem RefreshTokenRow.revoke_issue (nowMs : ℤ) (r : RefreshTokenRow) :
    (r.revoke nowMs).issue = r.issue := rfl

@[simp] theorem RefreshTokenRow.revoke_code (nowMs : ℤ) (r : RefreshTokenRow) :
    (r.revoke nowMs).code = r.code := rfl

@[simp] theorem RefreshTokenRow.revoke_revokedAt (nowMs : ℤ) (r : RefreshTokenRow) :
    (r.revoke nowMs).revokedAt = some nowMs := rfl

@[simp] theorem RefreshTokenRow.revoke_stands (code : ℕ) (nowMs : ℤ) (r : RefreshTokenRow) :
    (r.revoke nowMs).stands code = false := by
  simp [RefreshTokenRow.stands]

structure OAuthInv (s : OAuthState) : Prop where
  codes : SingleUse AuthCodeRow.issue (·.consumedAt.isSome) s.authCodes s.codesIssued s.codesRedeemed
  tokens : SingleUse RefreshTokenRow.issue (·.revokedAt.isSome) s.refreshTokens s.tokensIssued
    s.tokensRedeemed
  descends : ∀ r ∈ s.refreshTokens, r.code < s.codesIssued
  unused : ∀ c ∈ s.authCodes, c.consumedAt = none → ∀ r ∈ s.refreshTokens, r.code ≠ c.issue
  standing : ∀ code, s.refreshTokens.countP (·.stands code) ≤ 1

section

variable {hashes : OAuthHashes} {s s' : OAuthState}

theorem createOAuthAuthCode_eq_ok {q : Authorization} {secret : String}
    (h : createOAuthAuthCode hashes s q = .ok (s', secret)) :
    ∃ row : AuthCodeRow, row.issue = s.codesIssued ∧
      s' = { s with authCodes := s.authCodes ++ [row], codesIssued := s.codesIssued + 1 } := by
  simp only [createOAuthAuthCode, bind_eq_ok, reject_eq_ok] at h
  obtain ⟨_, _, h⟩ := h
  split at h
  · simp only [bind_eq_ok, reject_eq_ok, pure_eq_ok, Prod.mk.injEq] at h
    obtain ⟨_, _, rfl, _⟩ := h
    exact ⟨_, rfl, rfl⟩
  · simp at h

/-- A redemption that succeeds found the row of the code, not consumed and with everything that
the request says about it, and consumed it. -/
theorem redeemOAuthAuthCodeTx_eq_ok {q : CodeExchange} {ac : AuthCodeRow}
    (h : redeemOAuthAuthCodeTx hashes s q = .ok (s', ac)) :
    ac ∈ s.authCodes ∧ ac.codeHash = q.codeHash hashes ∧ ac.consumedAt = none ∧
      q.consumes hashes ac ac = true ∧ ac.clientID = q.clientID ∧ ac.redirectURI = q.redirectURI ∧
      verifyPKCE hashes ac.codeChallengeMethod q.codeVerifier ac.codeChallenge = true ∧
      s' = { s with
        authCodes := updateWhere (q.consumes hashes ac)
          (fun c => { c with consumedAt := some q.nowMs }) s.authCodes
        codesRedeemed := s.codesRedeemed ++ [ac.issue] } := by
  simp only [redeemOAuthAuthCodeTx, bind_eq_ok, reject_eq_ok] at h
  obtain ⟨_, _, h⟩ := h
  split at h
  · rename_i c hfind
    simp only [bind_eq_ok, reject_eq_ok, pure_eq_ok, Prod.mk.injEq, not_or, not_not,
      Bool.not_eq_false] at h
    obtain ⟨_, ⟨hclient, hredirect, _, hpkce⟩, _, _, rfl, rfl⟩ := h
    have hsel := List.find?_some hfind
    simp only [Bool.and_eq_true, decide_eq_true_eq] at hsel
    obtain ⟨⟨hhash, hnone⟩, hexpires⟩ := hsel
    refine ⟨List.mem_of_find?_eq_some hfind, hhash, hnone, ?_, hclient, hredirect, hpkce, rfl⟩
    simp [CodeExchange.consumes, hhash, hnone, hexpires]
  · simp at h

theorem consumeOAuthRefreshTokenTx_eq_ok {q : TokenExchange} {grant : RefreshTokenRow}
    (h : consumeOAuthRefreshTokenTx hashes s q = .ok (s', grant)) :
    grant ∈ s.refreshTokens ∧ grant.tokenHash = q.tokenHash hashes ∧ grant.revokedAt = none ∧
      q.consumes hashes grant grant = true ∧ grant.clientID = q.clientID ∧
      s' = { s with
        refreshTokens := updateWhere (q.consumes hashes grant) (·.revoke q.nowMs) s.refreshTokens
        tokensRedeemed := s.tokensRedeemed ++ [grant.issue] } := by
  simp only [consumeOAuthRefreshTokenTx, bind_eq_ok, reject_eq_ok] at h
  obtain ⟨_, _, h⟩ := h
  split at h
  · rename_i r hfind
    simp only [bind_eq_ok, reject_eq_ok, pure_eq_ok, Prod.mk.injEq, not_or, not_not] at h
    obtain ⟨_, ⟨hclient, _⟩, _, _, rfl, rfl⟩ := h
    have hsel := List.find?_some hfind
    simp only [Bool.and_eq_true, decide_eq_true_eq] at hsel
    obtain ⟨⟨hhash, hnone⟩, hexpires⟩ := hsel
    refine ⟨List.mem_of_find?_eq_some hfind, hhash, hnone, ?_, hclient, rfl⟩
    simp [TokenExchange.consumes, hhash, hnone, hexpires]
  · simp at h

/-- A pair that is issued is stored as one access and one refresh token, or not at all. -/
theorem issueOAuthTokenPairTx_eq_ok {clientID resource : String} {userID : ℤ} {code : ℕ}
    {draw : TokenDraw} {pair : OAuthTokenPair}
    (h : issueOAuthTokenPairTx hashes s clientID userID resource code draw = .ok (s', pair)) :
    ∃ (access : OAuthTokenRow) (refresh : RefreshTokenRow),
      access.tokenHash = hashes.hashToken pair.accessToken ∧ access.revokedAt = none ∧
      refresh.tokenHash = hashes.hashToken pair.refreshToken ∧ refresh.revokedAt = none ∧
      refresh.issue = s.tokensIssued ∧ refresh.code = code ∧
      s' = { s with
        accessTokens := s.accessTokens ++ [access]
        refreshTokens := s.refreshTokens ++ [refresh]
        tokensIssued := s.tokensIssued + 1 } := by
  simp only [issueOAuthTokenPairTx, bind_eq_ok, reject_eq_ok] at h
  obtain ⟨_, _, h⟩ := h
  split at h
  · simp only [bind_eq_ok, reject_eq_ok, pure_eq_ok, Prod.mk.injEq] at h
    obtain ⟨_, _, _, _, rfl, rfl⟩ := h
    exact ⟨_, _, rfl, rfl, rfl, rfl, rfl, rfl, rfl⟩
  · simp at h

/-- No refresh token that descends from the code is left, and the code is not one that is
still to be redeemed. -/
structure OAuthState.Vacant (s : OAuthState) (code : ℕ) : Prop where
  issued : code < s.codesIssued
  consumed : ∀ c ∈ s.authCodes, c.consumedAt = none → code ≠ c.issue
  none_stands : s.refreshTokens.countP (·.stands code) = 0

theorem OAuthInv.issue (h : OAuthInv s) {code : ℕ} (hcode : s.Vacant code) {access : OAuthTokenRow}
    {refresh : RefreshTokenRow} (hissue : refresh.issue = s.tokensIssued) (hrefresh : refresh.code = code) :
    OAuthInv { s with
      accessTokens := s.accessTokens ++ [access]
      refreshTokens := s.refreshTokens ++ [refresh]
      tokensIssued := s.tokensIssued + 1 } where
  codes := h.codes
  tokens := h.tokens.insert hissue
  descends := by
    intro r hr
    rcases List.mem_append.mp hr with hr | hr
    · exact h.descends r hr
    · rw [List.mem_singleton.mp hr, hrefresh]
      exact hcode.issued
  unused := by
    intro c hc hnone r hr
    rcases List.mem_append.mp hr with hr | hr
    · exact h.unused c hc hnone r hr
    · rw [List.mem_singleton.mp hr, hrefresh]
      exact hcode.consumed c hc hnone
  standing := by
    intro k
    rw [List.countP_append]
    by_cases hk : k = code
    · have hone := List.countP_le_length (p := fun r : RefreshTokenRow => r.stands k) (l := [refresh])
      rw [List.length_singleton] at hone
      rw [hk] at hone ⊢
      rw [hcode.none_stands]
      omega
    · have hzero : [refresh].countP (·.stands k) = 0 := by
        simp [RefreshTokenRow.stands, hrefresh, Ne.symm hk]
      rw [hzero]
      exact h.standing k

/-- A redeemed code leaves room for its first refresh token. -/
theorem OAuthInv.redeem (h : OAuthInv s) {q : CodeExchange} {ac : AuthCodeRow}
    (hok : redeemOAuthAuthCodeTx hashes s q = .ok (s', ac)) : OAuthInv s' ∧ s'.Vacant ac.issue := by
  obtain ⟨hmem, _, hnone, hconsumes, _, _, _, rfl⟩ := redeemOAuthAuthCodeTx_eq_ok hok
  -- a row that is not consumed afterwards was there before, and is another row
  have hkept : ∀ c ∈ updateWhere (q.consumes hashes ac)
      (fun c => { c with consumedAt := some q.nowMs }) s.authCodes, c.consumedAt = none →
      c ∈ s.authCodes ∧ ac.issue ≠ c.issue := by
    intro c hc hcnone
    obtain ⟨c₀, hc₀, rfl⟩ := mem_updateWhere.mp hc
    by_cases hp : q.consumes hashes ac c₀ = true
    · rw [if_pos hp] at hcnone
      cases hcnone
    · rw [if_neg hp]
      refine ⟨hc₀, fun heq => hp ?_⟩
      rw [← h.codes.eq_of_serial hmem hc₀ heq]
      exact hconsumes
  have hvacant : s.refreshTokens.countP (·.stands ac.issue) = 0 := by
    rw [List.countP_eq_zero]
    intro r hr hstands
    simp only [RefreshTokenRow.stands, decide_eq_true_eq] at hstands
    exact h.unused ac hmem hnone r hr hstands.2
  constructor
  · exact {
      codes := h.codes.redeem (fun _ => rfl) (fun _ => rfl) hmem hconsumes (by simp [hnone])
      tokens := h.tokens
      descends := h.descends
      unused := fun c hc hcnone => h.unused c (hkept c hc hcnone).1 hcnone
      standing := h.standing }
  · exact ⟨h.codes.issued_of_mem ac hmem, fun c hc hcnone => (hkept c hc hcnone).2, hvacant⟩

/-- A refresh token that is rotated away leaves room for the next one of its code. -/
theorem OAuthInv.consume (h : OAuthInv s) {q : TokenExchange} {grant : RefreshTokenRow}
    (hok : consumeOAuthRefreshTokenTx hashes s q = .ok (s', grant)) :
    OAuthInv s' ∧ s'.Vacant grant.code := by
  obtain ⟨hmem, _, hnone, hconsumes, _, rfl⟩ := consumeOAuthRefreshTokenTx_eq_ok hok
  have hcodes : ∀ r ∈ updateWhere (q.consumes hashes grant) (·.revoke q.nowMs) s.refreshTokens,
      ∃ r₀ ∈ s.refreshTokens, r.code = r₀.code := by
    intro r hr
    obtain ⟨r₀, hr₀, rfl⟩ := mem_updateWhere.mp hr
    refine ⟨r₀, hr₀, ?_⟩
    split
    · rfl
    · rfl
  have hfewer : (updateWhere (q.consumes hashes grant) (·.revoke q.nowMs) s.refreshTokens).countP
      (·.stands grant.code) < s.refreshTokens.countP (·.stands grant.code) :=
    countP_updateWhere_lt (by simp) hmem hconsumes (by simp [RefreshTokenRow.stands, hnone]) (by simp)
  have hvacant : (updateWhere (q.consumes hashes grant) (·.revoke q.nowMs) s.refreshTokens).countP
      (·.stands grant.code) = 0 := by
    have := h.standing grant.code
    omega
  constructor
  · refine {
      codes := h.codes
      tokens := h.tokens.redeem (fun _ => rfl) (fun _ => rfl) hmem hconsumes (by simp [hnone])
      descends := fun r hr => ?_
      unused := fun c hc hcnone r hr => ?_
      standing := fun code => (countP_updateWhere_le (by simp) _).trans (h.standing code) }
    · obtain ⟨r₀, hr₀, heq⟩ := hcodes r hr
      exact heq ▸ h.descends r₀ hr₀
    · obtain ⟨r₀, hr₀, heq⟩ := hcodes r hr
      exact heq ▸ h.unused c hc hcnone r₀ hr₀
  · exact ⟨h.descends grant hmem, fun c hc hcnone => h.unused c hc hcnone grant hmem, hvacant⟩

theorem OAuthInv.authorize (h : OAuthInv s) {row : AuthCodeRow} (hrow : row.issue = s.codesIssued) :
    OAuthInv { s with authCodes := s.authCodes ++ [row], codesIssued := s.codesIssued + 1 } where
  codes := h.codes.insert hrow
  tokens := h.tokens
  descends := fun r hr => (h.descends r hr).trans (Nat.lt_succ_self _)
  unused := by
    intro c hc hnone r hr
    rcases List.mem_append.mp hc with hc | hc
    · exact h.unused c hc hnone r hr
    · rw [List.mem_singleton.mp hc, hrow]
      exact (h.descends r hr).ne
  standing := h.standing

/-- Revoking refresh tokens keeps the rest. -/
theorem OAuthInv.revoke (h : OAuthInv s) (p : RefreshTokenRow → Bool) (nowMs : ℤ) :
    OAuthInv { s with refreshTokens := updateWhere p (·.revoke nowMs) s.refreshTokens } where
  codes := h.codes
  tokens := h.tokens.update (fun _ => rfl) (fun _ _ => rfl)
  descends := by
    intro r hr
    obtain ⟨r₀, hr₀, rfl⟩ := mem_updateWhere.mp hr
    split
    · exact h.descends r₀ hr₀
    · exact h.descends r₀ hr₀
  unused := by
    intro c hc hnone r hr
    obtain ⟨r₀, hr₀, rfl⟩ := mem_updateWhere.mp hr
    split
    · exact h.unused c hc hnone r₀ hr₀
    · exact h.unused c hc hnone r₀ hr₀
  standing := fun code => (countP_updateWhere_le (by simp) _).trans (h.standing code)

theorem OAuthInv.sweepCodes (h : OAuthInv s) (p : AuthCodeRow → Bool) :
    OAuthInv { s with authCodes := deleteWhere p s.authCodes } where
  codes := h.codes.deleteWhere p
  tokens := h.tokens
  descends := h.descends
  unused := fun c hc => h.unused c (mem_deleteWhere.mp hc).1
  standing := h.standing

theorem OAuthInv.sweepRefresh (h : OAuthInv s) (p : RefreshTokenRow → Bool) :
    OAuthInv { s with refreshTokens := deleteWhere p s.refreshTokens } where
  codes := h.codes
  tokens := h.tokens.deleteWhere p
  descends := fun r hr => h.descends r (mem_deleteWhere.mp hr).1
  unused := fun c hc hnone r hr => h.unused c hc hnone r (mem_deleteWhere.mp hr).1
  standing := fun code => (List.filter_sublist.countP_le).trans (h.standing code)

/-- The invariant does not look at access tokens. -/
theorem OAuthInv.access (h : OAuthInv s) (accessTokens : List OAuthTokenRow) :
    OAuthInv { s with accessTokens := accessTokens } :=
  ⟨h.codes, h.tokens, h.descends, h.unused, h.standing⟩

theorem redeemOAuthAuthCodeAndIssue_eq_ok {q : CodeExchange} {pair : OAuthTokenPair}
    (h : redeemOAuthAuthCodeAndIssue hashes s q = .ok (s', pair)) :
    ∃ s₁ ac, redeemOAuthAuthCodeTx hashes s q = .ok (s₁, ac) ∧
      issueOAuthTokenPairTx hashes s₁ ac.clientID ac.userID ac.resource ac.issue q.draw =
        .ok (s', pair) := by
  simp only [redeemOAuthAuthCodeAndIssue, bind_eq_ok] at h
  obtain ⟨⟨s₁, ac⟩, hredeem, hissue⟩ := h
  exact ⟨s₁, ac, hredeem, hissue⟩

theorem consumeOAuthRefreshTokenAndIssue_eq_ok {q : TokenExchange} {pair : OAuthTokenPair}
    (h : consumeOAuthRefreshTokenAndIssue hashes s q = .ok (s', pair)) :
    ∃ s₁ grant, consumeOAuthRefreshTokenTx hashes s q = .ok (s₁, grant) ∧
      issueOAuthTokenPairTx hashes s₁ grant.clientID grant.userID grant.resource grant.code q.draw =
        .ok (s', pair) := by
  simp only [consumeOAuthRefreshTokenAndIssue, bind_eq_ok] at h
  obtain ⟨⟨s₁, grant⟩, hconsume, hissue⟩ := h
  exact ⟨s₁, grant, hconsume, hissue⟩

/-- A property of the states that a transaction may leave behind. -/
theorem afterTx_inv {α : Type} {P : OAuthState → Prop} {r : Result (OAuthState × α)} (hs : P s)
    (hok : ∀ s' a, r = .ok (s', a) → P s') : P (afterTx s r) := by
  cases r with
  | error e => exact hs
  | ok p => exact hok p.1 p.2 rfl

theorem OAuthInv.step (h : OAuthInv s) (a : OAuthStep) : OAuthInv (oauthStep hashes s a) := by
  cases a with
  | authorize q =>
      refine afterTx_inv h fun s' secret hok => ?_
      obtain ⟨row, hrow, rfl⟩ := createOAuthAuthCode_eq_ok hok
      exact h.authorize hrow
  | redeem q =>
      refine afterTx_inv h fun s' pair hok => ?_
      obtain ⟨s₁, ac, hredeem, hissue⟩ := redeemOAuthAuthCodeAndIssue_eq_ok hok
      obtain ⟨hinv, hvacant⟩ := h.redeem hredeem
      obtain ⟨access, refresh, _, _, _, _, hserial, hcode, rfl⟩ := issueOAuthTokenPairTx_eq_ok hissue
      exact hinv.issue hvacant hserial hcode
  | rotate q =>
      refine afterTx_inv h fun s' pair hok => ?_
      obtain ⟨s₁, grant, hconsume, hissue⟩ := consumeOAuthRefreshTokenAndIssue_eq_ok hok
      obtain ⟨hinv, hvacant⟩ := h.consume hconsume
      obtain ⟨access, refresh, _, _, _, _, hserial, hcode, rfl⟩ := issueOAuthTokenPairTx_eq_ok hissue
      exact hinv.issue hvacant hserial hcode
  | revokeAccess token nowMs =>
      rw [oauthStep]
      split
      · exact h
      · exact h.access _
  | revokeRefresh token nowMs =>
      rw [oauthStep]
      split
      · exact h
      · exact h.revoke _ nowMs
  | sweepCodes nowMs => exact h.sweepCodes _
  | sweepAccess nowMs => exact h.access _
  | sweepRefresh nowMs => exact h.sweepRefresh _

theorem oauthInv_run (steps : List OAuthStep) : OAuthInv (run (oauthStep hashes) {} steps) := by
  induction steps using List.reverseRecOn with
  | nil => exact ⟨.nil, .nil, by simp, by simp, by simp⟩
  | append_singleton steps a ih =>
      rw [run_concat]
      exact ih.step a

theorem oauthStep_redeem_of_mismatched {q : CodeExchange} (h : q.Mismatched hashes s) :
    oauthStep hashes s (.redeem q) = s := by
  refine afterTx_inv (P := (· = s)) rfl fun s' pair hok => ?_
  obtain ⟨s₁, ac, hredeem, _⟩ := redeemOAuthAuthCodeAndIssue_eq_ok hok
  obtain ⟨hmem, hhash, _, _, hclient, hredirect, hpkce, _⟩ := redeemOAuthAuthCodeTx_eq_ok hredeem
  rcases h ac hmem hhash with hne | hne | hne
  · exact absurd hclient hne
  · exact absurd hredirect hne
  · rw [hpkce] at hne
    cases hne

theorem oauthStep_rotate_of_mismatched {q : TokenExchange} (h : q.Mismatched hashes s) :
    oauthStep hashes s (.rotate q) = s := by
  refine afterTx_inv (P := (· = s)) rfl fun s' pair hok => ?_
  obtain ⟨s₁, grant, hconsume, _⟩ := consumeOAuthRefreshTokenAndIssue_eq_ok hok
  obtain ⟨hmem, hhash, _, _, hclient, _⟩ := consumeOAuthRefreshTokenTx_eq_ok hconsume
  exact absurd hclient (h grant hmem hhash)

end

section

variable (hashes : OAuthHashes) (s s' : OAuthState)

/-- From `s` to `s'` the pair was stored, with a refresh token that descends from `code`. -/
structure PairStored (code : ℕ) (pair : OAuthTokenPair) : Prop where
  access : ∃ r ∈ s'.accessTokens, r.tokenHash = hashes.hashToken pair.accessToken ∧ r.revokedAt = none
  refresh : ∃ r ∈ s'.refreshTokens, r.tokenHash = hashes.hashToken pair.refreshToken ∧
    r.revokedAt = none ∧ r.code = code
  one_access : s'.accessTokens.length = s.accessTokens.length + 1
  one_refresh : s'.refreshTokens.length = s.refreshTokens.length + 1

/-- A request with a code either leaves everything as it is, or it redeems the code that it
names, which no request has redeemed before, and stores the pair that it returns. -/
def RedeemsWhole (q : CodeExchange) : Prop :=
  match redeemOAuthAuthCodeAndIssue hashes s q with
  | .error _ => oauthStep hashes s (.redeem q) = s
  | .ok (s', pair) => oauthStep hashes s (.redeem q) = s' ∧
      ∃ c ∈ s.authCodes, c.codeHash = q.codeHash hashes ∧ c.consumedAt = none ∧
        { c with consumedAt := some q.nowMs } ∈ s'.authCodes ∧ c.issue ∉ s.codesRedeemed ∧
        s'.codesRedeemed = s.codesRedeemed ++ [c.issue] ∧ PairStored hashes s s' c.issue pair

/-- The same of a request with a refresh token. -/
def RotatesWhole (q : TokenExchange) : Prop :=
  match consumeOAuthRefreshTokenAndIssue hashes s q with
  | .error _ => oauthStep hashes s (.rotate q) = s
  | .ok (s', pair) => oauthStep hashes s (.rotate q) = s' ∧
      ∃ r ∈ s.refreshTokens, r.tokenHash = q.tokenHash hashes ∧ r.revokedAt = none ∧
        r.revoke q.nowMs ∈ s'.refreshTokens ∧ r.issue ∉ s.tokensRedeemed ∧
        s'.tokensRedeemed = s.tokensRedeemed ++ [r.issue] ∧ PairStored hashes s s' r.code pair

/-- What the token endpoint promises of a state and of the next request in it. -/
structure OAuthSafe : Prop where
  codes_once : s.codesRedeemed.Nodup
  tokens_once : s.tokensRedeemed.Nodup
  redeem_mismatched : ∀ q : CodeExchange, q.Mismatched hashes s → oauthStep hashes s (.redeem q) = s
  rotate_mismatched : ∀ q : TokenExchange, q.Mismatched hashes s → oauthStep hashes s (.rotate q) = s
  redeem_whole : ∀ q, RedeemsWhole hashes s q
  rotate_whole : ∀ q, RotatesWhole hashes s q
  live_le_one : ∀ code nowMs, s.refreshTokens.countP (fun r => r.live nowMs && r.code == code) ≤ 1

end

section

variable {hashes : OAuthHashes} {s s' : OAuthState}

theorem pairStored_of_issue {clientID resource : String} {userID : ℤ} {code : ℕ} {draw : TokenDraw}
    {pair : OAuthTokenPair}
    (h : issueOAuthTokenPairTx hashes s clientID userID resource code draw = .ok (s', pair)) :
    PairStored hashes s s' code pair := by
  obtain ⟨access, refresh, hahash, hanone, hrhash, hrnone, _, hcode, rfl⟩ := issueOAuthTokenPairTx_eq_ok h
  exact ⟨⟨access, by simp, hahash, hanone⟩, ⟨refresh, by simp, hrhash, hrnone, hcode⟩, by simp, by simp⟩

theorem OAuthInv.redeemsWhole (h : OAuthInv s) (q : CodeExchange) : RedeemsWhole hashes s q := by
  unfold RedeemsWhole
  split
  · rename_i e herr
    rw [oauthStep, herr]
    rfl
  · rename_i s' pair hok
    obtain ⟨s₁, ac, hredeem, hissue⟩ := redeemOAuthAuthCodeAndIssue_eq_ok hok
    have hstored := pairStored_of_issue hissue
    obtain ⟨hmem, hhash, hnone, hconsumes, _, _, _, rfl⟩ := redeemOAuthAuthCodeTx_eq_ok hredeem
    obtain ⟨access, refresh, _, _, _, _, _, _, rfl⟩ := issueOAuthTokenPairTx_eq_ok hissue
    refine ⟨?_, ac, hmem, hhash, hnone, ?_, ?_, rfl, ⟨hstored.access, hstored.refresh,
      hstored.one_access, hstored.one_refresh⟩⟩
    · rw [oauthStep, hok]
      rfl
    · exact mem_updateWhere.mpr ⟨ac, hmem, by rw [if_pos hconsumes]⟩
    · intro hold
      simpa [hnone] using h.codes.spent_of_redeemed ac hmem hold

theorem OAuthInv.rotatesWhole (h : OAuthInv s) (q : TokenExchange) : RotatesWhole hashes s q := by
  unfold RotatesWhole
  split
  · rename_i e herr
    rw [oauthStep, herr]
    rfl
  · rename_i s' pair hok
    obtain ⟨s₁, grant, hconsume, hissue⟩ := consumeOAuthRefreshTokenAndIssue_eq_ok hok
    have hstored := pairStored_of_issue hissue
    obtain ⟨hmem, hhash, hnone, hconsumes, _, rfl⟩ := consumeOAuthRefreshTokenTx_eq_ok hconsume
    obtain ⟨access, refresh, _, _, _, _, _, _, rfl⟩ := issueOAuthTokenPairTx_eq_ok hissue
    refine ⟨?_, grant, hmem, hhash, hnone, ?_, ?_, rfl, ?_⟩
    · rw [oauthStep, hok]
      rfl
    · exact List.mem_append_left _ (mem_updateWhere.mpr ⟨grant, hmem, by rw [if_pos hconsumes]⟩)
    · intro hold
      simpa [hnone] using h.tokens.spent_of_redeemed grant hmem hold
    · refine ⟨hstored.access, hstored.refresh, hstored.one_access, ?_⟩
      simp [updateWhere]

end

/-- Codes and refresh tokens are exchanged at most once, whatever requests there were and
in whatever order. -/
theorem oauth_single_use (hashes : OAuthHashes) (steps : List OAuthStep) :
    OAuthSafe hashes (run (oauthStep hashes) {} steps) := by
  have h : OAuthInv (run (oauthStep hashes) {} steps) := oauthInv_run steps
  refine ⟨h.codes.once, h.tokens.once, fun q => oauthStep_redeem_of_mismatched,
    fun q => oauthStep_rotate_of_mismatched, h.redeemsWhole, h.rotatesWhole, fun code nowMs => ?_⟩
  refine le_trans (List.countP_mono_left fun r _ hr => ?_) (h.standing code)
  simp only [RefreshTokenRow.live, Bool.and_eq_true, decide_eq_true_eq, beq_iff_eq] at hr
  simp [RefreshTokenRow.stands, hr.1.1, hr.2]

end Scrumboy
