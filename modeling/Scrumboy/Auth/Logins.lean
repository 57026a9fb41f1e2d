import Scrumboy.Auth.SecondFactor

/-!
# Logins with a second factor

Any number of logins run next to each other, and next to the other requests that create
challenges and use, replace or drop recovery codes. A login reads the challenge of its
token, counts its attempt in one statement, withdraws the challenge in a second one if it
was not admitted, verifies the code, and completes in one transaction. The environment
says what the rate limits and the check of a one-time password answer.
-/

set_option linter.dupNamespace false

namespace Scrumboy

open Go Sql Transition

/-- How the second factor of a login is verified. -/
inductive SecondFactorAnswer
  | verified
  | recovery
  | rejected
  deriving DecidableEq, Repr

structure LoginInput where
  nowMs : ℤ
  allowed : Bool
  answer : SecondFactorAnswer
  sessionToken : Option String
  deriving DecidableEq, Repr

inductive LoginResult
  | refused (result : AttemptResult)
  | rateLimited
  | unverified
  | failed (e : StoreError)
  | session (token : String)
  deriving DecidableEq, Repr

inductive LoginPC
  | start
  | increment (userID : ℤ)
  | withdraw (userID : ℤ) (nowMs : ℤ)
  | verify (userID : ℤ)
  | complete (userID : ℤ) (proof : RecoveryCodeProof)
  | done (result : LoginResult)
  deriving DecidableEq, Repr

/-- The other requests, each of them one transaction or one statement. -/
inductive AuthCall
  | createPending (userID ttl : ℤ) (token : Option String)
  | deletePending (token : String)
  | linkIdentity (userID : ℤ) (issuer subject verifiedEmail : String)
  | linkIdentityWithProof (userID : ℤ) (issuer subject verifiedEmail : String) (proof : RecoveryCodeProof)
  | setFirstPassword (userID : ℤ) (rawGrant sessionToken password : String) (newHash : Option String)
  | setFirstPasswordWithProof (userID : ℤ) (rawGrant sessionToken password : String)
      (newHash : Option String) (proof : RecoveryCodeProof)
  | consumeProof (userID : ℤ) (proof : RecoveryCodeProof)
  | replaceCodes (userID : ℤ) (codeHashes : List String) (proof : RecoveryCodeProof)
  | addCode (userID : ℤ) (codeHash : String)
  | deleteCodes (userID : ℤ)
  | clearTwoFactor (userID : ℤ)
  | resetPassword (userID : ℤ) (expectedHash password : String) (newHash : Option String)
  deriving DecidableEq, Repr

inductive LoginProc
  | login (token code : String) (pc : LoginPC)
  | call (c : AuthCall)
  | returned (c : AuthCall) (err : Option StoreError)
  deriving DecidableEq, Repr

section

variable (hashes : LoginHashes)

/-- After `GetUserByLogin2FAPendingToken` and the rate limit. -/
def LoginState.afterLookup (s : LoginState) (token : String) (a : LoginInput) : LoginPC :=
  if trimSpace token = "" then .done (.refused .notFound)
  else
    match s.pending.find? fun r => s.users.any (·.id == r.userID) && LoginState.presents hashes token a.nowMs r with
    | none => .done (.refused .notFound)
    | some r => if a.allowed then .increment r.userID else .done .rateLimited

/-- After the second factor was verified. -/
def LoginState.afterVerify (s : LoginState) (userID : ℤ) (code : String) (a : LoginInput) : LoginPC :=
  if a.allowed then
    match a.answer with
    | .verified => .complete userID {}
    | .rejected => .done .unverified
    | .recovery =>
        let proof := LoginState.matchRecoveryCodeProof hashes s userID code
        if proof.id = 0 ∨ proof.hash = "" then .done .unverified else .complete userID proof
  else .done .rateLimited

def loginStep (s : LoginState) (token code : String) (a : LoginInput) : LoginPC → LoginState × LoginPC
  | .start => (s, s.afterLookup hashes token a)
  | .increment userID =>
      let (s, admitted) := LoginState.admitAttempt hashes s token a.nowMs
      (s, if admitted then .verify userID else .withdraw userID a.nowMs)
  | .withdraw _ nowMs =>
      let (s, result) := LoginState.withdraw hashes s token nowMs
      (s, .done (.refused result))
  | .verify userID => (s, s.afterVerify hashes userID code a)
  | .complete userID proof =>
      match LoginState.completeLogin2FA hashes s token userID proof sessionDefaultTTL a.sessionToken
        a.nowMs with
      | .ok (s', sessionToken) => (s', .done (.session sessionToken))
      | .error e => (s, .done (.failed e))
  | .done result => (s, .done result)

def runAuthCall (s : LoginState) (nowMs : ℤ) : AuthCall → Result LoginState
  | .createPending userID ttl token => LoginState.createLogin2FAPending hashes s userID ttl token nowMs
  | .deletePending token => pure (LoginState.deleteLogin2FAPendingToken hashes s token)
  | .linkIdentity userID issuer subject verifiedEmail =>
      s.linkOIDCIdentityExplicit userID issuer subject verifiedEmail {} nowMs
  | .linkIdentityWithProof userID issuer subject verifiedEmail proof =>
      s.linkOIDCIdentityWithProof userID issuer subject verifiedEmail proof nowMs
  | .setFirstPassword userID rawGrant sessionToken password newHash =>
      LoginState.setFirstPassword hashes s userID rawGrant sessionToken password newHash {} nowMs
  | .setFirstPasswordWithProof userID rawGrant sessionToken password newHash proof =>
      LoginState.setFirstPasswordWithRecoveryCode hashes s userID rawGrant sessionToken password newHash
        proof nowMs
  | .consumeProof userID proof => s.consumeRecoveryProofTx userID proof nowMs
  | .replaceCodes userID codeHashes proof => s.replaceRecoveryCodes userID codeHashes proof nowMs
  | .addCode userID codeHash => s.insertRecoveryCode userID nowMs codeHash
  | .deleteCodes userID =>
      pure { s with recoveryCodes := deleteWhere (·.userID == userID) s.recoveryCodes }
  | .clearTwoFactor userID => pure (s.clearUserTwoFactor userID)
  | .resetPassword userID expectedHash password newHash =>
      LoginState.resetLocalPassword hashes s userID expectedHash password newHash

def authStep (s : LoginState) (p : LoginProc) (a : LoginInput) : LoginState × LoginProc :=
  match p with
  | .login token code pc =>
      let (s, pc) := loginStep hashes s token code a pc
      (s, .login token code pc)
  | .call c =>
      match runAuthCall hashes s a.nowMs c with
      | .ok s' => (s', .returned c none)
      | .error e => (s, .returned c (some e))
  | .returned c err => (s, .returned c err)

end

structure LoginInv (s : LoginState) : Prop where
  challenges : SingleUse PendingRow.issue (fun _ => false) s.pending s.challengesIssued
    (s.closed.map Prod.fst)
  codes : SingleUse RecoveryRow.issue (·.usedAt.isSome) s.recoveryCodes s.codesIssued s.codesUsed
  counted : ∀ r ∈ s.pending, s.admitted.count r.issue ≤ r.attemptCount
  bounded : ∀ n, s.admitted.count n ≤ maxAttemptsPerToken
  admitted_issued : ∀ n ∈ s.admitted, n < s.challengesIssued

theorem exists_of_countP_eq_one {α : Type} {p : α → Bool} {l : List α} (h : l.countP p = 1) :
    ∃ r ∈ l, p r = true ∧ l.filter p = [r] := by
  rw [List.countP_eq_length_filter, List.length_eq_one_iff] at h
  obtain ⟨r, hr⟩ := h
  have hmem : r ∈ l.filter p := hr ▸ List.mem_singleton_self r
  exact ⟨r, (List.mem_filter.mp hmem).1, (List.mem_filter.mp hmem).2, hr⟩

section

variable {hashes : LoginHashes} {s s' : LoginState}

namespace LoginInv

theorem deletePending (h : LoginInv s) (p : PendingRow → Bool) :
    LoginInv { s with pending := deleteWhere p s.pending } where
  challenges := h.challenges.deleteWhere p
  codes := h.codes
  counted := fun r hr => h.counted r (mem_deleteWhere.mp hr).1
  bounded := h.bounded
  admitted_issued := h.admitted_issued

theorem close (h : LoginInv s) {p : PendingRow → Bool} (hone : s.pending.countP p = 1) (how : Closing) :
    LoginInv (s.close p how) := by
  obtain ⟨r, hr, hp, hfilter⟩ := exists_of_countP_eq_one hone
  refine ⟨?_, h.codes, fun r hr => h.counted r (mem_deleteWhere.mp hr).1, h.bounded, h.admitted_issued⟩
  rw [LoginState.close, hfilter]
  simpa using h.challenges.remove hr hp rfl

theorem insertPending (h : LoginInv s) {r : PendingRow} (hr : r.issue = s.challengesIssued) :
    LoginInv { s with pending := s.pending ++ [r], challengesIssued := s.challengesIssued + 1 } where
  challenges := h.challenges.insert hr
  codes := h.codes
  counted := by
    intro r' hr'
    rcases List.mem_append.mp hr' with hr' | hr'
    · exact h.counted r' hr'
    · have hnone : s.admitted.count r'.issue = 0 := by
        rw [List.count_eq_zero, List.mem_singleton.mp hr', hr]
        exact fun hmem => absurd (h.admitted_issued _ hmem) (lt_irrefl _)
      rw [hnone]
      exact Nat.zero_le _
  bounded := h.bounded
  admitted_issued := fun n hn => (h.admitted_issued n hn).trans (Nat.lt_succ_self _)

/-- An attempt is counted on the row that admits it. -/
theorem admitAttempt (h : LoginInv s) (token : String) (nowMs : ℤ) :
    LoginInv (LoginState.admitAttempt hashes s token nowMs).1 := by
  have hchallenges := fun p : PendingRow → Bool => h.challenges.update (p := p)
    (f := fun r => { r with attemptCount := r.attemptCount + 1, lastAttemptAt := some nowMs })
    (fun _ => rfl) fun _ hspent => hspent
  unfold LoginState.admitAttempt
  dsimp only
  split
  · rename_i hone
    obtain ⟨r, hr, hadmits, hfilter⟩ := exists_of_countP_eq_one hone
    simp only [Bool.and_eq_true, decide_eq_true_eq] at hadmits
    have hcount : ∀ n, (s.admitted ++ [r.issue]).count n =
        s.admitted.count n + if r.issue = n then 1 else 0 := by
      intro n
      simp [List.count_append, List.count_singleton]
    rw [hfilter]
    refine ⟨hchallenges _, h.codes, fun r' hr' => ?_, fun n => ?_, fun n hn => ?_⟩
    · obtain ⟨r₀, hr₀, rfl⟩ := mem_updateWhere.mp hr'
      have hold := h.counted r₀ hr₀
      rw [List.map_singleton, hcount]
      split
      · dsimp only
        split
        · omega
        · omega
      · rename_i hskip
        have hother : r.issue ≠ r₀.issue := by
          intro heq
          rw [← h.challenges.eq_of_serial hr hr₀ heq] at hskip
          simp [hadmits] at hskip
        rw [if_neg hother]
        exact hold
    · rw [List.map_singleton, hcount]
      split
      · rename_i heq
        have hold := h.counted r hr
        rw [heq] at hold
        omega
      · exact h.bounded n
    · rcases List.mem_append.mp hn with hn | hn
      · exact h.admitted_issued n hn
      · rw [List.map_singleton, List.mem_singleton] at hn
        exact hn ▸ h.challenges.issued_of_mem r hr
  · refine ⟨hchallenges _, h.codes, fun r' hr' => ?_, h.bounded, h.admitted_issued⟩
    obtain ⟨r₀, hr₀, rfl⟩ := mem_updateWhere.mp hr'
    have hold := h.counted r₀ hr₀
    split
    · exact hold.trans (Nat.le_succ _)
    · exact hold

theorem withdraw (h : LoginInv s) (token : String) (nowMs : ℤ) :
    LoginInv (LoginState.withdraw hashes s token nowMs).1 := by
  unfold LoginState.withdraw
  dsimp only
  split
  · exact h.close ‹_› _
  · exact h.deletePending _

/-- Nothing is said about users, sessions, identities and password grants. -/
theorem frame (h : LoginInv s) (users : List LoginUser) (sessions : List SessionRow)
    (identities : List IdentityRow) (passwordGrants : List PasswordGrant) :
    LoginInv { s with
      users := users, sessions := sessions, identities := identities, passwordGrants := passwordGrants } :=
  ⟨h.challenges, h.codes, h.counted, h.bounded, h.admitted_issued⟩

theorem deleteCodes (h : LoginInv s) (p : RecoveryRow → Bool) :
    LoginInv { s with recoveryCodes := deleteWhere p s.recoveryCodes } :=
  ⟨h.challenges, h.codes.deleteWhere p, h.counted, h.bounded, h.admitted_issued⟩

theorem insertRecoveryCode (h : LoginInv s) {userID nowMs : ℤ} {hash : String}
    (hok : s.insertRecoveryCode userID nowMs hash = .ok s') : LoginInv s' := by
  simp only [LoginState.insertRecoveryCode, bind_eq_ok, pure_eq_ok] at hok
  obtain ⟨_, _, rfl⟩ := hok
  exact ⟨h.challenges, h.codes.insert rfl, h.counted, h.bounded, h.admitted_issued⟩

theorem insertHashedRecoveryCodesTx (h : LoginInv s) {userID nowMs : ℤ} {codeHashes : List String}
    (hok : s.insertHashedRecoveryCodesTx userID codeHashes nowMs = .ok s') : LoginInv s' :=
  foldlM_inv (P := LoginInv) (fun _ _ _ _ hs hins => hs.insertRecoveryCode hins) h hok

theorem consumeRecoveryProofTx (h : LoginInv s) {userID nowMs : ℤ} {proof : RecoveryCodeProof}
    (hok : s.consumeRecoveryProofTx userID proof nowMs = .ok s') : LoginInv s' := by
  simp only [LoginState.consumeRecoveryProofTx, bind_eq_ok, reject_eq_ok, pure_eq_ok, not_not] at hok
  obtain ⟨_, _, _, hone, rfl⟩ := hok
  obtain ⟨r, hr, hnames, hfilter⟩ := exists_of_countP_eq_one hone
  refine ⟨h.challenges, ?_, h.counted, h.bounded, h.admitted_issued⟩
  have hunused : r.usedAt.isSome = false := by
    simp only [RecoveryCodeProof.names, decide_eq_true_eq] at hnames
    simp [hnames.2.2.1]
  rw [hfilter]
  exact h.codes.redeem (fun _ => rfl) (fun _ => rfl) hr hnames hunused

theorem consumeGivenProofTx (h : LoginInv s) {userID nowMs : ℤ} {proof : RecoveryCodeProof}
    (hok : s.consumeGivenProofTx userID proof nowMs = .ok s') : LoginInv s' := by
  unfold LoginState.consumeGivenProofTx at hok
  split at hok
  · exact h.consumeRecoveryProofTx hok
  · rw [pure_eq_ok] at hok
    exact hok ▸ h

theorem completeLogin2FA (h : LoginInv s) {token sessionToken : String} {userID sessionTTL nowMs : ℤ}
    {proof : RecoveryCodeProof} {draw : Option String}
    (hok : LoginState.completeLogin2FA hashes s token userID proof sessionTTL draw nowMs =
      .ok (s', sessionToken)) : LoginInv s' := by
  simp only [LoginState.completeLogin2FA, bind_eq_ok, reject_eq_ok] at hok
  obtain ⟨_, _, _, _, hok⟩ := hok
  split at hok
  · simp only [LoginState.insertSessionTx, bind_eq_ok, reject_eq_ok, pure_eq_ok, not_not,
      Prod.mk.injEq] at hok
    obtain ⟨_, hone, s₁, hproof, _, ⟨_, _, _, _, rfl⟩, rfl, _⟩ := hok
    exact ((h.close hone .loggedIn).consumeGivenProofTx hproof).frame _ _ _ _
  · simp at hok

theorem createLogin2FAPending (h : LoginInv s) {userID ttl nowMs : ℤ} {token : Option String}
    (hok : LoginState.createLogin2FAPending hashes s userID ttl token nowMs = .ok s') : LoginInv s' := by
  simp only [LoginState.createLogin2FAPending, bind_eq_ok, reject_eq_ok] at hok
  obtain ⟨_, _, hok⟩ := hok
  split at hok
  · simp only [bind_eq_ok, reject_eq_ok, pure_eq_ok] at hok
    obtain ⟨_, _, _, _, rfl⟩ := hok
    exact ((h.deletePending _).deletePending _).insertPending rfl
  · simp at hok

theorem linkOIDCIdentityExplicit (h : LoginInv s) {userID nowMs : ℤ}
    {issuer subject verifiedEmail : String} {proof : RecoveryCodeProof}
    (hok : s.linkOIDCIdentityExplicit userID issuer subject verifiedEmail proof nowMs = .ok s') :
    LoginInv s' := by
  simp only [LoginState.linkOIDCIdentityExplicit, bind_eq_ok] at hok
  obtain ⟨s₁, hproof, hok⟩ := hok
  have h := h.consumeGivenProofTx hproof
  split at hok
  · simp only [bind_eq_ok] at hok
    obtain ⟨_, _, _, _, hok⟩ := hok
    split at hok
    · simp only [bind_eq_ok, pure_eq_ok] at hok
      obtain ⟨_, _, rfl⟩ := hok
      exact h.frame _ _ _ _
    · rw [pure_eq_ok] at hok
      exact hok ▸ h.frame _ _ _ _
  · simp at hok

theorem setFirstPassword (h : LoginInv s) {userID nowMs : ℤ} {rawGrant sessionToken password : String}
    {newHash : Option String} {proof : RecoveryCodeProof}
    (hok : LoginState.setFirstPassword hashes s userID rawGrant sessionToken password newHash proof nowMs =
      .ok s') : LoginInv s' := by
  simp only [LoginState.setFirstPassword, bind_eq_ok] at hok
  obtain ⟨_, _, hok⟩ := hok
  split at hok
  · simp only [bind_eq_ok] at hok
    obtain ⟨_, _, hok⟩ := hok
    split at hok
    · simp only [bind_eq_ok, pure_eq_ok] at hok
      obtain ⟨_, _, s₁, hproof, _, _, rfl⟩ := hok
      exact (h.consumeGivenProofTx hproof).frame _ _ _ _
    · simp at hok
  · simp at hok

theorem replaceRecoveryCodes (h : LoginInv s) {userID nowMs : ℤ} {codeHashes : List String}
    {proof : RecoveryCodeProof}
    (hok : s.replaceRecoveryCodes userID codeHashes proof nowMs = .ok s') : LoginInv s' := by
  simp only [LoginState.replaceRecoveryCodes, bind_eq_ok] at hok
  obtain ⟨_, _, _, _, _, _, hok⟩ := hok
  split at hok
  · simp only [bind_eq_ok] at hok
    obtain ⟨_, _, hok⟩ := hok
    split at hok
    · simp only [bind_eq_ok, pure_eq_ok] at hok
      obtain ⟨s₁, hproof, s₂, hins, rfl⟩ := hok
      exact (((h.consumeRecoveryProofTx hproof).deleteCodes _).insertHashedRecoveryCodesTx hins).deleteCodes _
    · exact (h.deleteCodes _).insertHashedRecoveryCodesTx hok
  · simp at hok

theorem resetLocalPassword (h : LoginInv s) {userID : ℤ} {expectedHash password : String}
    {newHash : Option String}
    (hok : LoginState.resetLocalPassword hashes s userID expectedHash password newHash = .ok s') :
    LoginInv s' := by
  simp only [LoginState.resetLocalPassword, bind_eq_ok] at hok
  obtain ⟨_, _, _, _, hok⟩ := hok
  split at hok
  · simp only [bind_eq_ok, pure_eq_ok] at hok
    obtain ⟨_, _, rfl⟩ := hok
    exact (h.deletePending _).frame _ _ _ _
  · simp at hok

theorem runAuthCall (h : LoginInv s) {nowMs : ℤ} {c : AuthCall}
    (hok : runAuthCall hashes s nowMs c = .ok s') : LoginInv s' := by
  cases c with
  | createPending userID ttl token => exact h.createLogin2FAPending hok
  | deletePending token =>
      simp only [Scrumboy.runAuthCall, LoginState.deleteLogin2FAPendingToken, pure_eq_ok] at hok
      subst hok
      split
      · exact h
      · exact h.deletePending _
  | linkIdentity userID issuer subject verifiedEmail => exact h.linkOIDCIdentityExplicit hok
  | linkIdentityWithProof userID issuer subject verifiedEmail proof =>
      simp only [Scrumboy.runAuthCall, LoginState.linkOIDCIdentityWithProof, bind_eq_ok] at hok
      obtain ⟨_, _, hok⟩ := hok
      exact h.linkOIDCIdentityExplicit hok
  | setFirstPassword userID rawGrant sessionToken password newHash => exact h.setFirstPassword hok
  | setFirstPasswordWithProof userID rawGrant sessionToken password newHash proof =>
      simp only [Scrumboy.runAuthCall, LoginState.setFirstPasswordWithRecoveryCode, bind_eq_ok] at hok
      obtain ⟨_, _, hok⟩ := hok
      exact h.setFirstPassword hok
  | consumeProof userID proof => exact h.consumeRecoveryProofTx hok
  | replaceCodes userID codeHashes proof => exact h.replaceRecoveryCodes hok
  | addCode userID codeHash => exact h.insertRecoveryCode hok
  | deleteCodes userID =>
      simp only [Scrumboy.runAuthCall, pure_eq_ok] at hok
      exact hok ▸ h.deleteCodes _
  | clearTwoFactor userID =>
      simp only [Scrumboy.runAuthCall, pure_eq_ok] at hok
      exact hok ▸ (h.deleteCodes _).frame _ _ _ _
  | resetPassword userID expectedHash password newHash => exact h.resetLocalPassword hok

theorem loginStep (h : LoginInv s) (token code : String) (a : LoginInput) (pc : LoginPC) :
    LoginInv (loginStep hashes s token code a pc).1 := by
  cases pc with
  | start => exact h
  | increment userID => exact h.admitAttempt token a.nowMs
  | withdraw userID nowMs => exact h.withdraw token nowMs
  | verify userID => exact h
  | complete userID proof =>
      rw [Scrumboy.loginStep]
      split
      · exact h.completeLogin2FA ‹_›
      · exact h
  | done result => exact h

theorem authStep (h : LoginInv s) (p : LoginProc) (a : LoginInput) :
    LoginInv (authStep hashes s p a).1 := by
  cases p with
  | login token code pc => exact h.loginStep token code a pc
  | call c =>
      rw [Scrumboy.authStep]
      split
      · exact h.runAuthCall ‹_›
      · exact h
  | returned c err => exact h

end LoginInv

theorem loginInv_run {procs : List LoginProc} {schedule : List (ℕ × LoginInput)} (h : LoginInv s) :
    LoginInv (run (Pool.step (authStep hashes)) ⟨s, procs⟩ schedule).shared := by
  have hinv : (run (Pool.step (authStep hashes)) ⟨s, procs⟩ schedule).Inv LoginInv fun _ _ => True := by
    induction schedule using List.reverseRecOn with
    | nil => exact ⟨h, fun _ _ => trivial⟩
    | append_singleton schedule a ih =>
        rw [run_concat]
        exact ih.step fun p _ _ => ⟨ih.shared.authStep p a.2, trivial, fun _ _ => trivial⟩
  exact hinv.shared

/-- A proof that is used changes the recovery codes and nothing else. -/
theorem consumeGivenProofTx_eq_ok {userID nowMs : ℤ} {proof : RecoveryCodeProof}
    (h : s.consumeGivenProofTx userID proof nowMs = .ok s') :
    s' = { s with recoveryCodes := s'.recoveryCodes, codesUsed := s'.codesUsed } := by
  unfold LoginState.consumeGivenProofTx at h
  split at h
  · simp only [LoginState.consumeRecoveryProofTx, bind_eq_ok, pure_eq_ok] at h
    obtain ⟨_, _, _, _, rfl⟩ := h
    rfl
  · rw [pure_eq_ok] at h
    exact h ▸ rfl

/-- A login that completes closes one challenge and opens one session. -/
theorem completeLogin2FA_eq_ok {token sessionToken : String} {userID sessionTTL nowMs : ℤ}
    {proof : RecoveryCodeProof} {draw : Option String}
    (h : LoginState.completeLogin2FA hashes s token userID proof sessionTTL draw nowMs =
      .ok (s', sessionToken)) :
    ∃ r ∈ s.pending, r.tokenHash = hashes.hashToken (trimSpace token) ∧
      s'.closed = s.closed ++ [(r.issue, Closing.loggedIn)] ∧
      ∃ row : SessionRow, row.tokenHash = hashes.hashToken sessionToken ∧ s'.sessions = s.sessions ++ [row] := by
  simp only [LoginState.completeLogin2FA, bind_eq_ok, reject_eq_ok] at h
  obtain ⟨_, _, _, _, h⟩ := h
  split at h
  · simp only [LoginState.insertSessionTx, bind_eq_ok, reject_eq_ok, pure_eq_ok, not_not,
      Prod.mk.injEq] at h
    obtain ⟨_, hone, s₁, hproof, _, ⟨_, _, _, _, rfl⟩, rfl, rfl⟩ := h
    obtain ⟨r, hr, hp, hfilter⟩ := exists_of_countP_eq_one hone
    rw [consumeGivenProofTx_eq_ok hproof]
    refine ⟨r, hr, ?_, ?_, ?_⟩
    · simp only [LoginState.completes, LoginState.presents, Bool.and_eq_true, decide_eq_true_eq] at hp
      exact hp.1.1
    · simp [LoginState.close, hfilter]
    · exact ⟨_, rfl, rfl⟩
  · simp at h

end

/-- What holds of logins with a second factor: of the records of a state, and of the next step
from it. -/
structure LoginSafe (hashes : LoginHashes) (s : LoginState) : Prop where
  one_session : ∀ n, s.closed.count (n, .loggedIn) ≤ 1
  attempts : ∀ n, s.admitted.count n ≤ maxAttemptsPerToken
  no_session_if_exhausted : ∀ n, (n, Closing.exhausted) ∈ s.closed → (n, Closing.loggedIn) ∉ s.closed
  codes_once : s.codesUsed.Nodup
  codes_marked : ∀ r ∈ s.recoveryCodes, r.issue ∈ s.codesUsed → r.usedAt ≠ none
  session_closes : ∀ token userID proof sessionTTL draw nowMs s' sessionToken,
    LoginState.completeLogin2FA hashes s token userID proof sessionTTL draw nowMs =
      .ok (s', sessionToken) →
    ∃ r ∈ s.pending, r.tokenHash = hashes.hashToken (trimSpace token) ∧
      s'.closed = s.closed ++ [(r.issue, Closing.loggedIn)] ∧
      ∃ row : SessionRow, row.tokenHash = hashes.hashToken sessionToken ∧ s'.sessions = s.sessions ++ [row]
  login_rolled_back : ∀ token code userID proof a e,
    LoginState.completeLogin2FA hashes s token userID proof sessionDefaultTTL a.sessionToken a.nowMs =
      .error e → (authStep hashes s (.login token code (.complete userID proof)) a).1 = s
  call_rolled_back : ∀ c a e, runAuthCall hashes s a.nowMs c = .error e →
    (authStep hashes s (.call c) a).1 = s

theorem LoginInv.safe {hashes : LoginHashes} {s : LoginState} (h : LoginInv s) : LoginSafe hashes s where
  one_session := by
    intro n
    refine List.nodup_iff_count_le_one.mp ?_ _
    exact List.Nodup.of_map Prod.fst h.challenges.once
  attempts := h.bounded
  no_session_if_exhausted := by
    intro n hexhausted hloggedIn
    have heq := List.inj_on_of_nodup_map h.challenges.once hexhausted hloggedIn rfl
    cases heq
  codes_once := h.codes.once
  codes_marked := by
    intro r hr hused hnone
    have := h.codes.spent_of_redeemed r hr hused
    simp [hnone] at this
  session_closes := fun _ _ _ _ _ _ _ _ => completeLogin2FA_eq_ok
  login_rolled_back := by
    intro token code userID proof a e herr
    simp only [Scrumboy.authStep, Scrumboy.loginStep, herr]
  call_rolled_back := by
    intro c a e herr
    simp only [Scrumboy.authStep, herr]

/-- A store without challenges and recovery codes. -/
def LoginState.unchallenged (users : List LoginUser) (sessions : List SessionRow)
    (identities : List IdentityRow) (passwordGrants : List PasswordGrant) : LoginState where
  users := users
  sessions := sessions
  identities := identities
  passwordGrants := passwordGrants

end Scrumboy
