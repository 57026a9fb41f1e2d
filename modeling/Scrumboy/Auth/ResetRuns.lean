import Scrumboy.Auth.PasswordResets

/-!
# Runs of password resets

A hash that is no longer the hash of a user's password never becomes it again, because
every new hash is one that was never stored. So a token is dead once the hash that it was
signed with is gone, be it by the token itself or by another change.
-/

set_option linter.dupNamespace false

namespace Scrumboy

open Go Sql Transition

/-- What a transaction does to password hashes: the hash of a user stays or becomes the new one. -/
structure SetsHash (users users' : List LoginUser) (newHash : Option String) : Prop where
  ids : users'.map (·.id) = users.map (·.id)
  hashes : ∀ userID, passwordHashOf users' userID = passwordHashOf users userID ∨
    passwordHashOf users' userID = newHash

theorem SetsHash.refl (users : List LoginUser) (newHash : Option String) : SetsHash users users newHash :=
  ⟨rfl, fun _ => .inl rfl⟩

theorem passwordHashOf_cons (u : LoginUser) (users : List LoginUser) (userID : ℤ) :
    passwordHashOf (u :: users) userID =
      if u.id = userID then u.passwordHash else passwordHashOf users userID := by
  by_cases hid : u.id = userID
  · simp [passwordHashOf, hid]
  · simp [passwordHashOf, hid]

theorem setsHash_updateWhere (users : List LoginUser) (p : LoginUser → Bool) (newHash : String) :
    SetsHash users (updateWhere p (fun v => { v with passwordHash := some newHash }) users)
      (some newHash) where
  ids := map_updateWhere (f := fun v : LoginUser => { v with passwordHash := some newHash }) (·.id)
    (fun _ => rfl) _
  hashes := by
    intro userID
    induction users with
    | nil => exact .inl rfl
    | cons u users ih =>
        rw [updateWhere, List.map_cons, ← updateWhere, passwordHashOf_cons, passwordHashOf_cons]
        by_cases hid : u.id = userID
        · cases hp : p u with
          | true => simp [hid]
          | false => simp [hid]
        · cases hp : p u with
          | true => simpa [hid] using ih
          | false => simpa [hid] using ih

theorem setsHash_twoFactor (users : List LoginUser) (userID : ℤ) (newHash : Option String) :
    SetsHash users (updateWhere (·.id == userID) (fun u => { u with twoFactorEnabled := false }) users)
      newHash where
  ids := map_updateWhere (f := fun u : LoginUser => { u with twoFactorEnabled := false }) (·.id)
    (fun _ => rfl) _
  hashes := by
    intro k
    left
    rw [passwordHashOf, find?_updateWhere (f := fun u : LoginUser => { u with twoFactorEnabled := false })
      LoginUser.id (fun _ h => h), passwordHashOf]
    cases users.find? (·.id == k) with
    | none => rfl
    | some u =>
        rw [Option.map_some]
        split
        · rfl
        · rfl

section

variable {hashes : LoginHashes} {s s' : LoginState}

/-- One user's hash becomes the new one, and the user has no session and no challenge left. -/
theorem resetLocalPassword_eq_ok {userID : ℤ} {expectedHash password : String} {newHash : Option String}
    (h : LoginState.resetLocalPassword hashes s userID expectedHash password newHash = .ok s') :
    ∃ hash, newHash = some hash ∧
      s.users.countP (fun v => v.id == userID && v.passwordHash == some expectedHash) = 1 ∧
      s'.users = updateWhere (fun v => v.id == userID && v.passwordHash == some expectedHash)
        (fun v => { v with passwordHash := some hash }) s.users ∧
      s'.sessions = deleteWhere (·.userID == userID) s.sessions ∧
      s'.pending = deleteWhere (·.userID == userID) s.pending := by
  simp only [LoginState.resetLocalPassword, bind_eq_ok, reject_eq_ok] at h
  obtain ⟨_, _, _, _, h⟩ := h
  split at h
  · rename_i hash
    simp only [bind_eq_ok, reject_eq_ok, pure_eq_ok, not_not] at h
    obtain ⟨_, hone, rfl⟩ := h
    exact ⟨hash, rfl, hone, rfl, rfl, rfl⟩
  · simp at h

theorem setFirstPassword_sets {userID nowMs : ℤ} {rawGrant sessionToken password : String}
    {newHash : Option String} {proof : RecoveryCodeProof}
    (h : LoginState.setFirstPassword hashes s userID rawGrant sessionToken password newHash proof nowMs =
      .ok s') : SetsHash s.users s'.users newHash := by
  simp only [LoginState.setFirstPassword, bind_eq_ok] at h
  obtain ⟨_, _, h⟩ := h
  split at h
  · simp only [bind_eq_ok] at h
    obtain ⟨_, _, h⟩ := h
    split at h
    · simp only [bind_eq_ok, pure_eq_ok] at h
      obtain ⟨_, _, s₁, hproof, _, _, rfl⟩ := h
      rw [consumeGivenProofTx_eq_ok hproof]
      exact setsHash_updateWhere _ _ _
    · simp at h
  · simp at h

theorem recoverOwnerPassword_sets {owners : List ℤ} {email password : String} {newHash : Option String}
    (h : recoverOwnerPassword s owners email password newHash = .ok s') :
    SetsHash s.users s'.users newHash := by
  simp only [recoverOwnerPassword, bind_eq_ok] at h
  obtain ⟨_, _, _, _, h⟩ := h
  split at h
  · split at h
    · simp at h
    · simp only [bind_eq_ok, pure_eq_ok] at h
      obtain ⟨_, _, rfl⟩ := h
      exact setsHash_updateWhere _ _ _
    · simp at h
  · simp at h

theorem completeLogin2FA_users {token sessionToken : String} {userID sessionTTL nowMs : ℤ}
    {proof : RecoveryCodeProof} {draw : Option String}
    (h : LoginState.completeLogin2FA hashes s token userID proof sessionTTL draw nowMs =
      .ok (s', sessionToken)) : s'.users = s.users := by
  simp only [LoginState.completeLogin2FA, bind_eq_ok, reject_eq_ok] at h
  obtain ⟨_, _, _, _, h⟩ := h
  split at h
  · simp only [LoginState.insertSessionTx, bind_eq_ok, pure_eq_ok, Prod.mk.injEq] at h
    obtain ⟨_, _, s₁, hproof, _, ⟨_, _, _, _, rfl⟩, rfl, _⟩ := h
    rw [consumeGivenProofTx_eq_ok hproof]
    rfl
  · simp at h

theorem insertHashedRecoveryCodesTx_users {userID nowMs : ℤ} {codeHashes : List String}
    (h : s.insertHashedRecoveryCodesTx userID codeHashes nowMs = .ok s') : s'.users = s.users := by
  refine foldlM_inv (P := fun t : LoginState => t.users = s.users) (fun t hash t' _ ht hins => ?_) rfl h
  simp only [LoginState.insertRecoveryCode, bind_eq_ok, pure_eq_ok] at hins
  obtain ⟨_, _, rfl⟩ := hins
  exact ht

theorem consumeRecoveryProofTx_users {userID nowMs : ℤ} {proof : RecoveryCodeProof}
    (h : s.consumeRecoveryProofTx userID proof nowMs = .ok s') : s'.users = s.users := by
  simp only [LoginState.consumeRecoveryProofTx, bind_eq_ok, pure_eq_ok] at h
  obtain ⟨_, _, _, _, rfl⟩ := h
  rfl

theorem replaceRecoveryCodes_users {userID nowMs : ℤ} {codeHashes : List String}
    {proof : RecoveryCodeProof}
    (h : s.replaceRecoveryCodes userID codeHashes proof nowMs = .ok s') : s'.users = s.users := by
  simp only [LoginState.replaceRecoveryCodes, bind_eq_ok] at h
  obtain ⟨_, _, _, _, _, _, h⟩ := h
  split at h
  · simp only [bind_eq_ok] at h
    obtain ⟨_, _, h⟩ := h
    split at h
    · simp only [bind_eq_ok, pure_eq_ok] at h
      obtain ⟨s₁, hproof, s₂, hins, rfl⟩ := h
      have hinserted := insertHashedRecoveryCodesTx_users hins
      have hconsumed := consumeRecoveryProofTx_users hproof
      exact hinserted.trans hconsumed
    · have hinserted := insertHashedRecoveryCodesTx_users h
      exact hinserted
  · simp at h

theorem linkOIDCIdentityExplicit_users {userID nowMs : ℤ} {issuer subject verifiedEmail : String}
    {proof : RecoveryCodeProof}
    (h : s.linkOIDCIdentityExplicit userID issuer subject verifiedEmail proof nowMs = .ok s') :
    s'.users = s.users := by
  simp only [LoginState.linkOIDCIdentityExplicit, bind_eq_ok] at h
  obtain ⟨s₁, hproof, h⟩ := h
  have husers : s₁.users = s.users := by rw [consumeGivenProofTx_eq_ok hproof]
  split at h
  · simp only [bind_eq_ok] at h
    obtain ⟨_, _, _, _, h⟩ := h
    split at h
    · simp only [bind_eq_ok, pure_eq_ok] at h
      obtain ⟨_, _, rfl⟩ := h
      exact husers
    · rw [pure_eq_ok] at h
      exact h ▸ husers
  · simp at h

theorem createLogin2FAPending_users {userID ttl nowMs : ℤ} {token : Option String}
    (h : LoginState.createLogin2FAPending hashes s userID ttl token nowMs = .ok s') :
    s'.users = s.users := by
  simp only [LoginState.createLogin2FAPending, bind_eq_ok] at h
  obtain ⟨_, _, h⟩ := h
  split at h
  · simp only [bind_eq_ok, pure_eq_ok] at h
    obtain ⟨_, _, _, _, rfl⟩ := h
    rfl
  · simp at h

theorem runAuthCall_sets {nowMs : ℤ} {c : AuthCall} (h : runAuthCall hashes s nowMs c = .ok s') :
    SetsHash s.users s'.users c.newHash := by
  have hsame : s'.users = s.users → SetsHash s.users s'.users c.newHash := by
    intro heq
    rw [heq]
    exact .refl _ _
  cases c with
  | createPending userID ttl token => exact hsame (createLogin2FAPending_users h)
  | deletePending token =>
      simp only [runAuthCall, LoginState.deleteLogin2FAPendingToken, pure_eq_ok] at h
      refine hsame ?_
      rw [← h]
      split
      · rfl
      · rfl
  | linkIdentity userID issuer subject verifiedEmail => exact hsame (linkOIDCIdentityExplicit_users h)
  | linkIdentityWithProof userID issuer subject verifiedEmail proof =>
      simp only [runAuthCall, LoginState.linkOIDCIdentityWithProof, bind_eq_ok] at h
      obtain ⟨_, _, h⟩ := h
      exact hsame (linkOIDCIdentityExplicit_users h)
  | setFirstPassword userID rawGrant sessionToken password newHash => exact setFirstPassword_sets h
  | setFirstPasswordWithProof userID rawGrant sessionToken password newHash proof =>
      simp only [runAuthCall, LoginState.setFirstPasswordWithRecoveryCode, bind_eq_ok] at h
      obtain ⟨_, _, h⟩ := h
      exact setFirstPassword_sets h
  | consumeProof userID proof => exact hsame (consumeRecoveryProofTx_users h)
  | replaceCodes userID codeHashes proof => exact hsame (replaceRecoveryCodes_users h)
  | addCode userID codeHash =>
      simp only [runAuthCall, LoginState.insertRecoveryCode, bind_eq_ok, pure_eq_ok] at h
      obtain ⟨_, _, rfl⟩ := h
      exact hsame rfl
  | deleteCodes userID =>
      simp only [runAuthCall, pure_eq_ok] at h
      exact hsame (h ▸ rfl)
  | clearTwoFactor userID =>
      simp only [runAuthCall, pure_eq_ok] at h
      exact h ▸ setsHash_twoFactor _ _ _
  | resetPassword userID expectedHash password newHash =>
      obtain ⟨hash, hnew, _, husers, _⟩ := resetLocalPassword_eq_ok h
      rw [husers, AuthCall.newHash, hnew]
      exact setsHash_updateWhere _ _ _

theorem authStep_sets (p : LoginProc) (a : LoginInput) :
    SetsHash s.users (authStep hashes s p a).1.users p.newHash := by
  cases p with
  | login token code pc =>
      cases pc with
      | start => exact .refl _ _
      | increment userID =>
          rw [authStep, loginStep, LoginState.admitAttempt]
          dsimp only
          split
          · exact .refl _ _
          · exact .refl _ _
      | withdraw userID nowMs =>
          rw [authStep, loginStep, LoginState.withdraw]
          dsimp only
          split
          · exact .refl _ _
          · exact .refl _ _
      | verify userID => exact .refl _ _
      | complete userID proof =>
          have husers : (loginStep hashes s token code a (.complete userID proof)).1.users = s.users := by
            rw [loginStep]
            split
            · exact completeLogin2FA_users ‹_›
            · rfl
          exact husers ▸ .refl _ _
      | done result => exact .refl _ _
  | call c =>
      rw [authStep]
      split
      · exact runAuthCall_sets ‹_›
      · exact .refl _ _
  | returned c err => exact .refl _ _

end

/-- A reset finds the hash that it expects, and replaces it for its user only. -/
theorem passwordHashOf_reset {users : List LoginUser} (hids : (users.map (·.id)).Nodup) {userID : ℤ}
    {expected : String}
    (hone : users.countP (fun v => v.id == userID && v.passwordHash == some expected) = 1)
    (newHash : String) :
    passwordHashOf users userID = some expected ∧
      ∀ k, passwordHashOf (updateWhere (fun v => v.id == userID && v.passwordHash == some expected)
        (fun v => { v with passwordHash := some newHash }) users) k =
          if k = userID then some newHash else passwordHashOf users k := by
  obtain ⟨r, hr, hsets, _⟩ := exists_of_countP_eq_one hone
  simp only [Bool.and_eq_true, beq_iff_eq] at hsets
  obtain ⟨rfl, hhash⟩ := hsets
  have hsame : updateWhere (fun v => v.id == r.id && v.passwordHash == some expected)
      (fun v => { v with passwordHash := some newHash }) users =
      updateWhere (LoginUser.id · == r.id) (fun v => { v with passwordHash := some newHash }) users := by
    refine List.map_congr_left fun v hv => ?_
    by_cases hid : v.id = r.id
    · have heq : v = r := List.inj_on_of_nodup_map hids hv hr hid
      simp [heq, hhash]
    · simp [hid]
  obtain ⟨t₁, t₂, hsplit, hothers⟩ := @exists_split_key _ _ LoginUser.id _ hids _ hr
  have hfind : users.find? (LoginUser.id · == r.id) = some r := hsplit ▸ find?_split hothers
  refine ⟨by rw [passwordHashOf, hfind]; exact hhash, fun k => ?_⟩
  rw [hsame, passwordHashOf, find?_updateWhere (f := fun v : LoginUser => { v with passwordHash := some newHash })
    LoginUser.id (fun _ h => h)]
  by_cases hk : k = r.id
  · simp [hk, hfind]
  · simp [hk, passwordHashOf]

/-- A hash that was stored and is not the hash of the user's password. -/
structure Retired (s : ResetState) (userID : ℤ) (hash : String) : Prop where
  seen : hash ∈ s.seen
  gone : passwordHashOf s.login.users userID ≠ some hash

/-- What the verification of a token with a hash has found. -/
structure Verified (secret : List ℕ) (s : ResetState) (token : ResetToken) (hash : String) (now : ℤ) :
    Prop where
  signature : token.signature = resetSignature secret (resetSignedText token.userID token.timestamp hash)
  signed : resetSignedText token.userID token.timestamp hash ∈ s.signed
  in_time : now - tokenExpiry ≤ token.timestamp ∧ token.timestamp ≤ now + clockSkew

/-- What the issuing of a token has recorded. -/
structure Issued (secret : List ℕ) (s : ResetState) (text : String) (userID timestamp : ℤ) (hash : String) :
    Prop where
  text_eq : text = resetTokenText userID timestamp
    (resetSignature secret (resetSignedText userID timestamp hash))
  signed : resetSignedText userID timestamp hash ∈ s.signed
  seen : hash ∈ s.seen

structure ResetInv (secret : List ℕ) (s : ResetState) : Prop where
  ids : (s.login.users.map (·.id)).Nodup
  current : ∀ userID hash, passwordHashOf s.login.users userID = some hash → hash ∈ s.seen
  issued : ∀ text userID timestamp hash, .issued text userID timestamp hash ∈ s.log →
    Issued secret s text userID timestamp hash
  accepted : ∀ token now, .reset token now ∈ s.log →
    ∃ hash, Verified secret s token hash now ∧ Retired s token.userID hash
  once : (s.log.filterMap ResetEvent.token?).Nodup
  retired : ∀ text userID timestamp hash,
    [.issued text userID timestamp hash, .changed userID].Sublist s.log → Retired s userID hash
  not_after_change : ∀ text userID timestamp hash token now,
    [.issued text userID timestamp hash, .changed userID, .reset token now].Sublist s.log →
    token.signature ≠ resetSignature secret (resetSignedText userID timestamp hash)

/-- Of two events of one step the second is a change, and the first is no issuing. -/
def Settles (a b : ResetEvent) : Prop :=
  (∃ userID, b = .changed userID) ∧ ∀ text userID timestamp hash, a ≠ .issued text userID timestamp hash

/-- What every step does: hashes that are gone stay away, and a change retires every hash that was
stored before. -/
structure Extends (s s' : ResetState) (events : List ResetEvent) : Prop where
  log : s'.log = s.log ++ events
  seen : s.seen ⊆ s'.seen
  signed : s.signed ⊆ s'.signed
  retired : ∀ userID hash, Retired s userID hash → Retired s' userID hash
  changed : ∀ userID, .changed userID ∈ events → ∀ hash ∈ s.seen, Retired s' userID hash
  settles : events.Pairwise Settles

theorem sublist_pair_append {α : Type} {a b : α} {l₁ l₂ : List α} (h : [a, b].Sublist (l₁ ++ l₂)) :
    [a, b].Sublist l₁ ∨ (a ∈ l₁ ∧ b ∈ l₂) ∨ [a, b].Sublist l₂ := by
  obtain ⟨r₁, r₂, hall, h₁, h₂⟩ := List.sublist_append_iff.mp h
  rcases List.cons_eq_append_iff.mp hall with ⟨rfl, rfl⟩ | ⟨r, rfl, htail⟩
  · exact .inr (.inr h₂)
  rcases List.cons_eq_append_iff.mp htail with ⟨rfl, rfl⟩ | ⟨r, rfl, _⟩
  · exact .inr (.inl ⟨h₁.subset List.mem_cons_self, h₂.subset List.mem_cons_self⟩)
  · exact .inl (.trans (by simp) h₁)

theorem sublist_triple_append {α : Type} {a b c : α} {l₁ l₂ : List α}
    (h : [a, b, c].Sublist (l₁ ++ l₂)) :
    [a, b, c].Sublist l₁ ∨ ([a, b].Sublist l₁ ∧ c ∈ l₂) ∨ [b, c].Sublist l₂ := by
  obtain ⟨r₁, r₂, hall, h₁, h₂⟩ := List.sublist_append_iff.mp h
  rcases List.cons_eq_append_iff.mp hall with ⟨rfl, rfl⟩ | ⟨r, rfl, htail⟩
  · exact .inr (.inr ((List.sublist_cons_self _ _).trans h₂))
  rcases List.cons_eq_append_iff.mp htail with ⟨rfl, rfl⟩ | ⟨r, rfl, hlast⟩
  · exact .inr (.inr h₂)
  rcases List.cons_eq_append_iff.mp hlast with ⟨rfl, rfl⟩ | ⟨r, rfl, _⟩
  · exact .inr (.inl ⟨h₁, h₂.subset List.mem_cons_self⟩)
  · exact .inl (.trans (by simp) h₁)

section

variable {secret : List ℕ} {s s' : ResetState} {events : List ResetEvent}

theorem Verified.mono (hsigned : s.signed ⊆ s'.signed) {token : ResetToken} {hash : String} {now : ℤ}
    (h : Verified secret s token hash now) : Verified secret s' token hash now :=
  ⟨h.signature, hsigned h.signed, h.in_time⟩

/-- Two texts with the signature of one token have the same fields. -/
theorem Verified.same (hno : NoCollision secret s.signed) {token : ResetToken} {hash : String} {now : ℤ}
    (h : Verified secret s token hash now) {userID timestamp : ℤ} {hash' : String}
    (hsigned : resetSignedText userID timestamp hash' ∈ s.signed)
    (hsignature : token.signature = resetSignature secret (resetSignedText userID timestamp hash')) :
    token.userID = userID ∧ token.timestamp = timestamp ∧ hash = hash' :=
  resetSignedText_inj (hno _ h.signed _ hsigned (h.signature.symm.trans hsignature))

theorem token?_eq_some {e : ResetEvent} {token : ResetToken} (h : e.token? = some token) :
    ∃ now, e = .reset token now := by
  cases e with
  | issued text userID timestamp hash => cases h
  | changed userID => cases h
  | reset token' now =>
      cases h
      exact ⟨now, rfl⟩

theorem ResetInv.extend (h : ResetInv secret s) (he : Extends s s' events)
    (hno : NoCollision secret s'.signed)
    (hids : s'.login.users.map (·.id) = s.login.users.map (·.id))
    (hcurrent : ∀ userID hash, passwordHashOf s'.login.users userID = some hash → hash ∈ s'.seen)
    (hissued : ∀ text userID timestamp hash, .issued text userID timestamp hash ∈ events →
      Issued secret s' text userID timestamp hash)
    (hreset : ∀ token now, .reset token now ∈ events → ∃ hash, Verified secret s' token hash now ∧
      passwordHashOf s.login.users token.userID = some hash ∧ Retired s' token.userID hash) :
    ResetInv secret s' where
  ids := hids ▸ h.ids
  current := hcurrent
  issued := by
    intro text userID timestamp hash hmem
    rw [he.log, List.mem_append] at hmem
    rcases hmem with hmem | hmem
    · have hold := h.issued text userID timestamp hash hmem
      exact ⟨hold.text_eq, he.signed hold.signed, he.seen hold.seen⟩
    · exact hissued text userID timestamp hash hmem
  accepted := by
    intro token now hmem
    rw [he.log, List.mem_append] at hmem
    rcases hmem with hmem | hmem
    · obtain ⟨hash, hverified, hretired⟩ := h.accepted token now hmem
      exact ⟨hash, hverified.mono he.signed, he.retired _ _ hretired⟩
    · obtain ⟨hash, hverified, _, hretired⟩ := hreset token now hmem
      exact ⟨hash, hverified, hretired⟩
  once := by
    rw [he.log, List.filterMap_append]
    refine List.nodup_append.mpr ⟨h.once, ?_, ?_⟩
    · refine List.pairwise_filterMap.mpr (he.settles.imp fun hsettles token _ token' htoken' => ?_)
      obtain ⟨_, rfl⟩ := hsettles.1
      cases htoken'
    · -- a token that was accepted before carries the signature of a retired hash
      intro token hold token' hnew heq
      subst heq
      obtain ⟨e, hold, htoken⟩ := List.mem_filterMap.mp hold
      obtain ⟨e', hnew, htoken'⟩ := List.mem_filterMap.mp hnew
      obtain ⟨now, rfl⟩ := token?_eq_some htoken
      obtain ⟨now', rfl⟩ := token?_eq_some htoken'
      obtain ⟨hash, hverified, hretired⟩ := h.accepted token now hold
      obtain ⟨hash', hverified', hcurrent, _⟩ := hreset token now' hnew
      obtain ⟨_, _, rfl⟩ := (hverified.mono he.signed).same hno hverified'.signed hverified'.signature
      exact hretired.gone hcurrent
  retired := by
    intro text userID timestamp hash hsub
    rw [he.log] at hsub
    rcases sublist_pair_append hsub with hsub | ⟨hmem, hchanged⟩ | hsub
    · exact he.retired _ _ (h.retired text userID timestamp hash hsub)
    · exact he.changed userID hchanged hash (h.issued text userID timestamp hash hmem).seen
    · exact absurd rfl ((List.pairwise_pair.mp (he.settles.sublist hsub)).2 _ _ _ _)
  not_after_change := by
    intro text userID timestamp hash token now hsub hsignature
    rw [he.log] at hsub
    rcases sublist_triple_append hsub with hsub | ⟨hsub, hmem⟩ | hsub
    · exact h.not_after_change text userID timestamp hash token now hsub hsignature
    · obtain ⟨hash', hverified, hcurrent, _⟩ := hreset token now hmem
      have hsigned := (h.issued text userID timestamp hash (hsub.subset List.mem_cons_self)).signed
      obtain ⟨rfl, _, rfl⟩ := hverified.same hno (he.signed hsigned) hsignature
      exact (h.retired text _ timestamp _ hsub).gone hcurrent
    · obtain ⟨_, heq⟩ := (List.pairwise_pair.mp (he.settles.sublist hsub)).1
      cases heq

theorem Extends.quiet (s : ResetState) {signed : List String} (hsigned : s.signed ⊆ signed) :
    Extends s { s with signed := signed } [] where
  log := (List.append_nil _).symm
  seen := List.Subset.refl _
  signed := hsigned
  retired := fun _ _ h => ⟨h.seen, h.gone⟩
  changed := by simp
  settles := .nil

/-- A transaction that stores no hash that was stored before, after the record of a reset or
without one. -/
theorem Extends.after {login : LoginState} {newHash : Option String} {pre : List ResetEvent}
    (hsets : SetsHash s.login.users login.users newHash) (hfresh : ∀ hash ∈ newHash.toList, hash ∉ s.seen)
    (hpre : pre.length ≤ 1) (hkind : ∀ e ∈ pre, ∃ token now, e = .reset token now) :
    Extends s (({ s with log := s.log ++ pre } : ResetState).after login)
      (pre ++ (changedUsers s.login.users login.users).map .changed) where
  log := List.append_assoc _ _ _
  seen := List.subset_append_left _ _
  signed := List.Subset.refl _
  retired := by
    intro userID hash h
    refine ⟨List.mem_append_left _ h.seen, fun (hnew : passwordHashOf login.users userID = some hash) => ?_⟩
    rcases hsets.hashes userID with hsame | hset
    · exact h.gone (hsame.symm.trans hnew)
    · exact hfresh hash (by rw [← hset, hnew]; simp) h.seen
  changed := by
    intro userID hmem hash hseen
    refine ⟨List.mem_append_left _ hseen, fun (hnew : passwordHashOf login.users userID = some hash) => ?_⟩
    have hchanged : passwordHashOf s.login.users userID ≠ passwordHashOf login.users userID := by
      rcases List.mem_append.mp hmem with hmem | hmem
      · obtain ⟨_, _, heq⟩ := hkind _ hmem
        cases heq
      · simp only [List.mem_map, ResetEvent.changed.injEq, exists_eq_right, changedUsers, List.mem_filter,
          decide_eq_true_eq] at hmem
        exact hmem.2
    rcases hsets.hashes userID with hsame | hset
    · exact hchanged hsame.symm
    · exact hfresh hash (by rw [← hset, hnew]; simp) hseen
  settles := by
    refine List.pairwise_append.mpr ⟨?_, ?_, ?_⟩
    · match pre, hpre with
      | [], _ => exact .nil
      | [e], _ => exact List.pairwise_singleton _ _
    · refine List.pairwise_map.mpr (List.pairwise_of_forall fun _ _ => ⟨⟨_, rfl⟩, fun _ _ _ _ heq => ?_⟩)
      cases heq
    · intro e he e' he'
      obtain ⟨userID, _, rfl⟩ := List.mem_map.mp he'
      obtain ⟨token, now, rfl⟩ := hkind e he
      refine ⟨⟨userID, rfl⟩, fun _ _ _ _ heq => ?_⟩
      cases heq

theorem mem_storedHashes {users : List LoginUser} {userID : ℤ} {hash : String}
    (h : passwordHashOf users userID = some hash) : hash ∈ storedHashes users := by
  obtain ⟨u, hfind, hhash⟩ := Option.bind_eq_some_iff.mp h
  exact List.mem_filterMap.mpr ⟨u, List.mem_of_find?_eq_some hfind, hhash⟩

theorem ResetInv.after (h : ResetInv secret s) (hno : NoCollision secret s.signed) {login : LoginState}
    {newHash : Option String} (hsets : SetsHash s.login.users login.users newHash)
    (hfresh : ∀ hash ∈ newHash.toList, hash ∉ s.seen) : ResetInv secret (s.after login) := by
  have he := Extends.after hsets hfresh (by simp : ([] : List ResetEvent).length ≤ 1) (by simp)
  simp only [List.append_nil] at he
  refine h.extend he hno hsets.ids ?_ (by simp) (by simp)
  intro userID hash hhash
  exact List.mem_append_right _ (mem_storedHashes hhash)

/-- The hash that a token was verified with is gone after the reset. -/
theorem ResetInv.reset (h : ResetInv secret s) (hno : NoCollision secret s.signed) {hashes : LoginHashes}
    {login : LoginState} {token : ResetToken} {hash password : String} {newHash : Option String} {now : ℤ}
    (hverified : Verified secret s token hash now)
    (hok : LoginState.resetLocalPassword hashes s.login token.userID hash password newHash = .ok login)
    (hfresh : ∀ hash ∈ newHash.toList, hash ∉ s.seen) :
    ResetInv secret ((s.record (.reset token now)).after login) := by
  obtain ⟨hash', rfl, hone, husers, _⟩ := resetLocalPassword_eq_ok hok
  obtain ⟨hcurrent, hafter⟩ := passwordHashOf_reset h.ids hone hash'
  have hseen := h.current _ _ hcurrent
  have hsets : SetsHash s.login.users login.users (some hash') := husers ▸ setsHash_updateWhere _ _ _
  have he := Extends.after hsets hfresh (by simp : [ResetEvent.reset token now].length ≤ 1)
    fun e he => ⟨token, now, List.mem_singleton.mp he⟩
  refine h.extend he hno hsets.ids ?_ ?_ ?_
  · intro userID hash hhash
    exact List.mem_append_right _ (mem_storedHashes hhash)
  · intro text userID timestamp hash hmem
    simp at hmem
  · intro token' now' hmem
    have heq : ResetEvent.reset token' now' = .reset token now := by
      rcases List.mem_append.mp hmem with hmem | hmem
      · exact List.mem_singleton.mp hmem
      · simp at hmem
    cases heq
    refine ⟨hash, ⟨hverified.signature, hverified.signed, hverified.in_time⟩, hcurrent,
      List.mem_append_left _ hseen, ?_⟩
    change passwordHashOf login.users token.userID ≠ some hash
    rw [husers, hafter, if_pos rfl]
    intro heq
    exact hfresh hash' (by simp) (Option.some.inj heq ▸ hseen)

/-- What a request knows between its steps. -/
def ResetProc.Knows (secret : List ℕ) (s : ResetState) : ResetProc → Prop
  | .issue _ (.generate hash) => hash ∈ s.seen
  | .reset _ _ (.verify token _) => IsInt64 token.timestamp
  | .reset _ _ (.write token hash now) => Verified secret s token hash now
  | _ => True

theorem ResetProc.Knows.mono (hseen : s.seen ⊆ s'.seen) (hsigned : s.signed ⊆ s'.signed) {p : ResetProc}
    (h : p.Knows secret s) : p.Knows secret s' := by
  cases p with
  | issue userID pc =>
      cases pc with
      | generate hash => exact hseen h
      | start => trivial
      | done text => trivial
  | reset text password pc =>
      cases pc with
      | write token hash now => exact Verified.mono hsigned h
      | verify token hash => exact h
      | start => trivial
      | done result => trivial
  | recover email password => trivial
  | recovered email err => trivial
  | auth p => trivial

theorem getUserPasswordHash_eq_ok {hashes : LoginHashes} {login : LoginState} {userID : ℤ} {hash : String}
    (h : getUserPasswordHash hashes login userID = .ok hash) :
    passwordHashOf login.users userID = some hash := by
  unfold getUserPasswordHash at h
  split at h
  · cases h
  · rename_i u hfind
    split at h
    · cases h
    · rename_i hash' hhash
      cases h
      rw [passwordHashOf, hfind, Option.bind_some]
      exact (Option.filter_eq_some_iff.mp hhash).1

variable {hashes : LoginHashes} {config : ResetConfig}

theorem ResetInv.quiet (h : ResetInv secret s) {signed : List String} (hsigned : s.signed ⊆ signed)
    (hno : NoCollision secret signed) : ResetInv secret { s with signed := signed } :=
  h.extend (Extends.quiet s hsigned) hno rfl h.current (by simp) (by simp)

theorem ResetInv.issue (h : ResetInv secret s) {text : String} {userID timestamp : ℤ} {hash : String}
    (hseen : hash ∈ s.seen) (htext : text = resetTokenText userID timestamp
      (resetSignature secret (resetSignedText userID timestamp hash)))
    (hno : NoCollision secret (s.signed ++ [resetSignedText userID timestamp hash])) :
    ResetInv secret ((s.sign (resetSignedText userID timestamp hash)).record
      (.issued text userID timestamp hash)) := by
  have he : Extends s ((s.sign (resetSignedText userID timestamp hash)).record
      (.issued text userID timestamp hash)) [.issued text userID timestamp hash] :=
    { log := rfl
      seen := List.Subset.refl _
      signed := List.subset_append_left _ _
      retired := fun _ _ h => ⟨h.seen, h.gone⟩
      changed := by simp
      settles := List.pairwise_singleton _ _ }
  refine h.extend he hno rfl h.current ?_ (by simp)
  intro text' userID' timestamp' hash' hmem
  cases List.mem_singleton.mp hmem
  exact ⟨htext, List.mem_append_right _ (List.mem_singleton_self _), hseen⟩

/-- What a step of a request keeps. -/
structure KeepsResets (secret : List ℕ) (s s' : ResetState) (p' : ResetProc) : Prop where
  inv : ResetInv secret s'
  knows : p'.Knows secret s'
  seen : s.seen ⊆ s'.seen
  signed : s.signed ⊆ s'.signed

theorem KeepsResets.same (h : ResetInv secret s) {p' : ResetProc} (hp : p'.Knows secret s) :
    KeepsResets secret s s p' :=
  ⟨h, hp, List.Subset.refl _, List.Subset.refl _⟩

theorem issueStep_keeps (h : ResetInv config.encryptionKey s) {userID : ℤ} {pc : IssuePC} (a : ResetInput)
    (hp : (ResetProc.issue userID pc).Knows config.encryptionKey s)
    (hno : NoCollision config.encryptionKey (issueStep hashes config s userID a pc).1.signed) :
    KeepsResets config.encryptionKey s (issueStep hashes config s userID a pc).1
      (.issue userID (issueStep hashes config s userID a pc).2) := by
  cases pc with
  | start =>
      rw [issueStep]
      split
      · exact .same h trivial
      · rename_i hash hhash
        exact .same h (h.current _ _ (getUserPasswordHash_eq_ok hhash))
  | generate hash =>
      rw [issueStep] at hno ⊢
      split
      · exact .same h trivial
      · rename_i text expires hgenerate
        simp only [hgenerate] at hno
        have htext : text = resetTokenText userID a.now
            (resetSignature config.encryptionKey (resetSignedText userID a.now hash)) := by
          unfold generatePasswordResetToken at hgenerate
          split at hgenerate
          · cases hgenerate
          · simp only [Except.ok.injEq, Prod.mk.injEq] at hgenerate
            exact hgenerate.1.symm
        exact ⟨h.issue hp htext hno, trivial, List.Subset.refl _, List.subset_append_left _ _⟩
  | done text => exact .same h trivial

theorem resetStep_keeps (h : ResetInv config.encryptionKey s) {text newPassword : String} {pc : ResetPC}
    (a : ResetInput) (hp : (ResetProc.reset text newPassword pc).Knows config.encryptionKey s)
    (hfresh : ∀ hash ∈ a.newHash.toList, hash ∉ s.seen)
    (hno : NoCollision config.encryptionKey (resetStep hashes config s text newPassword a pc).1.signed) :
    KeepsResets config.encryptionKey s (resetStep hashes config s text newPassword a pc).1
      (.reset text newPassword (resetStep hashes config s text newPassword a pc).2) := by
  cases pc with
  | start =>
      rw [resetStep]
      split
      · exact .same h trivial
      split
      · exact .same h trivial
      split
      · exact .same h trivial
      split
      · exact .same h trivial
      rename_i token hparse
      split
      · exact .same h trivial
      · exact .same h (isInt64_of_parse hparse)
  | verify token hash =>
      have hgrows := List.subset_append_left s.signed [resetSignedText token.userID token.timestamp hash]
      rw [resetStep] at hno ⊢
      split
      · rename_i hverify
        simp only [hverify] at hno
        exact ⟨h.quiet hgrows hno, trivial, List.Subset.refl _, hgrows⟩
      · rename_i hverify
        simp only [hverify] at hno
        obtain ⟨hsignature, hintime⟩ := verifyPasswordResetToken_eq_ok hp a.now.2 hverify
        refine ⟨h.quiet hgrows hno, ⟨hsignature, ?_, hintime⟩, List.Subset.refl _, hgrows⟩
        exact List.mem_append_right _ (List.mem_singleton_self _)
  | write token hash now =>
      rw [resetStep] at hno ⊢
      split
      · exact .same h trivial
      · rename_i login hok
        simp only [hok] at hno
        exact ⟨h.reset hno hp hok hfresh, trivial, List.subset_append_left _ _, List.Subset.refl _⟩
  | done result => exact .same h trivial

theorem passwordStep_keeps (h : ResetInv config.encryptionKey s) {p : ResetProc} (a : ResetInput)
    (hp : p.Knows config.encryptionKey s) (hfresh : ∀ hash ∈ (p.newHash a).toList, hash ∉ s.seen)
    (hno : NoCollision config.encryptionKey (passwordStep hashes config s p a).1.signed) :
    KeepsResets config.encryptionKey s (passwordStep hashes config s p a).1
      (passwordStep hashes config s p a).2 := by
  cases p with
  | issue userID pc => exact issueStep_keeps h a hp hno
  | reset text newPassword pc => exact resetStep_keeps h a hp hfresh hno
  | recover email password =>
      rw [passwordStep] at hno ⊢
      split
      · rename_i login hok
        simp only [hok] at hno
        exact ⟨h.after hno (recoverOwnerPassword_sets hok) hfresh, trivial, List.subset_append_left _ _,
          List.Subset.refl _⟩
      · exact .same h trivial
  | recovered email err => exact .same h trivial
  | auth p =>
      exact ⟨h.after hno (authStep_sets p a.login) hfresh, trivial, List.subset_append_left _ _,
        List.Subset.refl _⟩

theorem resetInv_step {t : Pool ResetState ResetProc} {ia : ℕ × ResetInput}
    (h : t.Inv (ResetInv config.encryptionKey) (ResetProc.Knows config.encryptionKey))
    (hfresh : FreshHash t ia)
    (hno : NoCollision config.encryptionKey (t.step (passwordStep hashes config) ia).shared.signed) :
    (t.step (passwordStep hashes config) ia).Inv (ResetInv config.encryptionKey)
      (ResetProc.Knows config.encryptionKey) := by
  obtain ⟨i, a⟩ := ia
  refine h.step fun p hp hknows => ?_
  rw [Pool.step_of_some hp] at hno
  have hfresh : ∀ hash ∈ (p.newHash a).toList, hash ∉ t.shared.seen := by
    simpa [FreshHash, hp] using hfresh
  have hkeeps := passwordStep_keeps h.shared a hknows hfresh hno
  exact ⟨hkeeps.inv, hkeeps.knows, fun q hq => hq.mono hkeeps.seen hkeeps.signed⟩

/-- The records of a step, where a reset is recorded by the write that succeeded. -/
structure Records (hashes : LoginHashes) (s s' : ResetState) (p : ResetProc) (a : ResetInput)
    (events : List ResetEvent) : Prop where
  log : s'.log = s.log ++ events
  signed : s.signed ⊆ s'.signed
  reset : ∀ token now, .reset token now ∈ events → ∃ text password hash,
    p = .reset text password (.write token hash now) ∧
      LoginState.resetLocalPassword hashes s.login token.userID hash password a.newHash = .ok s'.login

theorem Records.none (s : ResetState) {signed : List String} (hsigned : s.signed ⊆ signed) (p : ResetProc)
    (a : ResetInput) : Records hashes s { s with signed := signed } p a [] :=
  ⟨(List.append_nil _).symm, hsigned, by simp⟩

theorem Records.after (s : ResetState) (login : LoginState) (p : ResetProc) (a : ResetInput) :
    Records hashes s (s.after login) p a ((changedUsers s.login.users login.users).map .changed) :=
  ⟨rfl, List.Subset.refl _, by simp⟩

theorem issueStep_records (s : ResetState) (userID : ℤ) (pc : IssuePC) (a : ResetInput) :
    ∃ events, Records hashes s (issueStep hashes config s userID a pc).1 (.issue userID pc) a events := by
  have hsame : ∃ events, Records hashes s s (.issue userID pc) a events :=
    ⟨[], .none s (List.Subset.refl _) _ a⟩
  cases pc with
  | start =>
      rw [issueStep]
      split
      · exact hsame
      · exact hsame
  | generate hash =>
      rw [issueStep]
      split
      · exact hsame
      · exact ⟨[_], rfl, List.subset_append_left _ _, by simp⟩
  | done text => exact hsame

theorem resetStep_records (s : ResetState) (text newPassword : String) (pc : ResetPC) (a : ResetInput) :
    ∃ events, Records hashes s (resetStep hashes config s text newPassword a pc).1
      (.reset text newPassword pc) a events := by
  have hsame : ∃ events, Records hashes s s (.reset text newPassword pc) a events :=
    ⟨[], .none s (List.Subset.refl _) _ a⟩
  cases pc with
  | start =>
      rw [resetStep]
      split
      · exact hsame
      split
      · exact hsame
      split
      · exact hsame
      split
      · exact hsame
      split
      · exact hsame
      · exact hsame
  | verify token hash =>
      rw [resetStep]
      split
      · exact ⟨[], .none s (List.subset_append_left _ _) _ a⟩
      · exact ⟨[], .none s (List.subset_append_left _ _) _ a⟩
  | write token hash now =>
      rw [resetStep]
      split
      · exact hsame
      · rename_i login hok
        refine ⟨.reset token now :: _, List.append_assoc _ _ _, List.Subset.refl _, ?_⟩
        intro token' now' hmem
        rcases List.mem_cons.mp hmem with heq | hmem
        · cases heq
          exact ⟨text, newPassword, hash, rfl, hok⟩
        · simp at hmem
  | done result => exact hsame

theorem passwordStep_records (s : ResetState) (p : ResetProc) (a : ResetInput) :
    ∃ events, Records hashes s (passwordStep hashes config s p a).1 p a events := by
  have hsame : ∃ events, Records hashes s s p a events := ⟨[], .none s (List.Subset.refl _) p a⟩
  cases p with
  | issue userID pc => exact issueStep_records s userID pc a
  | reset text newPassword pc => exact resetStep_records s text newPassword pc a
  | recover email password =>
      rw [passwordStep]
      split
      · exact ⟨_, .after s _ _ a⟩
      · exact hsame
  | recovered email err => exact hsame
  | auth p => exact ⟨_, .after s _ _ a⟩

theorem signed_subset_step (hashes : LoginHashes) (config : ResetConfig) (t : Pool ResetState ResetProc)
    (ia : ℕ × ResetInput) :
    t.shared.signed ⊆ (t.step (passwordStep hashes config) ia).shared.signed := by
  obtain ⟨i, a⟩ := ia
  cases hp : t.procs[i]? with
  | none =>
      rw [Pool.step_of_none hp]
      exact List.Subset.refl _
  | some p =>
      rw [Pool.step_of_some hp]
      obtain ⟨_, hrecords⟩ := passwordStep_records t.shared p a
      exact Records.signed hrecords

theorem resetInv_run {t : Pool ResetState ResetProc} {schedule : List (ℕ × ResetInput)}
    (h : t.Inv (ResetInv config.encryptionKey) (ResetProc.Knows config.encryptionKey))
    (hfresh : Along FreshHash (Pool.step (passwordStep hashes config)) t schedule)
    (hno : NoCollision config.encryptionKey
      (run (Pool.step (passwordStep hashes config)) t schedule).shared.signed) :
    (run (Pool.step (passwordStep hashes config)) t schedule).Inv (ResetInv config.encryptionKey)
      (ResetProc.Knows config.encryptionKey) := by
  induction schedule using List.reverseRecOn with
  | nil => exact h
  | append_singleton schedule ia ih =>
      rw [run_concat] at hno ⊢
      have hgrows := signed_subset_step hashes config
        (run (Pool.step (passwordStep hashes config)) t schedule) ia
      refine resetInv_step (ih hfresh.of_append fun a ha b hb => hno a (hgrows ha) b (hgrows hb)) ?_ hno
      exact hfresh.drop.1

/-- The next step of a reset that succeeds. -/
theorem ResetInv.revokes {t : Pool ResetState ResetProc} (h : ResetInv config.encryptionKey t.shared)
    {ia : ℕ × ResetInput} (hfresh : FreshHash t ia) {token : ResetToken} {now : ℤ}
    (hmem : .reset token now ∈
      (t.step (passwordStep hashes config) ia).shared.log.drop t.shared.log.length) :
    Revoked t.shared (t.step (passwordStep hashes config) ia).shared token := by
  obtain ⟨i, a⟩ := ia
  cases hp : t.procs[i]? with
  | none =>
      rw [Pool.step_of_none hp] at hmem
      simp at hmem
  | some p =>
      rw [Pool.step_of_some hp] at hmem ⊢
      obtain ⟨events, hrecords⟩ : ∃ events, Records hashes t.shared
          (passwordStep hashes config t.shared p a).1 p a events := passwordStep_records t.shared p a
      rw [hrecords.log, List.drop_left] at hmem
      obtain ⟨text, password, hash, rfl, hok⟩ := hrecords.reset token now hmem
      obtain ⟨hash', hnew, hone, husers, hsessions, hpending⟩ := resetLocalPassword_eq_ok hok
      obtain ⟨hcurrent, hafter⟩ := passwordHashOf_reset h.ids hone hash'
      have hother : hash' ≠ hash := by
        have hunseen : ∀ hash ∈ a.newHash.toList, hash ∉ t.shared.seen := by
          simpa [FreshHash, hp, ResetProc.newHash] using hfresh
        intro heq
        exact hunseen hash' (by simp [hnew]) (heq ▸ h.current _ _ hcurrent)
      refine ⟨fun userID => ?_, fun r hr => ?_, fun r hr => ?_⟩
      · rw [husers, hafter]
        by_cases huser : userID = token.userID
        · simp [huser, hcurrent, hother]
        · simp [huser]
      · rw [hsessions] at hr
        simpa using (mem_deleteWhere.mp hr).2
      · rw [hpending] at hr
        simpa using (mem_deleteWhere.mp hr).2

theorem ResetInv.safe {t : Pool ResetState ResetProc} (h : ResetInv config.encryptionKey t.shared)
    (hno : NoCollision config.encryptionKey t.shared.signed) : ResetsSafe hashes config t where
  once := h.once
  not_after_change := by
    intro text userID timestamp hash token now hsub
    have hsignature := h.not_after_change text userID timestamp hash token now hsub
    have hissued := h.issued text userID timestamp hash (hsub.subset List.mem_cons_self)
    refine ⟨fun hparse => hsignature ?_, hsignature⟩
    rw [hissued.text_eq] at hparse
    exact signature_of_parse (fun b hb => mem_hmacSha256_lt hb) hparse
  own_user := by
    intro text userID timestamp hash token now hissued hreset hsignature
    obtain ⟨hash', hverified, _⟩ := h.accepted token now hreset
    have hsame := hverified.same hno (h.issued text userID timestamp hash hissued).signed hsignature
    exact ⟨hsame.1, hsame.2.1⟩
  in_time := by
    intro token now hreset
    obtain ⟨hash, hverified, _⟩ := h.accepted token now hreset
    exact hverified.in_time
  revokes := fun ia token now hfresh hmem => h.revokes hfresh hmem

end

/-- Whatever resets, first passwords and recoveries there are, and in whatever order their steps
run: a token changes a password once, in its time and for its own user, and not after another
change of the password; and the user is logged out by it. -/
theorem reset_token_once (hashes : LoginHashes) (config : ResetConfig) (login : LoginState)
    (hids : (login.users.map (·.id)).Nodup) (procs : List ResetProc) (hprocs : ∀ p ∈ procs, p.AtStart)
    (schedule : List (ℕ × ResetInput))
    (hfresh : Along FreshHash (Pool.step (passwordStep hashes config)) ⟨.begin login, procs⟩ schedule)
    (hno : NoCollision config.encryptionKey
      (run (Pool.step (passwordStep hashes config)) ⟨.begin login, procs⟩ schedule).shared.signed) :
    ResetsSafe hashes config (run (Pool.step (passwordStep hashes config)) ⟨.begin login, procs⟩ schedule) ∧
      (∀ secret userID passwordHash now, secret ≠ [] → IsInt64 userID → IsInt64 now → ∃ text,
        generatePasswordResetToken secret userID passwordHash now = .ok (text, now + tokenExpiry) ∧
          parsePasswordResetToken text =
            if 0 < userID then
              .ok ⟨userID, now, resetSignature secret (resetSignedText userID now passwordHash)⟩
            else .error "invalid user id in token") ∧
      ∀ userID timestamp hash userID' timestamp' hash',
        resetSignedText userID timestamp hash = resetSignedText userID' timestamp' hash' →
          userID = userID' ∧ timestamp = timestamp' ∧ hash = hash' := by
  have hstart : Pool.Inv (ResetInv config.encryptionKey) (ResetProc.Knows config.encryptionKey)
      ⟨.begin login, procs⟩ := by
    refine ⟨⟨hids, fun _ _ => mem_storedHashes, by simp [ResetState.begin], by simp [ResetState.begin],
      .nil, by simp [ResetState.begin], by simp [ResetState.begin]⟩, fun p hp => ?_⟩
    have hp := hprocs p hp
    cases p with
    | issue userID pc =>
        cases hp
        trivial
    | reset text newPassword pc =>
        cases hp
        trivial
    | recover email password => trivial
    | recovered email err => trivial
    | auth p => trivial
  refine ⟨(resetInv_run hstart hfresh hno).shared.safe hno, ?_, fun _ _ _ _ _ _ => resetSignedText_inj⟩
  intro secret userID passwordHash now hsecret huser hnow
  exact parse_generate hsecret huser hnow passwordHash

/-- A token of an owner who then recovers the password. -/
def recoveredOwner : Pool ResetState ResetProc where
  shared := .begin (.unchallenged [⟨1, "a@b.c", some "old", false⟩] [⟨1, "t", 0, 9000, 0⟩] [] [])
  procs := [.issue 1 .start, .recover "a@b.c" "password"]

def recoveredOwnerSteps : List (ℕ × ResetInput) :=
  [0, 0, 1].map (·, ⟨⟨1000, by decide⟩, some "new", [1], ⟨0, true, .verified, none⟩⟩)

theorem reset_token_once_recoveredOwner :
    ResetsSafe ⟨id, (· == ·), fun _ => true⟩ ⟨false, false, [7]⟩
      (run (Pool.step (passwordStep ⟨id, (· == ·), fun _ => true⟩ ⟨false, false, [7]⟩)) recoveredOwner
        recoveredOwnerSteps) := by
  have hsigned : (run (Pool.step (passwordStep ⟨id, (· == ·), fun _ => true⟩ ⟨false, false, [7]⟩))
      recoveredOwner recoveredOwnerSteps).shared.signed = ["1|1000|old"] := by decide +kernel
  refine (reset_token_once ⟨id, (· == ·), fun _ => true⟩ ⟨false, false, [7]⟩ recoveredOwner.shared.login
    (by decide) recoveredOwner.procs (by decide) recoveredOwnerSteps (by decide +kernel) ?_).1
  intro a ha b hb _
  rw [show a = "1|1000|old" from List.mem_singleton.mp (hsigned ▸ ha),
    show b = "1|1000|old" from List.mem_singleton.mp (hsigned ▸ hb)]

end Scrumboy
