import Scrumboy.Go.Strings
import Scrumboy.Store.Schema
import Scrumboy.Transition.Pool

/-!
# Attempts at an enrollment

A setup of two-factor authentication allows a few attempts at its code. A call of
`IncrementEnrollmentAttempt` reads the number of attempts in one statement and writes the
next number in another one, so the calls for one setup token interleave. Tokens are stored
as hashes; the hash function is a parameter.
-/

set_option linter.dupNamespace false

namespace Scrumboy

open Go Sql Transition

def maxAttemptsPerToken : ℕ := 5

structure EnrollmentRow where
  userID : ℤ
  tokenHash : String
  secretEnc : String
  createdAt : ℤ
  expiresAt : ℤ
  attemptCount : ℕ
  lastAttemptAt : Option ℤ
  deriving DecidableEq, Repr

/-- How an attempt is answered. -/
inductive AttemptResult
  | admitted
  | notFound
  | tooManyAttempts
  deriving DecidableEq, Repr

inductive EnrollmentPC
  | start
  | delete
  | write (attemptCount : ℕ) (nowMs : ℤ)
  | done (result : AttemptResult)
  deriving DecidableEq, Repr

/-- A call with the token that it was given. -/
structure EnrollmentCall where
  token : String
  pc : EnrollmentPC := .start
  deriving DecidableEq, Repr

section

variable (hashToken : String → String)

def EnrollmentCall.tokenHash (c : EnrollmentCall) : String := hashToken (trimSpace c.token)

/-- After the number of attempts was read. -/
def readAttempts (rows : List EnrollmentRow) (tokenHash : String) (nowMs : ℤ) : EnrollmentPC :=
  match rows.find? fun r => r.tokenHash == tokenHash && decide (nowMs < r.expiresAt) with
  | none => .done .notFound
  | some r =>
      if maxAttemptsPerToken < r.attemptCount + 1 then .delete else .write (r.attemptCount + 1) nowMs

def enrollmentStep (rows : List EnrollmentRow) (c : EnrollmentCall) (nowMs : ℤ) :
    List EnrollmentRow × EnrollmentCall :=
  match c.pc with
  | .start =>
      if trimSpace c.token = "" then (rows, { c with pc := .done .notFound })
      else (rows, { c with pc := readAttempts rows (c.tokenHash hashToken) nowMs })
  | .delete =>
      (deleteWhere (·.tokenHash == c.tokenHash hashToken) rows, { c with pc := .done .tooManyAttempts })
  | .write attemptCount nowMs =>
      (updateWhere (·.tokenHash == c.tokenHash hashToken)
        (fun r => { r with attemptCount := attemptCount, lastAttemptAt := some nowMs }) rows,
        { c with pc := .done .admitted })
  | .done _ => (rows, c)

/-- The calls for a token that were admitted. -/
def EnrollmentCall.admittedFor (tokenHash : String) (c : EnrollmentCall) : Bool :=
  c.tokenHash hashToken = tokenHash ∧ c.pc = .done .admitted

/-- The number that a call is about to write for the token follows the stored one. -/
def FreshAttempt (tokenHash : String) (s : Pool (List EnrollmentRow) EnrollmentCall) (i : ℕ × ℤ) : Prop :=
  ∀ c ∈ s.procs[i.1]?, c.tokenHash hashToken = tokenHash → ∀ n now, c.pc = .write n now →
    ∀ r ∈ s.shared, r.tokenHash = tokenHash → n = r.attemptCount + 1

instance (tokenHash : String) (s : Pool (List EnrollmentRow) EnrollmentCall) (i : ℕ × ℤ) :
    Decidable (FreshAttempt hashToken tokenHash s i) :=
  match hc : s.procs[i.1]? with
  | some ⟨token, .write n now⟩ =>
      decidable_of_iff (EnrollmentCall.tokenHash hashToken ⟨token, .write n now⟩ = tokenHash →
        ∀ r ∈ s.shared, r.tokenHash = tokenHash → n = r.attemptCount + 1) (by
          constructor
          · intro h c hmem hhash m now' hpc
            cases hc.symm.trans hmem
            cases hpc
            exact h hhash
          · intro h hhash
            exact h _ hc hhash n now rfl)
  | none | some ⟨_, .start⟩ | some ⟨_, .delete⟩ | some ⟨_, .done _⟩ => .isTrue fun c hmem _ n now hpc => by
      cases hc.symm.trans hmem
      try cases hpc

/-- The stored number is that of the calls that were admitted. -/
structure AttemptInv (tokenHash : String) (s : Pool (List EnrollmentRow) EnrollmentCall) : Prop where
  counted : ∀ r ∈ s.shared, r.tokenHash = tokenHash →
    r.attemptCount = s.procs.countP (·.admittedFor hashToken tokenHash) ∧
      r.attemptCount ≤ maxAttemptsPerToken
  calls : ∀ c ∈ s.procs, ∀ n now, c.pc = .write n now → n ≤ maxAttemptsPerToken

end

section

variable {hashToken : String → String} {tokenHash : String} {rows : List EnrollmentRow}
  {c : EnrollmentCall} {s : Pool (List EnrollmentRow) EnrollmentCall}

theorem readAttempts_write {nowMs now : ℤ} {n : ℕ}
    (h : readAttempts rows tokenHash nowMs = .write n now) : n ≤ maxAttemptsPerToken := by
  unfold readAttempts at h
  split at h
  · cases h
  · split at h
    · cases h
    · rename_i hle
      cases h
      omega

theorem readAttempts_ne_admitted (rows : List EnrollmentRow) (tokenHash : String) (nowMs : ℤ) :
    readAttempts rows tokenHash nowMs ≠ .done .admitted := by
  unfold readAttempts
  split
  · simp
  · split
    · simp
    · simp

/-- A call that is not at its write leaves the numbers alone, and is not admitted. -/
theorem enrollmentStep_of_not_write {nowMs : ℤ} (hpc : ∀ n now, c.pc ≠ .write n now) :
    (enrollmentStep hashToken rows c nowMs).1 ⊆ rows ∧
      ((enrollmentStep hashToken rows c nowMs).2.admittedFor hashToken tokenHash =
        c.admittedFor hashToken tokenHash) ∧
      ∀ n now, (enrollmentStep hashToken rows c nowMs).2.pc = .write n now → n ≤ maxAttemptsPerToken := by
  obtain ⟨token, pc⟩ := c
  unfold enrollmentStep
  cases pc with
  | start =>
      dsimp only
      split
      · refine ⟨List.Subset.refl _, ?_, fun n now h => by cases h⟩
        simp [EnrollmentCall.admittedFor]
      · refine ⟨List.Subset.refl _, ?_, fun n now h => readAttempts_write h⟩
        simp [EnrollmentCall.admittedFor, readAttempts_ne_admitted]
  | delete =>
      refine ⟨fun r hr => (mem_deleteWhere.mp hr).1, ?_, fun n now h => by cases h⟩
      simp [EnrollmentCall.admittedFor]
  | write n now => exact absurd rfl (hpc n now)
  | done result => exact ⟨List.Subset.refl _, rfl, fun n now h => by cases h⟩

/-- The rows after the write of a call. -/
theorem mem_enrollmentStep_write {n : ℕ} {now nowMs : ℤ} {r : EnrollmentRow} (hpc : c.pc = .write n now)
    (hr : r ∈ (enrollmentStep hashToken rows c nowMs).1) :
    ∃ r₀ ∈ rows, r.tokenHash = r₀.tokenHash ∧
      r.attemptCount = if r₀.tokenHash = c.tokenHash hashToken then n else r₀.attemptCount := by
  unfold enrollmentStep at hr
  rw [hpc] at hr
  obtain ⟨r₀, hr₀, rfl⟩ := List.mem_map.mp hr
  refine ⟨r₀, hr₀, ?_, ?_⟩
  · split
    · rfl
    · rfl
  · simp only [beq_iff_eq]
    split
    · rfl
    · rfl

theorem AttemptInv.step (h : AttemptInv hashToken tokenHash s) {i : ℕ × ℤ}
    (hfresh : FreshAttempt hashToken tokenHash s i) :
    AttemptInv hashToken tokenHash (s.step (enrollmentStep hashToken) i) := by
  obtain ⟨i, nowMs⟩ := i
  cases hc : s.procs[i]? with
  | none =>
      rw [Pool.step_of_none hc]
      exact h
  | some c =>
      have hcount := Pool.countP_step (f := enrollmentStep hashToken) (a := nowMs) hc
        (·.admittedFor hashToken tokenHash)
      have hshared : (s.step (enrollmentStep hashToken) (i, nowMs)).shared =
          (enrollmentStep hashToken s.shared c nowMs).1 := by rw [Pool.step_of_some hc]
      have hcalls : (∀ n now, (enrollmentStep hashToken s.shared c nowMs).2.pc = .write n now →
          n ≤ maxAttemptsPerToken) → ∀ d ∈ (s.step (enrollmentStep hashToken) (i, nowMs)).procs,
          ∀ n now, d.pc = .write n now → n ≤ maxAttemptsPerToken := by
        intro hself d hd
        rw [Pool.step_of_some hc] at hd
        rcases List.mem_or_eq_of_mem_set hd with hd | rfl
        · exact h.calls d hd
        · exact hself
      by_cases hwrite : ∃ n now, c.pc = .write n now
      · obtain ⟨n, now, hpc⟩ := hwrite
        have hdone : (enrollmentStep hashToken s.shared c nowMs).2 = { c with pc := .done .admitted } := by
          unfold enrollmentStep
          rw [hpc]
        refine ⟨fun r hr hhash => ?_, hcalls fun n now heq => ?_⟩
        · rw [hshared] at hr
          obtain ⟨r₀, hr₀, hhash₀, hattempts⟩ := mem_enrollmentStep_write hpc hr
          rw [hhash] at hhash₀
          obtain ⟨hcounted, hle⟩ := h.counted r₀ hr₀ hhash₀.symm
          rw [hdone] at hcount
          by_cases hself : c.tokenHash hashToken = tokenHash
          · have hnext := hfresh c hc hself n now hpc r₀ hr₀ hhash₀.symm
            have hn := h.calls c (List.mem_of_getElem? hc) n now hpc
            rw [if_pos (hhash₀.symm.trans hself.symm)] at hattempts
            have hself' : EnrollmentCall.tokenHash hashToken { c with pc := .done .admitted } = tokenHash :=
              hself
            simp only [EnrollmentCall.admittedFor, hpc, hself', decide_eq_true_eq, reduceCtorEq, and_false,
              and_self, if_true, if_false] at hcount
            simp only [EnrollmentCall.admittedFor] at hcounted ⊢
            omega
          · have hother : ¬ EnrollmentCall.tokenHash hashToken { c with pc := .done .admitted } = tokenHash :=
              hself
            rw [if_neg fun heq => hself (heq.symm.trans hhash₀.symm)] at hattempts
            simp only [EnrollmentCall.admittedFor, hself, hother, decide_eq_true_eq, false_and,
              if_false] at hcount
            simp only [EnrollmentCall.admittedFor] at hcounted ⊢
            omega
        · rw [hdone] at heq
          cases heq
      · obtain ⟨hrows, hsame, hself⟩ := enrollmentStep_of_not_write (c := c) fun n now heq =>
          hwrite ⟨n, now, heq⟩
        rw [hsame, Nat.add_right_cancel_iff] at hcount
        refine ⟨fun r hr => ?_, hcalls hself⟩
        rw [hcount]
        rw [hshared] at hr
        exact h.counted r (hrows hr)

/-- As long as every call writes the number after the stored one, a setup token that is still
there has admitted no more calls than it may. -/
theorem enrollment_attempts_bounded {rows : List EnrollmentRow} {tokens : List String}
    {schedule : List (ℕ × ℤ)} (hnew : ∀ r ∈ rows, r.tokenHash = tokenHash → r.attemptCount = 0)
    (hfresh : Along (FreshAttempt hashToken tokenHash) (Pool.step (enrollmentStep hashToken))
      ⟨rows, tokens.map fun token => { token := token }⟩ schedule) :
    ∀ past future, schedule = past ++ future →
      (∃ r ∈ (run (Pool.step (enrollmentStep hashToken))
        ⟨rows, tokens.map fun token => { token := token }⟩ past).shared, r.tokenHash = tokenHash) →
      (run (Pool.step (enrollmentStep hashToken))
        ⟨rows, tokens.map fun token => { token := token }⟩ past).procs.countP
          (·.admittedFor hashToken tokenHash) ≤ maxAttemptsPerToken := by
  rintro past future rfl ⟨r, hr, hhash⟩
  have hstart : AttemptInv hashToken tokenHash ⟨rows, tokens.map fun token => { token := token }⟩ := by
    refine ⟨fun r hr hhash => ?_, fun c hc => ?_⟩
    · have hnone : (tokens.map fun token => ({ token := token } : EnrollmentCall)).countP
          (·.admittedFor hashToken tokenHash) = 0 := by
        rw [List.countP_map, List.countP_eq_zero]
        intro token _
        simp [EnrollmentCall.admittedFor]
      rw [hnone, hnew r hr hhash]
      exact ⟨rfl, Nat.zero_le _⟩
    · obtain ⟨token, _, rfl⟩ := List.mem_map.mp hc
      intro n now heq
      cases heq
  have hinv := run_along (I := AttemptInv hashToken tokenHash) (fun _ _ h hstep => h.step hstep) hstart
    hfresh.of_append
  obtain ⟨hcounted, hle⟩ := hinv.counted r hr hhash
  exact hcounted ▸ hle

end

def newEnrollment (tokenHash : String) : EnrollmentRow := ⟨1, tokenHash, "secret", 0, 600000, 0, none⟩

/-- Two calls, one after the other. -/
theorem enrollment_attempts_bounded_twice :
    Along (FreshAttempt id "t") (Pool.step (enrollmentStep id))
      ⟨[newEnrollment "t"], ["t", " t"].map fun token => { token := token }⟩
      [(0, 1), (0, 1), (1, 2), (1, 2)] ∧
    (run (Pool.step (enrollmentStep id))
      ⟨[newEnrollment "t"], ["t", " t"].map fun token => { token := token }⟩
      [(0, 1), (0, 1), (1, 2), (1, 2)]).procs.countP (·.admittedFor id "t") ≤ maxAttemptsPerToken := by
  have hfresh : Along (FreshAttempt id "t") (Pool.step (enrollmentStep id))
      ⟨[newEnrollment "t"], ["t", " t"].map fun token => { token := token }⟩
      [(0, 1), (0, 1), (1, 2), (1, 2)] := by decide +kernel
  exact ⟨hfresh, enrollment_attempts_bounded (by decide) hfresh _ [] (List.append_nil _).symm
    (by decide +kernel)⟩

/-- Six calls that all read before one of them writes are all admitted. -/
theorem enrollment_attempts_lost :
    (∃ r ∈ (run (Pool.step (enrollmentStep id))
      ⟨[newEnrollment "t"], (List.replicate 6 "t").map fun token => { token := token }⟩
      ((List.range 6 ++ List.range 6).map fun i => (i, 1))).shared, r.tokenHash = "t") ∧
    ¬ (run (Pool.step (enrollmentStep id))
      ⟨[newEnrollment "t"], (List.replicate 6 "t").map fun token => { token := token }⟩
      ((List.range 6 ++ List.range 6).map fun i => (i, 1))).procs.countP (·.admittedFor id "t") ≤
        maxAttemptsPerToken := by
  decide +kernel

end Scrumboy
