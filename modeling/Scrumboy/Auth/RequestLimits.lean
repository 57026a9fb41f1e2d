import Scrumboy.Limit.Limiter
import Scrumboy.Transition.Runs

/-!
# Limits on sign-in requests

The requests without a session that are limited by the address they come from and by the
e-mail that they name. Signing in, its second factor and setting a new password use one
limiter; asking for a link to reset a password uses another. Each limiter has one table for
both kinds of keys.
-/

set_option linter.dupNamespace false

namespace Scrumboy

open Go Transition

/-- The requests that reach a limiter. The e-mail of a second factor is that of the account. -/
inductive AuthRequest
  | login (address email : String)
  | secondFactor (address email : String)
  | resetPassword (address : String)
  | requestPasswordReset (address email : String)
  deriving DecidableEq, Repr

structure AuthLimiters where
  authRateLimit : Limiter
  passwordResetRequestLimiter : Limiter

def newAuthLimiters (now : ℤ) : AuthLimiters := ⟨newLimiter 10 minute now, newLimiter 5 minute now⟩

namespace AuthRequest

def address : AuthRequest → String
  | .login address _ | .secondFactor address _ | .resetPassword address | .requestPasswordReset address _ =>
      address

/-- The e-mail that a request names. -/
def email : AuthRequest → Option String
  | .login _ email | .secondFactor _ email | .requestPasswordReset _ email => some (Limiter.normalizeEmail email)
  | .resetPassword _ => none

/-- The limiters after a request, and whether it passes. -/
def allow (s : AuthLimiters) (now : ℤ) : AuthRequest → AuthLimiters × Bool
  | .login address email | .secondFactor address email =>
      let out := s.authRateLimit.allow ("ip:" ++ address) ("email:" ++ Limiter.normalizeEmail email) now
      ({ s with authRateLimit := out.1 }, out.2)
  | .resetPassword address =>
      let out := s.authRateLimit.allow ("ip:" ++ address) "" now
      ({ s with authRateLimit := out.1 }, out.2)
  | .requestPasswordReset address email =>
      let out := s.passwordResetRequestLimiter.allow ("ip:" ++ address) (Limiter.normalizeEmail email) now
      ({ s with passwordResetRequestLimiter := out.1 }, out.2)

end AuthRequest

namespace AuthLimiters

def step (s : AuthLimiters) (r : ℤ × AuthRequest) : AuthLimiters := (r.2.allow s r.1).1

/-- What is left for a client, in either limiter. -/
def addressBudget (s : AuthLimiters) (address : String) (now : ℤ) : ℤ × ℤ :=
  (s.authRateLimit.remaining ("ip:" ++ address) now,
    s.passwordResetRequestLimiter.remaining ("ip:" ++ address) now)

/-- What is left for an e-mail, in either limiter. -/
def emailBudget (s : AuthLimiters) (email : String) (now : ℤ) : ℤ × ℤ :=
  (s.authRateLimit.remaining ("email:" ++ email) now, s.passwordResetRequestLimiter.remaining email now)

/-- A request for a reset names the key of another address while both have something left. -/
def SpendsAddress (s : AuthLimiters) (now : ℤ) (address : String) : AuthRequest → Prop
  | .requestPasswordReset from_ email => Limiter.normalizeEmail email = "ip:" ++ address ∧
      0 < (s.addressBudget from_ now).2 ∧ 0 < (s.addressBudget address now).2
  | _ => False

/-- A request for a reset comes from an address whose key is the e-mail. -/
def SpendsEmail (s : AuthLimiters) (now : ℤ) (email : String) : AuthRequest → Prop
  | .requestPasswordReset address _ => email = "ip:" ++ address ∧ 0 < (s.emailBudget email now).2
  | _ => False

end AuthLimiters

/-! ## Keys -/

theorem ipKey_ne_empty (address : String) : "ip:" ++ address ≠ "" := by
  intro h
  have := congrArg String.toList h
  simp at this

theorem ipKey_ne_emailKey (address email : String) : "ip:" ++ address ≠ "email:" ++ email := by
  intro h
  have := congrArg String.toList h
  simp at this

theorem ipKey_injective {address address' : String} (h : "ip:" ++ address = "ip:" ++ address') :
    address = address' :=
  (String.append_right_inj _).mp h

theorem emailKey_injective {email email' : String} (h : "email:" ++ email = "email:" ++ email') :
    email = email' :=
  (String.append_right_inj _).mp h

theorem emailKey_ne_empty (email : String) : "email:" ++ email ≠ "" := by
  intro h
  have := congrArg String.toList h
  simp at this

/-! ## Who spends a budget -/

namespace AuthLimiters

section

variable {s : AuthLimiters} {now : ℤ} {address email : String} {r : AuthRequest}

/-- The windows are not negative. -/
def Windowed (s : AuthLimiters) : Prop := 0 ≤ s.passwordResetRequestLimiter.window

theorem Windowed.step (h : s.Windowed) (r : ℤ × AuthRequest) : (s.step r).Windowed := by
  obtain ⟨now, r⟩ := r
  cases r with
  | login address email => exact h
  | secondFactor address email => exact h
  | resetPassword address => exact h
  | requestPasswordReset address email =>
      have hwindow := s.passwordResetRequestLimiter.allow_window ("ip:" ++ address) (Limiter.normalizeEmail email) now
      exact h.trans_eq hwindow.symm

theorem Windowed.run (t₀ : ℤ) (l : List (ℤ × AuthRequest)) :
    (Transition.run AuthLimiters.step (newAuthLimiters t₀) l).Windowed := by
  refine run_history (P := fun _ (s : AuthLimiters) => s.Windowed) ?_ (fun _ _ r hs => hs.step r) l
  show (0 : ℤ) ≤ minute
  decide

theorem addressBudget_step (h : s.Windowed) (hr : r.address ≠ address) :
    (s.step (now, r)).addressBudget address now = s.addressBudget address now ↔
      ¬ s.SpendsAddress now address r := by
  have hother : ∀ from_, from_ ≠ address → "ip:" ++ address ≠ "ip:" ++ from_ :=
    fun from_ hne heq => hne (ipKey_injective heq).symm
  cases r with
  | login from_ email =>
      have hauth := @Limiter.allow_remaining_of_ne s.authRateLimit _ now _ _ (hother from_ hr)
        (ipKey_ne_emailKey address (Limiter.normalizeEmail email))
      simp [step, AuthRequest.allow, addressBudget, hauth, SpendsAddress]
  | secondFactor from_ email =>
      have hauth := @Limiter.allow_remaining_of_ne s.authRateLimit _ now _ _ (hother from_ hr)
        (ipKey_ne_emailKey address (Limiter.normalizeEmail email))
      simp [step, AuthRequest.allow, addressBudget, hauth, SpendsAddress]
  | resetPassword from_ =>
      have hauth := @Limiter.allow_remaining_of_ne s.authRateLimit _ now _ _ (hother from_ hr)
        (ipKey_ne_empty address)
      simp [step, AuthRequest.allow, addressBudget, hauth, SpendsAddress]
  | requestPasswordReset from_ email =>
      simp only [step, AuthRequest.allow, addressBudget, SpendsAddress, Prod.mk.injEq, true_and]
      by_cases hkey : Limiter.normalizeEmail email = "ip:" ++ address
      · have hspend := @Limiter.allow_remaining_email s.passwordResetRequestLimiter now _ _
          (ipKey_ne_empty from_) (ipKey_ne_empty address) (hother from_ hr) h
        have hnonneg := s.passwordResetRequestLimiter.remaining_nonneg ("ip:" ++ address) now
        rw [hkey, hspend]
        simp only [true_and]
        split <;> omega
      · have hkeep := @Limiter.allow_remaining_of_ne s.passwordResetRequestLimiter _ now _ _
          (hother from_ hr) (Ne.symm hkey)
        simp [hkeep, hkey]

theorem emailBudget_step (h : s.Windowed) (hr : r.email ≠ some email) :
    (s.step (now, r)).emailBudget email now = s.emailBudget email now ↔ ¬ s.SpendsEmail now email r := by
  cases r with
  | login address named =>
      have hne : "email:" ++ email ≠ "email:" ++ Limiter.normalizeEmail named :=
        fun heq => hr (congrArg some (emailKey_injective heq).symm)
      have hauth := @Limiter.allow_remaining_of_ne s.authRateLimit _ now _ _
        (ipKey_ne_emailKey address email).symm hne
      simp [step, AuthRequest.allow, emailBudget, hauth, SpendsEmail]
  | secondFactor address named =>
      have hne : "email:" ++ email ≠ "email:" ++ Limiter.normalizeEmail named :=
        fun heq => hr (congrArg some (emailKey_injective heq).symm)
      have hauth := @Limiter.allow_remaining_of_ne s.authRateLimit _ now _ _
        (ipKey_ne_emailKey address email).symm hne
      simp [step, AuthRequest.allow, emailBudget, hauth, SpendsEmail]
  | resetPassword address =>
      have hauth := @Limiter.allow_remaining_of_ne s.authRateLimit _ now _ _
        (ipKey_ne_emailKey address email).symm (emailKey_ne_empty email)
      simp [step, AuthRequest.allow, emailBudget, hauth, SpendsEmail]
  | requestPasswordReset address named =>
      have hne : email ≠ Limiter.normalizeEmail named := fun heq => hr (congrArg some heq.symm)
      simp only [step, AuthRequest.allow, emailBudget, SpendsEmail, Prod.mk.injEq, true_and]
      by_cases hkey : email = "ip:" ++ address
      · subst hkey
        have hspend := @Limiter.allow_remaining_ip s.passwordResetRequestLimiter now _ _
          (ipKey_ne_empty address) hne h
        have hnonneg := s.passwordResetRequestLimiter.remaining_nonneg ("ip:" ++ address) now
        rw [hspend]
        simp only [true_and]
        omega
      · have hkeep := @Limiter.allow_remaining_of_ne s.passwordResetRequestLimiter _ now _ _ hkey hne
        simp [hkeep, hkey]

end

end AuthLimiters

/-- After any requests, the next one changes the budget of another address or of another
e-mail just when it is a request for a reset in which an e-mail is the key of an address. -/
theorem budgets_of_others (t₀ : ℤ) (past : List (ℤ × AuthRequest)) (now : ℤ) (r : AuthRequest) :
    let s := run AuthLimiters.step (newAuthLimiters t₀) past
    (∀ address, r.address ≠ address →
      ((s.step (now, r)).addressBudget address now = s.addressBudget address now ↔
        ¬ s.SpendsAddress now address r)) ∧
    ∀ email, r.email ≠ some email →
      ((s.step (now, r)).emailBudget email now = s.emailBudget email now ↔
        ¬ s.SpendsEmail now email r) := by
  intro s
  have hwindow := AuthLimiters.Windowed.run t₀ past
  exact ⟨fun _ hr => AuthLimiters.addressBudget_step hwindow hr,
    fun _ hr => AuthLimiters.emailBudget_step hwindow hr⟩

theorem budgets_of_others_reset :
    let s := newAuthLimiters 0
    ((s.step (1, .requestPasswordReset "9.9.9.9" "ann@example.org")).addressBudget "1.2.3.4" 1 =
      s.addressBudget "1.2.3.4" 1) ∧
    ((s.step (1, .requestPasswordReset "9.9.9.9" "ann@example.org")).emailBudget "bob@example.org" 1 =
      s.emailBudget "bob@example.org" 1) := by
  have h := budgets_of_others 0 [] 1 (.requestPasswordReset "9.9.9.9" "ann@example.org")
  refine ⟨(h.1 "1.2.3.4" (by decide)).mpr ?_, (h.2 "bob@example.org" (by decide +kernel)).mpr ?_⟩
  · rintro ⟨hkey, _⟩
    revert hkey
    decide +kernel
  · rintro ⟨hkey, _⟩
    revert hkey
    decide

/-- One client asks for resets of an account whose name is the key of another client. -/
theorem reset_spends_other_client :
    let s := newAuthLimiters 0
    ((s.step (1, .requestPasswordReset "9.9.9.9" "ip:1.2.3.4")).addressBudget "1.2.3.4" 1).2 ≠
      (s.addressBudget "1.2.3.4" 1).2 := by
  decide +kernel

end Scrumboy
