import Scrumboy.Go.Strings
import Scrumboy.Go.Time
import Scrumboy.Limit.Window

/-!
# The limiter of two keys

A limiter counts requests for each of two keys, an address and a name, in one table of fixed
windows. A request has to pass for both of them. Times are in nanoseconds.
-/

namespace Scrumboy

open Go

structure LimiterEntry where
  count : ℤ
  windowAt : ℤ
  deriving DecidableEq, Repr

structure Limiter where
  entries : String → Option LimiterEntry
  limit : ℤ
  window : ℤ
  cleanup : ℤ
  lastClean : ℤ

def newLimiter (limit window now : ℤ) : Limiter := ⟨fun _ => none, limit, window, window * 2, now⟩

namespace Limiter

/-- `NormalizeEmail`: no other spellings of one address are recognised. -/
def normalizeEmail (email : String) : String := toLower (trimSpace email)

def expired (window now : ℤ) (e : LimiterEntry) : Bool := decide (window < sub now e.windowAt)

def clean (l : Limiter) (now : ℤ) : Limiter := { l with entries := Window.clean (expired l.window) now l.entries }

/-- The clean-up at the beginning of a request. -/
def tidy (l : Limiter) (now : ℤ) : Limiter :=
  if l.cleanup < sub now l.lastClean then { l.clean now with lastClean := now } else l

def allowKey (l : Limiter) (key : String) (now : ℤ) : Limiter × Bool :=
  if key = "" then (l, true)
  else
    match (l.entries key).filter fun e => !decide (l.window < sub now e.windowAt) with
    | none => ({ l with entries := Function.update l.entries key (some ⟨1, now⟩) }, true)
    | some e =>
        if l.limit ≤ e.count then (l, false)
        else ({ l with entries := Function.update l.entries key (some { e with count := e.count + 1 }) }, true)

def allow (l : Limiter) (ipKey emailKey : String) (now : ℤ) : Limiter × Bool :=
  let ip := (l.tidy now).allowKey ipKey now
  if ip.2 = false then (ip.1, false)
  else if emailKey = "" then (ip.1, true)
  else ip.1.allowKey emailKey now

/-- The number of further requests that pass for a key in the current window. The request that
opens a window passes whatever the limit is. -/
def remaining (l : Limiter) (key : String) (now : ℤ) : ℤ :=
  match Window.live (expired l.window) now l.entries key with
  | none => max 1 l.limit
  | some e => max 0 (l.limit - e.count)

section

variable {l : Limiter} {key k : String} {now : ℤ}

theorem expires (window : ℤ) : Window.Expires (expired window) := by
  intro now t e h hexp
  unfold expired at *
  rw [decide_eq_true_eq] at *
  exact hexp.trans_le (sub_mono h _)

theorem tidy_window (l : Limiter) (now : ℤ) : (l.tidy now).window = l.window ∧ (l.tidy now).limit = l.limit := by
  unfold tidy clean
  split <;> exact ⟨rfl, rfl⟩

theorem tidy_remaining (l : Limiter) (key : String) (now : ℤ) :
    (l.tidy now).remaining key now = l.remaining key now := by
  unfold tidy
  split
  · unfold remaining clean
    simp only [Window.live_clean (expires l.window) le_rfl]
  · rfl

theorem remaining_nonneg (l : Limiter) (key : String) (now : ℤ) : 0 ≤ l.remaining key now := by
  unfold remaining
  split <;> omega

/-- A key passes as long as something remains. -/
theorem allowKey_eq_true (hkey : key ≠ "") : (l.allowKey key now).2 = true ↔ 0 < l.remaining key now := by
  unfold allowKey remaining Window.live expired
  rw [if_neg hkey]
  cases (l.entries key).filter fun e => !decide (l.window < sub now e.windowAt) with
  | none => simp
  | some e =>
      by_cases hlimit : l.limit ≤ e.count
      · simp [hlimit]
      · simp [hlimit]

/-- A request for another key changes nothing. -/
theorem allowKey_remaining_of_ne (hk : k ≠ key) :
    (l.allowKey key now).1.remaining k now = l.remaining k now := by
  have hupdate : ∀ e : Option LimiterEntry,
      ({ l with entries := Function.update l.entries key e } : Limiter).remaining k now = l.remaining k now := by
    intro e
    unfold remaining
    simp only [Window.live_congr (Function.update_of_ne hk e l.entries)]
  unfold allowKey
  split
  · rfl
  · split
    · exact hupdate _
    · split
      · rfl
      · exact hupdate _

theorem remaining_of_none (h : Window.live (expired l.window) now l.entries k = none) :
    l.remaining k now = max 1 l.limit := by
  unfold remaining
  rw [h]

theorem remaining_of_some {e : LimiterEntry} (h : Window.live (expired l.window) now l.entries k = some e) :
    l.remaining k now = max 0 (l.limit - e.count) := by
  unfold remaining
  rw [h]

/-- A key with a new entry. -/
theorem remaining_update {e : LimiterEntry} (he : expired l.window now e = false) :
    ({ l with entries := Function.update l.entries key (some e) } : Limiter).remaining key now =
      max 0 (l.limit - e.count) :=
  remaining_of_some (Window.live_eq_some.mpr ⟨Function.update_self _ _ _, he⟩)

/-- A request that passes takes one away. -/
theorem allowKey_remaining_self (hkey : key ≠ "") (hwindow : 0 ≤ l.window) :
    (l.allowKey key now).1.remaining key now = max 0 (l.remaining key now - 1) := by
  unfold allowKey
  rw [if_neg hkey]
  split
  · next hnone =>
    have hopened : expired l.window now ⟨1, now⟩ = false := by
      unfold expired
      rw [sub_self, decide_eq_false_iff_not]
      omega
    rw [remaining_update hopened, remaining_of_none (l := l) hnone]
    dsimp only
    omega
  · next e hsome =>
    have hlive : Window.live (expired l.window) now l.entries key = some e := hsome
    rw [remaining_of_some hlive]
    split
    · rw [remaining_of_some hlive]
      omega
    · have hcounted : expired l.window now { e with count := e.count + 1 } = false :=
        (Window.live_eq_some.mp hlive).2
      rw [remaining_update hcounted]
      dsimp only
      omega

theorem allowKey_window (l : Limiter) (key : String) (now : ℤ) :
    (l.allowKey key now).1.window = l.window := by
  unfold allowKey
  split
  · rfl
  · split
    · rfl
    · split <;> rfl

theorem allow_window (l : Limiter) (ipKey emailKey : String) (now : ℤ) :
    (l.allow ipKey emailKey now).1.window = l.window := by
  unfold allow
  simp only
  split
  · exact (allowKey_window _ _ _).trans (tidy_window l now).1
  · split
    · exact (allowKey_window _ _ _).trans (tidy_window l now).1
    · exact (allowKey_window _ _ _).trans ((allowKey_window _ _ _).trans (tidy_window l now).1)


/-- A request takes nothing from a key that it does not name. -/
theorem allow_remaining_of_ne {ipKey emailKey : String} (hip : k ≠ ipKey) (hemail : k ≠ emailKey) :
    (l.allow ipKey emailKey now).1.remaining k now = l.remaining k now := by
  have haddress : ((l.tidy now).allowKey ipKey now).1.remaining k now = l.remaining k now := by
    rw [allowKey_remaining_of_ne hip, tidy_remaining]
  unfold allow
  simp only
  split
  · exact haddress
  · split
    · exact haddress
    · rw [allowKey_remaining_of_ne hemail, haddress]

/-- A request takes one from its address. -/
theorem allow_remaining_ip {ipKey emailKey : String} (hip : ipKey ≠ "") (hemail : ipKey ≠ emailKey)
    (hwindow : 0 ≤ l.window) :
    (l.allow ipKey emailKey now).1.remaining ipKey now = max 0 (l.remaining ipKey now - 1) := by
  have haddress : ((l.tidy now).allowKey ipKey now).1.remaining ipKey now =
      max 0 (l.remaining ipKey now - 1) := by
    rw [allowKey_remaining_self hip ((tidy_window l now).1 ▸ hwindow), tidy_remaining]
  unfold allow
  simp only
  split
  · exact haddress
  · split
    · exact haddress
    · rw [allowKey_remaining_of_ne hemail, haddress]

/-- A request takes one from its name if its address passes. -/
theorem allow_remaining_email {ipKey emailKey : String} (hip : ipKey ≠ "") (hemail : emailKey ≠ "")
    (hne : emailKey ≠ ipKey) (hwindow : 0 ≤ l.window) :
    (l.allow ipKey emailKey now).1.remaining emailKey now =
      if 0 < l.remaining ipKey now then max 0 (l.remaining emailKey now - 1) else l.remaining emailKey now := by
  have haddress : ((l.tidy now).allowKey ipKey now).1.remaining emailKey now = l.remaining emailKey now := by
    rw [allowKey_remaining_of_ne hne, tidy_remaining]
  have hpass := @allowKey_eq_true (l.tidy now) _ now hip
  rw [tidy_remaining] at hpass
  unfold allow
  simp only
  by_cases hleft : 0 < l.remaining ipKey now
  · have hwindow' : 0 ≤ ((l.tidy now).allowKey ipKey now).1.window := by
      rw [allowKey_window, (tidy_window l now).1]
      exact hwindow
    rw [if_pos hleft, if_neg (by simp [hpass.mpr hleft]), if_neg hemail,
      allowKey_remaining_self hemail hwindow', haddress]
  · rw [if_neg hleft, if_pos (by simpa using mt hpass.mp hleft), haddress]

end

end Limiter

end Scrumboy
