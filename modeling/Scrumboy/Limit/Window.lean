import Mathlib.Algebra.BigOperators.Group.List.Basic
import Mathlib.Tactic.Linarith

/-!
# Fixed windows

A limiter with fixed windows keeps an entry for a key. The entry is opened by a charge, it
counts the charges that follow, and once it has expired the next charge opens another one.

A table is a function from keys to entries. What a limiter decides depends on the live
entries only, so that a clean-up, which deletes expired ones, is invisible: this is
`Agree`. A `Ledger` is the list of the charges of one key with the entry that they left; its
bounds are those of the limiter.
-/

namespace Window

/-! ## Tables -/

section Tables

variable {κ ε : Type*} (expired : ℤ → ε → Bool)

/-- The entry of a key, unless it has expired. -/
def live (now : ℤ) (m : κ → Option ε) (k : κ) : Option ε := (m k).filter fun e => !expired now e

/-- The expired entries are deleted. -/
def clean (now : ℤ) (m : κ → Option ε) : κ → Option ε := live expired now m

/-- Two tables have the same live entries. -/
def Agree (now : ℤ) (m m' : κ → Option ε) : Prop := ∀ k, live expired now m k = live expired now m' k

variable {expired} {now t : ℤ} {m m' : κ → Option ε}

theorem live_eq_some {k : κ} {e : ε} :
    live expired now m k = some e ↔ m k = some e ∧ expired now e = false := by
  simp [live, Option.filter_eq_some_iff]

theorem live_eq_none {k : κ} : live expired now m k = none ↔ ∀ e, m k = some e → expired now e = true := by
  simp [live, Option.filter_eq_none_iff]

/-- An entry that has expired stays so. -/
def Expires (expired : ℤ → ε → Bool) : Prop :=
  ∀ now t e, now ≤ t → expired now e = true → expired t e = true

theorem live_clean (hexp : Expires expired) (h : now ≤ t) (k : κ) :
    live expired t (clean expired now m) k = live expired t m k := by
  unfold live clean live
  rw [Option.filter_filter]
  congr 1
  funext e
  cases hnow : expired now e with
  | false => simp
  | true => simp [hexp now t e h hnow]

/-- Tables that agree go on to agree. -/
theorem Agree.later (hexp : Expires expired) (h : Agree expired now m m') (ht : now ≤ t) :
    Agree expired t m m' := by
  intro k
  rw [← live_clean hexp ht, ← live_clean (m := m') hexp ht]
  unfold live Window.clean
  rw [h k]

theorem live_congr {k : κ} (h : m k = m' k) : live expired now m k = live expired now m' k := by
  unfold live
  rw [h]

end Tables

/-! ## The charges of one key -/

/-- The sum of the charges at the times that `p` selects. -/
def total (p : ℤ → Bool) (l : List (ℤ × ℤ)) : ℤ := ((l.filter fun c => p c.1).map (·.2)).sum

@[simp] theorem total_nil (p : ℤ → Bool) : total p [] = 0 := rfl

@[simp] theorem total_concat (p : ℤ → Bool) (l : List (ℤ × ℤ)) (now n : ℤ) :
    total p (l ++ [(now, n)]) = total p l + if p now then n else 0 := by
  cases hp : p now <;> simp [total, hp]

theorem total_append (p : ℤ → Bool) (l l' : List (ℤ × ℤ)) :
    total p (l ++ l') = total p l + total p l' := by
  simp [total]

section

variable {l : List (ℤ × ℤ)} {p q r : ℤ → Bool}

/-- If every selected time is selected by `q` or by `r`, so is the sum bounded. -/
theorem total_le_add (hl : ∀ c ∈ l, 0 ≤ c.2) (h : ∀ c ∈ l, p c.1 → q c.1 ∨ r c.1) :
    total p l ≤ total q l + total r l := by
  induction l with
  | nil => simp [total]
  | cons c l ih =>
      have ih := ih (fun d hd => hl d (List.mem_cons_of_mem _ hd))
        fun d hd => h d (List.mem_cons_of_mem _ hd)
      have hc := hl c List.mem_cons_self
      have hpqr := h c List.mem_cons_self
      unfold total at ih ⊢
      simp only [List.filter_cons]
      cases hp : p c.1 <;> cases hq : q c.1 <;> cases hr : r c.1 <;>
        simp only [hp, hq, hr, Bool.false_eq_true, if_true, if_false, List.map_cons, List.sum_cons, forall_const,
          or_self, imp_false] at hpqr ⊢ <;> omega

theorem total_mono (hl : ∀ c ∈ l, 0 ≤ c.2) (h : ∀ c ∈ l, p c.1 → q c.1) : total p l ≤ total q l := by
  have h := total_le_add (r := fun _ => false) hl fun c hc hp => .inl (h c hc hp)
  simpa [total] using h

theorem total_eq_zero (h : ∀ c ∈ l, p c.1 = false) : total p l = 0 := by
  have hfilter : (l.filter fun c => p c.1) = [] := by
    rw [List.filter_eq_nil_iff]
    intro c hc
    simp [h c hc]
  rw [total, hfilter]
  rfl

end

/-- The charges that a limiter admits for one key of a limit, in the order of time, and the
time and the count of the entry that was opened last. -/
inductive Ledger (expired : ℤ → ℤ → Prop) (limit : ℤ) : List (ℤ × ℤ) → Option (ℤ × ℤ) → Prop
  | nil : Ledger expired limit [] none
  | opened {l : List (ℤ × ℤ)} {last : Option (ℤ × ℤ)} {now n : ℤ} (h : Ledger expired limit l last)
      (htimes : ∀ c ∈ l, c.1 ≤ now) (hexpired : ∀ e ∈ last, expired now e.1) (hpos : 0 ≤ n)
      (hlimit : n ≤ limit) : Ledger expired limit (l ++ [(now, n)]) (some (now, n))
  | spent {l : List (ℤ × ℤ)} {now start count n : ℤ} (h : Ledger expired limit l (some (start, count)))
      (htimes : ∀ c ∈ l, c.1 ≤ now) (hlive : ¬ expired now start) (hpos : 0 ≤ n)
      (hlimit : count + n ≤ limit) : Ledger expired limit (l ++ [(now, n)]) (some (start, count + n))

namespace Ledger

variable {expired : ℤ → ℤ → Prop} {limit : ℤ} {l : List (ℤ × ℤ)} {last : Option (ℤ × ℤ)}

theorem nonneg (h : Ledger expired limit l last) : ∀ c ∈ l, 0 ≤ c.2 := by
  induction h with
  | nil => simp
  | opened h htimes hexpired hpos hlimit ih =>
      intro c hc
      rcases List.mem_append.mp hc with hc | hc
      · exact ih c hc
      · rw [List.mem_singleton.mp hc]
        exact hpos
  | spent h htimes hlive hpos hlimit ih =>
      intro c hc
      rcases List.mem_append.mp hc with hc | hc
      · exact ih c hc
      · rw [List.mem_singleton.mp hc]
        exact hpos

/-- What the entry says about the charges. Those since it was opened are its count, and
those of any window before it were charges of one earlier entry. -/
structure Entry (expired : ℤ → ℤ → Prop) (limit window : ℤ) (l : List (ℤ × ℤ)) (start count : ℤ) : Prop where
  counted : total (fun t => decide (start ≤ t)) l = count
  count_le : count ≤ limit
  reached : ∃ c ∈ l, start ≤ c.1
  alive : ∀ c ∈ l, start ≤ c.1 → ¬ expired c.1 start
  before : ∀ lo, start - lo ≤ window → total (fun t => decide (lo ≤ t ∧ t < start)) l ≤ limit

theorem eq_nil (h : Ledger expired limit l none) : l = [] := by
  cases h
  rfl

theorem Entry.spent {window now start count n : ℤ} (hentry : Entry expired limit window l start count)
    (htimes : ∀ c ∈ l, c.1 ≤ now) (hlive : ¬ expired now start) (hlimit : count + n ≤ limit) :
    Entry expired limit window (l ++ [(now, n)]) start (count + n) := by
  obtain ⟨d, hd, hstart⟩ := hentry.reached
  have hnow : start ≤ now := hstart.trans (htimes d hd)
  constructor
  · rw [total_concat, hentry.counted]
    simp [hnow]
  · exact hlimit
  · exact ⟨d, List.mem_append_left _ hd, hstart⟩
  · intro c hc hstart
    rcases List.mem_append.mp hc with hc | hc
    · exact hentry.alive c hc hstart
    · rw [List.mem_singleton.mp hc]
      exact hlive
  · intro lo hlo
    rw [total_concat]
    simpa [hnow.not_gt] using hentry.before lo hlo

/-- An interval that reaches the entry has the charges of that entry and of one before. -/
theorem Entry.total_le {window start count lo hi : ℤ} (h : Entry expired limit window l start count)
    (hl : ∀ c ∈ l, 0 ≤ c.2) (hspan : hi - lo ≤ window) (hstart : start ≤ hi) :
    total (fun t => decide (lo ≤ t ∧ t ≤ hi)) l ≤ 2 * limit := by
  have hsplit : total (fun t => decide (lo ≤ t ∧ t ≤ hi)) l ≤
      total (fun t => decide (lo ≤ t ∧ t < start)) l + total (fun t => decide (start ≤ t)) l := by
    apply total_le_add hl
    intro c _ hsel
    simp only [decide_eq_true_eq] at hsel ⊢
    omega
  have hbefore := h.before lo (by omega)
  have hcount := h.count_le
  rw [h.counted] at hsplit
  omega

section

variable {window : ℤ} (hlate : ∀ now start, expired now start → window < now - start) (hwindow : 0 ≤ window)

include hlate hwindow

/-- When the entry has expired, every charge is earlier. -/
theorem lt_of_expired {now start count : ℤ} (h : Entry expired limit window l start count)
    (htimes : ∀ c ∈ l, c.1 ≤ now) (hexpired : expired now start) {c : ℤ × ℤ} (hc : c ∈ l) : c.1 < now := by
  have hstart := hlate now start hexpired
  rcases (htimes c hc).lt_or_eq with hlt | heq
  · exact hlt
  · exact absurd (heq ▸ hexpired) (h.alive c hc (by omega))

theorem entry_opened {now n : ℤ} (h : Ledger expired limit l last)
    (hentry : ∀ e ∈ last, Entry expired limit window l e.1 e.2) (htimes : ∀ c ∈ l, c.1 ≤ now)
    (hexpired : ∀ e ∈ last, expired now e.1) (hpos : 0 ≤ n) (hlimit : n ≤ limit) :
    Entry expired limit window (l ++ [(now, n)]) now n := by
  have hbefore : ∀ c ∈ l, c.1 < now := by
    intro c hc
    cases last with
    | none => exact absurd (h.eq_nil ▸ hc) List.not_mem_nil
    | some e => exact lt_of_expired hlate hwindow (hentry e rfl) htimes (hexpired e rfl) hc
  constructor
  · rw [total_concat, total_eq_zero fun c hc => by simpa using hbefore c hc]
    simp
  · exact hlimit
  · exact ⟨(now, n), by simp, le_rfl⟩
  · intro c hc hnow
    rcases List.mem_append.mp hc with hc | hc
    · exact absurd hnow (hbefore c hc).not_ge
    · rw [List.mem_singleton.mp hc]
      intro hself
      have := hlate now now hself
      omega
  · intro lo hlo
    rw [total_concat]
    cases last with
    | none =>
        rw [h.eq_nil]
        simpa using hpos.trans hlimit
    | some e =>
        have he := hentry e rfl
        have hstart := hlate now e.1 (hexpired e rfl)
        have hle : total (fun t => decide (lo ≤ t ∧ t < now)) l ≤ e.2 := by
          rw [← he.counted]
          apply total_mono h.nonneg
          intro c hc hsel
          simp only [decide_eq_true_eq] at hsel ⊢
          omega
        simpa using hle.trans he.count_le

theorem entry (h : Ledger expired limit l last) : ∀ e ∈ last, Entry expired limit window l e.1 e.2 := by
  induction h with
  | nil => simp
  | opened h htimes hexpired hpos hlimit ih =>
      intro e he
      rw [← Option.mem_some.mp he]
      exact entry_opened hlate hwindow h ih htimes hexpired hpos hlimit
  | spent h htimes hlive hpos hlimit ih =>
      intro e he
      rw [← Option.mem_some.mp he]
      exact (ih _ rfl).spent htimes hlive hlimit

/-- In an interval that is no longer than the window at most twice the limit is charged. -/
theorem total_le (h : Ledger expired limit l last) (hlimit : 0 ≤ limit) {lo hi : ℤ}
    (hspan : hi - lo ≤ window) : total (fun t => decide (lo ≤ t ∧ t ≤ hi)) l ≤ 2 * limit := by
  -- the last charge is behind the interval, or its entry was opened before the end of it
  induction h with
  | nil => simpa using hlimit
  | @opened l last now n h htimes hexpired hpos hn ih =>
      by_cases hnow : now ≤ hi
      · have h' := Ledger.opened h htimes hexpired hpos hn
        exact (entry hlate hwindow h' _ rfl).total_le h'.nonneg hspan hnow
      · simpa [hnow] using ih
  | @spent l now start count n h htimes hlive hpos hn ih =>
      by_cases hnow : now ≤ hi
      · have h' := Ledger.spent h htimes hlive hpos hn
        obtain ⟨d, hd, hstart⟩ := (entry hlate hwindow h _ rfl).reached
        have hstart : start ≤ hi := (hstart.trans (htimes d hd)).trans hnow
        exact (entry hlate hwindow h' _ rfl).total_le h'.nonneg hspan hstart
      · simpa [hnow] using ih

end

end Ledger

end Window
