import Scrumboy.Limit.Admission

/-!
# Runs of admission

What calls one after the other may charge to a key. The charges of every key form a ledger of
the window counter, which bounds them, and what a call decides depends on the live entries
only, which a rejected call does not change.
-/

set_option linter.dupNamespace false

namespace Scrumboy

open Go Transition

namespace Admission

section

variable {limitOf windowOf : String → ℤ} {a a' : Admission} {now t : ℤ} {costs : List Cost} {k : String}

theorem Fits.new (t₀ : ℤ) : (newAdmission t₀).Fits limitOf windowOf := by
  constructor <;> intro k e he <;> cases he

theorem entries_of_unnamed (h : a.Fits limitOf windowOf) (hcosts : Obeys limitOf windowOf costs)
    (hadmitted : (a.admitCosts now costs).2 = none) (hk : namedCost k costs = none) :
    (a.admitCosts now costs).1.entries k = (a.tidy now).entries k := by
  have hspec := h.admit_none hcosts hadmitted k
  rwa [hk] at hspec

theorem current_of_unnamed (h : a.Fits limitOf windowOf) (hcosts : Obeys limitOf windowOf costs)
    (hadmitted : (a.admitCosts now costs).2 = none) (hk : namedCost k costs = none) (ht : now ≤ t) :
    (a.admitCosts now costs).1.current t k = a.current t k := by
  rw [← tidy_current a ht]
  exact Window.live_congr (entries_of_unnamed h hcosts hadmitted hk)

theorem entries_of_named (h : a.Fits limitOf windowOf) (hcosts : Obeys limitOf windowOf costs)
    (hadmitted : (a.admitCosts now costs).2 = none) {c : Cost} (hk : namedCost k costs = some c) :
    (a.admitCosts now costs).1.entries k = some (chargedEntry now (a.current now k) c) ∧
      ((a.current now k).elim 0 (·.count)) + c.charge ≤ limitOf k := by
  have hspec := h.admit_none hcosts hadmitted k
  rwa [hk] at hspec

theorem namedCost_window (hcosts : Obeys limitOf windowOf costs) {c : Cost} (hk : namedCost k costs = some c) :
    c.window = windowOf k ∧ 0 < windowOf k := by
  obtain ⟨hc, hskip, rfl⟩ := namedCost_eq_some hk
  have hwindow := hcosts.window c hc
  simp only [Cost.skipped, Bool.or_eq_false_iff, decide_eq_false_iff_not] at hskip
  exact ⟨hwindow, by omega⟩

theorem current_of_named (h : a.Fits limitOf windowOf) (hcosts : Obeys limitOf windowOf costs)
    (hadmitted : (a.admitCosts now costs).2 = none) {c : Cost} (hk : namedCost k costs = some c) :
    (a.admitCosts now costs).1.current now k = some (chargedEntry now (a.current now k) c) := by
  refine Window.live_eq_some.mpr ⟨(entries_of_named h hcosts hadmitted hk).1, ?_⟩
  obtain ⟨hwindow, hpos⟩ := namedCost_window hcosts hk
  cases hcur : a.current now k with
  | none =>
      simp only [chargedEntry, AdmissionEntry.expired, hwindow, sub_self, decide_eq_false_iff_not]
      omega
  | some e => exact (Window.live_eq_some.mp hcur).2

theorem Fits.step (h : a.Fits limitOf windowOf) (hcosts : Obeys limitOf windowOf costs) :
    (a.step (now, costs)).Fits limitOf windowOf := by
  cases hadmitted : (a.admitCosts now costs).2 with
  | some r =>
      have htidy : a.step (now, costs) = a.tidy now := admit_some (hadmitted ▸ rfl)
      rw [htidy]
      exact h.tidy now
  | none =>
      -- an entry is one that was there, or that of a budget that was charged
      have hentry : ∀ k e, (a.step (now, costs)).entries k = some e → a.entries k = some e ∨
          e.window = windowOf k ∧ 0 ≤ e.count ∧ e.count ≤ limitOf k := by
        intro k e he
        cases hk : namedCost k costs with
        | none => exact .inl (tidy_some (entries_of_unnamed h hcosts hadmitted hk ▸ he))
        | some c =>
            obtain ⟨hcharged, hle⟩ := entries_of_named h hcosts hadmitted hk
            obtain ⟨hwindow, _⟩ := namedCost_window hcosts hk
            have hpos := charge_pos c
            have heq : chargedEntry now (a.current now k) c = e := Option.some.inj (hcharged.symm.trans he)
            subst heq
            cases hcur : a.current now k with
            | none =>
                rw [hcur] at hle
                exact .inr ⟨hwindow, hpos.le, by simpa [chargedEntry] using hle⟩
            | some e =>
                have hold := (Window.live_eq_some.mp hcur).1
                rw [hcur] at hle
                exact .inr ⟨h.window k e hold, add_nonneg (h.nonneg k e hold) hpos.le, hle⟩
      constructor
      · intro k e he
        rcases hentry k e he with hold | ⟨hwindow, _, _⟩
        · exact h.window k e hold
        · exact hwindow
      · intro k e he
        rcases hentry k e he with hold | ⟨_, hnonneg, _⟩
        · exact h.nonneg k e hold
        · exact hnonneg
      · intro k e he
        rcases hentry k e he with hold | ⟨_, _, hle⟩
        · exact h.count_le k e hold
        · exact hle

/-! ## Charges -/

/-- The entry that a ledger ends with is that of the table, unless it was deleted after it had
expired. -/
structure Tracks (windowOf : String → ℤ) (l : List Call) (a : Admission) (k : String)
    (last : Option (ℤ × ℤ)) : Prop where
  present : ∀ e, a.entries k = some e → last = some (e.windowAt, e.count)
  absent : a.entries k = none → ∀ e ∈ last, ∀ t, (∀ call ∈ l, call.1 ≤ t) → windowOf k < sub t e.1

variable {l : List Call} {last : Option (ℤ × ℤ)}

theorem Tracks.expired (h : Tracks windowOf l a k last) (hfits : a.Fits limitOf windowOf)
    (hl : ∀ call ∈ l, call.1 ≤ now) (hcur : a.current now k = none) :
    ∀ e ∈ last, windowOf k < sub now e.1 := by
  intro e he
  cases hk : a.entries k with
  | none => exact h.absent hk e he now hl
  | some d =>
      have hexpired := Window.live_eq_none.mp hcur d hk
      rw [h.present d hk, Option.mem_some] at he
      rw [AdmissionEntry.expired, decide_eq_true_eq, hfits.window k d hk] at hexpired
      exact he ▸ hexpired

theorem Tracks.tidy (h : Tracks windowOf l a k last) (hfits : a.Fits limitOf windowOf)
    (hl : ∀ call ∈ l, call.1 ≤ now) : Tracks windowOf (l ++ [(now, costs)]) (a.tidy now) k last where
  present e he := h.present e (tidy_some he)
  absent hnone e he t ht := by
    have hnow : now ≤ t := ht (now, costs) (by simp)
    have hcur : a.current now k = none := by
      rw [← tidy_current a le_rfl]
      unfold current Window.live
      rw [hnone]
      rfl
    exact (h.expired hfits hl hcur e he).trans_le (sub_mono hnow _)

/-- The clock of the windows of a key. -/
def Late (windowOf : String → ℤ) (k : String) (now start : ℤ) : Prop := windowOf k < sub now start

theorem admitted_concat (a : Admission) (l : List Call) (call : Call) :
    a.admitted (l ++ [call]) =
      a.admitted l ++ if ((run step a l).decision call).isNone then [call] else [] := by
  induction l generalizing a with
  | nil => simp [admitted]
  | cons d l ih =>
      rw [List.cons_append, admitted, ih, admitted, run_cons, List.append_assoc]

theorem chargesOf_append (k : String) (l l' : List Call) :
    chargesOf k (l ++ l') = chargesOf k l ++ chargesOf k l' :=
  List.filterMap_append

theorem chargesOf_times (hl : ∀ call ∈ l, call.1 ≤ now) : ∀ c ∈ chargesOf k l, c.1 ≤ now := by
  intro c hc
  obtain ⟨call, hcall, hc⟩ := List.mem_filterMap.mp hc
  obtain ⟨d, _, rfl⟩ := Option.map_eq_some_iff.mp hc
  exact hl call hcall

theorem mem_of_mem_admitted {call : Call} (h : call ∈ a.admitted l) : call ∈ l := by
  induction l generalizing a with
  | nil => cases h
  | cons d l ih =>
      rw [admitted, List.mem_append] at h
      rcases h with h | h
      · split at h
        · exact List.mem_singleton.mp h ▸ List.mem_cons_self
        · cases h
      · exact List.mem_cons_of_mem _ (ih h)

/-- The charges of a key so far are a ledger that the table tracks. -/
def Books (limitOf windowOf : String → ℤ) (past l : List Call) (a : Admission) (k : String) : Prop :=
  ∃ last, Window.Ledger (Late windowOf k) (limitOf k) (chargesOf k past) last ∧ Tracks windowOf l a k last

theorem Books.tidied {past : List Call} (h : Books limitOf windowOf past l a k)
    (hfits : a.Fits limitOf windowOf) (hl : ∀ call ∈ l, call.1 ≤ now)
    (hentries : a'.entries k = (a.tidy now).entries k) :
    Books limitOf windowOf past (l ++ [(now, costs)]) a' k := by
  obtain ⟨last, hledger, htracks⟩ := h
  have htidy : Tracks windowOf (l ++ [(now, costs)]) (a.tidy now) k last := htracks.tidy hfits hl
  exact ⟨last, hledger, fun e he => htidy.present e (hentries ▸ he), fun he => htidy.absent (hentries ▸ he)⟩

theorem Books.charged {past : List Call} (h : Books limitOf windowOf past l a k)
    (hfits : a.Fits limitOf windowOf) (hcosts : Obeys limitOf windowOf costs)
    (hpast : ∀ call ∈ past, call.1 ≤ now) (hl : ∀ call ∈ l, call.1 ≤ now)
    (hadmitted : (a.admitCosts now costs).2 = none) {c : Cost} (hk : namedCost k costs = some c) :
    Books limitOf windowOf (past ++ [(now, costs)]) (l ++ [(now, costs)]) (a.step (now, costs)) k := by
  obtain ⟨last, hledger, htracks⟩ := h
  obtain ⟨hentry, hle⟩ := entries_of_named hfits hcosts hadmitted hk
  have hpos := charge_pos c
  have htimes := chargesOf_times (k := k) hpast
  have hcharges : chargesOf k (past ++ [(now, costs)]) = chargesOf k past ++ [(now, c.charge)] := by
    rw [chargesOf_append]
    simp [chargesOf, hk]
  rw [Books, hcharges]
  cases hcur : a.current now k with
  | none =>
      rw [hcur] at hentry hle
      have hexpired := htracks.expired hfits hl hcur
      refine ⟨some (now, c.charge), .opened hledger htimes hexpired hpos.le (by simpa using hle), ?_, ?_⟩
      · intro e he
        rw [← Option.some.inj (hentry.symm.trans he)]
        rfl
      · intro hnone
        cases hentry.symm.trans hnone
  | some e =>
      obtain ⟨hold, hlive⟩ := Window.live_eq_some.mp hcur
      rw [hcur] at hentry hle
      rw [htracks.present e hold] at hledger
      rw [AdmissionEntry.expired, decide_eq_false_iff_not, hfits.window k e hold] at hlive
      refine ⟨some (e.windowAt, e.count + c.charge), .spent hledger htimes hlive hpos.le hle, ?_, ?_⟩
      · intro d hd
        rw [← Option.some.inj (hentry.symm.trans hd)]
        rfl
      · intro hnone
        cases hentry.symm.trans hnone

/-- The calls obey the policy and come in the order of time. -/
structure Ordered (limitOf windowOf : String → ℤ) (calls : List Call) : Prop where
  obeys : ∀ call ∈ calls, Obeys limitOf windowOf call.2
  clock : calls.Pairwise fun c d => c.1 ≤ d.1

theorem Ordered.of_append {l' : List Call} (h : Ordered limitOf windowOf (l ++ l')) :
    Ordered limitOf windowOf l :=
  ⟨fun call hc => h.obeys call (List.mem_append_left _ hc), (List.pairwise_append.mp h.clock).1⟩

theorem Ordered.drop {l' : List Call} (h : Ordered limitOf windowOf (l ++ l')) :
    Ordered limitOf windowOf l' :=
  ⟨fun call hc => h.obeys call (List.mem_append_right _ hc), (List.pairwise_append.mp h.clock).2.1⟩

theorem books_run {calls : List Call} (h : Ordered limitOf windowOf calls) (t₀ : ℤ) :
    (run step (newAdmission t₀) calls).Fits limitOf windowOf ∧
      ∀ k, Books limitOf windowOf ((newAdmission t₀).admitted calls) calls
        (run step (newAdmission t₀) calls) k := by
  induction calls using List.reverseRecOn with
  | nil => exact ⟨.new t₀, fun k => ⟨none, .nil, ⟨fun e he => (nomatch he), fun _ e he => (nomatch he)⟩⟩⟩
  | append_singleton l call ih =>
      obtain ⟨now, costs⟩ := call
      obtain ⟨hfits, hbooks⟩ := ih h.of_append
      have hcosts : Obeys limitOf windowOf costs := h.obeys (now, costs) (by simp)
      have hl : ∀ call ∈ l, call.1 ≤ now := by
        intro call hc
        exact (List.pairwise_append.mp h.clock).2.2 call hc (now, costs) (by simp)
      rw [run_concat, admitted_concat]
      refine ⟨hfits.step hcosts, fun k => ?_⟩
      set s := run step (newAdmission t₀) l
      cases hadmitted : (s.admitCosts now costs).2 with
      | some r =>
          rw [show s.decision (now, costs) = some r from hadmitted, Option.isNone_some,
            if_neg Bool.false_ne_true, List.append_nil]
          exact (hbooks k).tidied hfits hl (congrArg (·.entries k) (admit_some (hadmitted ▸ rfl)))
      | none =>
          rw [show s.decision (now, costs) = none from hadmitted, Option.isNone_none, if_pos rfl]
          cases hk : namedCost k costs with
          | none =>
              have hcharges : chargesOf k ((newAdmission t₀).admitted l ++ [(now, costs)]) =
                  chargesOf k ((newAdmission t₀).admitted l) := by
                rw [chargesOf_append]
                simp [chargesOf, hk]
              rw [Books, hcharges]
              exact (hbooks k).tidied hfits hl (entries_of_unnamed hfits hcosts hadmitted hk)
          | some c =>
              exact (hbooks k).charged hfits hcosts (fun call hc => hl call (mem_of_mem_admitted hc)) hl
                hadmitted hk

/-- The charges of a key in an interval of the length of its window. -/
theorem charges_le_two_limits {calls : List Call} (h : Ordered limitOf windowOf calls) (t₀ : ℤ)
    (hlimit : 0 < limitOf k) (hwindow : 0 < windowOf k) {lo hi : ℤ} (hspan : hi - lo ≤ windowOf k) :
    Window.total (fun t => decide (lo ≤ t ∧ t ≤ hi)) (chargesOf k ((newAdmission t₀).admitted calls)) ≤
      2 * limitOf k := by
  obtain ⟨last, hledger, _⟩ := (books_run h t₀).2 k
  exact hledger.total_le (fun _ _ => lt_of_lt_sub hwindow.le) hwindow.le hlimit.le hspan

/-! ## Between two openings -/

theorem current_eq_none_later (ht : t ≤ now) (h : a.current t k = none) : a.current now k = none := by
  rw [current, Window.live_eq_none] at *
  exact fun e he => expires t now e ht (h e he)

theorem current_later (ht : t ≤ now) {e : AdmissionEntry} (h : a.current now k = some e) :
    a.current t k = some e := by
  cases hcur : a.current t k with
  | none =>
      rw [current_eq_none_later ht hcur] at h
      cases h
  | some d =>
      have hd := (Window.live_eq_some.mp hcur).1
      rw [(Window.live_eq_some.mp h).1] at hd
      exact hd.symm

/-- All that a list of calls charges to a key. -/
def spent (k : String) (a : Admission) (calls : List Call) : ℤ :=
  Window.total (fun _ => true) (chargesOf k (a.admitted calls))

theorem spent_cons (k : String) (a : Admission) (call : Call) (calls : List Call) :
    spent k a (call :: calls) =
      (if (a.decision call).isNone then ((namedCost k call.2).map Cost.charge).getD 0 else 0) +
        spent k (a.step call) calls := by
  rw [spent, admitted, chargesOf_append, Window.total_append]
  congr 1
  cases (a.decision call).isNone with
  | false => rfl
  | true => cases hk : namedCost k call.2 <;> simp [chargesOf, hk, Window.total]

/-- Without an opening, nothing is charged once the entry has expired, and the charges stay
within the limit before that. -/
theorem spent_of_no_opening {calls : List Call} (hfits : a.Fits limitOf windowOf)
    (h : Ordered limitOf windowOf calls) (ht : ∀ call ∈ calls, t ≤ call.1)
    (hquiet : Along (fun a call => ¬ a.Opens k call) step a calls) :
    (a.current t k = none → spent k a calls = 0) ∧
      ∀ e, a.current t k = some e → e.count + spent k a calls ≤ limitOf k := by
  induction calls generalizing a t with
  | nil =>
      refine ⟨fun _ => rfl, fun e he => ?_⟩
      simpa [spent, admitted, chargesOf] using hfits.count_le k e (Window.live_eq_some.mp he).1
  | cons call calls ih =>
      obtain ⟨now, costs⟩ := call
      obtain ⟨hopens, hquiet⟩ := hquiet
      have hcosts : Obeys limitOf windowOf costs := h.obeys (now, costs) List.mem_cons_self
      have hnow : t ≤ now := ht (now, costs) List.mem_cons_self
      have hlater : ∀ call ∈ calls, now ≤ call.1 := (List.pairwise_cons.mp h.clock).1
      have hrest := ih (hfits.step hcosts) (h.drop (l := [(now, costs)])) hlater hquiet
      rw [spent_cons]
      -- what the call leaves of the live entry at its time
      have hsame : (a.step (now, costs)).current now k = a.current now k →
          (a.current t k = none → spent k (a.step (now, costs)) calls = 0) ∧
            ∀ e, a.current t k = some e → e.count + spent k (a.step (now, costs)) calls ≤ limitOf k := by
        intro hcur
        rw [hcur] at hrest
        refine ⟨fun hnone => hrest.1 (current_eq_none_later hnow hnone), fun e he => ?_⟩
        cases hcur' : a.current now k with
        | none =>
            rw [hrest.1 hcur', add_zero]
            exact hfits.count_le k e (Window.live_eq_some.mp he).1
        | some d =>
            have hd := current_later hnow hcur'
            rw [he] at hd
            exact Option.some.inj hd ▸ hrest.2 d hcur'
      cases hadmitted : (a.admitCosts now costs).2 with
      | some r =>
          rw [show a.decision (now, costs) = some r from hadmitted]
          simpa using hsame (current_of_rejected (hadmitted ▸ rfl) le_rfl k)
      | none =>
          rw [show a.decision (now, costs) = none from hadmitted]
          cases hk : namedCost k costs with
          | none => simpa using hsame (current_of_unnamed hfits hcosts hadmitted hk le_rfl)
          | some c =>
              have hcharged := current_of_named hfits hcosts hadmitted hk
              cases hcur : a.current now k with
              | none => exact absurd ⟨hadmitted, by simp [hk], hcur⟩ hopens
              | some e =>
                  have he := current_later hnow hcur
                  rw [hcur] at hcharged
                  have hle := hrest.2 _ hcharged
                  simp only [chargedEntry] at hle
                  refine ⟨fun hnone => absurd (he.symm.trans hnone) (by simp), fun d hd => ?_⟩
                  rw [← Option.some.inj (he.symm.trans hd)]
                  simp only [Option.isNone_none, if_true, Option.map_some, Option.getD_some]
                  omega

/-- A call and those after it that open no window. -/
theorem spent_le_limit {call : Call} {calls : List Call} (hfits : a.Fits limitOf windowOf)
    (h : Ordered limitOf windowOf (call :: calls)) (hlimit : 0 < limitOf k)
    (hquiet : Along (fun a call => ¬ a.Opens k call) step (a.step call) calls) :
    spent k a (call :: calls) ≤ limitOf k := by
  obtain ⟨now, costs⟩ := call
  have hcosts : Obeys limitOf windowOf costs := h.obeys (now, costs) List.mem_cons_self
  have hrest := spent_of_no_opening (t := now) (k := k) (hfits.step hcosts) (h.drop (l := [(now, costs)]))
    (List.pairwise_cons.mp h.clock).1 hquiet
  have hle : spent k (a.step (now, costs)) calls ≤ limitOf k := by
    cases hcur : (a.step (now, costs)).current now k with
    | none =>
        rw [hrest.1 hcur]
        exact hlimit.le
    | some e =>
        have hfits' : (a.step (now, costs)).Fits limitOf windowOf := hfits.step hcosts
        have hnonneg := hfits'.nonneg k e (Window.live_eq_some.mp hcur).1
        have := hrest.2 e hcur
        omega
  rw [spent_cons]
  cases hadmitted : (a.admitCosts now costs).2 with
  | some r =>
      rw [show a.decision (now, costs) = some r from hadmitted]
      simpa using hle
  | none =>
      rw [show a.decision (now, costs) = none from hadmitted]
      cases hk : namedCost k costs with
      | none => simpa using hle
      | some c =>
          have hle := hrest.2 _ (current_of_named hfits hcosts hadmitted hk)
          simp only [Option.isNone_none, if_true, Option.map_some, Option.getD_some]
          cases hcur : a.current now k with
          | none =>
              rw [hcur] at hle
              exact hle
          | some e =>
              have hnonneg := hfits.nonneg k e (Window.live_eq_some.mp hcur).1
              rw [hcur] at hle
              simp only [chargedEntry] at hle
              omega

/-! ## Rejected calls -/

theorem Fits.check_congr (h : a.Fits limitOf windowOf) (h' : a'.Fits limitOf windowOf)
    (hcosts : ∀ c ∈ costs, c.window = windowOf c.key)
    (hagree : ∀ k, a.current now k = a'.current now k) :
    costs.mapM (a.check now) = costs.mapM (a'.check now) := by
  induction costs with
  | nil => rfl
  | cons c costs ih =>
      have hc := hcosts c List.mem_cons_self
      rw [List.mapM_cons, List.mapM_cons, ih fun d hd => hcosts d (List.mem_cons_of_mem _ hd),
        h.check_eq hc, h'.check_eq hc, hagree]

/-- The decision depends on the live entries only. -/
theorem decision_congr (h : a.Fits limitOf windowOf) (h' : a'.Fits limitOf windowOf)
    (hcosts : Obeys limitOf windowOf costs) (hagree : ∀ k, a.current now k = a'.current now k) :
    (a.admitCosts now costs).2 = (a'.admitCosts now costs).2 := by
  have hcheck := (h.tidy now).check_congr (h'.tidy now) hcosts.window fun k => by
    rw [tidy_current a le_rfl, tidy_current a' le_rfl]
    exact hagree k
  unfold admitCosts
  rw [hcheck]
  cases costs.mapM ((a'.tidy now).check now) <;> rfl

theorem step_congr (h : a.Fits limitOf windowOf) (h' : a'.Fits limitOf windowOf)
    (hcosts : Obeys limitOf windowOf costs) (hagree : ∀ k, a.current now k = a'.current now k) (k : String) :
    (a.step (now, costs)).current now k = (a'.step (now, costs)).current now k := by
  have hdecision := decision_congr h h' hcosts hagree
  unfold step
  cases hadmitted : (a.admitCosts now costs).2 with
  | some r =>
      rw [current_of_rejected (hadmitted ▸ rfl) le_rfl, current_of_rejected (hdecision ▸ hadmitted ▸ rfl) le_rfl]
      exact hagree k
  | none =>
      have hadmitted' : (a'.admitCosts now costs).2 = none := hdecision ▸ hadmitted
      cases hk : namedCost k costs with
      | none =>
          rw [current_of_unnamed h hcosts hadmitted hk le_rfl, current_of_unnamed h' hcosts hadmitted' hk le_rfl]
          exact hagree k
      | some c =>
          rw [current_of_named h hcosts hadmitted hk, current_of_named h' hcosts hadmitted' hk, hagree k]

theorem decisions_congr {calls : List Call} (hfits : a.Fits limitOf windowOf)
    (hfits' : a'.Fits limitOf windowOf) (h : Ordered limitOf windowOf calls)
    (hagree : ∀ call ∈ calls, ∀ k, a.current call.1 k = a'.current call.1 k) :
    a.decisions calls = a'.decisions calls := by
  induction calls generalizing a a' with
  | nil => rfl
  | cons call calls ih =>
      obtain ⟨now, costs⟩ := call
      have hcosts : Obeys limitOf windowOf costs := h.obeys (now, costs) List.mem_cons_self
      have hhere := hagree (now, costs) List.mem_cons_self
      rw [decisions, decisions]
      congr 1
      · exact decision_congr hfits hfits' hcosts hhere
      · apply ih (hfits.step hcosts) (hfits'.step hcosts) (h.drop (l := [(now, costs)]))
        intro call hcall k
        have hlater := (List.pairwise_cons.mp h.clock).1 call hcall
        exact Window.Agree.later expires (step_congr hfits hfits' hcosts hhere) hlater k

end

end Admission

open Admission in
/-- The budgets of an admission limiter. A cost that is skipped names no budget. -/
theorem admission_safety (limitOf windowOf : String → ℤ) (t₀ : ℤ) (calls : List Call)
    (hcalls : Ordered limitOf windowOf calls) :
    (∀ k, 0 < limitOf k → 0 < windowOf k →
      (∀ lo hi, hi - lo ≤ windowOf k →
        Window.total (fun t => decide (lo ≤ t ∧ t ≤ hi))
          (chargesOf k ((newAdmission t₀).admitted calls)) ≤ 2 * limitOf k) ∧
      ∀ past call later rest, calls = past ++ call :: later ++ rest →
        Along (fun a call => ¬ a.Opens k call) step (run step (newAdmission t₀) (past ++ [call])) later →
        spent k (run step (newAdmission t₀) past) (call :: later) ≤ limitOf k) ∧
    (∀ past call rest, calls = past ++ call :: rest →
      ((run step (newAdmission t₀) past).decision call).isSome →
      (run step (newAdmission t₀) (past ++ [call])).decisions rest =
        (run step (newAdmission t₀) past).decisions rest) ∧
    ∀ past call rest, calls = past ++ call :: rest →
      (run step (newAdmission t₀) past).decision call = none →
      ∀ c ∈ call.2, c.skipped = false →
        (run step (newAdmission t₀) (past ++ [call])).used call.1 c.key =
          (run step (newAdmission t₀) past).used call.1 c.key + c.charge := by
  refine ⟨fun k hlimit hwindow => ⟨fun lo hi hspan => ?_, ?_⟩, ?_, ?_⟩
  · exact charges_le_two_limits hcalls t₀ hlimit hwindow hspan
  · rintro past call later rest rfl hquiet
    rw [List.append_assoc] at hcalls
    rw [run_concat] at hquiet
    exact spent_le_limit (books_run hcalls.of_append t₀).1 hcalls.drop.of_append hlimit hquiet
  · rintro past call rest rfl hrejected
    obtain ⟨now, costs⟩ := call
    have hfits := (books_run hcalls.of_append t₀).1
    have hcosts : Obeys limitOf windowOf costs := hcalls.obeys (now, costs) (by simp)
    rw [run_concat]
    have hrest := hcalls.drop
    refine decisions_congr (hfits.step hcosts) hfits (hrest.drop (l := [(now, costs)])) ?_
    intro call hcall k
    exact current_of_rejected hrejected ((List.pairwise_cons.mp hrest.clock).1 call hcall) k
  · rintro past call rest rfl hadmitted c hc hskip
    obtain ⟨now, costs⟩ := call
    have hfits := (books_run hcalls.of_append t₀).1
    have hcosts : Obeys limitOf windowOf costs := hcalls.obeys (now, costs) (by simp)
    rw [run_concat, used, used, step,
      current_of_named hfits hcosts hadmitted (namedCost_of_mem hcosts.keys hc hskip)]
    cases (run step (newAdmission t₀) past).current now c.key with
    | none => simp [chargedEntry]
    | some e => rfl

/-- A budget of two requests a minute for each visitor, next to one of three for all. -/
def twoBudgets (now : ℤ) (visitor : String) : Admission.Call :=
  (now, [⟨visitor, 2, minute, 1⟩, ⟨"all", 3, minute, 0⟩])

theorem admission_safety_two_budgets :
    let calls := [twoBudgets 0 "a", twoBudgets 1 "a", twoBudgets 2 "a", twoBudgets (minute + 2) "a"]
    let limitOf := fun k => if k = "all" then 3 else 2
    let after := Transition.run Admission.step (newAdmission 0) (calls.take 2)
    after.decision (twoBudgets 2 "a") = some ⟨"a", minute - 2⟩ ∧
      (after.step (twoBudgets 2 "a")).decisions (calls.drop 3) = after.decisions (calls.drop 3) ∧
      Window.total (fun t => decide (0 ≤ t ∧ t ≤ minute))
        (chargesOf "all" ((newAdmission 0).admitted calls)) ≤ 2 * limitOf "all" := by
  intro calls limitOf after
  have hordered : Admission.Ordered limitOf (fun _ => minute) calls := by
    constructor
    · intro call hcall
      constructor <;> revert call <;> decide
    · decide
  have hrejected : after.decision (twoBudgets 2 "a") = some ⟨"a", minute - 2⟩ := by decide
  obtain ⟨hbounds, hrejections, _⟩ := admission_safety limitOf (fun _ => minute) 0 calls hordered
  refine ⟨hrejected, ?_, (hbounds "all" (by decide) (by decide)).1 0 minute (by decide)⟩
  exact hrejections (calls.take 2) (twoBudgets 2 "a") (calls.drop 3) rfl (by rw [hrejected]; rfl)

/-- A limit that is not positive is no limit: the call is admitted and charges nothing. -/
theorem unlimited_cost_uncharged :
    let call : Admission.Call := (0, [⟨"a", 0, minute, 1⟩])
    (newAdmission 0).decision call = none ∧
      ((newAdmission 0).step call).used 0 "a" ≠ (newAdmission 0).used 0 "a" + 1 := by
  decide

end Scrumboy
