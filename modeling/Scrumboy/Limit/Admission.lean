import Scrumboy.Go.Errors
import Scrumboy.Go.Time
import Scrumboy.Limit.Window
import Scrumboy.Transition.Runs
import Mathlib.Data.List.Nodup

/-!
# Admission by several budgets

A request of an anonymous visitor names several budgets and is admitted only if all of them
have room; then each of them is charged. The budgets are counted in fixed windows, and
expired entries are deleted from time to time. Times are in nanoseconds.
-/

set_option linter.dupNamespace false

namespace Scrumboy

open Go Transition

structure Cost where
  key : String
  limit : ℤ
  window : ℤ
  n : ℤ
  deriving DecidableEq, Repr

structure Rejected where
  budget : String
  retryAfter : ℤ
  deriving DecidableEq, Repr

structure AdmissionEntry where
  count : ℤ
  windowAt : ℤ
  window : ℤ
  deriving DecidableEq, Repr

structure Admission where
  entries : String → Option AdmissionEntry
  cleanup : ℤ
  lastClean : ℤ

def newAdmission (now : ℤ) : Admission := ⟨fun _ => none, 2 * hour, now⟩

def AdmissionEntry.expired (now : ℤ) (e : AdmissionEntry) : Bool := decide (e.window < sub now e.windowAt)

/-- An empty key or a limit or window that is not positive sets no budget. -/
def Cost.skipped (c : Cost) : Bool := c.key == "" || decide (c.limit ≤ 0) || decide (c.window ≤ 0)

/-- `N` defaults to 1. -/
def Cost.charge (c : Cost) : ℤ := if c.n ≤ 0 then 1 else c.n

/-- A budget that is to be charged, and whether that opens its window. -/
structure PendingCost where
  cost : Cost
  fresh : Bool
  deriving DecidableEq, Repr

namespace Admission

def clean (a : Admission) (now : ℤ) : Admission :=
  { a with entries := Window.clean AdmissionEntry.expired now a.entries }

/-- The clean-up at the beginning of a call. -/
def tidy (a : Admission) (now : ℤ) : Admission :=
  if a.cleanup < sub now a.lastClean then { a.clean now with lastClean := now } else a

/-- The first loop, for one cost. -/
def check (a : Admission) (now : ℤ) (c : Cost) : Except Rejected (List PendingCost) :=
  if c.skipped then .ok []
  else
    match (a.entries c.key).filter fun e => !decide (c.window < sub now e.windowAt) with
    | none =>
        if c.limit < c.charge then .error ⟨c.key, c.window⟩ else .ok [⟨c, true⟩]
    | some e =>
        if c.limit - c.charge < e.count then
          .error ⟨c.key, max second (c.window - sub now e.windowAt)⟩
        else .ok [⟨c, false⟩]

/-- The second loop, for one budget. -/
def chargePending (now : ℤ) (a : Admission) (p : PendingCost) : Admission :=
  { a with
    entries := Function.update a.entries p.cost.key
      (if p.fresh then some ⟨p.cost.charge, now, p.cost.window⟩
        else (a.entries p.cost.key).map fun e => { e with count := e.count + p.cost.charge }) }

def admitCosts (a : Admission) (now : ℤ) (costs : List Cost) : Admission × Option Rejected :=
  match costs.mapM ((a.tidy now).check now) with
  | .error r => (a.tidy now, some r)
  | .ok work => (work.flatten.foldl (chargePending now) (a.tidy now), none)

/-- A call of `Admit` at a time. -/
abbrev Call := ℤ × List Cost

def step (a : Admission) (call : Call) : Admission := (a.admitCosts call.1 call.2).1

def decision (a : Admission) (call : Call) : Option Rejected := (a.admitCosts call.1 call.2).2

/-- The results of the calls, one after the other. -/
def decisions : Admission → List Call → List (Option Rejected)
  | _, [] => []
  | a, call :: calls => a.decision call :: decisions (a.step call) calls

/-- The calls that are admitted. -/
def admitted : Admission → List Call → List Call
  | _, [] => []
  | a, call :: calls =>
      (if (a.decision call).isNone then [call] else []) ++ admitted (a.step call) calls

/-- The live entry of a key. -/
def current (a : Admission) (now : ℤ) (k : String) : Option AdmissionEntry :=
  Window.live AdmissionEntry.expired now a.entries k

/-- What of a budget is used up. -/
def used (a : Admission) (now : ℤ) (k : String) : ℤ := ((a.current now k).map (·.count)).getD 0

end Admission

/-- The cost that charges a key. -/
def namedCost (k : String) (costs : List Cost) : Option Cost :=
  costs.find? fun c => !c.skipped && c.key == k

/-- The charges to a key by a list of calls, with their times. -/
def chargesOf (k : String) (calls : List Admission.Call) : List (ℤ × ℤ) :=
  calls.filterMap fun call => (namedCost k call.2).map fun c => (call.1, c.charge)

namespace Admission

/-- The call opens a window of the key. -/
def Opens (k : String) (a : Admission) (call : Call) : Prop :=
  a.decision call = none ∧ (namedCost k call.2).isSome ∧ a.current call.1 k = none

instance (k : String) (a : Admission) (call : Call) : Decidable (a.Opens k call) :=
  inferInstanceAs (Decidable (_ ∧ _ ∧ _))

/-- A key always comes with the same limit and window, and once in a call. -/
structure Obeys (limitOf windowOf : String → ℤ) (costs : List Cost) : Prop where
  limit : ∀ c ∈ costs, c.limit = limitOf c.key
  window : ∀ c ∈ costs, c.window = windowOf c.key
  keys : (costs.map (·.key)).Nodup

/-! ## One call -/

section

variable {limitOf windowOf : String → ℤ} {a a' : Admission} {now t : ℤ} {costs : List Cost} {k : String}

theorem expires : Window.Expires AdmissionEntry.expired := by
  intro now t e h hexp
  unfold AdmissionEntry.expired at *
  rw [decide_eq_true_eq] at *
  exact hexp.trans_le (sub_mono h _)

/-- Every entry has the window of its key, and a count within the limit. -/
structure Fits (limitOf windowOf : String → ℤ) (a : Admission) : Prop where
  window : ∀ k e, a.entries k = some e → e.window = windowOf k
  nonneg : ∀ k e, a.entries k = some e → 0 ≤ e.count
  count_le : ∀ k e, a.entries k = some e → e.count ≤ limitOf k

theorem tidy_entries (a : Admission) (now : ℤ) :
    (a.tidy now).entries = a.entries ∨
      (a.tidy now).entries = Window.clean AdmissionEntry.expired now a.entries := by
  unfold tidy
  split
  · exact .inr rfl
  · exact .inl rfl

theorem tidy_current (a : Admission) (h : now ≤ t) : (a.tidy now).current t k = a.current t k := by
  rcases tidy_entries a now with heq | heq
  · unfold current
    rw [heq]
  · unfold current
    rw [heq]
    exact Window.live_clean expires h k

theorem tidy_some {e : AdmissionEntry} (h : (a.tidy now).entries k = some e) : a.entries k = some e := by
  rcases tidy_entries a now with heq | heq
  · rw [← heq]
    exact h
  · rw [heq] at h
    exact (Window.live_eq_some.mp h).1

theorem Fits.tidy (h : a.Fits limitOf windowOf) (now : ℤ) : (a.tidy now).Fits limitOf windowOf :=
  ⟨fun k e he => h.window k e (tidy_some he), fun k e he => h.nonneg k e (tidy_some he),
    fun k e he => h.count_le k e (tidy_some he)⟩

/-- What the first loop does with a cost, as a function of the live entry of its key. -/
def checkEntry (now : ℤ) (entry : Option AdmissionEntry) (c : Cost) : Except Rejected (List PendingCost) :=
  if c.skipped then .ok []
  else
    match entry with
    | none =>
        if c.limit < c.charge then .error ⟨c.key, c.window⟩ else .ok [⟨c, true⟩]
    | some e =>
        if c.limit - c.charge < e.count then
          .error ⟨c.key, max second (c.window - sub now e.windowAt)⟩
        else .ok [⟨c, false⟩]

theorem Fits.check_eq (h : a.Fits limitOf windowOf) {c : Cost} (hc : c.window = windowOf c.key) :
    a.check now c = checkEntry now (a.current now c.key) c := by
  have hentry : ((a.entries c.key).filter fun e => !decide (c.window < sub now e.windowAt)) =
      a.current now c.key := by
    unfold current Window.live
    cases hk : a.entries c.key with
    | none => rfl
    | some e =>
        have hwindow : c.window = e.window := hc.trans (h.window _ e hk).symm
        simp only [AdmissionEntry.expired, hwindow, Option.filter_some]
  unfold check checkEntry
  rw [hentry]

theorem charge_pos (c : Cost) : 0 < c.charge := by
  unfold Cost.charge
  split <;> omega

theorem checkEntry_eq_ok {entry : Option AdmissionEntry} {c : Cost} {work : List PendingCost}
    (h : checkEntry now entry c = .ok work) :
    work = (if c.skipped then [] else [⟨c, entry.isNone⟩]) ∧
      (c.skipped = false → (entry.elim 0 (·.count)) + c.charge ≤ c.limit) := by
  unfold checkEntry at h
  split at h
  · next hskip =>
    cases h
    simp [hskip]
  · next hskip =>
    rw [Bool.not_eq_true] at hskip
    rw [hskip]
    split at h
    · split at h
      · cases h
      · next hle =>
        cases h
        simpa using hle
    · split at h
      · cases h
      · next hle =>
        cases h
        simp only [Option.isNone_some, Bool.false_eq_true, if_false, Option.elim_some, true_and]
        intro _
        omega

/-- The budgets that an admitted call charges. -/
def pendings (a : Admission) (now : ℤ) (costs : List Cost) : List PendingCost :=
  (costs.filter fun c => !c.skipped).map fun c => ⟨c, (a.current now c.key).isNone⟩

theorem Fits.mapM_check (h : a.Fits limitOf windowOf) (hcosts : ∀ c ∈ costs, c.window = windowOf c.key)
    {work : List (List PendingCost)} (hwork : costs.mapM (a.check now) = .ok work) :
    work.flatten = a.pendings now costs ∧
      ∀ c ∈ costs, c.skipped = false → ((a.current now c.key).elim 0 (·.count)) + c.charge ≤ c.limit := by
  induction costs generalizing work with
  | nil =>
      rw [List.mapM_nil, pure_eq_ok] at hwork
      subst hwork
      exact ⟨rfl, by simp⟩
  | cons c costs ih =>
      simp only [List.mapM_cons, bind_eq_ok, pure_eq_ok] at hwork
      obtain ⟨first, hfirst, rest, hrest, rfl⟩ := hwork
      obtain ⟨hflat, hroom⟩ := ih (fun d hd => hcosts d (List.mem_cons_of_mem _ hd)) hrest
      rw [h.check_eq (hcosts c List.mem_cons_self)] at hfirst
      obtain ⟨hwork, hle⟩ := checkEntry_eq_ok hfirst
      constructor
      · rw [List.flatten_cons, hflat, hwork, pendings, pendings, List.filter_cons]
        cases c.skipped <;> rfl
      · intro d hd
        rcases List.mem_cons.mp hd with rfl | hd
        · exact hle
        · exact hroom d hd

/-- The entry of a budget after it was charged. -/
def chargedEntry (now : ℤ) (entry : Option AdmissionEntry) (c : Cost) : AdmissionEntry :=
  match entry with
  | none => ⟨c.charge, now, c.window⟩
  | some e => { e with count := e.count + c.charge }

theorem foldl_chargePending_of_notMem {ps : List PendingCost} (h : ∀ p ∈ ps, p.cost.key ≠ k) :
    (ps.foldl (chargePending now) a).entries k = a.entries k := by
  induction ps generalizing a with
  | nil => rfl
  | cons p ps ih =>
      rw [List.foldl_cons, ih fun q hq => h q (List.mem_cons_of_mem _ hq), chargePending]
      exact Function.update_of_ne (h p List.mem_cons_self).symm _ _

theorem foldl_chargePending_of_mem {ps : List PendingCost} (hkeys : (ps.map (·.cost.key)).Nodup) {p : PendingCost}
    (hp : p ∈ ps) :
    (ps.foldl (chargePending now) a).entries p.cost.key =
      if p.fresh then some ⟨p.cost.charge, now, p.cost.window⟩
      else (a.entries p.cost.key).map fun e => { e with count := e.count + p.cost.charge } := by
  induction ps generalizing a with
  | nil => cases hp
  | cons q ps ih =>
      rw [List.map_cons, List.nodup_cons] at hkeys
      rw [List.foldl_cons]
      rcases List.mem_cons.mp hp with rfl | hp
      · rw [foldl_chargePending_of_notMem]
        · exact Function.update_self _ _ _
        · intro r hr heq
          exact hkeys.1 (heq ▸ List.mem_map_of_mem hr)
      · rw [ih hkeys.2 hp]
        have hne : p.cost.key ≠ q.cost.key := fun heq => hkeys.1 (heq ▸ List.mem_map_of_mem hp)
        rw [chargePending]
        simp only [Function.update_of_ne hne]

theorem namedCost_eq_some {c : Cost} (h : namedCost k costs = some c) :
    c ∈ costs ∧ c.skipped = false ∧ c.key = k := by
  have hc := List.find?_some h
  rw [Bool.and_eq_true, Bool.not_eq_true', beq_iff_eq] at hc
  exact ⟨List.mem_of_find?_eq_some h, hc⟩

theorem namedCost_of_mem (hkeys : (costs.map (·.key)).Nodup) {c : Cost} (hc : c ∈ costs)
    (hskip : c.skipped = false) : namedCost c.key costs = some c := by
  cases h : namedCost c.key costs with
  | none =>
      have := List.find?_eq_none.mp h c hc
      simp [hskip] at this
  | some d =>
      obtain ⟨hd, _, hkey⟩ := namedCost_eq_some h
      rw [List.inj_on_of_nodup_map hkeys hd hc hkey]

/-- An admitted call charges the budgets that it names and leaves the others. -/
theorem Fits.admit_none (h : a.Fits limitOf windowOf) (hcosts : Obeys limitOf windowOf costs)
    (hadmitted : (a.admitCosts now costs).2 = none) (k : String) :
    match namedCost k costs with
    | none => (a.admitCosts now costs).1.entries k = (a.tidy now).entries k
    | some c =>
        (a.admitCosts now costs).1.entries k = some (chargedEntry now (a.current now k) c) ∧
          ((a.current now k).elim 0 (·.count)) + c.charge ≤ limitOf k := by
  unfold admitCosts at hadmitted ⊢
  split at hadmitted
  · cases hadmitted
  next work hwork =>
  obtain ⟨hflat, hroom⟩ := (h.tidy now).mapM_check hcosts.window hwork
  simp only [hflat]
  cases hnamed : namedCost k costs with
  | none =>
      apply foldl_chargePending_of_notMem
      intro p hp hkey
      simp only [pendings, List.mem_map, List.mem_filter] at hp
      obtain ⟨c, ⟨hc, hskip⟩, rfl⟩ := hp
      have := List.find?_eq_none.mp hnamed c hc
      simp_all
  | some c =>
      obtain ⟨hc, hskip, rfl⟩ := namedCost_eq_some hnamed
      have hroom := hroom c hc hskip
      rw [tidy_current a le_rfl] at hroom
      refine ⟨?_, hcosts.limit c hc ▸ hroom⟩
      have hkeys : (((a.tidy now).pendings now costs).map (·.cost.key)).Nodup := by
        rw [pendings, List.map_map]
        exact hcosts.keys.sublist (List.filter_sublist.map _)
      have hmem : (⟨c, ((a.tidy now).current now c.key).isNone⟩ : PendingCost) ∈
          (a.tidy now).pendings now costs :=
        List.mem_map.mpr ⟨c, List.mem_filter.mpr ⟨hc, by simp [hskip]⟩, rfl⟩
      rw [foldl_chargePending_of_mem hkeys hmem, tidy_current a le_rfl]
      cases hcur : a.current now c.key with
      | none => rfl
      | some e =>
          rw [← tidy_current a le_rfl] at hcur
          rw [(Window.live_eq_some.mp hcur).1]
          rfl

theorem admit_some (hadmitted : (a.admitCosts now costs).2.isSome) : (a.admitCosts now costs).1 = a.tidy now := by
  unfold admitCosts at hadmitted ⊢
  split
  · rfl
  next hwork =>
  rw [hwork] at hadmitted
  cases hadmitted

/-- A rejected call changes no live entry. -/
theorem current_of_rejected (hadmitted : (a.admitCosts now costs).2.isSome) (ht : now ≤ t) (k : String) :
    (a.admitCosts now costs).1.current t k = a.current t k := by
  rw [admit_some hadmitted]
  exact tidy_current a ht

end

end Admission

end Scrumboy
