import Scrumboy.HttpApi.PublicHub
import Scrumboy.Go.Errors
import Mathlib.Data.Finset.Card

/-!
# Public streams

The counters of the hub of public streams describe the set of its active subscribers, and
every operation keeps this. A subscriber leaves the set once, with its channel closed, and
its channel is not written after that.
-/

namespace Scrumboy

open Go

namespace PublicHub

/-- The numbers of the active subscribers. -/
def activeSet (h : PublicHub) : Finset ℕ := (Finset.range h.count).filter fun i => (h.subscribers i).active

/-- A channel that is open just as long as its subscriber is active. -/
structure Streams (limits : PublicHubLimits) (s : PublicSubscriber) : Prop where
  closed : s.events.closed = !s.active
  buffer : s.events.buffer = limits.buffer.toNat

structure Inv (h : PublicHub) : Prop where
  nodup : ∀ p, (h.members p).Nodup
  mem : ∀ p i, i ∈ h.members p ↔ i ∈ h.activeSet ∧ (h.subscribers i).projectID = p
  activeN : h.activeN = h.activeSet.card
  byIP : ∀ ip, h.byIP.get ip = ((h.activeSet.filter fun i => (h.subscribers i).ipKey = ip).card : ℤ)
  totalIP : h.byIP.total id = h.activeSet.card
  totalProject : h.byProject.total (fun l => (l.length : ℤ)) = h.activeSet.card
  streams : ∀ i < h.count, Streams h.limits (h.subscribers i)
  global : h.activeN ≤ h.limits.global
  perIP : ∀ ip, h.byIP.get ip ≤ h.limits.perIP
  perProject : ∀ p, ((h.members p).length : ℤ) ≤ h.limits.perProject
  buffer : 0 < h.limits.buffer

section

variable {h h' : PublicHub} {i : ℕ}

theorem mem_activeSet : i ∈ h.activeSet ↔ i < h.count ∧ (h.subscribers i).active = true := by
  simp [activeSet]

/-! ## Writing one subscriber -/

/-- A subscriber is written without a change that the counters would have to follow. -/
theorem Inv.setSubscriber (hinv : h.Inv) {s : PublicSubscriber} (hactive : s.active = (h.subscribers i).active)
    (hproject : s.projectID = (h.subscribers i).projectID) (hip : s.ipKey = (h.subscribers i).ipKey)
    (hstream : i < h.count → Streams h.limits s) : (h.setSubscriber i s).Inv := by
  have hsubs : ∀ j, ((h.setSubscriber i s).subscribers j).active = (h.subscribers j).active ∧
      ((h.setSubscriber i s).subscribers j).projectID = (h.subscribers j).projectID ∧
      ((h.setSubscriber i s).subscribers j).ipKey = (h.subscribers j).ipKey := by
    intro j
    by_cases hj : j = i
    · subst hj
      simp [PublicHub.setSubscriber, hactive, hproject, hip]
    · simp [PublicHub.setSubscriber, Function.update_of_ne hj]
  have hset : (h.setSubscriber i s).activeSet = h.activeSet := by
    ext j
    simp only [mem_activeSet, (hsubs j).1]
    rfl
  constructor
  · exact hinv.nodup
  · intro p j
    rw [hset, (hsubs j).2.1]
    exact hinv.mem p j
  · rw [hset]
    exact hinv.activeN
  · intro ip
    simp only [hset, (hsubs _).2.2]
    exact hinv.byIP ip
  · rw [hset]
    exact hinv.totalIP
  · rw [hset]
    exact hinv.totalProject
  · intro j hj
    by_cases hij : j = i
    · subst hij
      simpa [PublicHub.setSubscriber] using hstream hj
    · simpa [PublicHub.setSubscriber, Function.update_of_ne hij] using hinv.streams j hj
  · exact hinv.global
  · exact hinv.perIP
  · exact hinv.perProject
  · exact hinv.buffer

theorem Inv.setEvents (hinv : h.Inv) {events : Chan PublicEvent}
    (hclosed : events.closed = (h.subscribers i).events.closed)
    (hbuffer : events.buffer = (h.subscribers i).events.buffer) : (h.setEvents i events).Inv := by
  refine hinv.setSubscriber rfl rfl rfl fun hi => ?_
  have hstream := hinv.streams i hi
  exact ⟨hclosed.trans hstream.closed, hbuffer.trans hstream.buffer⟩

/-! ## Removal -/

/-- The hub after an active subscriber was removed. -/
def removed (h : PublicHub) (i : ℕ) : PublicHub :=
  let s := h.subscribers i
  { h with
    byProject := h.unregister i
    byIP := h.releaseIP s.ipKey
    activeN := if 0 < h.activeN then h.activeN - 1 else h.activeN
    subscribers := Function.update h.subscribers i
      { s with active := false, events := { s.events with closed := true } } }

theorem Inv.removeLocked_eq (hinv : h.Inv) (hi : i ∈ h.activeSet) : h.removeLocked i = .ok (h.removed i) := by
  obtain ⟨hlt, hactive⟩ := mem_activeSet.mp hi
  have hopen : (h.subscribers i).events.closed = false := by
    rw [(hinv.streams i hlt).closed, hactive]
    rfl
  unfold removeLocked
  rw [if_neg (by simp [hactive]), Chan.close_of_open hopen]
  rfl

theorem removed_activeSet (h : PublicHub) (i : ℕ) : (h.removed i).activeSet = h.activeSet.erase i := by
  ext j
  rw [Finset.mem_erase, mem_activeSet, mem_activeSet]
  by_cases hj : j = i
  · subst hj
    simp [removed]
  · simp [removed, hj]

theorem removed_subscribers_of_ne {j : ℕ} (hj : j ≠ i) : (h.removed i).subscribers j = h.subscribers j :=
  Function.update_of_ne hj _ _

theorem Inv.removed_members (hinv : h.Inv) (hi : i ∈ h.activeSet) (p : ℤ) :
    (h.removed i).members p = (h.members p).filter (· ≠ i) := by
  have hmem := (hinv.mem (h.subscribers i).projectID i).mpr ⟨hi, rfl⟩
  cases hlookup : h.byProject.lookup (h.subscribers i).projectID with
  | none => simp [members, hlookup] at hmem
  | some l =>
      by_cases hp : p = (h.subscribers i).projectID
      · subst hp
        have hl : h.members (h.subscribers i).projectID = l := by simp [members, hlookup]
        rw [hl]
        by_cases hempty : l.filter (· ≠ i) = []
        · simp only [members, removed, unregister, hlookup, hempty, if_true, AList.lookup_erase]
          rfl
        · simp only [members, removed, unregister, hlookup, hempty, if_false, AList.lookup_insert]
          rfl
      · have hkeep : (h.members p).filter (· ≠ i) = h.members p := by
          rw [List.filter_eq_self]
          intro j hj
          have hproject := ((hinv.mem p j).mp hj).2
          simp only [decide_eq_true_eq]
          rintro rfl
          exact hp hproject.symm
        rw [hkeep]
        unfold members removed unregister
        simp only [hlookup]
        split
        · rw [AList.lookup_erase_ne hp]
        · rw [AList.lookup_insert_ne hp]

theorem Inv.removed_totalProject (hinv : h.Inv) (hi : i ∈ h.activeSet) :
    (h.removed i).byProject.total (fun l => (l.length : ℤ)) =
      h.byProject.total (fun l => (l.length : ℤ)) - 1 := by
  have hmem := (hinv.mem (h.subscribers i).projectID i).mpr ⟨hi, rfl⟩
  have hnodup := hinv.nodup (h.subscribers i).projectID
  cases hlookup : h.byProject.lookup (h.subscribers i).projectID with
  | none => simp [members, hlookup] at hmem
  | some l =>
      have hl : h.members (h.subscribers i).projectID = l := by simp [members, hlookup]
      rw [hl] at hmem hnodup
      have hlength : ((l.filter (· ≠ i)).length : ℤ) = l.length - 1 := by
        have herase : l.filter (· ≠ i) = l.erase i := by
          rw [hnodup.erase_eq_filter]
          simp [bne, Bool.beq_eq_decide_eq]
        rw [herase, List.length_erase_of_mem hmem]
        have := List.length_pos_of_mem hmem
        omega
      rw [Map.total_eq_add_erase _ (h.subscribers i).projectID h.byProject, hlookup]
      unfold removed unregister
      simp only [hlookup, Option.elim_some]
      split
      · next hempty =>
        rw [hempty] at hlength
        simp only [List.length_nil, Nat.cast_zero] at hlength
        omega
      · rw [Map.total_insert, hlength]
        omega

theorem Inv.byIP_pos (hinv : h.Inv) (hi : i ∈ h.activeSet) : 0 < h.byIP.get (h.subscribers i).ipKey := by
  rw [hinv.byIP, Int.natCast_pos, Finset.card_pos]
  exact ⟨i, Finset.mem_filter.mpr ⟨hi, rfl⟩⟩

theorem releaseIP_self {ip : String} (hpos : 0 < h.byIP.get ip) :
    (h.releaseIP ip).get ip = h.byIP.get ip - 1 := by
  unfold releaseIP
  split
  · rw [Map.get_erase]
    omega
  · rw [Map.get_insert]

theorem releaseIP_of_ne {ip ip' : String} (hne : ip' ≠ ip) : (h.releaseIP ip).get ip' = h.byIP.get ip' := by
  unfold releaseIP
  split
  · exact Map.get_erase_of_ne _ hne
  · exact Map.get_insert_of_ne _ _ hne

theorem releaseIP_total {ip : String} (hpos : 0 < h.byIP.get ip) :
    (h.releaseIP ip).total id = h.byIP.total id - 1 := by
  have helim : (h.byIP.lookup ip).elim 0 id = h.byIP.get ip := by
    unfold Map.get
    cases h.byIP.lookup ip <;> rfl
  rw [Map.total_eq_add_erase id ip h.byIP, helim]
  unfold releaseIP
  split
  · omega
  · rw [Map.total_insert]
    simp only [id]
    omega

theorem Inv.removed_byIP (hinv : h.Inv) (hi : i ∈ h.activeSet) (ip : String) :
    (h.removed i).byIP.get ip =
      (((h.activeSet.erase i).filter fun j => (h.subscribers j).ipKey = ip).card : ℤ) := by
  rw [Finset.filter_erase]
  show (h.releaseIP (h.subscribers i).ipKey).get ip = _
  by_cases hip : ip = (h.subscribers i).ipKey
  · subst hip
    have hmem : i ∈ h.activeSet.filter fun j => (h.subscribers j).ipKey = (h.subscribers i).ipKey :=
      Finset.mem_filter.mpr ⟨hi, rfl⟩
    have hpos := Finset.card_pos.mpr ⟨i, hmem⟩
    rw [releaseIP_self (hinv.byIP_pos hi), hinv.byIP, Finset.card_erase_of_mem hmem]
    omega
  · have hnot : i ∉ h.activeSet.filter fun j => (h.subscribers j).ipKey = ip := by
      simp only [Finset.mem_filter, not_and]
      exact fun _ heq => hip heq.symm
    rw [releaseIP_of_ne hip, hinv.byIP, Finset.erase_eq_of_notMem hnot]

theorem Inv.removed (hinv : h.Inv) (hi : i ∈ h.activeSet) : (h.removed i).Inv := by
  have hcard : ((h.activeSet.erase i).card : ℤ) = h.activeSet.card - 1 := by
    have := Finset.card_pos.mpr ⟨i, hi⟩
    rw [Finset.card_erase_of_mem hi]
    omega
  have hpos : 0 < h.activeN := by
    rw [hinv.activeN, Int.natCast_pos]
    exact Finset.card_pos.mpr ⟨i, hi⟩
  have hactiveN : (h.removed i).activeN = h.activeN - 1 := if_pos hpos
  have hsame : ∀ j ∈ h.activeSet.erase i, (h.removed i).subscribers j = h.subscribers j :=
    fun j hj => removed_subscribers_of_ne (Finset.ne_of_mem_erase hj)
  constructor
  · intro p
    rw [hinv.removed_members hi]
    exact (hinv.nodup p).filter _
  · intro p j
    rw [hinv.removed_members hi, List.mem_filter, hinv.mem, removed_activeSet, Finset.mem_erase]
    by_cases hj : j = i
    · simp [hj]
    · rw [removed_subscribers_of_ne hj]
      simp [hj]
  · rw [hactiveN, removed_activeSet, hcard, hinv.activeN]
  · intro ip
    rw [hinv.removed_byIP hi, removed_activeSet]
    congr 2
    apply Finset.filter_congr
    intro j hj
    rw [hsame j hj]
  · rw [removed_activeSet, hcard, ← hinv.totalIP]
    exact releaseIP_total (hinv.byIP_pos hi)
  · rw [removed_activeSet, hcard, ← hinv.totalProject]
    exact hinv.removed_totalProject hi
  · intro j hj
    by_cases hij : j = i
    · subst hij
      have hstream := hinv.streams j hj
      exact ⟨by simp [PublicHub.removed], by simpa [PublicHub.removed] using hstream.buffer⟩
    · rw [removed_subscribers_of_ne hij]
      exact hinv.streams j hj
  · rw [hactiveN]
    have := hinv.global
    exact (by omega : h.activeN - 1 ≤ h.limits.global)
  · intro ip
    have hle := hinv.perIP ip
    have hsub : ((h.activeSet.erase i).filter fun j => (h.subscribers j).ipKey = ip).card ≤
        (h.activeSet.filter fun j => (h.subscribers j).ipKey = ip).card :=
      Finset.card_le_card (Finset.filter_subset_filter _ (Finset.erase_subset _ _))
    rw [hinv.byIP] at hle
    rw [hinv.removed_byIP hi]
    exact (Int.ofNat_le.mpr hsub).trans hle
  · intro p
    rw [hinv.removed_members hi]
    have hle := List.length_filter_le (· ≠ i) (h.members p)
    exact (Int.ofNat_le.mpr hle).trans (hinv.perProject p)
  · exact hinv.buffer

/-! ## Subscribing -/

/-- The hub with one more subscriber. -/
def added (h : PublicHub) (projectID : ℤ) (ip : String) : PublicHub :=
  { h with
    subscribers := Function.update h.subscribers h.count
      ⟨projectID, ip, { buffer := h.limits.buffer.toNat }, true, false⟩
    byProject := h.byProject.insert projectID (h.members projectID ++ [h.count])
    byIP := h.byIP.insert ip (h.byIP.get ip + 1)
    activeN := h.activeN + 1
    count := h.count + 1 }

theorem subscribe_eq_ok {projectID : ℤ} {ipKey : String} {out : PublicHub × ℕ}
    (hout : h.subscribe projectID ipKey = .ok out) :
    h.activeN < h.limits.global ∧ h.byIP.get (ipKeyOf ipKey) < h.limits.perIP ∧
      ((h.members projectID).length : ℤ) < h.limits.perProject ∧
      out.1 = h.added projectID (ipKeyOf ipKey) := by
  dsimp only [PublicHub.subscribe] at hout
  split at hout
  · cases hout
  split at hout
  · cases hout
  split at hout
  · cases hout
  next hlimits =>
  simp only [not_or, not_le] at hlimits
  cases hout
  exact ⟨hlimits.1, hlimits.2.1, hlimits.2.2, rfl⟩

theorem added_subscribers_of_lt {projectID : ℤ} {ip : String} (hi : i < h.count) :
    (h.added projectID ip).subscribers i = h.subscribers i :=
  Function.update_of_ne hi.ne _ _

theorem added_subscribers_self (projectID : ℤ) (ip : String) :
    (h.added projectID ip).subscribers h.count =
      ⟨projectID, ip, { buffer := h.limits.buffer.toNat }, true, false⟩ :=
  Function.update_self _ _ _

theorem count_notMem_activeSet (h : PublicHub) : h.count ∉ h.activeSet := by
  simp [mem_activeSet]

theorem added_activeSet (projectID : ℤ) (ip : String) :
    (h.added projectID ip).activeSet = insert h.count h.activeSet := by
  ext j
  rw [Finset.mem_insert, mem_activeSet, mem_activeSet]
  rcases lt_trichotomy j h.count with hj | rfl | hj
  · rw [added_subscribers_of_lt hj]
    simp [added, hj, hj.ne, hj.trans (Nat.lt_succ_self _)]
  · rw [added_subscribers_self]
    simp [added]
  · have hcount : ¬ j < h.count + 1 := by omega
    simp [added, hcount, hj.ne', hj.not_gt]

theorem added_members {projectID : ℤ} {ip : String} (p : ℤ) :
    (h.added projectID ip).members p = if p = projectID then h.members p ++ [h.count] else h.members p := by
  unfold members added
  by_cases hp : p = projectID
  · subst hp
    simp [members]
  · simp [hp, AList.lookup_insert_ne hp]

theorem Inv.added (hinv : h.Inv) {projectID : ℤ} {ip : String} (hglobal : h.activeN < h.limits.global)
    (hperIP : h.byIP.get ip < h.limits.perIP)
    (hperProject : ((h.members projectID).length : ℤ) < h.limits.perProject) : (h.added projectID ip).Inv := by
  have hnew := count_notMem_activeSet h
  have hcard : ((insert h.count h.activeSet).card : ℤ) = h.activeSet.card + 1 := by
    rw [Finset.card_insert_of_notMem hnew]
    rfl
  have hold : ∀ j ∈ h.activeSet, (h.added projectID ip).subscribers j = h.subscribers j :=
    fun j hj => added_subscribers_of_lt (mem_activeSet.mp hj).1
  have hfresh : ∀ p, h.count ∉ h.members p := fun p hmem => hnew ((hinv.mem p _).mp hmem).1
  have hbyIP : ∀ ip', (h.added projectID ip).byIP.get ip' = h.byIP.get ip' + if ip' = ip then 1 else 0 := by
    intro ip'
    by_cases hip : ip' = ip
    · subst hip
      simp [PublicHub.added]
    · simp [PublicHub.added, hip, Map.get_insert_of_ne _ _ hip]
  constructor
  · intro p
    rw [added_members]
    split
    · simpa [List.nodup_append] using ⟨hinv.nodup p, fun a ha heq => hfresh p (heq ▸ ha)⟩
    · exact hinv.nodup p
  · intro p j
    rw [added_members, added_activeSet, Finset.mem_insert]
    by_cases hj : j = h.count
    · subst hj
      rw [added_subscribers_self]
      by_cases hp : p = projectID
      · simp [hp]
      · simp [hp, hfresh p, Ne.symm hp]
    · have hmem : (j ∈ if p = projectID then h.members p ++ [h.count] else h.members p) ↔ j ∈ h.members p := by
        split <;> simp [hj]
      rw [hmem, hinv.mem]
      simp only [hj, false_or]
      exact and_congr_right fun hact => by rw [hold j hact]
  · rw [added_activeSet, hcard, ← hinv.activeN]
    rfl
  · intro ip'
    rw [hbyIP, hinv.byIP, added_activeSet, Finset.filter_insert, added_subscribers_self]
    have hfilter : (h.activeSet.filter fun j => ((h.added projectID ip).subscribers j).ipKey = ip') =
        h.activeSet.filter fun j => (h.subscribers j).ipKey = ip' :=
      Finset.filter_congr fun j hj => by rw [hold j hj]
    rw [hfilter]
    by_cases hip : ip' = ip
    · rw [if_pos hip, if_pos hip.symm, Finset.card_insert_of_notMem (fun hmem => hnew (Finset.mem_filter.mp hmem).1)]
      rfl
    · rw [if_neg hip, if_neg (Ne.symm hip), add_zero]
  · have helim : (h.byIP.lookup ip).elim 0 id = h.byIP.get ip := by
      unfold Map.get
      cases h.byIP.lookup ip <;> rfl
    have htotal := Map.total_eq_add_erase id ip h.byIP
    rw [added_activeSet, hcard, ← hinv.totalIP, htotal, helim]
    show Map.total id (h.byIP.insert ip (h.byIP.get ip + 1)) = _
    rw [Map.total_insert]
    simp only [id]
    omega
  · have helim : (h.byProject.lookup projectID).elim 0 (fun l => (l.length : ℤ)) = (h.members projectID).length := by
      unfold members
      cases h.byProject.lookup projectID <;> rfl
    have htotal := Map.total_eq_add_erase (fun l => (l.length : ℤ)) projectID h.byProject
    rw [added_activeSet, hcard, ← hinv.totalProject, htotal, helim]
    show Map.total (fun l => (l.length : ℤ)) (h.byProject.insert projectID (h.members projectID ++ [h.count])) = _
    rw [Map.total_insert, List.length_append, List.length_singleton]
    omega
  · intro j hj
    rcases Nat.lt_succ_iff_lt_or_eq.mp hj with hj | rfl
    · rw [added_subscribers_of_lt hj]
      exact hinv.streams j hj
    · rw [added_subscribers_self]
      exact ⟨rfl, rfl⟩
  · exact Int.add_one_le_iff.mpr hglobal
  · intro ip'
    rw [hbyIP]
    by_cases hip : ip' = ip
    · rw [if_pos hip, hip]
      exact Int.add_one_le_iff.mpr hperIP
    · rw [if_neg hip, add_zero]
      exact hinv.perIP ip'
  · intro p
    rw [added_members]
    split
    · next hp =>
      subst hp
      rw [List.length_append, List.length_singleton]
      exact Int.add_one_le_iff.mpr hperProject
    · exact hinv.perProject p
  · exact hinv.buffer

/-! ## Operations on several subscribers -/

/-- No subscriber but one is written. -/
structure Touches (i : ℕ) (h h' : PublicHub) : Prop where
  limits : h'.limits = h.limits
  count : h'.count = h.count
  others : ∀ j, j ≠ i → h'.subscribers j = h.subscribers j

/-- What a loop over active subscribers does, from what its body does. -/
theorem Inv.foldlM {f : PublicHub → ℕ → Except ChanFault PublicHub}
    {Q : PublicSubscriber → PublicSubscriber → Prop}
    (hf : ∀ h i, h.Inv → i ∈ h.activeSet → ∃ h', f h i = .ok h' ∧ h'.Inv ∧ Touches i h h' ∧
      Q (h.subscribers i) (h'.subscribers i)) {l : List ℕ} (hinv : h.Inv) (hnodup : l.Nodup)
    (hl : ∀ i ∈ l, i ∈ h.activeSet) :
    ∃ h', l.foldlM f h = .ok h' ∧ h'.Inv ∧ h'.limits = h.limits ∧ h'.count = h.count ∧
      (∀ j, j ∉ l → h'.subscribers j = h.subscribers j) ∧
      ∀ i ∈ l, Q (h.subscribers i) (h'.subscribers i) := by
  induction l generalizing h with
  | nil => exact ⟨h, rfl, hinv, rfl, rfl, fun _ _ => rfl, by simp⟩
  | cons i l ih =>
      rw [List.nodup_cons] at hnodup
      obtain ⟨h₁, hfirst, hinv₁, htouch, hq⟩ := hf h i hinv (hl i List.mem_cons_self)
      have hothers : ∀ j ∈ l, h₁.subscribers j = h.subscribers j :=
        fun j hj => htouch.others j fun heq => hnodup.1 (heq ▸ hj)
      have hl₁ : ∀ j ∈ l, j ∈ h₁.activeSet := by
        intro j hj
        have hact := mem_activeSet.mp (hl j (List.mem_cons_of_mem _ hj))
        rw [mem_activeSet, htouch.count, hothers j hj]
        exact hact
      obtain ⟨h', hrest, hinv', hlimits, hcount, hkeep, hqs⟩ := ih hinv₁ hnodup.2 hl₁
      refine ⟨h', ?_, hinv', hlimits.trans htouch.limits, hcount.trans htouch.count, fun j hj => ?_,
        fun j hj => ?_⟩
      · rw [List.foldlM_cons, hfirst]
        exact hrest
      · rw [List.mem_cons, not_or] at hj
        rw [hkeep j hj.2, htouch.others j hj.1]
      · rcases List.mem_cons.mp hj with rfl | hj
        · rw [hkeep j hnodup.1]
          exact hq
        · rw [← hothers j hj]
          exact hqs j hj

theorem inOrder_spec (order : List ℕ) {l : List ℕ} (hl : l.Nodup) :
    (inOrder order l).Nodup ∧ ∀ i, i ∈ inOrder order l ↔ i ∈ l := by
  unfold inOrder
  split
  · next hperm => exact ⟨hperm.nodup_iff.mpr hl, fun i => hperm.mem_iff⟩
  · exact ⟨hl, fun i => Iff.rfl⟩

theorem Inv.removeLocked (hinv : h.Inv) (hi : i ∈ h.activeSet) :
    ∃ h', h.removeLocked i = .ok h' ∧ h'.Inv ∧ Touches i h h' ∧
      (h'.subscribers i).active = false ∧ (h'.subscribers i).events.closed = true ∧
      (h'.subscribers i).events.queue = (h.subscribers i).events.queue := by
  refine ⟨h.removed i, hinv.removeLocked_eq hi, hinv.removed hi, ⟨rfl, rfl, fun j hj => ?_⟩, ?_⟩
  · exact removed_subscribers_of_ne hj
  · simp [PublicHub.removed]

theorem Inv.refreshSubscriber (hinv : h.Inv) (hi : i ∈ h.activeSet) :
    ∃ h', h.refreshSubscriber i = .ok h' ∧ h'.Inv ∧ Touches i h h' := by
  obtain ⟨hlt, hactive⟩ := mem_activeSet.mp hi
  have hopen : (h.subscribers i).events.closed = false := by
    rw [(hinv.streams i hlt).closed, hactive]
    rfl
  unfold PublicHub.refreshSubscriber
  rw [Chan.trySend_of_open hopen]
  split
  · obtain ⟨h', hremove, hinv', htouch, _⟩ := hinv.removeLocked hi
    exact ⟨h', hremove, hinv', htouch⟩
  · exact ⟨_, rfl, hinv.setEvents rfl rfl, rfl, rfl, fun j hj => Function.update_of_ne hj _ _⟩

theorem Inv.revokeSubscriber (hinv : h.Inv) (hi : i ∈ h.activeSet) :
    ∃ h', h.revokeSubscriber i = .ok h' ∧ h'.Inv ∧ Touches i h h' ∧
      (h'.subscribers i).active = false ∧ (h'.subscribers i).events.closed = true ∧
      (h'.subscribers i).events.queue = [.accessRevoked] := by
  obtain ⟨hlt, hactive⟩ := mem_activeSet.mp hi
  have hstream := hinv.streams i hlt
  have hopen : (h.subscribers i).events.closed = false := by
    rw [hstream.closed, hactive]
    rfl
  have hroom : 0 < (h.subscribers i).events.buffer := by
    have hbuffer := hinv.buffer
    rw [hstream.buffer]
    omega
  -- the buffer is empty after the drain, so that the send does not block
  have hsend : (h.subscribers i).events.drain.send .accessRevoked =
      .ok { (h.subscribers i).events with queue := [.accessRevoked] } := by
    simp [Chan.send, Chan.drain, Chan.full, hopen, hroom.ne']
  unfold PublicHub.revokeSubscriber
  rw [hsend]
  obtain ⟨h', hremove, hinv', htouch, hinactive, hclosed, hqueue⟩ :=
    (show (h.setEvents i { (h.subscribers i).events with queue := [.accessRevoked] }).Inv from
      hinv.setEvents rfl rfl).removeLocked (i := i) (by
        rw [mem_activeSet]
        exact ⟨hlt, by simpa [PublicHub.setEvents, PublicHub.setSubscriber] using hactive⟩)
  refine ⟨h', hremove, hinv', ⟨htouch.limits, htouch.count, fun j hj => ?_⟩, hinactive, hclosed, ?_⟩
  · rw [htouch.others j hj]
    exact Function.update_of_ne hj _ _
  · rw [hqueue]
    simp [PublicHub.setEvents, PublicHub.setSubscriber]

/-! ## Steps -/

/-- A subscriber that is not active stays so, and its channel gets nothing. -/
structure Later (h h' : PublicHub) : Prop where
  limits : h'.limits = h.limits
  count : h.count ≤ h'.count
  inactive : ∀ i < h.count, (h.subscribers i).active = false → (h'.subscribers i).active = false
  queue : ∀ i < h.count, (h.subscribers i).active = false →
    (h'.subscribers i).events.queue <:+ (h.subscribers i).events.queue

theorem Later.refl (h : PublicHub) : Later h h := ⟨rfl, le_rfl, fun _ _ hi => hi, fun _ _ _ => List.suffix_rfl⟩

theorem Later.trans {h₁ h₂ h₃ : PublicHub} (h : Later h₁ h₂) (h' : Later h₂ h₃) : Later h₁ h₃ where
  limits := h'.limits.trans h.limits
  count := h.count.trans h'.count
  inactive i hi hinactive := h'.inactive i (hi.trans_le h.count) (h.inactive i hi hinactive)
  queue i hi hinactive :=
    (h'.queue i (hi.trans_le h.count) (h.inactive i hi hinactive)).trans (h.queue i hi hinactive)

/-- Only active subscribers are written. -/
theorem Later.of_active {l : List ℕ} (hlimits : h'.limits = h.limits) (hcount : h'.count = h.count)
    (hl : ∀ i ∈ l, i ∈ h.activeSet) (hkeep : ∀ j, j ∉ l → h'.subscribers j = h.subscribers j) : Later h h' := by
  have hsame : ∀ i < h.count, (h.subscribers i).active = false → h'.subscribers i = h.subscribers i := by
    intro i hi hinactive
    apply hkeep
    intro hmem
    rw [(mem_activeSet.mp (hl i hmem)).2] at hinactive
    cases hinactive
  refine ⟨hlimits, hcount.ge, fun i hi hinactive => ?_, fun i hi hinactive => ?_⟩
  · rw [hsame i hi hinactive]
    exact hinactive
  · rw [hsame i hi hinactive]

theorem Inv.revokePublicProject (hinv : h.Inv) (projectID : ℤ) (order : List ℕ) :
    ∃ h', h.revokePublicProject projectID order = .ok h' ∧ h'.Inv ∧ Later h h' ∧
      ∀ i ∈ h.members projectID, (h'.subscribers i).active = false ∧
        (h'.subscribers i).events.closed = true ∧ (h'.subscribers i).events.queue = [.accessRevoked] := by
  obtain ⟨hnodup, hmem⟩ := inOrder_spec order (hinv.nodup projectID)
  have hl : ∀ i ∈ inOrder order (h.members projectID), i ∈ h.activeSet :=
    fun i hi => ((hinv.mem projectID i).mp ((hmem i).mp hi)).1
  obtain ⟨h', hloop, hinv', hlimits, hcount, hkeep, hq⟩ := Inv.foldlM
    (Q := fun _ s => s.active = false ∧ s.events.closed = true ∧ s.events.queue = [.accessRevoked])
    (fun h i hinv hi => hinv.revokeSubscriber hi) hinv hnodup hl
  exact ⟨h', hloop, hinv', .of_active hlimits hcount hl hkeep, fun i hi => hq i ((hmem i).mpr hi)⟩

theorem Inv.refreshPublicProject (hinv : h.Inv) (projectID : ℤ) (order : List ℕ) :
    ∃ h', h.refreshPublicProject projectID order = .ok h' ∧ h'.Inv ∧ Later h h' := by
  obtain ⟨hnodup, hmem⟩ := inOrder_spec order (hinv.nodup projectID)
  have hl : ∀ i ∈ inOrder order (h.members projectID), i ∈ h.activeSet :=
    fun i hi => ((hinv.mem projectID i).mp ((hmem i).mp hi)).1
  obtain ⟨h', hloop, hinv', hlimits, hcount, hkeep, _⟩ := Inv.foldlM (Q := fun _ _ => True)
    (fun h i hinv hi => by
      obtain ⟨h', hrefresh, hinv', htouch⟩ := hinv.refreshSubscriber hi
      exact ⟨h', hrefresh, hinv', htouch, trivial⟩) hinv hnodup hl
  exact ⟨h', hloop, hinv', .of_active hlimits hcount hl hkeep⟩

theorem members_of_mem_entries {e : Sigma fun _ : ℤ => List ℕ} (he : e ∈ h.byProject.entries) :
    h.members e.1 = e.2 := by
  have hlookup : h.byProject.lookup e.1 = some e.2 := AList.mem_lookup_iff.mpr he
  rw [members, hlookup]
  rfl

theorem Inv.mem_registered (hinv : h.Inv) : i ∈ h.registered → i ∈ h.activeSet := by
  intro hi
  obtain ⟨e, he, hi⟩ := List.mem_flatMap.mp hi
  rw [← members_of_mem_entries he] at hi
  exact ((hinv.mem e.1 i).mp hi).1

theorem Inv.registered_nodup (hinv : h.Inv) : h.registered.Nodup := by
  rw [registered, List.nodup_flatMap]
  constructor
  · intro e he
    rw [← members_of_mem_entries he]
    exact hinv.nodup e.1
  · have hkeys := List.pairwise_map.mp (h.byProject.keys_nodup : (h.byProject.entries.map Sigma.fst).Nodup)
    refine hkeys.imp_of_mem fun {e e'} he he' hne i hi hi' => hne ?_
    have hi : i ∈ h.members e.1 := members_of_mem_entries he ▸ hi
    have hi' : i ∈ h.members e'.1 := members_of_mem_entries he' ▸ hi'
    exact ((hinv.mem e.1 i).mp hi).2.symm.trans ((hinv.mem e'.1 i).mp hi').2

theorem Inv.registered_length (hinv : h.Inv) : (h.registered.length : ℤ) = h.activeN := by
  rw [hinv.activeN, ← hinv.totalProject, registered, List.length_flatMap, Map.total]
  induction h.byProject.entries with
  | nil => rfl
  | cons e l ih => simp [ih]

theorem Inv.shutdown (hinv : h.Inv) (order : List ℕ) :
    ∃ h', h.shutdown order = .ok h' ∧ h'.Inv ∧ Later h h' := by
  unfold PublicHub.shutdown
  split
  · exact ⟨h, rfl, hinv, .refl h⟩
  · have hinv₀ : ({ h with closed := true } : PublicHub).Inv :=
      ⟨hinv.nodup, hinv.mem, hinv.activeN, hinv.byIP, hinv.totalIP, hinv.totalProject, hinv.streams,
        hinv.global, hinv.perIP, hinv.perProject, hinv.buffer⟩
    obtain ⟨hnodup, hmem⟩ := inOrder_spec order hinv.registered_nodup
    have hl : ∀ i ∈ inOrder order h.registered, i ∈ h.activeSet :=
      fun i hi => hinv.mem_registered ((hmem i).mp hi)
    obtain ⟨h', hloop, hinv', hlimits, hcount, hkeep, _⟩ := Inv.foldlM (Q := fun _ _ => True)
      (fun h i hinv hi => by
        obtain ⟨h', hremove, hinv', htouch, _⟩ := hinv.removeLocked hi
        exact ⟨h', hremove, hinv', htouch, trivial⟩) hinv₀ hnodup hl
    exact ⟨h', hloop, hinv', .of_active hlimits hcount hl hkeep⟩

/-- A subscriber is written so that its state of being active is kept and its queue does not
grow. -/
theorem Later.setSubscriber {s : PublicSubscriber} (hactive : s.active = (h.subscribers i).active)
    (hqueue : s.events.queue <:+ (h.subscribers i).events.queue) : Later h (h.setSubscriber i s) := by
  refine ⟨rfl, le_rfl, fun j _ hinactive => ?_, fun j _ _ => ?_⟩
  · by_cases hj : j = i
    · subst hj
      simpa [PublicHub.setSubscriber, hactive] using hinactive
    · simpa [PublicHub.setSubscriber, Function.update_of_ne hj] using hinactive
  · by_cases hj : j = i
    · subst hj
      simpa [PublicHub.setSubscriber] using hqueue
    · simp [PublicHub.setSubscriber, Function.update_of_ne hj]

theorem Inv.unsubscribe (hinv : h.Inv) (hi : i < h.count) :
    ∃ h', h.unsubscribe i = .ok h' ∧ h'.Inv ∧ Later h h' := by
  unfold PublicHub.unsubscribe
  split
  · exact ⟨h, rfl, hinv, .refl h⟩
  · have hstream := hinv.streams i hi
    have hinv₁ := hinv.setSubscriber (i := i) (s := { h.subscribers i with once := true }) rfl rfl rfl
      fun _ => ⟨hstream.closed, hstream.buffer⟩
    have hlater : Later h (h.setSubscriber i { h.subscribers i with once := true }) :=
      .setSubscriber rfl List.suffix_rfl
    set h₁ := h.setSubscriber i { h.subscribers i with once := true }
    cases hactive : (h₁.subscribers i).active with
    | false =>
        refine ⟨h₁, ?_, hinv₁, hlater⟩
        unfold PublicHub.removeLocked
        rw [if_pos hactive]
    | true =>
        have hmem : i ∈ h₁.activeSet := mem_activeSet.mpr ⟨hi, hactive⟩
        obtain ⟨h', hremove, hinv', htouch, _⟩ := hinv₁.removeLocked hmem
        refine ⟨h', hremove, hinv', hlater.trans (.of_active (l := [i]) htouch.limits htouch.count ?_ ?_)⟩
        · simpa using hmem
        · exact fun j hj => htouch.others j (by simpa using hj)

theorem Inv.step (hinv : h.Inv) (act : PublicHubAct) : ∃ h', h.step act = .ok h' ∧ h'.Inv ∧ Later h h' := by
  cases act with
  | subscribe projectID ipKey =>
      simp only [PublicHub.step]
      cases hout : h.subscribe projectID ipKey with
      | error e => exact ⟨h, rfl, hinv, .refl h⟩
      | ok out =>
          obtain ⟨hglobal, hperIP, hperProject, heq⟩ := subscribe_eq_ok hout
          refine ⟨out.1, rfl, heq ▸ hinv.added hglobal hperIP hperProject, ?_⟩
          rw [heq]
          refine ⟨rfl, Nat.le_succ _, fun j hj hinactive => ?_, fun j hj _ => ?_⟩
          · rw [added_subscribers_of_lt hj]
            exact hinactive
          · rw [added_subscribers_of_lt hj]
  | refresh projectID order => exact hinv.refreshPublicProject projectID order
  | revoke projectID order =>
      obtain ⟨h', hrevoke, hinv', hlater, _⟩ := hinv.revokePublicProject projectID order
      exact ⟨h', hrevoke, hinv', hlater⟩
  | unsubscribe sub =>
      simp only [PublicHub.step]
      split
      · next hlt => exact hinv.unsubscribe hlt
      · exact ⟨h, rfl, hinv, .refl h⟩
  | shutdown order => exact hinv.shutdown order
  | receive sub =>
      exact ⟨_, rfl, hinv.setEvents rfl rfl, .setSubscriber rfl (List.tail_suffix _)⟩

theorem Inv.run (hinv : h.Inv) (acts : List PublicHubAct) :
    ∃ h', acts.foldlM PublicHub.step h = .ok h' ∧ h'.Inv ∧ Later h h' := by
  induction acts generalizing h with
  | nil => exact ⟨h, rfl, hinv, .refl h⟩
  | cons act acts ih =>
      obtain ⟨h₁, hfirst, hinv₁, hlater₁⟩ := hinv.step act
      obtain ⟨h', hrest, hinv', hlater'⟩ := ih hinv₁
      refine ⟨h', ?_, hinv', hlater₁.trans hlater'⟩
      rw [List.foldlM_cons, hfirst]
      exact hrest

theorem orDefault_pos {n d : ℤ} (hd : 0 < d) : 0 < orDefault n d := by
  unfold orDefault
  split <;> omega

theorem Inv.new (limits : PublicHubLimits) : (newPublicHub limits).Inv := by
  have hset : (newPublicHub limits).activeSet = ∅ := rfl
  constructor
  · intro p
    exact List.nodup_nil
  · intro p i
    rw [hset]
    simp [members, newPublicHub]
  · rfl
  · intro ip
    rw [hset]
    rfl
  · rfl
  · rfl
  · intro i hi
    cases hi
  · exact (orDefault_pos (by decide)).le
  · intro ip
    exact (orDefault_pos (by decide)).le
  · intro p
    exact (orDefault_pos (by decide)).le
  · exact orDefault_pos (by decide)

end

end PublicHub

end Scrumboy
