import Scrumboy.Sql.Keyset

/-!
# Walks over a table that changes

A client reads a listing page by page while others write to the table, so each page is read from
the table as it is then. A row that keeps its key from the first page to the last one is read exactly
once, and whatever does not move forward in the order is read at most once.
-/

namespace Sql

variable {α β κ ν σ τ ε : Type*}

section

variable [LinearOrder κ]

/-- The rows from a cursor on; without a cursor all rows. -/
def rowsFrom (key : α → κ) (t : List α) : Option κ → List α
  | none => orderBy key t
  | some c => rowsAfter key t c

/-- A page of `n` rows, and the key to go on from as long as rows are left. -/
def keysetPage (key : α → κ) (n : ℕ) (t : List α) (cursor : Option κ) : List α × Option κ :=
  let rows := rowsFrom key t cursor
  if rows.length ≤ n then (rows, none)
  else (rows.take n, (rows.take n).getLast?.map key)

/-- The pages of a client who follows the cursors, each from a table of its own. -/
inductive Walk (key : α → κ) (n : ℕ) : Option κ → List (List α) → List (List α) → Prop
  | last {c : Option κ} {t p : List α} (h : keysetPage key n t c = (p, none)) : Walk key n c [t] [p]
  | more {c : Option κ} {c' : κ} {t p : List α} {ts ps : List (List α)}
      (h : keysetPage key n t c = (p, some c')) (hrest : Walk key n (some c') ts ps) :
      Walk key n c (t :: ts) (p :: ps)

/-! ## One page -/

variable {key : α → κ} {n : ℕ} {t p : List α} {c : Option κ} {c' k : κ} {a : α}

theorem mem_rowsFrom : a ∈ rowsFrom key t c ↔ a ∈ t ∧ ∀ k ∈ c, k < key a := by
  cases c with
  | none => simp [rowsFrom]
  | some k => simp [rowsFrom, rowsAfter, mem_orderBy]

theorem pairwise_rowsFrom (hkeys : (t.map key).Nodup) :
    (rowsFrom key t c).Pairwise fun a b => key a < key b := by
  cases c with
  | none => exact pairwise_lt_orderBy hkeys
  | some k => exact pairwise_lt_orderBy (hkeys.sublist (List.filter_sublist.map _))

theorem keysetPage_none (h : keysetPage key n t c = (p, none)) (hn : 0 < n) :
    p = rowsFrom key t c := by
  unfold keysetPage at h
  dsimp only at h
  split at h
  · exact (Prod.ext_iff.mp h).1.symm
  · rename_i hlt
    have hnone := (Prod.ext_iff.mp h).2
    rw [Option.map_eq_none_iff, List.getLast?_eq_none_iff, List.take_eq_nil_iff] at hnone
    rcases hnone with hzero | hnil
    · omega
    · rw [hnil] at hlt
      simp at hlt

/-- A page that goes on ends with the row whose key is the next cursor. -/
theorem keysetPage_some (h : keysetPage key n t c = (p, some c')) :
    ∃ rest, rowsFrom key t c = p ++ rest ∧ ∃ a, p.getLast? = some a ∧ key a = c' := by
  unfold keysetPage at h
  dsimp only at h
  split at h
  · cases (Prod.ext_iff.mp h).2
  · obtain ⟨rfl, hlast⟩ := Prod.ext_iff.mp h
    obtain ⟨a, ha, hkey⟩ := Option.map_eq_some_iff.mp hlast
    exact ⟨(rowsFrom key t c).drop n, (List.take_append_drop n _).symm, a, ha, hkey⟩

/-- The rows of a page are not after the next cursor. -/
theorem le_of_mem_page (hkeys : (t.map key).Nodup) (h : keysetPage key n t c = (p, some c'))
    (ha : a ∈ p) : key a ≤ c' := by
  obtain ⟨rest, hrows, b, hlast, rfl⟩ := keysetPage_some h
  obtain ⟨front, rfl⟩ := List.getLast?_eq_some_iff.mp hlast
  have hsorted := pairwise_rowsFrom (c := c) hkeys
  rw [hrows, List.pairwise_append, List.pairwise_append] at hsorted
  rcases List.mem_append.mp ha with ha | ha
  · exact (hsorted.1.2.2 a ha b (List.mem_singleton_self b)).le
  · rw [List.mem_singleton.mp ha]

/-- A row that a page leaves out is after the next cursor. -/
theorem mem_page_or_lt (hkeys : (t.map key).Nodup) (h : keysetPage key n t c = (p, some c'))
    (ha : a ∈ rowsFrom key t c) : a ∈ p ∨ c' < key a := by
  obtain ⟨rest, hrows, b, hlast, rfl⟩ := keysetPage_some h
  rw [hrows, List.mem_append] at ha
  refine ha.imp_right fun ha => ?_
  have hsorted := pairwise_rowsFrom (c := c) hkeys
  rw [hrows, List.pairwise_append] at hsorted
  exact hsorted.2.2 b (List.mem_of_getLast? hlast) a ha

theorem mem_rowsFrom_of_mem_page (hn : 0 < n) {next : Option κ}
    (h : keysetPage key n t c = (p, next)) (ha : a ∈ p) : a ∈ rowsFrom key t c := by
  cases next with
  | none => exact keysetPage_none h hn ▸ ha
  | some c' =>
      obtain ⟨rest, hrows, -⟩ := keysetPage_some h
      rw [hrows]
      exact List.mem_append_left _ ha

theorem mem_of_mem_page (hn : 0 < n) {next : Option κ} (h : keysetPage key n t c = (p, next))
    (ha : a ∈ p) : a ∈ t := (mem_rowsFrom.mp (mem_rowsFrom_of_mem_page hn h ha)).1

theorem pairwise_page (hn : 0 < n) (hkeys : (t.map key).Nodup) {next : Option κ}
    (h : keysetPage key n t c = (p, next)) : p.Pairwise fun a b => key a < key b := by
  have hsorted := pairwise_rowsFrom (c := c) hkeys
  cases next with
  | none => exact keysetPage_none h hn ▸ hsorted
  | some c' =>
      obtain ⟨rest, hrows, -⟩ := keysetPage_some h
      rw [hrows, List.pairwise_append] at hsorted
      exact hsorted.1

/-! ## A whole walk -/

variable {ts ps : List (List α)}

theorem Walk.forall₂ (hn : 0 < n) (h : Walk key n c ts ps) : List.Forall₂ (fun t p => p ⊆ t) ts ps := by
  induction h with
  | last h => exact .cons (fun a ha => mem_of_mem_page hn h ha) .nil
  | more h hrest ih =>
      exact .cons (fun a ha => mem_of_mem_page hn h ha) ih

/-- A row that is read comes from one of the tables. -/
theorem Walk.exists_table (hn : 0 < n) (h : Walk key n c ts ps) (ha : a ∈ ps.flatten) : ∃ t ∈ ts, a ∈ t := by
  induction h with
  | @last c t p h =>
      rw [List.flatten_singleton] at ha
      exact ⟨t, List.mem_cons_self, mem_of_mem_page hn h ha⟩
  | @more c c' t p ts ps h hrest ih =>
      rw [List.flatten_cons, List.mem_append] at ha
      rcases ha with ha | ha
      · exact ⟨t, List.mem_cons_self, mem_of_mem_page hn h ha⟩
      · obtain ⟨t', ht', hat'⟩ := ih ha
        exact ⟨t', List.mem_cons_of_mem _ ht', hat'⟩

/-- All rows of a walk are after its cursor. -/
theorem Walk.lt_key (hn : 0 < n) (hkeys : ∀ t ∈ ts, (t.map key).Nodup) (h : Walk key n c ts ps) :
    ∀ a ∈ ps.flatten, ∀ k ∈ c, k < key a := by
  induction h with
  | last h =>
      intro a ha k hk
      rw [List.flatten_singleton] at ha
      exact (mem_rowsFrom.mp (mem_rowsFrom_of_mem_page hn h ha)).2 k hk
  | @more c c' t p ts ps h hrest ih =>
      intro a ha k hk
      rw [List.flatten_cons, List.mem_append] at ha
      rcases ha with ha | ha
      · exact (mem_rowsFrom.mp (mem_rowsFrom_of_mem_page hn h ha)).2 k hk
      · obtain ⟨rest, hrows, b, hlast, rfl⟩ := keysetPage_some h
        have hb := mem_rowsFrom_of_mem_page hn h (List.mem_of_getLast? hlast)
        exact ((mem_rowsFrom.mp hb).2 k hk).trans
          (ih (fun t ht => hkeys t (List.mem_cons_of_mem _ ht)) a ha _ rfl)

/-- A key that is in the table at every page is read. -/
theorem Walk.mem_of_stays (hn : 0 < n) (hkeys : ∀ t ∈ ts, (t.map key).Nodup) (h : Walk key n c ts ps)
    (hstays : ∀ t ∈ ts, k ∈ t.map key) (hc : ∀ k' ∈ c, k' < k) : k ∈ ps.flatten.map key := by
  induction h with
  | @last c t p h =>
      obtain ⟨a, ha, rfl⟩ := List.mem_map.mp (hstays t List.mem_cons_self)
      rw [List.flatten_singleton, keysetPage_none h hn]
      exact List.mem_map_of_mem (mem_rowsFrom.mpr ⟨ha, hc⟩)
  | @more c c' t p ts ps h hrest ih =>
      obtain ⟨a, ha, rfl⟩ := List.mem_map.mp (hstays t List.mem_cons_self)
      rw [List.flatten_cons, List.map_append, List.mem_append]
      have hrow := mem_rowsFrom.mpr ⟨ha, hc⟩
      rcases mem_page_or_lt (hkeys t List.mem_cons_self) h hrow with hpage | hlt
      · exact .inl (List.mem_map_of_mem hpage)
      · refine .inr (ih (fun t ht => hkeys t (List.mem_cons_of_mem _ ht))
          (fun t ht => hstays t (List.mem_cons_of_mem _ ht)) fun k' hk' => ?_)
        cases hk'
        exact hlt

/-- What has the name `x` does not move forward in the order: a later row of that name is not
after an earlier one. -/
structure NeverForward (key : α → κ) (name : α → ν) (x : ν) (ts : List (List α)) : Prop where
  within : ∀ t ∈ ts, ∀ a ∈ t, ∀ b ∈ t, name a = x → name b = x → key a = key b
  between : ts.Pairwise fun t t' => ∀ a ∈ t, ∀ b ∈ t', name a = x → name b = x → key b ≤ key a

theorem NeverForward.tail {name : α → ν} {x : ν} (h : NeverForward key name x (t :: ts)) :
    NeverForward key name x ts where
  within t' ht' := h.within t' (List.mem_cons_of_mem _ ht')
  between := (List.pairwise_cons.mp h.between).2

theorem count_page_le_one [DecidableEq ν] {name : α → ν} {x : ν}
    (hsorted : p.Pairwise fun a b => key a < key b)
    (hsame : ∀ a ∈ p, ∀ b ∈ p, name a = x → name b = x → key a = key b) :
    (p.map name).count x ≤ 1 := by
  induction p with
  | nil => simp
  | cons a p ih =>
      rw [List.pairwise_cons] at hsorted
      have ih := ih hsorted.2 fun b hb b' hb' =>
        hsame b (List.mem_cons_of_mem _ hb) b' (List.mem_cons_of_mem _ hb')
      rw [List.map_cons, List.count_cons]
      by_cases ha : name a = x
      · have hnone : x ∉ p.map name := by
          intro hmem
          obtain ⟨b, hb, hname⟩ := List.mem_map.mp hmem
          exact (hsorted.1 b hb).ne
            (hsame a List.mem_cons_self b (List.mem_cons_of_mem _ hb) ha hname)
        rw [List.count_eq_zero_of_not_mem hnone]
        split <;> omega
      · rw [if_neg (by simpa using ha)]
        exact ih

/-- What does not move forward is read at most once. -/
theorem Walk.count_le_one [DecidableEq ν] {name : α → ν} {x : ν} (hn : 0 < n)
    (hkeys : ∀ t ∈ ts, (t.map key).Nodup) (h : Walk key n c ts ps) (hx : NeverForward key name x ts) :
    (ps.flatten.map name).count x ≤ 1 := by
  induction h with
  | @last c t p h =>
      rw [List.flatten_singleton]
      refine count_page_le_one (pairwise_page hn (hkeys t List.mem_cons_self) h) fun a ha b hb => ?_
      exact hx.within t List.mem_cons_self a (mem_of_mem_page hn h ha) b (mem_of_mem_page hn h hb)
  | @more c c' t p ts ps h hrest ih =>
      have htail : ∀ t ∈ ts, (t.map key).Nodup := fun t ht => hkeys t (List.mem_cons_of_mem _ ht)
      have hhead := hkeys t List.mem_cons_self
      have hmem : ∀ a ∈ p, a ∈ t := fun a ha => mem_of_mem_page hn h ha
      have hpage : (p.map name).count x ≤ 1 :=
        count_page_le_one (pairwise_page hn hhead h) fun a ha b hb =>
          hx.within t List.mem_cons_self a (hmem a ha) b (hmem b hb)
      rw [List.flatten_cons, List.map_append, List.count_append]
      by_cases hread : x ∈ p.map name
      · -- A row of that name in a later page would be after the cursor and not after the row here.
        obtain ⟨a, ha, hname⟩ := List.mem_map.mp hread
        have hnone : x ∉ ps.flatten.map name := by
          intro hlater
          obtain ⟨b, hb, hname'⟩ := List.mem_map.mp hlater
          obtain ⟨t', ht', hbt'⟩ := hrest.exists_table hn hb
          have hle := (List.pairwise_cons.mp hx.between).1 t' ht' a (hmem a ha) b hbt' hname hname'
          have hlt := hrest.lt_key hn htail b hb c' rfl
          exact absurd (hle.trans (le_of_mem_page hhead h ha)) hlt.not_ge
        rw [List.count_eq_zero_of_not_mem hnone]
        exact hpage
      · rw [List.count_eq_zero_of_not_mem hread, Nat.zero_add]
        exact ih htail hx.tail

/-! ## Listings with tokens -/

/-- The answers to a client who asks a listing again with the token of each answer, until there is
none. Each time the listing reads a state of its own. -/
inductive Walks (list : σ → Option τ → Except ε (List β × Option τ)) :
    Option τ → List σ → List (List β) → Prop
  | last {c : Option τ} {s : σ} {p : List β} (h : list s c = .ok (p, none)) : Walks list c [s] [p]
  | more {c : Option τ} {c' : τ} {s : σ} {p : List β} {ss : List σ} {ps : List (List β)}
      (h : list s c = .ok (p, some c')) (hrest : Walks list (some c') ss ps) :
      Walks list c (s :: ss) (p :: ps)

theorem Walks.ne_nil {list : σ → Option τ → Except ε (List β × Option τ)} {c : Option τ} {states : List σ}
    {pages : List (List β)} (h : Walks list c states pages) : states ≠ [] := by
  cases h <;> exact List.cons_ne_nil _ _

/-- A listing of good states whose answers are pages by keys, with a text for each key. -/
structure ReadsPages (list : σ → Option τ → Except ε (List β × Option τ)) (Good : σ → Prop)
    (rows : σ → List α) (key : α → κ) (view : α → β) (token : κ → τ) (n : ℕ) : Prop where
  pos : 0 < n
  keys : ∀ s, Good s → ((rows s).map key).Nodup
  page : ∀ s, Good s → ∀ c : Option κ, (∀ k ∈ c, ∃ s', Good s' ∧ k ∈ (rows s').map key) →
    ∀ out, list s (c.map token) = .ok out →
      out = ((keysetPage key n (rows s) c).1.map view, (keysetPage key n (rows s) c).2.map token)

section

variable {list : σ → Option τ → Except ε (List β × Option τ)} {Good : σ → Prop}
  {rows : σ → List α} {view : α → β} {token : κ → τ} {states : List σ} {pages : List (List β)}

theorem mem_of_keysetPage_some (hn : 0 < n) (h : keysetPage key n t c = (p, some c')) :
    c' ∈ t.map key := by
  obtain ⟨rest, hrows, a, hlast, rfl⟩ := keysetPage_some h
  exact List.mem_map_of_mem (mem_of_mem_page hn h (List.mem_of_getLast? hlast))

/-- The answers of a listing are the views of the rows of a walk. -/
theorem ReadsPages.exists_walk (h : ReadsPages list Good rows key view token n)
    (hgood : ∀ s ∈ states, Good s) {c₀ : Option τ} (hwalks : Walks list c₀ states pages)
    (hc₀ : c₀ = c.map token) (hc : ∀ k ∈ c, ∃ s', Good s' ∧ k ∈ (rows s').map key) :
    ∃ picked, Walk key n c (states.map rows) picked ∧ pages = picked.map (List.map view) := by
  induction hwalks generalizing c with
  | @last c₀ s p hlist =>
      have hpage := h.page s (hgood s List.mem_cons_self) c hc _ (hc₀ ▸ hlist)
      obtain ⟨rfl, hnext⟩ := Prod.ext_iff.mp hpage
      rw [eq_comm, Option.map_eq_none_iff] at hnext
      exact ⟨_, .last (Prod.ext rfl hnext), rfl⟩
  | @more c₀ c' s p ss ps hlist hrest ih =>
      have hpage := h.page s (hgood s List.mem_cons_self) c hc _ (hc₀ ▸ hlist)
      obtain ⟨rfl, hnext⟩ := Prod.ext_iff.mp hpage
      obtain ⟨k, hk, rfl⟩ := Option.map_eq_some_iff.mp hnext.symm
      have hpage' : keysetPage key n (rows s) c = (_, some k) := Prod.ext rfl hk
      obtain ⟨picked, hwalk, rfl⟩ := ih (c := some k) (fun s hs => hgood s (List.mem_cons_of_mem _ hs))
        rfl fun k' hk' => by
          cases hk'
          exact ⟨s, hgood s List.mem_cons_self, mem_of_keysetPage_some h.pos hpage'⟩
      exact ⟨_ :: picked, .more hpage' hwalk, rfl⟩

theorem forall₂_map_subset {picked : List (List α)}
    (h : List.Forall₂ (fun t p => p ⊆ t) (states.map rows) picked) :
    List.Forall₂ (fun s p => p ⊆ (rows s).map view) states (picked.map (List.map view)) := by
  rw [List.forall₂_map_left_iff] at h
  rw [List.forall₂_map_right_iff]
  exact h.imp fun s p hsub => List.map_subset view hsub

/-- Each answer shows rows of the state it was read from. -/
theorem ReadsPages.forall₂ (h : ReadsPages list Good rows key view token n)
    (hgood : ∀ s ∈ states, Good s) (hwalks : Walks list none states pages) :
    List.Forall₂ (fun s p => p ⊆ (rows s).map view) states pages := by
  obtain ⟨picked, hwalk, rfl⟩ := h.exists_walk (c := none) hgood hwalks rfl fun k hk => by cases hk
  exact forall₂_map_subset (hwalk.forall₂ h.pos)

variable {name : β → ν} {x : ν}

theorem map_flatten_view (picked : List (List α)) :
    (picked.map (List.map view)).flatten.map name = picked.flatten.map fun a => name (view a) := by
  rw [← List.map_flatten, List.map_map]
  rfl

variable [DecidableEq ν]

/-- What does not move forward is listed at most once. -/
theorem ReadsPages.count_le_one (h : ReadsPages list Good rows key view token n)
    (hgood : ∀ s ∈ states, Good s) (hwalks : Walks list none states pages)
    (hunique : ∀ s, Good s → ((rows s).map fun a => name (view a)).Nodup)
    (hback : states.Pairwise fun s s' => ∀ a ∈ rows s, ∀ b ∈ rows s', name (view a) = x →
      name (view b) = x → key b ≤ key a) : (pages.flatten.map name).count x ≤ 1 := by
  obtain ⟨picked, hwalk, rfl⟩ := h.exists_walk (c := none) hgood hwalks rfl fun k hk => by cases hk
  have hkeys : ∀ t ∈ states.map rows, (t.map key).Nodup := by
    intro t ht
    obtain ⟨s, hs, rfl⟩ := List.mem_map.mp ht
    exact h.keys s (hgood s hs)
  rw [map_flatten_view]
  refine hwalk.count_le_one h.pos hkeys ⟨?_, List.pairwise_map.mpr hback⟩
  intro t ht a ha b hb hnamea hnameb
  obtain ⟨s, hs, rfl⟩ := List.mem_map.mp ht
  rw [List.inj_on_of_nodup_map (hunique s (hgood s hs)) ha hb (hnamea.trans hnameb.symm)]

/-- What keeps its key from the first answer to the last one is listed exactly once. -/
theorem ReadsPages.count_eq_one (h : ReadsPages list Good rows key view token n)
    (hgood : ∀ s ∈ states, Good s) (hwalks : Walks list none states pages)
    (hunique : ∀ s, Good s → ((rows s).map fun a => name (view a)).Nodup)
    (hstays : ∀ s ∈ states, ∃ a ∈ rows s, name (view a) = x ∧ key a = k) :
    (pages.flatten.map name).count x = 1 := by
  have hkey : ∀ s ∈ states, ∀ a ∈ rows s, name (view a) = x → key a = k := by
    intro s hs a ha hname
    obtain ⟨b, hb, hname', rfl⟩ := hstays s hs
    rw [List.inj_on_of_nodup_map (hunique s (hgood s hs)) ha hb (hname.trans hname'.symm)]
  have hle := h.count_le_one hgood hwalks hunique (x := x) (List.pairwise_of_forall_mem_list
    fun s hs s' hs' a ha b hb hnamea hnameb =>
      (hkey s' hs' b hb hnameb).trans_le (hkey s hs a ha hnamea).ge)
  obtain ⟨picked, hwalk, rfl⟩ := h.exists_walk (c := none) hgood hwalks rfl fun k hk => by cases hk
  have hkeys : ∀ t ∈ states.map rows, (t.map key).Nodup := by
    intro t ht
    obtain ⟨s, hs, rfl⟩ := List.mem_map.mp ht
    exact h.keys s (hgood s hs)
  have hread : k ∈ picked.flatten.map key := by
    refine hwalk.mem_of_stays h.pos hkeys ?_ fun k' hk' => by cases hk'
    intro t ht
    obtain ⟨s, hs, rfl⟩ := List.mem_map.mp ht
    obtain ⟨a, ha, -, rfl⟩ := hstays s hs
    exact List.mem_map_of_mem ha
  obtain ⟨a, ha, hkeya⟩ := List.mem_map.mp hread
  obtain ⟨t, ht, hat⟩ := hwalk.exists_table h.pos ha
  obtain ⟨s, hs, rfl⟩ := List.mem_map.mp ht
  obtain ⟨b, hb, hname, hkeyb⟩ := hstays s hs
  have hab : a = b := List.inj_on_of_nodup_map (h.keys s (hgood s hs)) hat hb (hkeya.trans hkeyb.symm)
  have hmem : x ∈ (picked.map (List.map view)).flatten.map name := by
    rw [map_flatten_view, List.mem_map]
    exact ⟨a, ha, hab ▸ hname⟩
  have hpos := List.count_pos_iff.mpr hmem
  omega

/-! ## One row more than a page -/

/-- A query fetches one row more than a page holds, to see whether rows are left. -/
def cutPage (pageLimit : ℤ) (out : List α) : List α × Option α :=
  if out.length ≤ pageLimit then (out, none)
  else
    let page := out.take pageLimit.toNat
    (page, page.getLast?)

theorem cutPage_limit {pageLimit : ℤ} (hpos : 0 < pageLimit) (t : List α) (c : Option κ) :
    keysetPage key pageLimit.toNat t c =
      ((cutPage pageLimit (limit (pageLimit + 1) (rowsFrom key t c))).1,
        (cutPage pageLimit (limit (pageLimit + 1) (rowsFrom key t c))).2.map key) := by
  have hsucc : (pageLimit + 1).toNat = pageLimit.toNat + 1 := by omega
  rw [keysetPage, limit, if_neg (by omega : ¬ pageLimit + 1 < 0), cutPage, hsucc]
  by_cases hle : (rowsFrom key t c).length ≤ pageLimit.toNat
  · rw [if_pos hle, List.take_of_length_le (by omega), if_pos (by omega)]
    rfl
  · have htake : ((rowsFrom key t c).take (pageLimit.toNat + 1)).length = pageLimit.toNat + 1 := by
      rw [List.length_take]
      omega
    rw [if_neg hle, if_neg (by omega), List.take_take, Nat.min_eq_left (Nat.le_succ _)]

end

end

end Sql
