import Scrumboy.Sql.Order

/-!
# Pages by keys

A table is read page by page: each page has the first rows of the order after a cursor,
and the key of its last row is the next cursor. When the keys tell the rows apart, the
rows after the key of a row are those behind it in the sorted table, so the pages one
after the other are the sorted table.
-/

namespace Sql

variable {α κ σ π : Type*}

/-- One term of an `ORDER BY` clause. -/
structure Term (α : Type*) where
  value : α → ℤ
  desc : Bool := false

/-- The value of a term, turned around for a descending one. -/
def Term.key (t : Term α) (a : α) : ℤ := if t.desc then -t.value a else t.value a

/-- The key of the clause `ORDER BY t₁, t₂`. -/
def orderKey (ts : Term α × Term α) (a : α) : ℤ ×ₗ ℤ := toLex (ts.1.key a, ts.2.key a)

/-- `LIMIT n`; a negative number is no limit. -/
def limit (n : ℤ) (t : List α) : List α := if n < 0 then t else t.take n.toNat

/-! ## Rows after a key -/

section

variable [LinearOrder κ] {key : α → κ} {t : List α}

/-- Rows with distinct keys are in strict order. -/
theorem pairwise_lt_orderBy (hkeys : (t.map key).Nodup) :
    (orderBy key t).Pairwise fun a b => key a < key b := by
  have hnodup : ((orderBy key t).map key).Nodup :=
    ((orderBy_perm key t).map key).nodup_iff.mpr hkeys
  rw [List.Nodup, List.pairwise_map] at hnodup
  exact (pairwise_orderBy key t).imp₂ (fun _ _ hle hne => lt_of_le_of_ne hle hne) hnodup

/-- Two lists with the same rows in strict order are equal. -/
theorem eq_of_pairwise_lt (key : α → κ) {l l' : List α} (hperm : l.Perm l')
    (h : l.Pairwise fun a b => key a < key b) (h' : l'.Pairwise fun a b => key a < key b) :
    l = l' := by
  refine hperm.eq_of_pairwise ?_ h h'
  intro a b _ _ hab hba
  exact absurd hba hab.asymm

/-- The order of the rows in a table does not matter if the key tells apart what differs. -/
theorem orderBy_eq_of_perm {l l' : List α} (hperm : l.Perm l')
    (hkey : ∀ a ∈ l, ∀ b ∈ l, key a = key b → a = b) : orderBy key l = orderBy key l' := by
  have hsorted : (orderBy key l).Perm (orderBy key l') :=
    (orderBy_perm key l).trans (hperm.trans (orderBy_perm key l').symm)
  refine hsorted.eq_of_pairwise ?_ (pairwise_orderBy key l) (pairwise_orderBy key l')
  intro a b ha hb hab hba
  exact hkey a (mem_orderBy.mp ha) b (hperm.mem_iff.mpr (mem_orderBy.mp hb)) (le_antisymm hab hba)

/-- Selecting rows and sorting them can be done in either order. -/
theorem orderBy_filter (hkeys : (t.map key).Nodup) (p : α → Bool) :
    orderBy key (t.filter p) = (orderBy key t).filter p := by
  refine eq_of_pairwise_lt key ?_ ?_ ?_
  · exact (orderBy_perm key _).trans ((orderBy_perm key t).filter p).symm
  · exact pairwise_lt_orderBy (hkeys.sublist (List.filter_sublist.map _))
  · exact (pairwise_lt_orderBy hkeys).filter p

/-- The rows whose keys are after `cursor`, in order. -/
def rowsAfter (key : α → κ) (t : List α) (cursor : κ) : List α :=
  orderBy key (t.filter fun a => decide (cursor < key a))

theorem rowsAfter_of_forall {cursor : κ} (h : ∀ a ∈ t, cursor < key a) :
    rowsAfter key t cursor = orderBy key t := by
  rw [rowsAfter, List.filter_eq_self.mpr fun a ha => decide_eq_true (h a ha)]

/-- The rows after the key of a row are those behind it. -/
theorem rowsAfter_of_split (hkeys : (t.map key).Nodup) {l₁ l₂ : List α} {a : α}
    (h : orderBy key t = l₁ ++ a :: l₂) : rowsAfter key t (key a) = l₂ := by
  have hsorted := pairwise_lt_orderBy hkeys
  rw [h, List.pairwise_append, List.pairwise_cons] at hsorted
  obtain ⟨_, ⟨hafter, _⟩, hbefore⟩ := hsorted
  have hfront : ∀ b ∈ l₁, ¬ decide (key a < key b) = true := by
    intro b hb
    simpa using (hbefore b hb a List.mem_cons_self).le
  have hback : ∀ b ∈ l₂, decide (key a < key b) = true := by
    intro b hb
    exact decide_eq_true (hafter b hb)
  rw [rowsAfter, orderBy_filter hkeys, h, List.filter_append, List.filter_eq_nil_iff.mpr hfront,
    List.filter_cons_of_neg (by simp), List.filter_eq_self.mpr hback, List.nil_append]

/-- The rows after the last row of a page are those that the page left. -/
theorem rowsAfter_getLast (hkeys : (t.map key).Nodup) {cursor : κ} {n : ℕ} {a : α}
    (hlast : ((rowsAfter key t cursor).take n).getLast? = some a) :
    rowsAfter key t (key a) = (rowsAfter key t cursor).drop n := by
  obtain ⟨front, hfront⟩ := List.getLast?_eq_some_iff.mp hlast
  have hsplit : rowsAfter key t cursor = front ++ a :: (rowsAfter key t cursor).drop n := by
    conv_lhs => rw [← List.take_append_drop n (rowsAfter key t cursor), hfront]
    simp
  have ha : cursor < key a := by
    have hmem : a ∈ rowsAfter key t cursor := hsplit ▸ List.mem_append_right _ List.mem_cons_self
    rw [rowsAfter, mem_orderBy, List.mem_filter] at hmem
    exact of_decide_eq_true hmem.2
  -- Behind `a` there are only rows after the cursor, so both queries can start from those.
  have hnarrow : rowsAfter key t (key a) =
      rowsAfter key (t.filter fun b => decide (cursor < key b)) (key a) := by
    rw [rowsAfter, rowsAfter, List.filter_filter]
    congr 1
    apply List.filter_congr
    intro b _
    by_cases hb : key a < key b
    · simp [hb, ha.trans hb]
    · simp [hb]
  rw [hnarrow]
  exact rowsAfter_of_split (hkeys.sublist (List.filter_sublist.map _)) hsplit

end

/-! ## Following cursors -/

/-- The pages that a client sees who asks for a page from a position, and again from the
next one as long as there is one. `step s p s'` says that the page `p` can be the answer in
`s`, and that `s'` is the position it leads to. -/
inductive Follows (step : σ → π → Option σ → Prop) : σ → List π → Option σ → Prop
  | last {s : σ} {p : π} {s' : Option σ} (h : step s p s') : Follows step s [p] s'
  | more {s s' : σ} {p : π} {ps : List π} {t : Option σ} (h : step s p (some s'))
      (hrest : Follows step s' ps t) : Follows step s (p :: ps) t

/-- Following the cursors from `s` reads exactly `rows`: it ends, and at the end the items
of the pages are the rows, where all pages but the last one announce more. -/
structure ReadsAll (step : σ → π → Option σ → Prop) (items : π → List α) (more : π → Bool) (s : σ)
    (rows : List α) : Prop where
  length_le : ∀ ps t, Follows step s ps t → ps.length ≤ rows.length + 1
  exists_pages : ∃ ps, Follows step s ps none
  items_eq : ∀ ps, Follows step s ps none → ps.flatMap items = rows
  more_eq : ∀ ps, Follows step s ps none →
    ∃ front last, ps = front ++ [last] ∧ (∀ p ∈ front, more p = true) ∧ more last = false

/-- The accounting of a keyset cursor: in a position that has yet to give the rows `r`, an
answer is their first `n` and leads to the position that has yet to give the others. -/
structure Pages (step : σ → π → Option σ → Prop) (items : π → List α) (more : π → Bool)
    (Left : σ → List α → Prop) (n : ℕ) : Prop where
  pos : 0 < n
  answers : ∀ s r, Left s r → ∃ p s', step s p s'
  items_eq : ∀ s r p s', Left s r → step s p s' → items p = r.take n
  more_eq : ∀ s r p s', Left s r → step s p s' → more p = decide (n < r.length)
  next : ∀ s r p s', Left s r → step s p (some s') → n < r.length ∧ Left s' (r.drop n)
  done : ∀ s r p, Left s r → step s p none → r.length ≤ n

section

variable {step : σ → π → Option σ → Prop} {items : π → List α} {more : π → Bool}
  {Left : σ → List α → Prop} {n : ℕ}

theorem Pages.length_le (h : Pages step items more Left n) {s : σ} {r : List α} {ps : List π}
    {t : Option σ} (hs : Left s r) (hps : Follows step s ps t) : ps.length ≤ r.length + 1 := by
  induction hps generalizing r with
  | last hstep => simp
  | more hstep hrest ih =>
      obtain ⟨hlt, hleft⟩ := h.next _ _ _ _ hs hstep
      have hle := ih hleft
      have hpos := h.pos
      rw [List.length_drop] at hle
      rw [List.length_cons]
      omega

theorem Pages.flatMap_items (h : Pages step items more Left n) {s : σ} {r : List α} {ps : List π}
    {t : Option σ} (hs : Left s r) (hps : Follows step s ps t) (ht : t = none) :
    ps.flatMap items = r := by
  induction hps generalizing r with
  | last hstep =>
      subst ht
      simp [h.items_eq _ _ _ _ hs hstep, List.take_of_length_le (h.done _ _ _ hs hstep)]
  | more hstep hrest ih =>
      obtain ⟨_, hleft⟩ := h.next _ _ _ _ hs hstep
      rw [List.flatMap_cons, ih hleft ht, h.items_eq _ _ _ _ hs hstep, List.take_append_drop]

theorem Pages.exists_split (h : Pages step items more Left n) {s : σ} {r : List α} {ps : List π}
    {t : Option σ} (hs : Left s r) (hps : Follows step s ps t) (ht : t = none) :
    ∃ front last, ps = front ++ [last] ∧ (∀ p ∈ front, more p = true) ∧ more last = false := by
  induction hps generalizing r with
  | @last s p s' hstep =>
      subst ht
      have hmore := h.more_eq _ _ _ _ hs hstep
      have hlen := h.done _ _ _ hs hstep
      exact ⟨[], p, rfl, by simp, hmore.trans (decide_eq_false hlen.not_gt)⟩
  | @more s s' p ps t hstep hrest ih =>
      obtain ⟨hlt, hleft⟩ := h.next _ _ _ _ hs hstep
      obtain ⟨front, last, rfl, hfront, hlast⟩ := ih hleft ht
      refine ⟨p :: front, last, rfl, ?_, hlast⟩
      intro q hq
      rcases List.mem_cons.mp hq with rfl | hq
      · exact (h.more_eq _ _ _ _ hs hstep).trans (decide_eq_true hlt)
      · exact hfront q hq

/-- Following the cursors ends, since every page that leads on takes rows away. -/
theorem Pages.exists_follows (h : Pages step items more Left n) (s : σ) (r : List α)
    (hs : Left s r) : ∃ ps, Follows step s ps none := by
  obtain ⟨p, s', hstep⟩ := h.answers s r hs
  cases s' with
  | none => exact ⟨[p], .last hstep⟩
  | some s' =>
      obtain ⟨hlt, hleft⟩ := h.next _ _ _ _ hs hstep
      have hpos := h.pos
      obtain ⟨ps, hps⟩ := h.exists_follows s' (r.drop n) hleft
      exact ⟨p :: ps, .more hstep hps⟩
termination_by r.length
decreasing_by
  rw [List.length_drop]
  omega

/-- A cursor with the right accounting reads all rows that it starts with. -/
theorem Pages.readsAll (h : Pages step items more Left n) {s : σ} {r : List α} (hs : Left s r) :
    ReadsAll step items more s r where
  length_le _ _ hps := h.length_le hs hps
  exists_pages := h.exists_follows s r hs
  items_eq _ hps := h.flatMap_items hs hps rfl
  more_eq _ hps := h.exists_split hs hps rfl

end

/-! ## Cursors that are refused -/

/-- The rows that end a page of `n` rows which is not the last page meet `P`. -/
def PageEnds (n : ℕ) (P : α → Prop) (r : List α) : Prop :=
  ∀ j, (j + 1) * n < r.length → ∀ a, r[(j + 1) * n - 1]? = some a → P a

section

variable {P : α → Prop} {n : ℕ} {r : List α}

theorem PageEnds.of_length_le (h : r.length ≤ n) : PageEnds n P r := by
  intro j hj
  have hle : n ≤ (j + 1) * n := Nat.le_mul_of_pos_left n j.succ_pos
  omega

theorem PageEnds.first (h : PageEnds n P r) (hlt : n < r.length) {a : α} (ha : r[n - 1]? = some a) : P a :=
  h 0 (by simpa using hlt) a (by simpa using ha)

theorem getElem?_drop_page (hn : 0 < n) (j : ℕ) :
    (r.drop n)[(j + 1) * n - 1]? = r[(j + 1 + 1) * n - 1]? := by
  have hpos : 0 < (j + 1) * n := Nat.mul_pos j.succ_pos hn
  have hsucc : (j + 1 + 1) * n = (j + 1) * n + n := Nat.succ_mul (j + 1) n
  rw [List.getElem?_drop, hsucc]
  congr 1
  omega

theorem PageEnds.drop (h : PageEnds n P r) (hn : 0 < n) : PageEnds n P (r.drop n) := by
  intro j hj a ha
  have hsucc : (j + 1 + 1) * n = (j + 1) * n + n := Nat.succ_mul (j + 1) n
  rw [getElem?_drop_page hn] at ha
  rw [List.length_drop] at hj
  exact h (j + 1) (by omega) a ha

theorem PageEnds.of_drop (hn : 0 < n) (hfirst : n < r.length → ∀ a, r[n - 1]? = some a → P a)
    (hrest : PageEnds n P (r.drop n)) : PageEnds n P r := by
  intro j hj a ha
  cases j with
  | zero => exact hfirst (by simpa using hj) a (by simpa using ha)
  | succ j =>
      have hsucc : (j + 1 + 1) * n = (j + 1) * n + n := Nat.succ_mul (j + 1) n
      refine hrest j ?_ a ?_
      · rw [List.length_drop]
        omega
      · rw [getElem?_drop_page hn]
        exact ha

/-- Who reads to the end has used the cursor of every page but the last one. -/
theorem Follows.pageEnds {step : σ → π → Option σ → Prop} {Left : σ → List α → Prop} (hn : 0 < n)
    (hdone : ∀ s r p, Left s r → step s p none → r.length ≤ n)
    (hnext : ∀ s r p s', Left s r → step s p (some s') → Left s' (r.drop n))
    (haccept : ∀ s r p s' p' t, Left s r → step s p (some s') → step s' p' t →
      ∀ a, r[n - 1]? = some a → P a)
    {s : σ} {ps : List π} {t : Option σ} (hps : Follows step s ps t) (ht : t = none)
    (hs : Left s r) : PageEnds n P r := by
  induction hps generalizing r with
  | last hstep => exact .of_length_le (hdone _ _ _ hs (ht ▸ hstep))
  | more hstep hrest ih =>
      refine .of_drop hn (fun _ => ?_) (ih ht (hnext _ _ _ _ hs hstep))
      cases hrest with
      | last hstep' => exact haccept _ _ _ _ _ _ hs hstep hstep'
      | more hstep' _ => exact haccept _ _ _ _ _ _ hs hstep hstep'

end

end Sql
