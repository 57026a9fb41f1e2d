import Scrumboy.Sql.Table

/-!
# Rows that are used once

A table of rows that each may be used once: `serial` numbers the rows in the order in
which they are inserted, `spent` says that a row was used, and `redeemed` is the list of
the numbers of the rows that were. `SingleUse` holds of a table in which no row is used
twice. It is kept when a row comes in, when rows go or change, and when a row that is not
spent yet is used, be it that the row stays in the table and is spent, or that it goes.
-/

namespace Sql

variable {α : Type*}

structure SingleUse (serial : α → ℕ) (spent : α → Bool) (rows : List α) (issued : ℕ)
    (redeemed : List ℕ) : Prop where
  distinct : (rows.map serial).Nodup
  issued_of_mem : ∀ r ∈ rows, serial r < issued
  once : redeemed.Nodup
  issued_of_redeemed : ∀ n ∈ redeemed, n < issued
  spent_of_redeemed : ∀ r ∈ rows, serial r ∈ redeemed → spent r = true

namespace SingleUse

variable {serial : α → ℕ} {spent : α → Bool} {rows : List α} {issued : ℕ} {redeemed : List ℕ}

theorem nil : SingleUse serial spent [] 0 [] :=
  ⟨List.nodup_nil, by simp, List.nodup_nil, by simp, by simp⟩

theorem eq_of_serial (h : SingleUse serial spent rows issued redeemed) {r r' : α} (hr : r ∈ rows)
    (hr' : r' ∈ rows) (heq : serial r = serial r') : r = r' :=
  List.inj_on_of_nodup_map h.distinct hr hr' heq

theorem insert (h : SingleUse serial spent rows issued redeemed) {r : α} (hr : serial r = issued) :
    SingleUse serial spent (rows ++ [r]) (issued + 1) redeemed where
  distinct := by
    rw [List.map_append, List.nodup_append]
    refine ⟨h.distinct, List.nodup_singleton _, fun n hn m hm => ?_⟩
    obtain ⟨r', hr', rfl⟩ := List.mem_map.mp hn
    rw [List.map_singleton, List.mem_singleton] at hm
    have := h.issued_of_mem r' hr'
    omega
  issued_of_mem := by
    intro r' hr'
    rcases List.mem_append.mp hr' with hr' | hr'
    · exact (h.issued_of_mem r' hr').trans (Nat.lt_succ_self _)
    · rw [List.mem_singleton.mp hr']
      omega
  once := h.once
  issued_of_redeemed := fun n hn => (h.issued_of_redeemed n hn).trans (Nat.lt_succ_self _)
  spent_of_redeemed := by
    intro r' hr' hn
    rcases List.mem_append.mp hr' with hr' | hr'
    · exact h.spent_of_redeemed r' hr' hn
    · rw [List.mem_singleton.mp hr', hr] at hn
      exact absurd (h.issued_of_redeemed _ hn) (lt_irrefl _)

theorem deleteWhere (h : SingleUse serial spent rows issued redeemed) (p : α → Bool) :
    SingleUse serial spent (deleteWhere p rows) issued redeemed where
  distinct := h.distinct.sublist ((List.filter_sublist).map serial)
  issued_of_mem := fun r hr => h.issued_of_mem r (mem_deleteWhere.mp hr).1
  once := h.once
  issued_of_redeemed := h.issued_of_redeemed
  spent_of_redeemed := fun r hr => h.spent_of_redeemed r (mem_deleteWhere.mp hr).1

/-- An update may spend rows, and does not bring them back. -/
theorem update (h : SingleUse serial spent rows issued redeemed) {p : α → Bool} {f : α → α}
    (hserial : ∀ r, serial (f r) = serial r) (hspent : ∀ r, spent r = true → spent (f r) = true) :
    SingleUse serial spent (updateWhere p f rows) issued redeemed where
  distinct := by
    rw [map_updateWhere serial hserial]
    exact h.distinct
  issued_of_mem := by
    intro r hr
    obtain ⟨r₀, hr₀, rfl⟩ := mem_updateWhere.mp hr
    split
    · rw [hserial]
      exact h.issued_of_mem r₀ hr₀
    · exact h.issued_of_mem r₀ hr₀
  once := h.once
  issued_of_redeemed := h.issued_of_redeemed
  spent_of_redeemed := by
    intro r hr hn
    obtain ⟨r₀, hr₀, rfl⟩ := mem_updateWhere.mp hr
    split at hn
    · rw [if_pos ‹_›]
      rw [hserial] at hn
      exact hspent r₀ (h.spent_of_redeemed r₀ hr₀ hn)
    · rw [if_neg ‹_›]
      exact h.spent_of_redeemed r₀ hr₀ hn

/-- The numbers used so far together with that of a row that is not spent. -/
theorem once_concat (h : SingleUse serial spent rows issued redeemed) {r : α} (hr : r ∈ rows)
    (hnew : spent r = false) : (redeemed ++ [serial r]).Nodup := by
  rw [List.nodup_append]
  refine ⟨h.once, List.nodup_singleton _, fun n hn m hm => ?_⟩
  rw [List.mem_singleton.mp hm]
  rintro rfl
  rw [h.spent_of_redeemed r hr hn] at hnew
  cases hnew

theorem issued_concat (h : SingleUse serial spent rows issued redeemed) {r : α} (hr : r ∈ rows) :
    ∀ n ∈ redeemed ++ [serial r], n < issued := by
  intro n hn
  rcases List.mem_append.mp hn with hn | hn
  · exact h.issued_of_redeemed n hn
  · rw [List.mem_singleton.mp hn]
    exact h.issued_of_mem r hr

/-- A row that is used may go with the same statement. -/
theorem remove (h : SingleUse serial spent rows issued redeemed) {p : α → Bool} {r : α} (hr : r ∈ rows)
    (hp : p r = true) (hnew : spent r = false) :
    SingleUse serial spent (Sql.deleteWhere p rows) issued (redeemed ++ [serial r]) where
  distinct := (h.deleteWhere p).distinct
  issued_of_mem := (h.deleteWhere p).issued_of_mem
  once := h.once_concat hr hnew
  issued_of_redeemed := h.issued_concat hr
  spent_of_redeemed := by
    intro r' hr' hn
    obtain ⟨hr', hkept⟩ := mem_deleteWhere.mp hr'
    rcases List.mem_append.mp hn with hn | hn
    · exact h.spent_of_redeemed r' hr' hn
    · rw [h.eq_of_serial hr' hr (List.mem_singleton.mp hn), hp] at hkept
      cases hkept

/-- A row that is used is spent by the same statement, and was not spent before. -/
theorem redeem (h : SingleUse serial spent rows issued redeemed) {p : α → Bool} {f : α → α} {r : α}
    (hserial : ∀ r, serial (f r) = serial r) (hspent : ∀ r, spent (f r) = true) (hr : r ∈ rows)
    (hp : p r = true) (hnew : spent r = false) :
    SingleUse serial spent (updateWhere p f rows) issued (redeemed ++ [serial r]) where
  distinct := (h.update (p := p) hserial fun r _ => hspent r).distinct
  issued_of_mem := (h.update hserial fun r _ => hspent r).issued_of_mem
  once := h.once_concat hr hnew
  issued_of_redeemed := h.issued_concat hr
  spent_of_redeemed := by
    intro r' hr' hn
    rcases List.mem_append.mp hn with hn | hn
    · exact (h.update hserial fun r _ => hspent r).spent_of_redeemed r' hr' hn
    · obtain ⟨r₀, hr₀, rfl⟩ := mem_updateWhere.mp hr'
      have hsame : serial r₀ = serial r := by
        split at hn
        · exact (hserial r₀).symm.trans (List.mem_singleton.mp hn)
        · exact List.mem_singleton.mp hn
      rw [h.eq_of_serial hr₀ hr hsame, if_pos hp]
      exact hspent r

end SingleUse

end Sql
