import Mathlib.Data.List.Basic

/-!
# Early returns

Go code reports failure by an early `return err`. In `Except` this is a chain of
binds whose guards are `reject c e`: return the error `e` when `c` holds. The
equations below take such a chain apart from its end: a chain that succeeded
passed every guard and every call on the way.
-/

namespace Go

variable {ε α β σ : Type}

/-- `if c { return e }`. -/
def reject (c : Prop) [Decidable c] (e : ε) : Except ε Unit := if c then .error e else .ok ()

@[simp] theorem reject_eq_ok {c : Prop} [Decidable c] {e : ε} {u : Unit} :
    reject c e = .ok u ↔ ¬ c := by
  by_cases h : c <;> simp [reject, h]

@[simp] theorem bind_eq_ok {x : Except ε α} {f : α → Except ε β} {b : β} :
    (x >>= f) = .ok b ↔ ∃ a, x = .ok a ∧ f a = .ok b := by
  cases x with
  | error e => simp [bind, Except.bind]
  | ok a => simp [bind, Except.bind]

@[simp] theorem pure_eq_ok {a b : α} : (pure a : Except ε α) = .ok b ↔ a = b := by
  simp [pure, Except.pure]

@[simp] theorem map_eq_ok {f : α → β} {x : Except ε α} {b : β} :
    f <$> x = .ok b ↔ ∃ a, x = .ok a ∧ f a = b := by
  cases x with
  | error e => simp [Functor.map, Except.map]
  | ok a => simp [Functor.map, Except.map]

@[simp] theorem throw_ne_ok {e : ε} {b : α} : (throw e : Except ε α) ≠ .ok b := by
  intro h
  cases h

@[simp] theorem mapError_eq_ok {ε' : Type} {f : ε → ε'} {x : Except ε α} {a : α} :
    x.mapError f = .ok a ↔ x = .ok a := by
  cases x with
  | error e => simp [Except.mapError]
  | ok b => simp [Except.mapError]

/-- A guard that fires ends the chain. -/
theorem reject_bind_of {c : Prop} [Decidable c] {e : ε} {f : Unit → Except ε α} (h : c) :
    (reject c e >>= f) = .error e := by
  simp [reject, h, bind, Except.bind]

/-- A guard that does not fire is skipped. -/
theorem reject_bind_of_not {c : Prop} [Decidable c] {e : ε} {f : Unit → Except ε α} (h : ¬ c) :
    (reject c e >>= f) = f () := by
  simp [reject, h, bind, Except.bind]

theorem reject_congr {c d : Prop} [Decidable c] [Decidable d] {e : ε} (h : c ↔ d) :
    reject c e = reject d e := by
  by_cases hc : c
  · simp [reject, hc, h.mp hc]
  · simp [reject, hc, mt h.mpr hc]

theorem ok_bind {a : α} {f : α → Except ε β} : ((.ok a : Except ε α) >>= f) = f a := rfl

theorem exists_of_isOk {x : Except ε α} (h : x.isOk = true) : ∃ a, x = .ok a := by
  cases x with
  | error e => cases h
  | ok a => exact ⟨a, rfl⟩

/-- A loop that succeeded kept every property that its body keeps. -/
theorem foldlM_inv {f : σ → α → Except ε σ} {P : σ → Prop} {l : List α}
    (hstep : ∀ s a s', a ∈ l → P s → f s a = .ok s' → P s') {s s' : σ}
    (hs : P s) (h : l.foldlM f s = .ok s') : P s' := by
  induction l generalizing s with
  | nil =>
      simp only [List.foldlM_nil, pure_eq_ok] at h
      exact h ▸ hs
  | cons a l ih =>
      rw [List.foldlM_cons, bind_eq_ok] at h
      obtain ⟨s₁, hs₁, hrest⟩ := h
      exact ih (fun s a s' ha => hstep s a s' (List.mem_cons_of_mem _ ha))
        (hstep s a s₁ List.mem_cons_self hs hs₁) hrest

/-- Every result of a loop that collects results is the result of some element. -/
theorem mem_of_mapM {f : α → Except ε β} {l : List α} {out : List β} (h : l.mapM f = .ok out) {b : β}
    (hb : b ∈ out) : ∃ a ∈ l, f a = .ok b := by
  induction l generalizing out with
  | nil =>
      simp only [List.mapM_nil, pure_eq_ok] at h
      simp [← h] at hb
  | cons a l ih =>
      simp only [List.mapM_cons, bind_eq_ok, pure_eq_ok] at h
      obtain ⟨b', hb', rest, hrest, rfl⟩ := h
      rcases List.mem_cons.mp hb with rfl | hb
      · exact ⟨a, List.mem_cons_self, hb'⟩
      · obtain ⟨c, hc, hfc⟩ := ih hrest hb
        exact ⟨c, List.mem_cons_of_mem _ hc, hfc⟩

/-- A loop that collects results succeeds when every call does. -/
theorem exists_mapM_eq_ok {f : α → Except ε β} {l : List α} (h : ∀ a ∈ l, ∃ b, f a = .ok b) :
    ∃ out, l.mapM f = .ok out ∧ ∀ a ∈ l, ∃ b ∈ out, f a = .ok b := by
  induction l with
  | nil => exact ⟨[], rfl, by simp⟩
  | cons a l ih =>
      obtain ⟨b, hb⟩ := h a List.mem_cons_self
      obtain ⟨out, hout, hmem⟩ := ih fun a' ha' => h a' (List.mem_cons_of_mem _ ha')
      refine ⟨b :: out, ?_, ?_⟩
      · simp [List.mapM_cons, hb, hout]
      · intro a' ha'
        rcases List.mem_cons.mp ha' with rfl | ha'
        · exact ⟨b, List.mem_cons_self, hb⟩
        · obtain ⟨b', hb', hfb'⟩ := hmem a' ha'
          exact ⟨b', List.mem_cons_of_mem _ hb', hfb'⟩

/-- A loop of checks that succeeded passed every one of them. -/
theorem forM_eq_ok {f : α → Except ε Unit} {l : List α} {u : Unit} :
    l.forM f = .ok u ↔ ∀ a ∈ l, f a = .ok () := by
  induction l with
  | nil => simp [pure, Except.pure]
  | cons a l ih =>
      rw [List.forM_eq_forM, List.forM_cons, bind_eq_ok, ← List.forM_eq_forM]
      constructor
      · rintro ⟨_, ha, hl⟩ b hb
        rcases List.mem_cons.mp hb with rfl | hb
        · exact ha
        · exact ih.mp hl b hb
      · intro hall
        exact ⟨(), hall a List.mem_cons_self, ih.mpr fun b hb => hall b (List.mem_cons_of_mem _ hb)⟩

/-- What every round of a loop that succeeded says about its element. -/
theorem foldlM_forall {f : σ → α → Except ε σ} (Q : α → Prop)
    (hstep : ∀ s a s', f s a = .ok s' → Q a) {l : List α} {s s' : σ}
    (h : l.foldlM f s = .ok s') : ∀ a ∈ l, Q a := by
  induction l generalizing s with
  | nil => simp
  | cons a l ih =>
      rw [List.foldlM_cons, bind_eq_ok] at h
      obtain ⟨s₁, hs₁, hrest⟩ := h
      intro b hb
      rcases List.mem_cons.mp hb with rfl | hb
      · exact hstep s b s₁ hs₁
      · exact ih hrest b hb

/-- A loop that keeps the keys it has seen and stops at a repeated one. -/
theorem foldlM_nodup {κ : Type} {f : σ → α → Except ε σ} (seen : σ → List κ) (key : α → κ)
    {l : List α} (hstep : ∀ s a s', a ∈ l → f s a = .ok s' →
      key a ∉ seen s ∧ seen s' = key a :: seen s) {s s' : σ} (h : l.foldlM f s = .ok s') :
    (l.map key).Nodup ∧ (∀ a ∈ l, key a ∉ seen s) ∧
      ∀ k, k ∈ seen s' ↔ k ∈ seen s ∨ k ∈ l.map key := by
  induction l generalizing s with
  | nil =>
      simp only [List.foldlM_nil, pure_eq_ok] at h
      simp [h]
  | cons a l ih =>
      rw [List.foldlM_cons, bind_eq_ok] at h
      obtain ⟨s₁, hs₁, hrest⟩ := h
      obtain ⟨hfresh, hseen⟩ := hstep s a s₁ List.mem_cons_self hs₁
      obtain ⟨hnodup, hout, hall⟩ := ih
        (fun s a s' ha => hstep s a s' (List.mem_cons_of_mem _ ha)) hrest
      rw [hseen] at hout hall
      refine ⟨?_, ?_, ?_⟩
      · rw [List.map_cons, List.nodup_cons]
        refine ⟨fun hmem => ?_, hnodup⟩
        obtain ⟨b, hb, hkey⟩ := List.mem_map.mp hmem
        exact hout b hb (hkey ▸ List.mem_cons_self)
      · intro b hb
        rcases List.mem_cons.mp hb with rfl | hb
        · exact hfresh
        · exact fun hmem => hout b hb (List.mem_cons_of_mem _ hmem)
      · intro k
        rw [hall, List.mem_cons, List.map_cons, List.mem_cons]
        tauto

end Go
