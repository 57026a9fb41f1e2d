import Scrumboy.Transition.Pool

/-!
# Asynchronous functions

A function of a single-threaded program with `await`: between two waits it reads and writes
the shared state undisturbed, and while it waits other functions run. An answer of the
environment ends a wait.

`Keeps` is the weakest precondition of such a function where others follow a relation `R`
in its waits, and where it keeps `I` for them. `Exclusive.inv` is about functions that
refuse to run next to each other: a call that finds the state busy returns at once, and does
nothing outside `R`. Then each of them may be checked on its own.
-/

set_option linter.dupNamespace false

namespace Transition

inductive Async (σ ι α : Type) : Type
  | done (a : α)
  | read (k : σ → Async σ ι α)
  | write (s : σ) (k : Async σ ι α)
  | wait (k : ι → Async σ ι α)

variable {σ ι κ α β ε : Type}

namespace Async

def bind : Async σ ι α → (α → Async σ ι β) → Async σ ι β
  | done a, f => f a
  | read k, f => read fun s => (k s).bind f
  | write s k, f => write s (k.bind f)
  | wait k, f => wait fun i => (k i).bind f

instance : Monad (Async σ ι) where
  pure := done
  bind := bind

instance : MonadStateOf σ (Async σ ι) where
  get := read done
  set s := write s (done ⟨⟩)
  modifyGet f := read fun s => write (f s).2 (done (f s).1)

/-- What the environment answers. -/
def answer : Async σ ι ι := wait done

/-- The state and the function at its next wait, or at its end. -/
def advance : Async σ ι α → σ → σ × Async σ ι α
  | done a, s => (s, done a)
  | read k, s => (k s).advance s
  | write s k, _ => k.advance s
  | wait k, s => (s, wait k)

section

variable (R : σ → σ → Prop) (I : σ → Prop)

/-- From `s` the function keeps `I` in its waits and ends with `Q`, if others follow `R` then. -/
def Keeps (Q : α → σ → Prop) : Async σ ι α → σ → Prop
  | done a, s => Q a s
  | read k, s => (k s).Keeps Q s
  | write s k, _ => k.Keeps Q s
  | wait k, s => I s ∧ ∀ s', R s s' → ∀ i, (k i).Keeps Q s'

end

variable {R : σ → σ → Prop} {I : σ → Prop}

@[simp] theorem keeps_get {Q : σ → σ → Prop} {s : σ} :
    (get : Async σ ι σ).Keeps R I Q s ↔ Q s s := Iff.rfl

@[simp] theorem keeps_modify {Q : Unit → σ → Prop} {f : σ → σ} {s : σ} :
    (modify f : Async σ ι Unit).Keeps R I Q s ↔ Q () (f s) := Iff.rfl

@[simp] theorem keeps_bind {Q : β → σ → Prop} {p : Async σ ι α} {f : α → Async σ ι β} {s : σ} :
    (p >>= f).Keeps R I Q s ↔ p.Keeps R I (fun a => (f a).Keeps R I Q) s := by
  change (p.bind f).Keeps R I Q s ↔ _
  induction p generalizing s with
  | done a => rfl
  | read k ih => exact ih s
  | write s' k ih => exact ih
  | wait k ih => exact and_congr_right fun _ => forall₂_congr fun s' _ => forall_congr' fun i => ih i

theorem Keeps.mono {I' : σ → Prop} (hI : ∀ s, I s → I' s) {Q Q' : α → σ → Prop}
    (hQ : ∀ a s, Q a s → Q' a s) {p : Async σ ι α} {s : σ} (h : p.Keeps R I Q s) : p.Keeps R I' Q' s := by
  induction p generalizing s with
  | done a => exact hQ a s h
  | read k ih => exact ih s h
  | write s' k ih => exact ih h
  | wait k ih => exact ⟨hI s h.1, fun s' hs' i => ih i (h.2 s' hs' i)⟩

/-- At its next wait the function has kept `I`, and goes on to keep it. -/
theorem Keeps.advance {Q : α → σ → Prop} {p : Async σ ι α} {s : σ} (h : p.Keeps R I Q s) :
    (∃ a, (p.advance s).2 = done a ∧ Q a (p.advance s).1) ∨
      ∃ k, (p.advance s).2 = wait k ∧ I (p.advance s).1 ∧
        ∀ s', R (p.advance s).1 s' → ∀ i, (k i).Keeps R I Q s' := by
  induction p generalizing s with
  | done a => exact .inl ⟨a, rfl, h⟩
  | read k ih => exact ih s h
  | write s' k ih => exact ih h
  | wait k ih => exact .inr ⟨k, rfl, h.1, h.2⟩

/-- The postcondition of a function that may throw. -/
def Ends (Q : α → σ → Prop) (E : ε → σ → Prop) : Except ε α → σ → Prop
  | .ok a => Q a
  | .error e => E e

theorem keeps_run_bind {Q : β → σ → Prop} {E : ε → σ → Prop} {p : ExceptT ε (Async σ ι) α}
    {f : α → ExceptT ε (Async σ ι) β} {s : σ} :
    (p >>= f).run.Keeps R I (Ends Q E) s ↔
      p.run.Keeps R I (Ends (fun a => (f a).run.Keeps R I (Ends Q E)) E) s := by
  rw [ExceptT.run_bind, keeps_bind]
  refine iff_of_eq (congrArg (fun Q => p.run.Keeps R I Q s) ?_)
  funext r s'
  cases r with
  | ok a => rfl
  | error e => rfl

end Async

/-- A call that has not started, runs, or has returned. -/
inductive Call (κ σ ι α : Type)
  | ready (c : κ)
  | running (c : κ) (p : Async σ ι α)
  | returned (c : κ) (a : α)

namespace Call

/-- After a stretch of a call. -/
def settle (c : κ) : Async σ ι α → Call κ σ ι α
  | .done a => returned c a
  | p => running c p

/-- The next stretch of a call, up to its next wait. -/
def step (body : κ → ι → Async σ ι α) (s : σ) : Call κ σ ι α → ι → σ × Call κ σ ι α
  | ready c, i => (((body c i).advance s).1, settle c ((body c i).advance s).2)
  | running c (.wait k), i => (((k i).advance s).1, settle c ((k i).advance s).2)
  | running c p, _ => (s, running c p)
  | returned c a, _ => (s, returned c a)

def Running : Call κ σ ι α → Prop
  | running _ _ => True
  | _ => False

end Call

/-- Calls that exclude each other: one that starts when the state is not busy keeps `I` on its
own, and one that starts when it is busy returns at once. -/
structure Exclusive (R : σ → σ → Prop) (I : σ → Prop) (busy : σ → Prop) (body : κ → ι → Async σ ι α) :
    Prop where
  refl : ∀ s, R s s
  trans : ∀ s₁ s₂ s₃, R s₁ s₂ → R s₂ s₃ → R s₁ s₃
  start : ∀ c i s, I s → ¬ busy s →
    (body c i).Keeps R (fun s => I s ∧ busy s) (fun _ s => I s ∧ ¬ busy s) s
  refused : ∀ c i s, I s → busy s →
    (body c i).Keeps R (fun _ => False) (fun _ s' => R s s' ∧ I s' ∧ busy s') s

namespace Exclusive

variable {R : σ → σ → Prop} {I busy : σ → Prop} {body : κ → ι → Async σ ι α}

/-- What a running call is ready for. -/
def Waits (R : σ → σ → Prop) (I busy : σ → Prop) (s : σ) : Call κ σ ι α → Prop
  | .running _ p => busy s ∧ ∃ k, p = .wait k ∧ ∀ s', R s s' → ∀ i,
      (k i).Keeps R (fun s => I s ∧ busy s) (fun _ s => I s ∧ ¬ busy s) s'
  | _ => True

theorem waits_settle {c : κ} {p : Async σ ι α} {s : σ}
    (h : p.Keeps R (fun s => I s ∧ busy s) (fun _ s => I s ∧ ¬ busy s) s) :
    I (p.advance s).1 ∧ Waits R I busy (p.advance s).1 (Call.settle c (p.advance s).2) := by
  rcases h.advance with ⟨a, ha, hI, _⟩ | ⟨k, hk, ⟨hI, hbusy⟩, hrest⟩
  · exact ⟨hI, ha ▸ trivial⟩
  · rw [hk]
    exact ⟨hI, hbusy, k, rfl, hrest⟩

theorem waits_of_not_running {c : Call κ σ ι α} (h : ¬ c.Running) (s : σ) : Waits R I busy s c := by
  cases c with
  | running c p => exact absurd trivial h
  | ready c => trivial
  | returned c a => trivial

/-- No two calls run at once. -/
def Apart (p q : Call κ σ ι α) : Prop := ¬ (p.Running ∧ q.Running)

theorem step (h : Exclusive R I busy body) {s : Pool σ (Call κ σ ι α)}
    (hs : s.PairInv I (Waits R I busy) Apart) (ia : ℕ × ι) :
    (s.step (Call.step body) ia).PairInv I (Waits R I busy) Apart := by
  obtain ⟨i, a⟩ := ia
  refine hs.step (fun p q hpq hqp => hpq hqp.symm) fun p hp hwaits => ?_
  cases p with
  | ready c =>
      by_cases hbusy : busy s.shared
      · -- a refused call does not wait
        obtain ⟨r, hdone, hR, hI, hbusy'⟩ := (h.refused c a s.shared hs.shared hbusy).advance.resolve_right
          fun ⟨_, _, hfalse, _⟩ => hfalse
        simp only [Call.step, hdone, Call.settle]
        refine ⟨hI, trivial, fun q _ hq => ⟨?_, fun hrunning => hrunning.1⟩⟩
        cases q with
        | running d p =>
            obtain ⟨_, k, hk, hrest⟩ := hq
            exact ⟨hbusy', k, hk, fun s'' hs'' => hrest s'' (h.trans _ _ _ hR hs'')⟩
        | ready d => trivial
        | returned d a => trivial
      · obtain ⟨hI, hself⟩ := waits_settle (c := c) (h.start c a s.shared hs.shared hbusy)
        refine ⟨hI, hself, fun q _ hq => ?_⟩
        have hidle : ¬ q.Running := by
          cases q with
          | running d p => exact absurd hq.1 hbusy
          | ready d => exact id
          | returned d a => exact id
        exact ⟨waits_of_not_running hidle _, fun hrunning => hidle hrunning.2⟩
  | running c p =>
      obtain ⟨_, k, rfl, hrest⟩ := hwaits
      obtain ⟨hI, hself⟩ := waits_settle (c := c) (hrest s.shared (h.refl _) a)
      refine ⟨hI, hself, fun q hpq _ => ?_⟩
      have hidle : ¬ q.Running := fun hq => hpq ⟨trivial, hq⟩
      exact ⟨waits_of_not_running hidle _, fun hrunning => hidle hrunning.2⟩
  | returned c r => exact ⟨hs.shared, trivial, fun q hpq hq => ⟨hq, hpq⟩⟩

/-- Calls that exclude each other keep `I` in every order of their stretches. -/
theorem inv (h : Exclusive R I busy body) {s : σ} (hs : I s) (calls : List κ) (schedule : List (ℕ × ι)) :
    I (run (Pool.step (Call.step body)) ⟨s, calls.map .ready⟩ schedule).shared := by
  have hinv : (run (Pool.step (Call.step body)) ⟨s, calls.map .ready⟩ schedule).PairInv I
      (Waits R I busy) Apart := by
    induction schedule using List.reverseRecOn with
    | nil =>
        have hready : ∀ q ∈ calls.map (Call.ready (σ := σ) (ι := ι) (α := α)), ¬ q.Running := by
          intro q hq
          obtain ⟨c, _, rfl⟩ := List.mem_map.mp hq
          exact id
        refine ⟨⟨hs, fun q hq => waits_of_not_running (hready q hq) _⟩, fun i j p q _ hp _ hrunning => ?_⟩
        exact hready p (List.mem_of_getElem? hp) hrunning.1
    | append_singleton schedule ia ih =>
        rw [run_concat]
        exact h.step ih ia
  exact hinv.shared

end Exclusive

end Transition
