import Scrumboy.Voice.Text
import Mathlib.Tactic.Ring

/-!
# Spoken numbers

A number that was spoken is read word by word: small numbers and tens are added, hundreds and
thousands multiply what came before. So the loop gives numbers to runs of number words that are
no number of English.
-/

set_option linter.dupNamespace false

namespace Scrumboy

open Go

structure ParsedNumber where
  value : ℕ
  ambiguous : Bool
  deriving DecidableEq, Repr

def smallNumbers : List (String × ℕ) :=
  [("zero", 0), ("oh", 0), ("one", 1), ("two", 2), ("three", 3), ("four", 4), ("five", 5), ("six", 6),
    ("seven", 7), ("eight", 8), ("nine", 9), ("ten", 10), ("eleven", 11), ("twelve", 12), ("thirteen", 13),
    ("fourteen", 14), ("fifteen", 15), ("sixteen", 16), ("seventeen", 17), ("eighteen", 18), ("nineteen", 19)]

def tensNumbers : List (String × ℕ) :=
  [("twenty", 20), ("thirty", 30), ("forty", 40), ("fourty", 40), ("fifty", 50), ("sixty", 60),
    ("seventy", 70), ("eighty", 80), ("ninety", 90)]

def smallNumber (token : String) : Option ℕ := smallNumbers.lookup token

def tensNumber (token : String) : Option ℕ := tensNumbers.lookup token

/-- The first token without a `#` in front of it. -/
def dropHash : List String → List String
  | [] => []
  | token :: tokens => (cutPrefix token "#").getD token :: tokens

def normalizeNumberPhrase (lib : TextPlatform) (input : String) : List String :=
  let tokens := dropHash ((splitSpaces (normalizePhrase lib input)).filter (· ≠ ""))
  let tokens := match tokens with
    | [] => []
    | token :: rest => if token = "number" ∨ token = "id" then rest else token :: rest
  (dropHash tokens).filter (· ≠ "")

/-- `Number.MAX_SAFE_INTEGER`. -/
def maxSafeInteger : ℕ := 2 ^ 53 - 1

/-- A number that is exact and positive. -/
def safeNumber (value : ℕ) (ambiguous : Bool) : Option ParsedNumber :=
  if 0 < value ∧ value ≤ maxSafeInteger then some ⟨value, ambiguous⟩ else none

/-- `/^\d+$/`. -/
def isDigits (l : List Char) : Bool := !l.isEmpty && l.all fun c => '0' ≤ c && c ≤ '9'

/-- The number that digits stand for. -/
def digitsValue (l : List Char) : ℕ := l.foldl (fun n c => n * 10 + (c.toNat - 48)) 0

/-- The digits of `/^#?\s*(\d+)$/`. -/
def matchDigits (trimmed : String) : Option (List Char) :=
  let l := match trimmed.toList with
    | '#' :: rest => rest
    | l => l
  if isDigits (l.dropWhile isScriptSpace) then some (l.dropWhile isScriptSpace) else none

structure NumberLoop where
  total : ℕ := 0
  current : ℕ := 0
  sawNumber : Bool := false

/-- One round of the loop, or a number that is refused. -/
def NumberLoop.step (s : NumberLoop) (token : String) : Option NumberLoop :=
  if token = "and" then some s
  else
    match smallNumber token with
    | some n => some { s with current := s.current + n, sawNumber := true }
    | none =>
        match tensNumber token with
        | some n => some { s with current := s.current + n, sawNumber := true }
        | none =>
            if token = "hundred" then
              if s.current = 0 then none else some { s with current := s.current * 100, sawNumber := true }
            else if token = "thousand" then
              if s.current = 0 then none
              else some { total := s.total + s.current * 1000, current := 0, sawNumber := true }
            else none

def isDigitWord (token : String) : Bool := (smallNumber token).any (· ≤ 9)

/-- The digits of the words behind one another. -/
def joinedDigits (tokens : List String) : ℕ :=
  tokens.foldl (fun n token => n * 10 + (smallNumber token).getD 0) 0

def parseNumberWords (tokens : List String) : Option ParsedNumber :=
  if tokens.all isDigitWord then safeNumber (joinedDigits tokens) (tokens.length != 1)
  else (tokens.foldlM NumberLoop.step {}).bind fun s =>
    if s.sawNumber then safeNumber (s.total + s.current) false else none

def parseSpokenNumber (lib : TextPlatform) (input : String) : Option ParsedNumber :=
  let trimmed := trimScript input
  match matchDigits trimmed with
  | some digits => safeNumber (digitsValue digits) false
  | none =>
      match normalizeNumberPhrase lib trimmed with
      | [] => none
      | [token] =>
          if isDigits token.toList then safeNumber (digitsValue token.toList) false
          else parseNumberWords [token]
      | tokens => parseNumberWords tokens

/-! ## Numbers of English -/

/-- A number below a hundred, with its words. -/
inductive BelowHundred : ℕ → List String → Prop
  | small {n : ℕ} {w : String} (h : smallNumber w = some n) (hpos : 0 < n) : BelowHundred n [w]
  | tens {n : ℕ} {w : String} (h : tensNumber w = some n) : BelowHundred n [w]
  | both {n m : ℕ} {w v : String} (h : tensNumber w = some n) (h' : smallNumber v = some m) (hpos : 0 < m)
      (hdigit : m ≤ 9) : BelowHundred (n + m) [w, v]

/-- A number below a thousand; behind the hundreds there may be an `and`. -/
inductive BelowThousand : ℕ → List String → Prop
  | rest {n : ℕ} {ws : List String} (h : BelowHundred n ws) : BelowThousand n ws
  | hundreds {n : ℕ} {w : String} (h : smallNumber w = some n) (hpos : 0 < n) (hdigit : n ≤ 9) :
      BelowThousand (n * 100) [w, "hundred"]
  | both {n m : ℕ} {w : String} {ws : List String} (h : smallNumber w = some n) (hpos : 0 < n)
      (hdigit : n ≤ 9) (hrest : BelowHundred m ws) : BelowThousand (n * 100 + m) (w :: "hundred" :: ws)
  | bothAnd {n m : ℕ} {w : String} {ws : List String} (h : smallNumber w = some n) (hpos : 0 < n)
      (hdigit : n ≤ 9) (hrest : BelowHundred m ws) : BelowThousand (n * 100 + m) (w :: "hundred" :: "and" :: ws)

/-- A number below a million. -/
inductive Spells : ℕ → List String → Prop
  | rest {n : ℕ} {ws : List String} (h : BelowThousand n ws) : Spells n ws
  | thousands {n : ℕ} {ws : List String} (h : BelowThousand n ws) : Spells (n * 1000) (ws ++ ["thousand"])
  | both {n m : ℕ} {ws vs : List String} (h : BelowThousand n ws) (hrest : BelowThousand m vs) :
      Spells (n * 1000 + m) (ws ++ "thousand" :: vs)
  | bothAnd {n m : ℕ} {ws vs : List String} (h : BelowThousand n ws) (hrest : BelowHundred m vs) :
      Spells (n * 1000 + m) (ws ++ "thousand" :: "and" :: vs)

def IsDigitSequence (tokens : List String) : Prop := 2 ≤ tokens.length ∧ tokens.all isDigitWord = true

/-! ## What the loop adds up -/

/-- What a word adds; the words that multiply and `and` add nothing. -/
def wordValue (w : String) : ℕ := (smallNumber w).getD ((tensNumber w).getD 0)

def IsNumberWord (w : String) : Prop :=
  (smallNumber w).isSome = true ∨ (tensNumber w).isSome = true ∨ w = "and" ∨ w = "hundred" ∨ w = "thousand"

/-- What the words behind a word multiply it by: the hundreds before the next thousand, and once a
thousand. -/
def wordWeight (rest : List String) : ℕ :=
  100 ^ (rest.takeWhile (· ≠ "thousand")).count "hundred" * if "thousand" ∈ rest then 1000 else 1

def placeValue : List String → ℕ
  | [] => 0
  | w :: ws => wordValue w * wordWeight ws + placeValue ws

/-- Number words that add up to a number, in whatever order they are: each hundred and each
thousand has something to multiply, since the last thousand. -/
structure AddsUp (tokens : List String) : Prop where
  known : ∀ w ∈ tokens, IsNumberWord w
  backed : ∀ before w after, tokens = before ++ w :: after → w = "hundred" ∨ w = "thousand" →
    ∃ v ∈ before.rtakeWhile (· ≠ "thousand"), 0 < wordValue v
  positive : 0 < placeValue tokens
  exact : placeValue tokens ≤ maxSafeInteger

section

variable {w : String} {ws : List String} {s s' : NumberLoop} {n : ℕ}

theorem mem_of_lookup {l : List (String × ℕ)} (h : l.lookup w = some n) : (w, n) ∈ l := by
  induction l with
  | nil => cases h
  | cons p l ih =>
      rw [List.lookup_cons] at h
      split at h
      · next heq =>
        rw [beq_iff_eq.mp heq, ← Option.some.inj h]
        exact List.mem_cons_self
      · exact List.mem_cons_of_mem p (ih h)

/-- The words that are no numbers. -/
theorem lookup_other_word (h : w = "and" ∨ w = "hundred" ∨ w = "thousand") :
    smallNumber w = none ∧ tensNumber w = none := by
  rcases h with rfl | rfl | rfl <;> decide +kernel

theorem small_of_tens (h : tensNumber w = some n) : smallNumber w = none := by
  have hnone : ∀ p ∈ tensNumbers, smallNumber p.1 = none := by decide +kernel
  exact hnone _ (mem_of_lookup h)

/-- A word that adds something. -/
structure Adds (w : String) (n : ℕ) : Prop where
  value : wordValue w = n
  known : IsNumberWord w
  other : ¬ (w = "and" ∨ w = "hundred" ∨ w = "thousand")
  step : ∀ s : NumberLoop, s.step w = some { s with current := s.current + n, sawNumber := true }

theorem adds_of_small (h : smallNumber w = some n) : Adds w n where
  value := by rw [wordValue, h, Option.getD_some]
  known := .inl (by rw [h, Option.isSome_some])
  other := fun hw => by simp [(lookup_other_word hw).1] at h
  step s := by
    have hand : w ≠ "and" := fun hw => by simp [(lookup_other_word (.inl hw)).1] at h
    rw [NumberLoop.step, if_neg hand, h]

theorem adds_of_tens (h : tensNumber w = some n) : Adds w n where
  value := by rw [wordValue, small_of_tens h, h, Option.getD_none, Option.getD_some]
  known := .inr (.inl (by rw [h, Option.isSome_some]))
  other := fun hw => by simp [(lookup_other_word hw).2] at h
  step s := by
    have hand : w ≠ "and" := fun hw => by simp [(lookup_other_word (.inl hw)).2] at h
    rw [NumberLoop.step, if_neg hand, small_of_tens h, h]

theorem step_and (s : NumberLoop) : s.step "and" = some s := if_pos rfl

theorem step_hundred (s : NumberLoop) : s.step "hundred" =
    if s.current = 0 then none else some { s with current := s.current * 100, sawNumber := true } := by
  obtain ⟨hsmall, htens⟩ := lookup_other_word (.inr (.inl rfl))
  simp [NumberLoop.step, hsmall, htens]

theorem step_thousand (s : NumberLoop) : s.step "thousand" = if s.current = 0 then none else
    some { total := s.total + s.current * 1000, current := 0, sawNumber := true } := by
  obtain ⟨hsmall, htens⟩ := lookup_other_word (.inr (.inr rfl))
  simp [NumberLoop.step, hsmall, htens]

/-- The words that the loop knows, and what it does with the others. -/
theorem word_cases (w : String) : (∃ n, Adds w n) ∨ w = "and" ∨ w = "hundred" ∨ w = "thousand" ∨
    (¬ IsNumberWord w ∧ ∀ s : NumberLoop, s.step w = none) := by
  cases hsmall : smallNumber w with
  | some n => exact .inl ⟨n, adds_of_small hsmall⟩
  | none =>
      cases htens : tensNumber w with
      | some n => exact .inl ⟨n, adds_of_tens htens⟩
      | none =>
          by_cases hand : w = "and"
          · exact .inr (.inl hand)
          by_cases hhundred : w = "hundred"
          · exact .inr (.inr (.inl hhundred))
          by_cases hthousand : w = "thousand"
          · exact .inr (.inr (.inr (.inl hthousand)))
          refine .inr (.inr (.inr (.inr ⟨?_, fun s => ?_⟩)))
          · simp [IsNumberWord, hsmall, htens, hand, hhundred, hthousand]
          · simp [NumberLoop.step, hsmall, htens, hand, hhundred, hthousand]

theorem value_other_word (h : w = "and" ∨ w = "hundred" ∨ w = "thousand") : wordValue w = 0 := by
  rw [wordValue, (lookup_other_word h).1, (lookup_other_word h).2]
  rfl

theorem wordWeight_thousand (ws : List String) : wordWeight ("thousand" :: ws) = 1000 := by
  simp [wordWeight]

theorem wordWeight_hundred (ws : List String) : wordWeight ("hundred" :: ws) = 100 * wordWeight ws := by
  have hmem : "thousand" ∈ "hundred" :: ws ↔ "thousand" ∈ ws := by simp
  have hcount : (("hundred" :: ws).takeWhile (· ≠ "thousand")).count "hundred" =
      (ws.takeWhile (· ≠ "thousand")).count "hundred" + 1 := by simp
  simp only [wordWeight, hcount, hmem, pow_succ]
  ring

theorem wordWeight_other (hhundred : w ≠ "hundred") (hthousand : w ≠ "thousand") (ws : List String) :
    wordWeight (w :: ws) = wordWeight ws := by
  have hmem : "thousand" ∈ w :: ws ↔ "thousand" ∈ ws := by
    rw [List.mem_cons, or_iff_right (Ne.symm hthousand)]
  simp [wordWeight, hthousand, hhundred, hmem]

/-- Each hundred and thousand has something to multiply: what was there before, if no thousand came
since, or a word before it. -/
def BackedFrom (begun : Prop) (ws : List String) : Prop :=
  ∀ before w after, ws = before ++ w :: after → w = "hundred" ∨ w = "thousand" →
    (begun ∧ "thousand" ∉ before) ∨ ∃ v ∈ before.rtakeWhile (· ≠ "thousand"), 0 < wordValue v

theorem rtakeWhile_cons_exists {before : List String} :
    (∃ v ∈ (w :: before).rtakeWhile (· ≠ "thousand"), 0 < wordValue v) ↔
      (0 < wordValue w ∧ "thousand" ∉ before) ∨ ∃ v ∈ before.rtakeWhile (· ≠ "thousand"), 0 < wordValue v := by
  induction before using List.reverseRecOn with
  | nil =>
      by_cases hw : w = "thousand"
      · simp [hw, List.rtakeWhile, value_other_word]
      · simp [hw, List.rtakeWhile]
  | append_singleton before u ih =>
      by_cases hu : u = "thousand"
      · subst hu
        rw [← List.cons_append, List.rtakeWhile_concat_neg _ _ _ (by simp),
          List.rtakeWhile_concat_neg _ _ _ (by simp)]
        simp
      · rw [← List.cons_append, List.rtakeWhile_concat_pos _ _ _ (by simpa using hu),
          List.rtakeWhile_concat_pos _ _ _ (by simpa using hu)]
        have hu' : ¬ "thousand" = u := Ne.symm hu
        simp only [List.mem_append, List.mem_singleton, or_and_right, exists_or, exists_eq_left, ih, not_or, hu',
          not_false_eq_true, and_true, or_assoc]

theorem backedFrom_cons {begun : Prop} : BackedFrom begun (w :: ws) ↔
    (w = "hundred" ∨ w = "thousand" → begun) ∧ BackedFrom (w ≠ "thousand" ∧ (begun ∨ 0 < wordValue w)) ws := by
  constructor
  · intro h
    refine ⟨fun hw => ?_, ?_⟩
    · rcases h [] w ws rfl hw with ⟨hopen, _⟩ | ⟨v, hv, _⟩
      · exact hopen
      · cases hv
    · rintro before v after rfl hv
      rcases h (w :: before) v after rfl hv with ⟨hopen, hno⟩ | hbacked
      · rw [List.mem_cons, not_or] at hno
        exact .inl ⟨⟨Ne.symm hno.1, .inl hopen⟩, hno.2⟩
      · rcases rtakeWhile_cons_exists.mp hbacked with ⟨hpos, hno⟩ | hbacked
        · have hw : w ≠ "thousand" := by
            rintro rfl
            rw [value_other_word (.inr (.inr rfl))] at hpos
            exact absurd hpos (lt_irrefl 0)
          exact .inl ⟨⟨hw, .inr hpos⟩, hno⟩
        · exact .inr hbacked
  · rintro ⟨hfirst, hrest⟩ before v after heq hv
    cases before with
    | nil =>
        obtain ⟨rfl, rfl⟩ := List.cons.inj heq
        exact .inl ⟨hfirst hv, List.not_mem_nil⟩
    | cons u before =>
        obtain ⟨rfl, rfl⟩ := List.cons.inj heq
        rcases hrest before v after rfl hv with ⟨⟨hw, hopen | hpos⟩, hno⟩ | hbacked
        · exact .inl ⟨hopen, by simp [hno, Ne.symm hw]⟩
        · exact .inr (rtakeWhile_cons_exists.mpr (.inl ⟨hpos, hno⟩))
        · exact .inr (rtakeWhile_cons_exists.mpr (.inr hbacked))

theorem BackedFrom.congr {begun begun' : Prop} (h : begun ↔ begun') : BackedFrom begun ws ↔ BackedFrom begun' ws := by
  rw [propext h]

/-- The loop ends if it knows the words and has something to multiply. -/
theorem loop_ends_iff : (∃ s', ws.foldlM NumberLoop.step s = some s') ↔
    (∀ w ∈ ws, IsNumberWord w) ∧ BackedFrom (s.current ≠ 0) ws := by
  induction ws generalizing s with
  | nil =>
      refine iff_of_true ⟨s, rfl⟩ ⟨nofun, fun before w after h => ?_⟩
      exact absurd h.symm (by simp)
  | cons w ws ih =>
      rw [List.foldlM_cons, backedFrom_cons, List.forall_mem_cons]
      rcases word_cases w with ⟨n, hw⟩ | rfl | rfl | rfl | ⟨hunknown, hnone⟩
      · have hthousand : w ≠ "thousand" := fun h => hw.other (.inr (.inr h))
        have hstep : s.step w >>= (fun s' => ws.foldlM NumberLoop.step s') =
            ws.foldlM NumberLoop.step { s with current := s.current + n, sawNumber := true } := by
          rw [hw.step]
          rfl
        have hbegun : s.current + n ≠ 0 ↔ w ≠ "thousand" ∧ (s.current ≠ 0 ∨ 0 < wordValue w) := by
          rw [and_iff_right hthousand, hw.value]
          omega
        rw [hstep, ih, BackedFrom.congr hbegun, and_iff_right hw.known,
          and_iff_right (fun h => absurd (.inr h) hw.other)]
      · have hbegun : s.current ≠ 0 ↔ "and" ≠ "thousand" ∧ (s.current ≠ 0 ∨ 0 < wordValue "and") := by
          simp [value_other_word]
        have hknown : IsNumberWord "and" := .inr (.inr (.inl rfl))
        have hother : "and" = "hundred" ∨ "and" = "thousand" → s.current ≠ 0 := fun h => absurd h (by simp)
        rw [step_and, ← BackedFrom.congr hbegun, and_iff_right hknown, and_iff_right hother]
        exact ih
      · have hknown : IsNumberWord "hundred" := .inr (.inr (.inr (.inl rfl)))
        rw [step_hundred, and_iff_right hknown]
        by_cases hzero : s.current = 0
        · simp [hzero]
        · have hbegun : s.current * 100 ≠ 0 ↔
              "hundred" ≠ "thousand" ∧ (s.current ≠ 0 ∨ 0 < wordValue "hundred") := by
            simp [value_other_word]
          rw [if_neg hzero, ← BackedFrom.congr hbegun, and_iff_right fun _ => hzero]
          exact ih
      · have hknown : IsNumberWord "thousand" := .inr (.inr (.inr (.inr rfl)))
        rw [step_thousand, and_iff_right hknown]
        by_cases hzero : s.current = 0
        · simp [hzero]
        · have hbegun : (0 : ℕ) ≠ 0 ↔
              "thousand" ≠ "thousand" ∧ (s.current ≠ 0 ∨ 0 < wordValue "thousand") := by simp
          rw [if_neg hzero, ← BackedFrom.congr hbegun, and_iff_right fun _ => hzero]
          exact ih
      · rw [hnone]
        refine iff_of_false ?_ fun h => hunknown h.1.1
        rintro ⟨s', h⟩
        cases h

theorem loop_value (h : ws.foldlM NumberLoop.step s = some s') :
    s'.total + s'.current = s.total + s.current * wordWeight ws + placeValue ws := by
  induction ws generalizing s with
  | nil =>
      obtain rfl := Option.some.inj h
      simp [wordWeight, placeValue]
  | cons w ws ih =>
      rw [List.foldlM_cons, Option.bind_eq_bind, Option.bind_eq_some_iff] at h
      obtain ⟨s₁, hstep, hrest⟩ := h
      rw [ih hrest, placeValue]
      rcases word_cases w with ⟨n, hw⟩ | rfl | rfl | rfl | ⟨_, hnone⟩
      · rw [hw.step] at hstep
        obtain rfl := Option.some.inj hstep
        rw [hw.value, wordWeight_other (fun h => hw.other (.inr (.inl h))) fun h => hw.other (.inr (.inr h))]
        dsimp only
        ring
      · rw [step_and] at hstep
        obtain rfl := Option.some.inj hstep
        rw [value_other_word (.inl rfl), wordWeight_other (by simp) (by simp)]
        ring
      · rw [step_hundred] at hstep
        split at hstep
        · cases hstep
        · obtain rfl := Option.some.inj hstep
          rw [value_other_word (.inr (.inl rfl)), wordWeight_hundred]
          dsimp only
          ring
      · rw [step_thousand] at hstep
        split at hstep
        · cases hstep
        · obtain rfl := Option.some.inj hstep
          rw [value_other_word (.inr (.inr rfl)), wordWeight_thousand]
          dsimp only
          ring
      · rw [hnone] at hstep
        cases hstep

/-- Where no number was seen nothing was added. -/
theorem loop_sawNumber (h : ws.foldlM NumberLoop.step s = some s') (hsaw : s'.sawNumber = false) : s' = s := by
  induction ws generalizing s with
  | nil => exact (Option.some.inj h).symm
  | cons w ws ih =>
      rw [List.foldlM_cons, Option.bind_eq_bind, Option.bind_eq_some_iff] at h
      obtain ⟨s₁, hstep, hrest⟩ := h
      obtain rfl := ih hrest
      rcases word_cases w with ⟨n, hw⟩ | rfl | rfl | rfl | ⟨_, hnone⟩
      · rw [hw.step] at hstep
        obtain rfl := Option.some.inj hstep
        cases hsaw
      · exact Option.some.inj (step_and s ▸ hstep).symm
      · rw [step_hundred] at hstep
        split at hstep
        · cases hstep
        · obtain rfl := Option.some.inj hstep
          cases hsaw
      · rw [step_thousand] at hstep
        split at hstep
        · cases hstep
        · obtain rfl := Option.some.inj hstep
          cases hsaw
      · rw [hnone] at hstep
        cases hstep

/-- The loop gives a value to the words that add up to one, and only to these. -/
theorem loop_result_iff {r : ParsedNumber} :
    ((ws.foldlM NumberLoop.step {}).bind fun s => if s.sawNumber then safeNumber (s.total + s.current) false
      else none) = some r ↔ AddsUp ws ∧ r = ⟨placeValue ws, false⟩ := by
  have hvalue : ∀ s', ws.foldlM NumberLoop.step {} = some s' → s'.total + s'.current = placeValue ws := by
    intro s' h
    have hsum := loop_value h
    simpa using hsum
  constructor
  · intro h
    obtain ⟨s', hloop, hs'⟩ := Option.bind_eq_some_iff.mp h
    obtain ⟨hknown, hbacked⟩ := loop_ends_iff.mp ⟨s', hloop⟩
    split at hs'
    · rw [hvalue s' hloop, safeNumber] at hs'
      split at hs'
      · next hsafe =>
        refine ⟨⟨hknown, fun before w after heq hw => ?_, hsafe.1, hsafe.2⟩, (Option.some.inj hs').symm⟩
        exact (hbacked before w after heq hw).resolve_left fun h => h.1 rfl
      · cases hs'
    · cases hs'
  · rintro ⟨hadds, rfl⟩
    obtain ⟨s', hloop⟩ := loop_ends_iff.mpr ⟨hadds.known, fun before w after heq hw =>
      .inr (hadds.backed before w after heq hw)⟩
    have hsaw : s'.sawNumber = true := by
      by_contra hno
      have hsame := loop_sawNumber hloop (Bool.eq_false_iff.mpr hno)
      have hpos := hadds.positive
      rw [← hvalue s' hloop, hsame] at hpos
      exact absurd hpos (lt_irrefl 0)
    rw [hloop, Option.bind_some, if_pos hsaw, hvalue s' hloop, safeNumber, if_pos ⟨hadds.positive, hadds.exact⟩]

/-! ## What is said -/

theorem loop_of_belowHundred (h : BelowHundred n ws) (s : NumberLoop) :
    ws.foldlM NumberLoop.step s = some { s with current := s.current + n, sawNumber := true } := by
  cases h with
  | small h _ => simp [(adds_of_small h).step]
  | tens h => simp [(adds_of_tens h).step]
  | both h h' _ _ => simp [(adds_of_tens h).step, (adds_of_small h').step, Nat.add_assoc]

theorem loop_of_belowThousand (h : BelowThousand n ws) (hs : s.current = 0) :
    ws.foldlM NumberLoop.step s = some { s with current := n, sawNumber := true } := by
  cases h with
  | rest h => rw [loop_of_belowHundred h, hs, Nat.zero_add]
  | hundreds h hpos _ =>
      simp [(adds_of_small h).step, step_hundred, hs, hpos.ne']
  | both h hpos _ hrest =>
      simp [(adds_of_small h).step, step_hundred, hs, hpos.ne', loop_of_belowHundred hrest]
  | bothAnd h hpos _ hrest =>
      simp [(adds_of_small h).step, step_hundred, step_and, hs, hpos.ne', loop_of_belowHundred hrest]

theorem small_le (h : smallNumber w = some n) : n ≤ 19 := by
  have hall : ∀ p ∈ smallNumbers, p.2 ≤ 19 := by decide
  exact hall _ (mem_of_lookup h)

theorem tens_bounds (h : tensNumber w = some n) : 0 < n ∧ n ≤ 90 := by
  have hall : ∀ p ∈ tensNumbers, 0 < p.2 ∧ p.2 ≤ 90 := by decide
  exact hall _ (mem_of_lookup h)

theorem BelowHundred.bounds (h : BelowHundred n ws) : 0 < n ∧ n < 100 := by
  cases h with
  | small h hpos =>
      have hle := small_le h
      omega
  | tens h =>
      have hbounds := tens_bounds h
      omega
  | both h _ _ hdigit =>
      have hbounds := tens_bounds h
      omega

theorem BelowThousand.bounds (h : BelowThousand n ws) : 0 < n ∧ n < 1000 := by
  cases h with
  | rest h =>
      have hbounds := h.bounds
      omega
  | hundreds _ hpos hdigit => omega
  | both _ hpos hdigit hrest =>
      have hbounds := hrest.bounds
      omega
  | bothAnd _ hpos hdigit hrest =>
      have hbounds := hrest.bounds
      omega

theorem Spells.bounds (h : Spells n ws) : 0 < n ∧ n ≤ 999999 := by
  cases h with
  | rest h =>
      have hbounds := h.bounds
      omega
  | thousands h =>
      have hbounds := h.bounds
      omega
  | both h hrest =>
      have hbounds := h.bounds
      have hrest := hrest.bounds
      omega
  | bothAnd h hrest =>
      have hbounds := h.bounds
      have hrest := hrest.bounds
      omega

theorem loop_of_spells (h : Spells n ws) : ∃ total current,
    ws.foldlM NumberLoop.step {} = some ⟨total, current, true⟩ ∧ total + current = n := by
  cases h with
  | rest h => exact ⟨0, n, loop_of_belowThousand h rfl, Nat.zero_add n⟩
  | thousands h =>
      refine ⟨_, 0, ?_, Nat.add_zero _⟩
      rw [List.foldlM_append, loop_of_belowThousand h rfl]
      simp [step_thousand, h.bounds.1.ne']
  | both h hrest =>
      refine ⟨_, _, ?_, rfl⟩
      rw [List.foldlM_append, loop_of_belowThousand h rfl]
      simp [step_thousand, h.bounds.1.ne', loop_of_belowThousand hrest]
  | bothAnd h hrest =>
      refine ⟨_, _, ?_, rfl⟩
      rw [List.foldlM_append, loop_of_belowThousand h rfl]
      simp [step_thousand, step_and, h.bounds.1.ne', loop_of_belowHundred hrest]

theorem not_digitWord (h : smallNumber w = none) : isDigitWord w = false := by
  rw [isDigitWord, h]
  rfl

theorem not_digitWord_hundred : isDigitWord "hundred" = false :=
  not_digitWord (lookup_other_word (.inr (.inl rfl))).1

theorem not_digitWord_thousand : isDigitWord "thousand" = false :=
  not_digitWord (lookup_other_word (.inr (.inr rfl))).1

theorem not_digitWord_tens (h : tensNumber w = some n) : isDigitWord w = false := not_digitWord (small_of_tens h)

/-- A spelling of digit words is one word. -/
theorem digitWord_of_spells (h : Spells n ws) (hall : ws.all isDigitWord = true) :
    ∃ w, ws = [w] ∧ smallNumber w = some n := by
  have hhundred : ∀ {w : String} {vs : List String}, (w :: "hundred" :: vs).all isDigitWord = false := by
    simp [not_digitWord_hundred]
  have hthousand : ∀ {us vs : List String}, (us ++ "thousand" :: vs).all isDigitWord = false := by
    simp [not_digitWord_thousand]
  cases h with
  | rest h =>
      cases h with
      | rest h =>
          cases h with
          | small h _ => exact ⟨_, rfl, h⟩
          | tens h => simp [not_digitWord_tens h] at hall
          | both h _ _ _ => simp [not_digitWord_tens h] at hall
      | hundreds _ _ _ => exact absurd hall (by rw [hhundred]; exact Bool.false_ne_true)
      | both _ _ _ _ => exact absurd hall (by rw [hhundred]; exact Bool.false_ne_true)
      | bothAnd _ _ _ _ => exact absurd hall (by rw [hhundred]; exact Bool.false_ne_true)
  | thousands _ => exact absurd hall (by rw [hthousand]; exact Bool.false_ne_true)
  | both _ _ => exact absurd hall (by rw [hthousand]; exact Bool.false_ne_true)
  | bothAnd _ _ => exact absurd hall (by rw [hthousand]; exact Bool.false_ne_true)

theorem parseNumberWords_of_spells (h : Spells n ws) : parseNumberWords ws = some ⟨n, false⟩ := by
  have hsafe : 0 < n ∧ n ≤ maxSafeInteger := by
    have hbounds := h.bounds
    rw [maxSafeInteger]
    omega
  unfold parseNumberWords
  split
  · next hall =>
    obtain ⟨w, rfl, hw⟩ := digitWord_of_spells h hall
    simp [joinedDigits, hw, safeNumber, hsafe]
  · obtain ⟨total, current, hloop, hsum⟩ := loop_of_spells h
    rw [hloop, Option.bind_some]
    simp [hsum, safeNumber, hsafe]

end

/-! ## The parser -/

/-- The words of a text from which a number is read. -/
def numberWords (lib : TextPlatform) (input : String) : List String :=
  normalizeNumberPhrase lib (trimScript input)

/-- The text is a numeral, or a word of it is. -/
def WrittenInDigits (lib : TextPlatform) (input : String) : Prop :=
  (matchDigits (trimScript input)).isSome = true ∨ ∃ w ∈ numberWords lib input, isDigits w.toList = true

/-- A number that is spelled is read as it is, digits that are said one by one are read as the digits
that they are, and no other words are read as a number. -/
structure MeansWhatWasSaid (lib : TextPlatform) (input : String) : Prop where
  spelled : ∀ n, Spells n (numberWords lib input) → parseSpokenNumber lib input = some ⟨n, false⟩
  digits : IsDigitSequence (numberWords lib input) → parseSpokenNumber lib input = none ∨
    parseSpokenNumber lib input = some ⟨joinedDigits (numberWords lib input), true⟩
  other : (¬ ∃ n, Spells n (numberWords lib input)) → ¬ IsDigitSequence (numberWords lib input) →
    parseSpokenNumber lib input = none

section

variable {lib : TextPlatform} {input : String} {ws : List String}

theorem parseSpokenNumber_eq (h : ¬ WrittenInDigits lib input) :
    parseSpokenNumber lib input = parseNumberWords (numberWords lib input) := by
  rw [WrittenInDigits, not_or, Option.not_isSome_iff_eq_none] at h
  unfold parseSpokenNumber
  dsimp only
  rw [h.1]
  dsimp only
  rw [← numberWords]
  cases hwords : numberWords lib input with
  | nil => rfl
  | cons w ws =>
      cases ws with
      | nil =>
          have hdigits : ¬ isDigits w.toList = true := fun hdigits =>
            h.2 ⟨w, by rw [hwords]; exact List.mem_cons_self, hdigits⟩
          exact if_neg hdigits
      | cons v vs => rfl

theorem parseNumberWords_of_digits (h : IsDigitSequence ws) :
    parseNumberWords ws = none ∨ parseNumberWords ws = some ⟨joinedDigits ws, true⟩ := by
  have hmany : (ws.length != 1) = true := by
    have hlength := h.1
    simp only [bne_iff_ne]
    omega
  rw [parseNumberWords, if_pos h.2, hmany, safeNumber]
  split_ifs
  · exact .inr rfl
  · exact .inl rfl

/-- Other words are given a value if and only if they add up. -/
theorem parseNumberWords_eq_none_iff (hspells : ¬ ∃ n, Spells n ws) (hdigits : ¬ IsDigitSequence ws) :
    parseNumberWords ws = none ↔ ¬ AddsUp ws := by
  unfold parseNumberWords
  split
  · next hall =>
    -- no word, or a zero
    have hzero : joinedDigits ws = 0 := by
      cases ws with
      | nil => rfl
      | cons w ws =>
          cases ws with
          | nil =>
              cases hw : smallNumber w with
              | none => simp [isDigitWord, hw] at hall
              | some n =>
                  by_contra hpos
                  have hjoined : joinedDigits [w] = n := by simp [joinedDigits, hw]
                  rw [hjoined] at hpos
                  exact hspells ⟨n, .rest (.rest (.small hw (Nat.pos_of_ne_zero hpos)))⟩
          | cons v vs => exact absurd ⟨by simp, hall⟩ hdigits
    have hnot : ¬ AddsUp ws := by
      intro hadds
      cases ws with
      | nil => exact absurd hadds.positive (lt_irrefl 0)
      | cons w ws =>
          cases ws with
          | nil =>
              cases hw : smallNumber w with
              | none => simp [isDigitWord, hw] at hall
              | some n =>
                  have hjoined : joinedDigits [w] = n := by simp [joinedDigits, hw]
                  have hpos := hadds.positive
                  rw [placeValue, placeValue, (adds_of_small hw).value, ← hjoined, hzero, Nat.zero_mul] at hpos
                  exact absurd hpos (lt_irrefl 0)
          | cons v vs => exact absurd ⟨by simp, hall⟩ hdigits
    rw [hzero, safeNumber, if_neg fun h => absurd h.1 (lt_irrefl 0)]
    exact iff_of_true rfl hnot
  · rw [Option.eq_none_iff_forall_ne_some]
    constructor
    · intro hno hadds
      exact hno _ (loop_result_iff.mpr ⟨hadds, rfl⟩)
    · intro hno r hr
      exact hno (loop_result_iff.mp hr).1

/-- A text that is not written in digits is read as what it says, unless its words add up and are
neither a number nor digits. -/
theorem means_what_was_said_iff (h : ¬ WrittenInDigits lib input) : MeansWhatWasSaid lib input ↔
    ¬ (AddsUp (numberWords lib input) ∧ (¬ ∃ n, Spells n (numberWords lib input)) ∧
      ¬ IsDigitSequence (numberWords lib input)) := by
  have hparse := parseSpokenNumber_eq h
  constructor
  · rintro hmeans ⟨hadds, hspells, hdigits⟩
    have hnone := hmeans.other hspells hdigits
    rw [hparse, parseNumberWords_eq_none_iff hspells hdigits] at hnone
    exact hnone hadds
  · intro hnot
    refine ⟨fun n hspells => ?_, fun hdigits => ?_, fun hspells hdigits => ?_⟩
    · rw [hparse]
      exact parseNumberWords_of_spells hspells
    · rw [hparse]
      exact parseNumberWords_of_digits hdigits
    · rw [hparse, parseNumberWords_eq_none_iff hspells hdigits]
      exact fun hadds => hnot ⟨hadds, hspells, hdigits⟩

end

/-! ## Texts of a number -/

/-- The words with a space or a hyphen between any two. -/
inductive SaidAs : List String → List Char → Prop
  | one (w : String) : SaidAs [w] w.toList
  | cons (w : String) {c : Char} {ws : List String} {l : List Char} (hc : c = ' ' ∨ c = '-')
      (h : SaidAs ws l) : SaidAs (w :: ws) (w.toList ++ c :: l)

/-- A word of small letters. -/
def IsLetters (l : List Char) : Prop := l ≠ [] ∧ ∀ c ∈ l, 'a' ≤ c ∧ c ≤ 'z'

instance (l : List Char) : Decidable (IsLetters l) :=
  @instDecidableAnd _ _ _ (List.decidableBAll _ l)

def numberVocabulary : List String :=
  smallNumbers.map (·.1) ++ tensNumbers.map (·.1) ++ ["and", "hundred", "thousand"]

theorem isLetters_vocabulary : ∀ w ∈ numberVocabulary, IsLetters w.toList := by
  rw [← List.forall_mem_map (f := String.toList) (P := IsLetters)]
  simp only [numberVocabulary, smallNumbers, tensNumbers, List.map_cons, List.map_nil, List.cons_append,
    List.nil_append, String.reduceToList]
  decide +kernel

section

variable {w : String} {ws : List String} {n : ℕ}

theorem small_mem_vocabulary (h : smallNumber w = some n) : w ∈ numberVocabulary :=
  List.mem_append_left _ (List.mem_append_left _ (List.mem_map_of_mem (f := (·.1)) (mem_of_lookup h)))

theorem tens_mem_vocabulary (h : tensNumber w = some n) : w ∈ numberVocabulary :=
  List.mem_append_left _ (List.mem_append_right _ (List.mem_map_of_mem (f := (·.1)) (mem_of_lookup h)))

theorem other_mem_vocabulary (h : w ∈ ["and", "hundred", "thousand"]) : w ∈ numberVocabulary :=
  List.mem_append_right _ h

theorem BelowHundred.mem_vocabulary (h : BelowHundred n ws) : ∀ w ∈ ws, w ∈ numberVocabulary := by
  cases h with
  | small h _ => exact List.forall_mem_singleton.mpr (small_mem_vocabulary h)
  | tens h => exact List.forall_mem_singleton.mpr (tens_mem_vocabulary h)
  | both h h' _ _ =>
      exact List.forall_mem_cons.mpr ⟨tens_mem_vocabulary h, List.forall_mem_singleton.mpr (small_mem_vocabulary h')⟩

theorem BelowThousand.mem_vocabulary (h : BelowThousand n ws) : ∀ w ∈ ws, w ∈ numberVocabulary := by
  have hhundred : "hundred" ∈ numberVocabulary := other_mem_vocabulary (by simp)
  have hand : "and" ∈ numberVocabulary := other_mem_vocabulary (by simp)
  cases h with
  | rest h => exact h.mem_vocabulary
  | hundreds h _ _ => simp [small_mem_vocabulary h, hhundred]
  | both h _ _ hrest => simpa [small_mem_vocabulary h, hhundred] using hrest.mem_vocabulary
  | bothAnd h _ _ hrest => simpa [small_mem_vocabulary h, hhundred, hand] using hrest.mem_vocabulary

theorem Spells.mem_vocabulary (h : Spells n ws) : ∀ w ∈ ws, w ∈ numberVocabulary := by
  have hthousand : "thousand" ∈ numberVocabulary := other_mem_vocabulary (by simp)
  have hand : "and" ∈ numberVocabulary := other_mem_vocabulary (by simp)
  cases h with
  | rest h => exact h.mem_vocabulary
  | thousands h =>
      exact List.forall_mem_append.mpr ⟨h.mem_vocabulary, List.forall_mem_singleton.mpr hthousand⟩
  | both h hrest =>
      exact List.forall_mem_append.mpr ⟨h.mem_vocabulary, List.forall_mem_cons.mpr ⟨hthousand, hrest.mem_vocabulary⟩⟩
  | bothAnd h hrest =>
      exact List.forall_mem_append.mpr ⟨h.mem_vocabulary, List.forall_mem_cons.mpr
        ⟨hthousand, List.forall_mem_cons.mpr ⟨hand, hrest.mem_vocabulary⟩⟩⟩

theorem lookup_of_mem {l : List (String × ℕ)} (hnodup : (l.map (·.1)).Nodup) (h : (w, n) ∈ l) :
    l.lookup w = some n := by
  induction l with
  | nil => cases h
  | cons p l ih =>
      rw [List.map_cons, List.nodup_cons] at hnodup
      rcases List.mem_cons.mp h with rfl | h
      · simp
      · have hne : w ≠ p.1 := fun heq => hnodup.1 (heq ▸ List.mem_map_of_mem (f := (·.1)) h)
        rw [List.lookup_cons, beq_false_of_ne hne]
        exact ih hnodup.2 h

theorem smallNumber_of_mem (h : (w, n) ∈ smallNumbers) : smallNumber w = some n :=
  lookup_of_mem (by simp [smallNumbers]) h

theorem tensNumber_of_mem (h : (w, n) ∈ tensNumbers) : tensNumber w = some n :=
  lookup_of_mem (by simp [tensNumbers]) h

theorem exists_small {k : ℕ} (hpos : 0 < k) (hle : k ≤ 19) : ∃ w, smallNumber w = some k := by
  have hall : ∀ k < 20, 0 < k → ∃ p ∈ smallNumbers, p.2 = k := by decide
  obtain ⟨p, hp, rfl⟩ := hall k (by omega) hpos
  exact ⟨p.1, smallNumber_of_mem hp⟩

theorem exists_tens {k : ℕ} (hlow : 2 ≤ k) (hhigh : k ≤ 9) : ∃ w, tensNumber w = some (k * 10) := by
  have hall : ∀ k < 10, 2 ≤ k → ∃ p ∈ tensNumbers, p.2 = k * 10 := by decide
  obtain ⟨p, hp, heq⟩ := hall k (by omega) hlow
  exact ⟨p.1, heq ▸ tensNumber_of_mem hp⟩

theorem exists_belowHundred (hpos : 0 < n) (hlt : n < 100) : ∃ ws, BelowHundred n ws := by
  by_cases hsmall : n ≤ 19
  · obtain ⟨w, hw⟩ := exists_small hpos hsmall
    exact ⟨[w], .small hw hpos⟩
  · obtain ⟨w, hw⟩ := exists_tens (k := n / 10) (by omega) (by omega)
    by_cases hround : n % 10 = 0
    · have heq : n / 10 * 10 = n := by omega
      exact ⟨[w], .tens (heq ▸ hw)⟩
    · obtain ⟨v, hv⟩ := exists_small (k := n % 10) (by omega) (by omega)
      have heq : n / 10 * 10 + n % 10 = n := by omega
      exact ⟨[w, v], heq ▸ .both hw hv (by omega) (by omega)⟩

theorem exists_belowThousand (hpos : 0 < n) (hlt : n < 1000) : ∃ ws, BelowThousand n ws := by
  by_cases hsmall : n < 100
  · obtain ⟨ws, hws⟩ := exists_belowHundred hpos hsmall
    exact ⟨ws, .rest hws⟩
  · obtain ⟨w, hw⟩ := exists_small (k := n / 100) (by omega) (by omega)
    by_cases hround : n % 100 = 0
    · have heq : n / 100 * 100 = n := by omega
      exact ⟨[w, "hundred"], heq ▸ .hundreds hw (by omega) (by omega)⟩
    · obtain ⟨ws, hws⟩ := exists_belowHundred (n := n % 100) (by omega) (by omega)
      have heq : n / 100 * 100 + n % 100 = n := by omega
      exact ⟨w :: "hundred" :: ws, heq ▸ .both hw (by omega) (by omega) hws⟩

/-- Every number has a spelling. -/
theorem exists_spells (hpos : 0 < n) (hle : n ≤ 999999) : ∃ ws, Spells n ws := by
  by_cases hsmall : n < 1000
  · obtain ⟨ws, hws⟩ := exists_belowThousand hpos hsmall
    exact ⟨ws, .rest hws⟩
  · obtain ⟨ws, hws⟩ := exists_belowThousand (n := n / 1000) (by omega) (by omega)
    by_cases hround : n % 1000 = 0
    · have heq : n / 1000 * 1000 = n := by omega
      exact ⟨ws ++ ["thousand"], heq ▸ .thousands hws⟩
    · obtain ⟨vs, hvs⟩ := exists_belowThousand (n := n % 1000) (by omega) (by omega)
      have heq : n / 1000 * 1000 + n % 1000 = n := by omega
      exact ⟨ws ++ "thousand" :: vs, heq ▸ .both hws hvs⟩

/-! ### Words of small letters -/

theorem letter_facts {c : Char} (h : 'a' ≤ c ∧ c ≤ 'z') : IsPlainChar c ∧ plainQuote c = c ∧
    isPhraseBreak c = false ∧ isScriptSpace c = false ∧ c ≠ '#' ∧ ¬ ('0' ≤ c ∧ c ≤ '9') := by
  have hlow : 97 ≤ c.toNat := h.1
  have hhigh : c.toNat ≤ 122 := h.2
  have hcap : ¬ ('A' ≤ c ∧ c ≤ 'Z') := fun hc => by
    have hle : c.toNat ≤ 90 := hc.2
    omega
  have hdigit : ¬ ('0' ≤ c ∧ c ≤ '9') := fun hc => by
    have hle : c.toNat ≤ 57 := hc.2
    omega
  have hrest : plainQuote c = c ∧ isPhraseBreak c = false ∧ isScriptSpace c = false ∧ c ≠ '#' := by
    refine forall_ascii (P := fun c => 97 ≤ c.toNat ∧ c.toNat ≤ 122 → plainQuote c = c ∧
      isPhraseBreak c = false ∧ isScriptSpace c = false ∧ c ≠ '#') ?_ c (by omega) ⟨hlow, hhigh⟩
    decide +kernel
  exact ⟨⟨by omega, hcap⟩, hrest.1, hrest.2.1, hrest.2.2.1, hrest.2.2.2, hdigit⟩

/-- What the parser needs of the characters of words of small letters that are said one by one. -/
structure SaidChars (ws : List String) (l : List Char) : Prop where
  plain : ∀ c ∈ l, IsPlainChar c ∧ plainQuote c = c
  split : splitList isPhraseBreak l = ws.map String.toList
  first : ∃ c rest, l = c :: rest ∧ 'a' ≤ c ∧ c ≤ 'z'
  last : ∃ c rest, l = rest ++ [c] ∧ isScriptSpace c = false

theorem SaidAs.chars {l : List Char} (h : SaidAs ws l) (hws : ∀ w ∈ ws, IsLetters w.toList) : SaidChars ws l := by
  have hbreak : ∀ {w : String}, IsLetters w.toList → ∀ c ∈ w.toList, ¬ isPhraseBreak c = true := fun hw c hc =>
    Bool.eq_false_iff.mp (letter_facts (hw.2 c hc)).2.2.1
  have hplain : ∀ {w : String}, IsLetters w.toList → ∀ c ∈ w.toList, IsPlainChar c ∧ plainQuote c = c := fun hw c hc =>
    ⟨(letter_facts (hw.2 c hc)).1, (letter_facts (hw.2 c hc)).2.1⟩
  induction h with
  | one w =>
      have hw := hws w List.mem_cons_self
      obtain ⟨c, rest, hcons⟩ := List.exists_cons_of_ne_nil hw.1
      refine ⟨hplain hw, splitList_of_none (hbreak hw), ⟨c, rest, hcons, hw.2 c (hcons ▸ List.mem_cons_self)⟩, ?_⟩
      refine ⟨w.toList.getLast hw.1, w.toList.dropLast, (List.dropLast_append_getLast hw.1).symm, ?_⟩
      exact (letter_facts (hw.2 _ (List.getLast_mem hw.1))).2.2.2.1
  | @cons w c ws l hc h ih =>
      rw [List.forall_mem_cons] at hws
      obtain ⟨hw, hws⟩ := hws
      have hrest := ih hws
      have hsep : isPhraseBreak c = true ∧ IsPlainChar c ∧ plainQuote c = c := by
        rcases hc with rfl | rfl <;> decide
      obtain ⟨d, more, hcons⟩ := List.exists_cons_of_ne_nil hw.1
      obtain ⟨e, front, hlast, hspace⟩ := hrest.last
      refine ⟨List.forall_mem_append.mpr ⟨hplain hw, List.forall_mem_cons.mpr ⟨hsep.2, hrest.plain⟩⟩, ?_,
        ⟨d, more ++ c :: l, by rw [hcons, List.cons_append], hw.2 d (hcons ▸ List.mem_cons_self)⟩,
        ⟨e, w.toList ++ c :: front, by rw [hlast, List.append_assoc, List.cons_append], hspace⟩⟩
      rw [splitList_append (hbreak hw) hsep.1, hrest.split, List.map_cons]

theorem splitSpaces_filter (s : String) :
    (splitSpaces s).filter (· ≠ "") = (pieces (· == ' ') s.toList).map String.ofList := by
  rw [splitSpaces, splitChar, pieces, List.filter_map]
  refine congrArg _ (List.filter_congr fun w _ => ?_)
  have hne : String.ofList w = "" ↔ w = [] :=
    ⟨fun h => by simpa using congrArg String.toList h, fun h => congrArg String.ofList h⟩
  simp only [Function.comp_apply, ne_eq, hne]

theorem dropHash_cons {w : String} {c : Char} {rest : List Char} (hw : w.toList = c :: rest) (hc : c ≠ '#')
    (ws : List String) : dropHash (w :: ws) = w :: ws := by
  have hbegins : hasPrefix w "#" = false := by
    rw [hasPrefix, hw, show "#".toList = ['#'] from rfl, List.isPrefixOf_cons_cons, beq_false_of_ne (Ne.symm hc),
      Bool.false_and]
  rw [dropHash, cutPrefix, if_neg (Bool.eq_false_iff.mp hbegins), Option.getD_none]

variable {lib : TextPlatform} {l : List Char}

theorem SaidChars.trim_eq (h : SaidChars ws l) : trimScript (String.ofList l) = String.ofList l := by
  obtain ⟨c, rest, hfirst, hletter⟩ := h.first
  obtain ⟨d, front, hlast, hspace⟩ := h.last
  refine trimFunc_eq_self_of_ends _ _ (fun e he => ?_) (fun e he => ?_)
  · rw [String.toList_ofList, hfirst] at he
    exact Option.some.inj he ▸ (letter_facts hletter).2.2.2.1
  · rw [String.toList_ofList, hlast, List.getLast?_concat] at he
    exact Option.some.inj he ▸ hspace

theorem SaidChars.phraseWords_eq (h : SaidChars ws l) (hlib : lib.KeepsPlain) (hne : ∀ w ∈ ws, w.toList ≠ []) :
    phraseWords lib (String.ofList l) = ws.map String.toList := by
  have hplain : ∀ c ∈ (String.ofList l).toList, IsPlainChar c := by
    rw [String.toList_ofList]
    exact fun c hc => (h.plain c hc).1
  have hquote : l.map plainQuote = l := by
    rw [List.map_congr_left fun c hc => (h.plain c hc).2, List.map_id']
  rw [phraseWords, hlib.nfkc _ hplain, hlib.toLowerCase _ hplain, String.toList_ofList, hquote, pieces, h.split,
    List.filter_eq_self]
  intro w hw
  obtain ⟨v, hv, rfl⟩ := List.mem_map.mp hw
  simpa using hne v hv

/-- The words of what is said are its words. -/
theorem SaidAs.numberWords_eq (h : SaidAs ws l) (hlib : lib.KeepsPlain)
    (hvocabulary : ∀ w ∈ ws, w ∈ numberVocabulary) : numberWords lib (String.ofList l) = ws := by
  have hws : ∀ w ∈ ws, IsLetters w.toList := fun w hw => isLetters_vocabulary w (hvocabulary w hw)
  have hchars := h.chars hws
  have htokens : (splitSpaces (normalizePhrase lib (String.ofList l))).filter (· ≠ "") = ws := by
    rw [splitSpaces_filter, pieces_normalizePhrase, hchars.phraseWords_eq hlib fun w hw => (hws w hw).1, List.map_map]
    have hid : String.ofList ∘ String.toList = id := funext fun _ => String.ofList_toList
    rw [hid, List.map_id]
  rw [numberWords, hchars.trim_eq, normalizeNumberPhrase, htokens]
  cases ws with
  | nil => cases h
  | cons w ws =>
      rw [List.forall_mem_cons] at hvocabulary
      have hw := hws w List.mem_cons_self
      obtain ⟨c, rest, hcons⟩ := List.exists_cons_of_ne_nil hw.1
      have hhash : c ≠ '#' := (letter_facts (hw.2 c (hcons ▸ List.mem_cons_self))).2.2.2.2.1
      have hmarker : ¬ (w = "number" ∨ w = "id") := by
        rintro (rfl | rfl)
        · exact absurd hvocabulary.1 (by simp [numberVocabulary, smallNumbers, tensNumbers])
        · exact absurd hvocabulary.1 (by simp [numberVocabulary, smallNumbers, tensNumbers])
      rw [dropHash_cons hcons hhash]
      dsimp only
      rw [if_neg hmarker, dropHash_cons hcons hhash, List.filter_eq_self]
      intro v hv
      have hne : v ≠ "" := by
        rintro rfl
        exact (hws "" hv).1 (by simp)
      simpa using hne

/-- What is said is no numeral. -/
theorem SaidAs.not_digits (h : SaidAs ws l) (hlib : lib.KeepsPlain)
    (hvocabulary : ∀ w ∈ ws, w ∈ numberVocabulary) : ¬ WrittenInDigits lib (String.ofList l) := by
  have hws : ∀ w ∈ ws, IsLetters w.toList := fun w hw => isLetters_vocabulary w (hvocabulary w hw)
  have hno : ∀ {c : Char} {rest : List Char}, 'a' ≤ c ∧ c ≤ 'z' → isDigits (c :: rest) = false := by
    intro c rest hc
    have hdigit := (letter_facts hc).2.2.2.2.2
    simp only [isDigits, List.all_cons, Bool.and_eq_false_iff, Bool.not_eq_false', decide_eq_false_iff_not]
    by_cases hzero : '0' ≤ c
    · exact .inr (.inl (.inr fun hnine => hdigit ⟨hzero, hnine⟩))
    · exact .inr (.inl (.inl hzero))
  rintro (hmatch | ⟨w, hw, hdigits⟩)
  · have hchars := h.chars hws
    obtain ⟨c, rest, hfirst, hletter⟩ := hchars.first
    have hfacts := letter_facts hletter
    rw [hchars.trim_eq, matchDigits, String.toList_ofList, hfirst] at hmatch
    have hhead : (match c :: rest with
        | '#' :: rest => rest
        | l => l) = c :: rest := by
      split
      · next heq => exact absurd (List.cons.inj heq).1 hfacts.2.2.2.2.1
      · rfl
    have hspace : ¬ isScriptSpace c = true := Bool.eq_false_iff.mp hfacts.2.2.2.1
    rw [hhead, List.dropWhile_cons_of_neg hspace, hno hletter] at hmatch
    cases hmatch
  · rw [h.numberWords_eq hlib hvocabulary] at hw
    have hletters := hws w hw
    obtain ⟨c, rest, hcons⟩ := List.exists_cons_of_ne_nil hletters.1
    rw [hcons, hno (hletters.2 c (hcons ▸ List.mem_cons_self))] at hdigits
    cases hdigits

theorem parseSpokenNumber_of_said (hlib : lib.KeepsPlain) (hspells : Spells n ws) (h : SaidAs ws l) :
    parseSpokenNumber lib (String.ofList l) = some ⟨n, false⟩ := by
  have hvocabulary := hspells.mem_vocabulary
  rw [parseSpokenNumber_eq (h.not_digits hlib hvocabulary), h.numberWords_eq hlib hvocabulary]
  exact parseNumberWords_of_spells hspells

end

/-- Every number below a million has spellings and is read from each of them, with hyphens or
spaces; every other text that is not written in digits is read as what it says, unless its words
add up and are neither a number nor digits. -/
theorem spoken_numbers_iff {lib : TextPlatform} (hlib : lib.KeepsPlain) :
    (∀ n, 0 < n → n ≤ 999999 → (∃ ws, Spells n ws) ∧ ∀ ws l, Spells n ws → SaidAs ws l →
      parseSpokenNumber lib (String.ofList l) = some ⟨n, false⟩) ∧
    ∀ input, ¬ WrittenInDigits lib input → (MeansWhatWasSaid lib input ↔
      ¬ (AddsUp (numberWords lib input) ∧ (¬ ∃ n, Spells n (numberWords lib input)) ∧
        ¬ IsDigitSequence (numberWords lib input))) :=
  ⟨fun _ hpos hle => ⟨exists_spells hpos hle, fun _ _ => parseSpokenNumber_of_said hlib⟩,
    fun _ => means_what_was_said_iff⟩

/-- A number with a hyphen and an `and`. -/
theorem spoken_one_hundred_and_twenty_one :
    parseSpokenNumber plainPlatform "one hundred and twenty-one" = some ⟨121, false⟩ := by
  have hone : smallNumber "one" = some 1 := smallNumber_of_mem (by simp [smallNumbers])
  have htwenty : tensNumber "twenty" = some 20 := tensNumber_of_mem (by simp [tensNumbers])
  have hspells : Spells 121 ["one", "hundred", "and", "twenty", "one"] :=
    .rest (.bothAnd hone (by decide) (by decide) (.both htwenty hone (by decide) (by decide)))
  have hsaid : SaidAs ["one", "hundred", "and", "twenty", "one"] _ :=
    .cons "one" (.inl rfl) (.cons "hundred" (.inl rfl) (.cons "and" (.inl rfl)
      (.cons "twenty" (.inr rfl) (.one "one"))))
  exact ((spoken_numbers_iff keepsPlain_plainPlatform).1 121 (by decide) (by decide)).2 _ _ hspells hsaid

theorem belowHundred_of_spells {n : ℕ} {ws : List String} (h : Spells n ws) (hhundred : "hundred" ∉ ws)
    (hthousand : "thousand" ∉ ws) : BelowHundred n ws := by
  cases h with
  | rest h =>
      cases h with
      | rest h => exact h
      | hundreds _ _ _ => simp at hhundred
      | both _ _ _ _ => simp at hhundred
      | bothAnd _ _ _ _ => simp at hhundred
  | thousands _ => simp at hthousand
  | both _ _ => simp at hthousand
  | bothAnd _ _ => simp at hthousand

/-- A word of tens and a word of teens are no number, and are given a value. -/
theorem twenty_eleven_is_read : parseSpokenNumber plainPlatform "twenty eleven" = some ⟨31, false⟩ ∧
    ¬ MeansWhatWasSaid plainPlatform "twenty eleven" := by
  have htwenty : tensNumber "twenty" = some 20 := tensNumber_of_mem (by simp [tensNumbers])
  have heleven : smallNumber "eleven" = some 11 := smallNumber_of_mem (by simp [smallNumbers])
  have hsaid : SaidAs ["twenty", "eleven"] _ := .cons "twenty" (.inl rfl) (.one "eleven")
  have hvocabulary : ∀ w ∈ ["twenty", "eleven"], w ∈ numberVocabulary :=
    List.forall_mem_cons.mpr ⟨tens_mem_vocabulary htwenty, List.forall_mem_singleton.mpr (small_mem_vocabulary heleven)⟩
  have hwords : numberWords plainPlatform "twenty eleven" = ["twenty", "eleven"] :=
    hsaid.numberWords_eq keepsPlain_plainPlatform hvocabulary
  have hnot : isDigitWord "twenty" = false := not_digitWord_tens htwenty
  have hparse : parseSpokenNumber plainPlatform "twenty eleven" = some ⟨31, false⟩ := by
    have hread := parseSpokenNumber_eq (hsaid.not_digits keepsPlain_plainPlatform hvocabulary)
    refine hread.trans ?_
    rw [hsaid.numberWords_eq keepsPlain_plainPlatform hvocabulary, parseNumberWords]
    simp [hnot, (adds_of_tens htwenty).step, (adds_of_small heleven).step, safeNumber, maxSafeInteger]
  refine ⟨hparse, fun hmeans => ?_⟩
  have hspells : ¬ ∃ n, Spells n ["twenty", "eleven"] := by
    rintro ⟨n, h⟩
    have hbelow := belowHundred_of_spells h (by simp) (by simp)
    cases hbelow with
    | both _ h' _ hdigit =>
        obtain rfl := Option.some.inj (heleven.symm.trans h')
        exact absurd hdigit (by decide)
  have hdigits : ¬ IsDigitSequence ["twenty", "eleven"] := fun h => by
    have hall := h.2
    simp [hnot] at hall
  have hnone := hmeans.other
  rw [hwords, hparse] at hnone
  exact absurd (hnone hspells hdigits) nofun

end Scrumboy
