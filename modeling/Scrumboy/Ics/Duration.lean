import Scrumboy.Go.Decimal
import Scrumboy.Go.Time
import Scrumboy.Go.Wrap
import Mathlib.Tactic.Ring

/-!
# Durations of a calendar

`parseICSDuration` reads the length of an event. It adds up its units with the arithmetic of
`int64`, which overflows without notice, so that the length is the written one modulo `2 ^ 64`. What
is written is a `WrittenDuration`, a text with a value; the durations of RFC 5545 are among them.
-/

namespace Scrumboy.Ics

open Go Go.Bytes

def letterP : UInt8 := 0x50

def letterT : UInt8 := 0x54

def letterW : UInt8 := 0x57

def letterD : UInt8 := 0x44

def letterH : UInt8 := 0x48

def letterM : UInt8 := 0x4D

def letterS : UInt8 := 0x53

/-! ## The parser -/

def dateUnits (c : UInt8) : Option ℤ := if c = letterD then some (24 * hour) else none

def timeUnits (c : UInt8) : Option ℤ :=
  if c = letterH then some hour
  else if c = letterM then some minute
  else if c = letterS then some second
  else none

/-- The loop of `addICSDurationUnits`, with the digits so far and whether there are any. -/
def addUnits (units : UInt8 → Option ℤ) : Bytes → ℤ → Bool → ℤ → Option ℤ
  | [], _, sawDigit, total => if sawDigit then none else some total
  | ch :: part, num, sawDigit, total =>
      if isDecimal ch then addUnits units part (wrap (wrap (num * 10) + digitValue ch)) true total
      else
        match units ch with
        | none => none
        | some unit =>
            if sawDigit = false then none
            else addUnits units part 0 false (wrap (total + wrap (num * unit)))

def addICSDurationUnits (part : Bytes) (units : UInt8 → Option ℤ) (total : ℤ) : Option ℤ :=
  if part = [] then some total else addUnits units part 0 false total

/-- `strings.Cut` at a byte, with `none` for a missing separator. -/
def cut (sep : UInt8) (s : Bytes) : Bytes × Option Bytes :=
  (s.takeWhile (· != sep), if sep ∈ s then some (s.dropWhile (· != sep)).tail else none)

/-- The part behind the `T`, if there is one. -/
def addTimePart : Option Bytes → ℤ → Option ℤ
  | none, total => some total
  | some part, total => addICSDurationUnits part timeUnits total

/-- What comes behind the sign and the `P`. -/
def parseLength (sign : ℤ) (value : Bytes) : Option ℤ :=
  if value = [] then none
  else if value.getLast? = some letterW ∧ letterT ∉ value then do
    let weeks ← atoi value.dropLast
    if weeks < 0 then none
    else some (wrap (wrap (wrap (wrap (sign * weeks) * 7) * 24) * hour))
  else do
    let total ← addICSDurationUnits (cut letterT value).1 dateUnits 0
    let total ← addTimePart (cut letterT value).2 total
    some (wrap (sign * total))

/-- The duration in nanoseconds, `none` where the source has an error. -/
def parseICSDuration (raw : Bytes) : Option ℤ :=
  let (sign, value) := cutSign (trimSpace raw)
  match value with
  | c :: value => if c = letterP then parseLength sign.value value else none
  | [] => none

/-! ## What is written -/

/-- A number with a letter, which stands for a unit of `nanos` nanoseconds. -/
structure Amount (units : UInt8 → Option ℤ) where
  number : Number
  letter : UInt8
  nanos : ℤ
  unit : units letter = some nanos

section

variable {units : UInt8 → Option ℤ}

def Amount.text (a : Amount units) : Bytes := a.number.digits ++ [a.letter]

def Amount.value (a : Amount units) : ℤ := a.number.value * a.nanos

def amountsText (as : List (Amount units)) : Bytes := as.flatMap Amount.text

def amountsValue (as : List (Amount units)) : ℤ := (as.map Amount.value).sum

end

/-- Weeks, or days with a time. The source takes a sign in front of the weeks too, and takes the
amounts in any order and number. -/
inductive WrittenLength
  | weeks (sign : Sign) (number : Number)
  | amounts (days : List (Amount dateUnits)) (time : Option (List (Amount timeUnits)))

namespace WrittenLength

def text : WrittenLength → Bytes
  | weeks sign number => sign.text ++ number.digits ++ [letterW]
  | amounts days none => amountsText days
  | amounts days (some time) => amountsText days ++ letterT :: amountsText time

def value : WrittenLength → ℤ
  | weeks sign number => sign.value * number.value * (7 * 24 * hour)
  | amounts days none => amountsValue days
  | amounts days (some time) => amountsValue days + amountsValue time

end WrittenLength

structure WrittenDuration where
  sign : Sign
  length : WrittenLength

namespace WrittenDuration

def text (d : WrittenDuration) : Bytes := d.sign.text ++ letterP :: d.length.text

/-- The exact value in nanoseconds. -/
def value (d : WrittenDuration) : ℤ := d.sign.value * d.length.value

end WrittenDuration

/-- The letters of a `dur-time`, each of which may go on with the next smaller unit. -/
def durTimeLetters : List Bytes :=
  [[letterH], [letterH, letterM], [letterH, letterM, letterS], [letterM], [letterM, letterS], [letterS]]

/-- `dur-date`, `dur-time` and `dur-week` of RFC 5545. -/
inductive IsDurLength : WrittenLength → Prop
  | date (day : Amount dateUnits) : IsDurLength (.amounts [day] none)
  | dateTime (day : Amount dateUnits) {time : List (Amount timeUnits)}
      (h : time.map Amount.letter ∈ durTimeLetters) : IsDurLength (.amounts [day] (some time))
  | time {time : List (Amount timeUnits)} (h : time.map Amount.letter ∈ durTimeLetters) :
      IsDurLength (.amounts [] (some time))
  | week (number : Number) : IsDurLength (.weeks .none number)

/-- `dur-value` of RFC 5545. -/
def IsDurValue (d : WrittenDuration) : Prop := IsDurLength d.length

/-! ## Reading digits and amounts -/

section

variable {units : UInt8 → Option ℤ} {part ds rest : Bytes} {num total out : ℤ} {sawDigit : Bool}

/-- The loop reads digits into the number, modulo `2 ^ 64`. -/
theorem addUnits_digits (hds : ∀ c ∈ ds, isDecimal c = true) (n : ℕ) :
    addUnits units (ds ++ rest) (wrap n) sawDigit total =
      addUnits units rest (wrap (readDigits n ds)) (sawDigit || !ds.isEmpty) total := by
  induction ds generalizing n sawDigit with
  | nil => simp [readDigits]
  | cons c ds ih =>
      have hc := hds c List.mem_cons_self
      have hstep : wrap (wrap (wrap n * 10) + digitValue c) = wrap ((n * 10 + digitValue c : ℕ) : ℤ) := by
        push_cast
        rw [wrap_mul_left, wrap_add_left]
      rw [List.cons_append, addUnits, if_pos hc, hstep,
        ih (fun d hd => hds d (List.mem_cons_of_mem _ hd))]
      simp [readDigits]

/-- The loop adds an amount. -/
theorem addUnits_amount (hletter : ∀ c, isDecimal c = true → units c = none) (a : Amount units) (t : ℤ) :
    addUnits units (a.text ++ rest) 0 false (wrap t) = addUnits units rest 0 false (wrap (t + a.value)) := by
  have hdigit : isDecimal a.letter = false := by
    by_contra h
    have hnone := hletter a.letter (Bool.not_eq_false _ ▸ h)
    rw [a.unit] at hnone
    cases hnone
  have hempty : a.number.digits.isEmpty = false := by
    rw [List.isEmpty_eq_false_iff]
    exact a.number.ne_nil
  have hzero : (0 : ℤ) = wrap (0 : ℕ) := by decide
  rw [Amount.text, List.append_assoc, List.singleton_append, hzero, addUnits_digits a.number.isDecimal, hempty]
  rw [addUnits, hdigit, a.unit, ← hzero]
  simp [Amount.value, Number.value]

/-- The loop adds the amounts that are written. -/
theorem addUnits_amountsText (hletter : ∀ c, isDecimal c = true → units c = none) (as : List (Amount units))
    (t : ℤ) : addUnits units (amountsText as) 0 false (wrap t) = some (wrap (t + amountsValue as)) := by
  induction as generalizing t with
  | nil => simp [amountsText, amountsValue, addUnits]
  | cons a as ih =>
      have htext : amountsText (a :: as) = a.text ++ amountsText as := rfl
      have hvalue : amountsValue (a :: as) = a.value + amountsValue as := List.sum_cons
      rw [htext, addUnits_amount hletter, ih, hvalue, add_assoc]

/-- What the loop takes is a list of amounts, the first of which starts with the digits so far. -/
theorem exists_amounts (pre : Bytes) (hpre : ∀ c ∈ pre, isDecimal c = true)
    (hsaw : sawDigit = !pre.isEmpty) (h : addUnits units part num sawDigit total = some out) :
    ∃ as : List (Amount units), pre ++ part = amountsText as := by
  induction part generalizing pre num sawDigit total with
  | nil =>
      cases pre with
      | nil => exact ⟨[], rfl⟩
      | cons c pre =>
          rw [hsaw] at h
          cases h
  | cons ch part ih =>
      rw [addUnits] at h
      by_cases hch : isDecimal ch = true
      · rw [if_pos hch] at h
        have hpre' : ∀ c ∈ pre ++ [ch], isDecimal c = true := by
          intro c hc
          rcases List.mem_append.mp hc with hc | hc
          · exact hpre c hc
          · rwa [List.mem_singleton.mp hc]
        obtain ⟨as, has⟩ := ih (pre ++ [ch]) hpre' (by simp) h
        exact ⟨as, by rw [← has, List.append_assoc, List.singleton_append]⟩
      · rw [if_neg hch] at h
        cases hunit : units ch with
        | none =>
            rw [hunit] at h
            cases h
        | some unit =>
            rw [hunit] at h
            cases hempty : pre.isEmpty with
            | true =>
                rw [hsaw, hempty] at h
                cases h
            | false =>
                rw [hsaw, hempty] at h
                obtain ⟨as, has⟩ := ih [] (fun _ hc => absurd hc List.not_mem_nil) rfl h
                have hne : pre ≠ [] := List.isEmpty_eq_false_iff.mp hempty
                refine ⟨⟨⟨pre, hne, hpre⟩, ch, unit, hunit⟩ :: as, ?_⟩
                change pre ++ ch :: part = (pre ++ [ch]) ++ amountsText as
                rw [← has, List.append_assoc, List.singleton_append, List.nil_append]

theorem addICSDurationUnits_eq :
    addICSDurationUnits part units total = addUnits units part 0 false total := by
  unfold addICSDurationUnits
  split
  · rename_i hpart
    rw [hpart]
    rfl
  · rfl

theorem mem_amountsText {as : List (Amount units)} {c : UInt8} (h : c ∈ amountsText as) :
    isDecimal c = true ∨ ∃ unit, units c = some unit := by
  obtain ⟨a, -, hc⟩ := List.mem_flatMap.mp h
  rcases List.mem_append.mp hc with hc | hc
  · exact .inl (a.number.isDecimal c hc)
  · exact .inr ⟨a.nanos, List.mem_singleton.mp hc ▸ a.unit⟩

end

theorem dateUnits_digit (c : UInt8) (h : isDecimal c = true) : dateUnits c = none := by
  refine if_neg ?_
  rintro rfl
  exact absurd h (by decide)

theorem timeUnits_digit (c : UInt8) (h : isDecimal c = true) : timeUnits c = none := by
  unfold timeUnits
  split_ifs with hH hM hS
  · exact absurd (hH ▸ h) (by decide)
  · exact absurd (hM ▸ h) (by decide)
  · exact absurd (hS ▸ h) (by decide)
  · rfl

/-! ## Lengths -/

section

variable {sign v : ℤ} {value : Bytes}

theorem not_mem_digits {n : Number} {c : UInt8} (hc : isDecimal c = false) : c ∉ n.digits := by
  intro hmem
  rw [n.isDecimal c hmem] at hc
  cases hc

theorem not_mem_amountsText {units : UInt8 → Option ℤ} {as : List (Amount units)} {c : UInt8}
    (hc : isDecimal c = false) (hunit : units c = none) : c ∉ amountsText as := by
  intro hmem
  rcases mem_amountsText hmem with hdigit | ⟨unit, hsome⟩
  · rw [hdigit] at hc
    cases hc
  · rw [hsome] at hunit
    cases hunit

theorem letterW_not_mem (days : List (Amount dateUnits)) (time : Option (List (Amount timeUnits))) :
    letterW ∉ (WrittenLength.amounts days time).text := by
  have hdays : letterW ∉ amountsText days := not_mem_amountsText (by decide) (by decide)
  cases time with
  | none => exact hdays
  | some time =>
      have htime : letterW ∉ amountsText time := not_mem_amountsText (by decide) (by decide)
      simp only [WrittenLength.text, List.mem_append, List.mem_cons, not_or]
      exact ⟨hdays, by decide, htime⟩

theorem parseLength_weeks (sg : Sign) (n : Number) :
    parseLength sign (WrittenLength.weeks sg n).text =
      if IsInt64 (sg.value * n.value) ∧ 0 ≤ sg.value * n.value then
        some (wrap (sign * (WrittenLength.weeks sg n).value))
      else none := by
  have hne : (WrittenLength.weeks sg n).text ≠ [] := by
    simp [WrittenLength.text]
  have hT : letterT ∉ (WrittenLength.weeks sg n).text := by
    have hdigits : letterT ∉ n.digits := not_mem_digits (by decide)
    simp only [WrittenLength.text, List.mem_append, not_or]
    exact ⟨⟨by cases sg <;> decide, hdigits⟩, by decide⟩
  have hlast : (WrittenLength.weeks sg n).text.getLast? = some letterW := List.getLast?_concat ..
  have hdrop : (WrittenLength.weeks sg n).text.dropLast = sg.text ++ n.digits := List.dropLast_concat ..
  rw [parseLength, if_neg hne, if_pos ⟨hlast, hT⟩, hdrop, atoi_digits]
  by_cases hfits : IsInt64 (sg.value * n.value)
  · rw [if_pos hfits]
    by_cases hneg : sg.value * n.value < 0
    · rw [if_neg (fun h => absurd h.2 (not_le.mpr hneg))]
      exact if_pos hneg
    · rw [if_pos ⟨hfits, not_lt.mp hneg⟩]
      refine (if_neg hneg).trans ?_
      simp only [wrap_mul_left, WrittenLength.value]
      ring_nf
  · rw [if_neg hfits, if_neg fun h => hfits h.1]
    rfl

theorem addUnits_all {units : UInt8 → Option ℤ} (hletter : ∀ c, isDecimal c = true → units c = none)
    (as : List (Amount units)) :
    addUnits units (amountsText as) 0 false 0 = some (wrap (amountsValue as)) := by
  have h := addUnits_amountsText hletter as 0
  rwa [zero_add] at h

theorem letterT_not_mem (days : List (Amount dateUnits)) : letterT ∉ amountsText days :=
  not_mem_amountsText (by decide) (by decide)

theorem cut_of_not_mem {sep : UInt8} {s : Bytes} (h : sep ∉ s) : cut sep s = (s, none) := by
  have htake : s.takeWhile (· != sep) = s :=
    List.takeWhile_eq_self_iff.mpr fun c hc => bne_iff_ne.mpr fun heq => h (heq ▸ hc)
  rw [cut, htake, if_neg h]

theorem cut_append {sep : UInt8} {s : Bytes} (h : sep ∉ s) (t : Bytes) :
    cut sep (s ++ sep :: t) = (s, some t) := by
  have hs : ∀ c ∈ s, (c != sep) = true := fun c hc => bne_iff_ne.mpr fun heq => h (heq ▸ hc)
  rw [cut, List.takeWhile_append_of_pos hs, List.dropWhile_append_of_pos hs, if_pos (by simp)]
  simp

theorem exists_of_cut_eq_some {sep : UInt8} {s t : Bytes} (h : (cut sep s).2 = some t) :
    s = (cut sep s).1 ++ sep :: t := by
  have hmem : sep ∈ s := by
    by_contra hnot
    rw [cut_of_not_mem hnot] at h
    cases h
  obtain ⟨front, rest, rfl, hnot⟩ := List.eq_append_cons_of_mem hmem
  rw [cut_append hnot] at h ⊢
  rw [Option.some.inj h]

theorem eq_of_cut_eq_none {sep : UInt8} {s : Bytes} (h : (cut sep s).2 = none) : s = (cut sep s).1 := by
  have hnot : sep ∉ s := by
    intro hmem
    rw [cut, if_pos hmem] at h
    cases h
  rw [cut_of_not_mem hnot]

theorem parseLength_days {days : List (Amount dateUnits)} (hne : amountsText days ≠ []) :
    parseLength sign (amountsText days) = some (wrap (sign * amountsValue days)) := by
  have hnoW : ¬ ((amountsText days).getLast? = some letterW ∧ letterT ∉ amountsText days) :=
    fun h => letterW_not_mem days none (List.mem_of_getLast? h.1)
  rw [parseLength, if_neg hne, if_neg hnoW, cut_of_not_mem (letterT_not_mem days),
    addICSDurationUnits_eq, addUnits_all dateUnits_digit]
  simp [addTimePart]

theorem parseLength_daysTime (days : List (Amount dateUnits)) (time : List (Amount timeUnits)) :
    parseLength sign (amountsText days ++ letterT :: amountsText time) =
      some (wrap (sign * (amountsValue days + amountsValue time))) := by
  have hne : amountsText days ++ letterT :: amountsText time ≠ [] := by simp
  have hT : letterT ∈ amountsText days ++ letterT :: amountsText time := by simp
  rw [parseLength, if_neg hne, if_neg fun h => h.2 hT, cut_append (letterT_not_mem days),
    addICSDurationUnits_eq, addUnits_all dateUnits_digit]
  simp [addTimePart, addICSDurationUnits_eq, addUnits_amountsText timeUnits_digit]

theorem parseLength_amounts {days : List (Amount dateUnits)} {time : Option (List (Amount timeUnits))}
    (hne : (WrittenLength.amounts days time).text ≠ []) :
    parseLength sign (WrittenLength.amounts days time).text =
      some (wrap (sign * (WrittenLength.amounts days time).value)) := by
  cases time with
  | none => exact parseLength_days hne
  | some time => exact parseLength_daysTime days time

/-- A length that is taken is written. -/
theorem exists_written (h : parseLength sign value = some v) : ∃ l : WrittenLength, value = l.text := by
  unfold parseLength at h
  split_ifs at h with hne hweeks
  · obtain ⟨weeks, hatoi, -⟩ := Option.bind_eq_some_iff.mp h
    obtain ⟨sg, n, hdigits⟩ := exists_number_of_atoi hatoi
    refine ⟨.weeks sg n, ?_⟩
    rw [WrittenLength.text, ← hdigits]
    exact (List.dropLast_append_getLast? _ hweeks.1).symm
  · obtain ⟨total, hdate, h⟩ := Option.bind_eq_some_iff.mp h
    obtain ⟨total', htime, -⟩ := Option.bind_eq_some_iff.mp h
    rw [addICSDurationUnits_eq] at hdate
    obtain ⟨days, hdays⟩ := exists_amounts [] (fun _ hc => absurd hc List.not_mem_nil) rfl hdate
    rw [List.nil_append] at hdays
    cases hcut : (cut letterT value).2 with
    | none => exact ⟨.amounts days none, (eq_of_cut_eq_none hcut).trans hdays⟩
    | some part =>
        rw [hcut, addTimePart, addICSDurationUnits_eq] at htime
        obtain ⟨time, htime⟩ := exists_amounts [] (fun _ hc => absurd hc List.not_mem_nil) rfl htime
        rw [List.nil_append] at htime
        refine ⟨.amounts days (some time), (exists_of_cut_eq_some hcut).trans ?_⟩
        rw [WrittenLength.text, hdays, htime]

theorem parseLength_text {l : WrittenLength} (h : parseLength sign l.text = some v) :
    v = wrap (sign * l.value) := by
  cases l with
  | weeks sg n =>
      rw [parseLength_weeks] at h
      split_ifs at h
      exact (Option.some.inj h).symm
  | amounts days time =>
      by_cases hne : (WrittenLength.amounts days time).text = []
      · rw [parseLength, if_pos hne] at h
        cases h
      · rw [parseLength_amounts hne] at h
        exact (Option.some.inj h).symm

/-- The weeks of the grammar have no sign, and are read if they fit. -/
theorem IsDurLength.parse {l : WrittenLength} (h : IsDurLength l) {sg : Sign}
    (hfits : IsInt64 (sg.value * l.value)) :
    parseLength sg.value l.text = some (sg.value * l.value) := by
  have hwrap : wrap (sg.value * l.value) = sg.value * l.value := wrap_eq_self hfits
  cases h with
  | date day =>
      rw [parseLength_amounts (by simp [WrittenLength.text, amountsText, Amount.text]), hwrap]
  | dateTime day htime => rw [parseLength_amounts (by simp [WrittenLength.text]), hwrap]
  | time htime => rw [parseLength_amounts (by simp [WrittenLength.text]), hwrap]
  | week number =>
      have hweeks : IsInt64 (Sign.none.value * number.value) ∧ 0 ≤ Sign.none.value * (number.value : ℤ) := by
        have hvalue : (WrittenLength.weeks .none number).value = number.value * 604800000000000 := by
          simp [WrittenLength.value, Sign.value, hour, minute, second]
        rw [hvalue] at hfits
        unfold IsInt64 minInt64 maxInt64 at hfits ⊢
        cases sg <;> simp only [Sign.value] at hfits ⊢ <;> omega
      rw [parseLength_weeks, if_pos hweeks, hwrap]

end

/-! ## White space around a text -/

section

variable {c : UInt8}

theorem isPlain_amountsText {units : UInt8 → Option ℤ} (hunits : ∀ c unit, units c = some unit → IsPlain c)
    {as : List (Amount units)} (hc : c ∈ amountsText as) : IsPlain c := by
  rcases mem_amountsText hc with hdigit | ⟨unit, hunit⟩
  · exact isPlain_of_isDecimal hdigit
  · exact hunits c unit hunit

theorem isPlain_dateUnits (c : UInt8) (unit : ℤ) (h : dateUnits c = some unit) : IsPlain c := by
  unfold dateUnits at h
  split_ifs at h with hD
  rw [hD]
  decide

theorem isPlain_timeUnits (c : UInt8) (unit : ℤ) (h : timeUnits c = some unit) : IsPlain c := by
  unfold timeUnits at h
  split_ifs at h with hH hM hS
  · rw [hH]
    decide
  · rw [hM]
    decide
  · rw [hS]
    decide

theorem WrittenDuration.isPlain (d : WrittenDuration) : ∀ c ∈ d.text, IsPlain c := by
  have hsign : ∀ sign : Sign, ∀ c ∈ sign.text, IsPlain c := by
    intro sign c hc
    cases sign with
    | none => cases hc
    | plus =>
        rw [List.mem_singleton.mp hc]
        decide
    | minus =>
        rw [List.mem_singleton.mp hc]
        decide
  have hlength : ∀ c ∈ d.length.text, IsPlain c := by
    intro c hc
    cases hl : d.length with
    | weeks sign number =>
        rw [hl] at hc
        rcases List.mem_append.mp hc with hc | hc
        · rcases List.mem_append.mp hc with hc | hc
          · exact hsign sign c hc
          · exact isPlain_of_isDecimal (number.isDecimal c hc)
        · rw [List.mem_singleton.mp hc]
          decide
    | amounts days time =>
        rw [hl] at hc
        cases time with
        | none => exact isPlain_amountsText isPlain_dateUnits hc
        | some time =>
            rcases List.mem_append.mp hc with hc | hc
            · exact isPlain_amountsText isPlain_dateUnits hc
            · rcases List.mem_cons.mp hc with rfl | hc
              · decide
              · exact isPlain_amountsText isPlain_timeUnits hc
  intro c hc
  rcases List.mem_append.mp hc with hc | hc
  · exact hsign d.sign c hc
  · rcases List.mem_cons.mp hc with rfl | hc
    · decide
    · exact hlength c hc

end

/-! ## Durations -/

theorem parse_of_text {raw : Bytes} {d : WrittenDuration} (h : trimSpace raw = d.text) :
    parseICSDuration raw = parseLength d.sign.value d.length.text := by
  have hcut : cutSign (trimSpace raw) = (d.sign, letterP :: d.length.text) := by
    rw [h]
    exact cutSign_text d.sign (by decide) (by decide)
  rw [parseICSDuration, hcut]
  exact if_pos rfl

theorem exists_duration {raw : Bytes} {v : ℤ} (h : parseICSDuration raw = some v) :
    ∃ d : WrittenDuration, trimSpace raw = d.text := by
  have hcut := cutSign_eq (trimSpace raw)
  simp only [parseICSDuration] at h
  cases hvalue : (cutSign (trimSpace raw)).2 with
  | nil =>
      rw [hvalue] at h
      cases h
  | cons c value =>
      rw [hvalue] at h hcut
      dsimp only at h
      split_ifs at h with hP
      obtain ⟨l, rfl⟩ := exists_written h
      rw [hP] at hcut
      exact ⟨⟨(cutSign (trimSpace raw)).1, l⟩, hcut.symm⟩

/-- A duration that is taken has the value that is written, modulo `2 ^ 64`, and a duration of
RFC 5545 whose value fits is taken. -/
theorem duration_means_written :
    (∀ (raw : Bytes) (v : ℤ), parseICSDuration raw = some v →
        (∃ d : WrittenDuration, trimSpace raw = d.text) ∧
          ∀ d : WrittenDuration, trimSpace raw = d.text → v = wrap d.value) ∧
      ∀ d : WrittenDuration, IsDurValue d → IsInt64 d.value →
        parseICSDuration d.text = some d.value := by
  constructor
  · intro raw v h
    refine ⟨exists_duration h, fun d hd => ?_⟩
    rw [parse_of_text hd] at h
    exact parseLength_text h
  · intro d hd hfits
    rw [parse_of_text (trimSpace_of_plain d.isPlain)]
    exact hd.parse hfits

example : parseICSDuration "  -P1DT2H30S\n".toUTF8.toList = some (-93630000000000) := by
  decide +kernel

end Scrumboy.Ics
