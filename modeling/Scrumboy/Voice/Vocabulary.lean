import Scrumboy.Text.Phrases
import Scrumboy.Voice.Text

/-!
# What a spoken answer means

An answer to a review question is read phrase by phrase, and the longest phrase of the vocabulary
is taken at each place. It means yes if every word belongs to a phrase that does.
-/

set_option linter.dupNamespace false

namespace Scrumboy

open Phrases Go

inductive VoiceBinaryDecision
  | yes
  | no
  | cancel
  | unknown
  deriving DecidableEq, Repr

def voiceReviewConfirmPhrases : List String :=
  ["yes", "yeah", "yep", "yup", "sure", "okay", "ok", "confirm", "confirmed", "go ahead", "go for it",
    "proceed", "do it", "please do", "yes please", "sure thing", "sounds good", "looks good", "that's fine",
    "that is fine", "that's good", "that is good", "absolutely", "correct", "all right", "alright",
    "approve", "approved", "please proceed"]

def noReviewPhrases : List String := ["no", "nope", "nah", "no thanks", "not now"]

def cancelReviewPhrases : List String :=
  ["cancel", "stop", "never mind", "nevermind", "don't", "do not", "don't do it", "do not do it",
    "forget it", "cancel that", "please cancel", "please stop", "abort", "decline"]

/-- The phrases with what they mean. -/
def decisionTexts : List (VoiceBinaryDecision × String) :=
  voiceReviewConfirmPhrases.map (Prod.mk VoiceBinaryDecision.yes) ++
    noReviewPhrases.map (Prod.mk VoiceBinaryDecision.no) ++
      cancelReviewPhrases.map (Prod.mk VoiceBinaryDecision.cancel)

def decisionPhrases (lib : TextPlatform) : List (VoiceBinaryDecision × List String) :=
  decisionTexts.map fun text => (text.1, splitSpaces (normalizeVoiceReviewUtterance lib text.2))

def normalizeConfirmationResponse (lib : TextPlatform) (input : String) : Option VoiceBinaryDecision :=
  let normalized := normalizeVoiceReviewUtterance lib input
  if normalized ∈ voiceReviewConfirmPhrases then some .yes
  else if normalized ∈ noReviewPhrases then some .no
  else if normalized ∈ cancelReviewPhrases then some .cancel
  else none

/-- What the loop of `classifyVoiceBinaryDecision` has found. -/
structure DecisionScan where
  signals : List VoiceBinaryDecision := []
  uncovered : Bool := false
  deriving DecidableEq, Repr

/-- The loop, on the words that are left; each round takes one word at least. -/
def scanDecision (phrases : List (VoiceBinaryDecision × List String)) :
    ℕ → List String → DecisionScan → DecisionScan
  | 0, _, scan => scan
  | _ + 1, [], scan => scan
  | n + 1, words, scan =>
      let length := longest (phrases.map (·.2)) words
      if length = 0 then scanDecision phrases n words.tail { scan with uncovered := true }
      else
        let taken := phrases.filter fun p => p.2.isPrefixOf words && p.2.length == length
        scanDecision phrases n (words.drop length) { scan with signals := scan.signals ++ taken.map (·.1) }

def DecisionScan.decision (scan : DecisionScan) : VoiceBinaryDecision :=
  if .yes ∈ scan.signals ∧ (.no ∈ scan.signals ∨ .cancel ∈ scan.signals) then .unknown
  else if scan.uncovered = true then .unknown
  else if .yes ∈ scan.signals then .yes
  else if .cancel ∈ scan.signals then .cancel
  else if .no ∈ scan.signals then .no
  else .unknown

def classifyVoiceBinaryDecision (lib : TextPlatform) (input : String) : VoiceBinaryDecision :=
  let normalized := normalizeVoiceReviewUtterance lib input
  if normalized = "" then .unknown
  else
    let words := splitSpaces normalized
    (scanDecision (decisionPhrases lib) words.length words {}).decision

/-! ## The vocabulary -/

/-- The phrases as words. -/
def confirmWords : List (List String) := voiceReviewConfirmPhrases.map splitSpaces

def declineWords : List (List String) := (noReviewPhrases ++ cancelReviewPhrases).map splitSpaces

def plainPhrases : List (VoiceBinaryDecision × List String) :=
  decisionTexts.map fun text => (text.1, splitSpaces text.2)

def utteranceWords (lib : TextPlatform) (input : String) : List String :=
  splitSpaces (normalizeVoiceReviewUtterance lib input)

/-- `yes please do` without `it` behind it. -/
def PleaseDo (words : List String) : Prop :=
  ∃ rest, words = "yes" :: "please" :: "do" :: rest ∧ rest.head? ≠ some "it"

def HasPleaseDo (words : List String) : Prop := ∃ rest, rest <:+ words ∧ PleaseDo rest

section

variable {lib : TextPlatform}

/-- A text of the vocabulary, by its characters, is its own normal form. -/
def IsPlainText (l : List Char) : Prop :=
  (∀ c ∈ l, IsPlainChar c) ∧ trimScriptList l = l ∧ spacedWordsList l = l

instance (l : List Char) : Decidable (IsPlainText l) :=
  @instDecidableAnd _ _ (List.decidableBAll _ l) (inferInstanceAs (Decidable (_ ∧ _)))

theorem IsPlainText.normalize_eq {s : String} (h : IsPlainText s.toList) (hlib : lib.KeepsPlain) :
    normalizeVoiceReviewUtterance lib s = s := by
  obtain ⟨hplain, htrim, hspaced⟩ := h
  have htrim : trimScript s = s := String.toList_injective ((toList_trimScript s).trans htrim)
  rw [normalizeVoiceReviewUtterance, hlib.nfkc s hplain, htrim, hlib.toLowerCase s hplain]
  exact String.toList_injective ((toList_spacedWords s).trans hspaced)

theorem isPlainText_of_mem : ∀ text ∈ decisionTexts.map (·.2.toList), IsPlainText text := by
  simp only [decisionTexts, voiceReviewConfirmPhrases, noReviewPhrases, cancelReviewPhrases, List.map_cons,
    List.map_nil, List.cons_append, List.nil_append, String.reduceToList]
  decide +kernel

theorem decisionPhrases_eq (hlib : lib.KeepsPlain) : decisionPhrases lib = plainPhrases := by
  refine List.map_congr_left fun text htext => ?_
  rw [(isPlainText_of_mem _ (List.mem_map_of_mem htext)).normalize_eq hlib]

end

/-! ## Phrases at the beginning of words -/

section

variable {words rest p : List String}

theorem hasPleaseDo_cons {w : String} :
    HasPleaseDo (w :: words) ↔ PleaseDo (w :: words) ∨ HasPleaseDo words := by
  simp [HasPleaseDo, List.suffix_cons_iff, or_and_right, exists_or]

theorem not_hasPleaseDo_nil : ¬ HasPleaseDo [] := by
  rintro ⟨rest, hrest, more, rfl, _⟩
  exact absurd (List.suffix_nil.mp hrest) nofun

theorem hasPleaseDo_append (h : "yes" ∉ p) : HasPleaseDo (p ++ rest) ↔ HasPleaseDo rest := by
  induction p with
  | nil => rfl
  | cons w p ih =>
      rw [List.mem_cons, not_or] at h
      rw [List.cons_append, hasPleaseDo_cons, ih h.2, or_iff_right]
      rintro ⟨more, heq, _⟩
      exact h.1 (List.cons.inj heq).1.symm

def allPhrases : List (List String) := plainPhrases.map (·.2)

/-! ### Phrases by the numbers of their words -/

/-- Words are compared by numbers. -/
def wordCode (w : List Char) : ℕ := w.foldl (fun n c => n * 256 + c.toNat) 0

def phraseCode (p : List String) : List ℕ := p.map fun w => wordCode w.toList

def textCode (s : String) : List ℕ := (Go.splitList (· == ' ') s.toList).map wordCode

def codedPhrases : List (VoiceBinaryDecision × List ℕ) :=
  decisionTexts.map fun text => (text.1, textCode text.2)

/-- What the phrases have in common, by their numbers. -/
structure CodeFacts (phrases : List (VoiceBinaryDecision × List ℕ)) : Prop where
  once : (phrases.map (·.2)).Nodup
  nonempty : ∀ p ∈ phrases, p.2 ≠ []
  /-- A phrase that means yes goes on as another one only if it is `yes` or `sure`. -/
  longer : ∀ p ∈ phrases, p.1 = .yes → ∀ q ∈ phrases, p.2 <+: q.2 → q.2 = p.2 ∨
    (p.2 = textCode "yes" ∧ q.2 = textCode "yes please") ∨
    (p.2 = textCode "sure" ∧ q.2 = textCode "sure thing")
  /-- Words that no phrase begins with that means yes. -/
  inner : ∀ p ∈ phrases, p.1 = .yes →
    p.2.head? ∉ ["thing", "it", "not", ""].map fun w => some (wordCode w.toList)
  please : ∀ p ∈ phrases, p.1 = .yes → p.2.head? = some (wordCode "please".toList) →
    p.2 = textCode "please do" ∨ p.2 = textCode "please proceed"
  doIt : ∀ p ∈ phrases, p.2.head? = some (wordCode "do".toList) → p.2 = textCode "do it" ∨
    (p.1 ≠ .yes ∧ (p.2 = textCode "do not" ∨ p.2 = textCode "do not do it"))
  yesIn : ∀ p ∈ phrases, p.1 = .yes → wordCode "yes".toList ∈ p.2 →
    p.2 = textCode "yes" ∨ p.2 = textCode "yes please"
  foreign : ∀ p ∈ phrases, p.1 ≠ .yes → ∃ c ∈ p.2, ∀ q ∈ phrases, q.1 = .yes → c ∉ q.2

theorem codeFacts : CodeFacts codedPhrases := by
  simp only [codedPhrases, textCode, decisionTexts, voiceReviewConfirmPhrases, noReviewPhrases,
    cancelReviewPhrases, List.map_cons, List.map_nil, List.cons_append, List.nil_append, String.reduceToList]
  exact
    { once := by decide +kernel
      nonempty := by decide +kernel
      longer := by
        simp only [textCode, String.reduceToList]
        decide +kernel
      inner := by
        simp only [List.map_cons, List.map_nil, String.reduceToList]
        decide +kernel
      please := by
        simp only [textCode, String.reduceToList]
        decide +kernel
      doIt := by
        simp only [textCode, String.reduceToList]
        decide +kernel
      yesIn := by
        simp only [textCode, String.reduceToList]
        decide +kernel
      foreign := by decide +kernel }

theorem phraseCode_splitSpaces (s : String) : phraseCode (splitSpaces s) = textCode s := by
  simp [phraseCode, splitSpaces, Go.splitChar, textCode]

theorem coded_mem {q : VoiceBinaryDecision × List String} (h : q ∈ plainPhrases) :
    (q.1, phraseCode q.2) ∈ codedPhrases := by
  obtain ⟨text, htext, rfl⟩ := List.mem_map.mp h
  rw [phraseCode_splitSpaces]
  exact List.mem_map_of_mem htext

theorem nodup_codes : (plainPhrases.map fun q => phraseCode q.2).Nodup := by
  have hcodes : (plainPhrases.map fun q => phraseCode q.2) = codedPhrases.map (·.2) := by
    rw [plainPhrases, codedPhrases, List.map_map, List.map_map]
    exact List.map_congr_left fun text _ => phraseCode_splitSpaces text.2
  rw [hcodes]
  exact CodeFacts.once codeFacts

/-- A phrase is known by its number. -/
theorem eq_of_code {q r : VoiceBinaryDecision × List String} (hq : q ∈ plainPhrases)
    (hr : r ∈ plainPhrases) (h : phraseCode q.2 = phraseCode r.2) : q = r :=
  List.inj_on_of_nodup_map nodup_codes hq hr h

/-- The words of a phrase whose number is that of a text. -/
theorem words_of_code {q : VoiceBinaryDecision × List String} (hq : q ∈ plainPhrases) {text : String}
    (h : phraseCode q.2 = textCode text) {words : List String} (hwords : splitSpaces text = words)
    (htext : text ∈ decisionTexts.map (·.2)) : q.2 = words := by
  obtain ⟨t, ht, rfl⟩ := List.mem_map.mp htext
  rw [eq_of_code hq (List.mem_map_of_mem ht) (h.trans (phraseCode_splitSpaces t.2).symm), hwords]

theorem mem_confirmWords_iff : p ∈ confirmWords ↔ (.yes, p) ∈ plainPhrases := by
  simp [confirmWords, plainPhrases, decisionTexts]

theorem mem_allPhrases_iff : p ∈ allPhrases ↔ ∃ d, (d, p) ∈ plainPhrases := by
  simp [allPhrases]

/-! ### Phrases that begin alike -/

theorem ne_nil_of_mem (hp : p ∈ allPhrases) : p ≠ [] := by
  obtain ⟨d, hp⟩ := mem_allPhrases_iff.mp hp
  rintro rfl
  exact CodeFacts.nonempty codeFacts _ (coded_mem hp) rfl

theorem mem_allPhrases (hp : p ∈ confirmWords) : p ∈ allPhrases :=
  mem_allPhrases_iff.mpr ⟨_, mem_confirmWords_iff.mp hp⟩

section

attribute [local simp] decisionTexts voiceReviewConfirmPhrases noReviewPhrases cancelReviewPhrases splitSpaces
  Go.splitChar Go.splitList

/-- Only `yes` and `sure` go on as another phrase. -/
theorem eq_or_of_begins (hp : p ∈ confirmWords) {q : List String} (hq : q ∈ allPhrases) (h : p <+: q) :
    q = p ∨ (p = ["yes"] ∧ q = ["yes", "please"]) ∨ (p = ["sure"] ∧ q = ["sure", "thing"]) := by
  obtain ⟨d, hq⟩ := mem_allPhrases_iff.mp hq
  have hp := mem_confirmWords_iff.mp hp
  have hcode : phraseCode p <+: phraseCode q := h.map _
  rcases CodeFacts.longer codeFacts _ (coded_mem hp) rfl _ (coded_mem hq) hcode with
    heq | ⟨hyes, hplease⟩ | ⟨hsure, hthing⟩
  · exact .inl (congrArg Prod.snd (eq_of_code hq hp heq))
  · refine .inr (.inl ⟨?_, ?_⟩)
    · exact words_of_code hp hyes (by simp) (by simp)
    · exact words_of_code hq hplease (by simp) (by simp)
  · refine .inr (.inr ⟨?_, ?_⟩)
    · exact words_of_code hp hsure (by simp) (by simp)
    · exact words_of_code hq hthing (by simp) (by simp)

theorem head_code {w : String} (h : p.head? = some w) : (phraseCode p).head? = some (wordCode w.toList) := by
  rw [phraseCode, List.head?_map, h]
  rfl

theorem head_ne (hp : p ∈ confirmWords) : p.head? ∉ ["thing", "it", "not", ""].map some := by
  intro hhead
  obtain ⟨w, hw, hhead⟩ := List.mem_map.mp hhead
  exact CodeFacts.inner codeFacts _ (coded_mem (mem_confirmWords_iff.mp hp)) rfl
    (List.mem_map.mpr ⟨w, hw, (head_code hhead.symm).symm⟩)

theorem head_please (hp : p ∈ confirmWords) (h : p.head? = some "please") :
    p = ["please", "do"] ∨ p = ["please", "proceed"] := by
  have hp := mem_confirmWords_iff.mp hp
  rcases CodeFacts.please codeFacts _ (coded_mem hp) rfl (head_code h) with hdo | hproceed
  · exact .inl (words_of_code hp hdo (by simp) (by simp))
  · exact .inr (words_of_code hp hproceed (by simp) (by simp))

/-- Where `do` begins a phrase, `it` or `not` goes on. -/
theorem head_do {d : VoiceBinaryDecision} (hp : (d, p) ∈ plainPhrases) (h : p.head? = some "do") :
    p = ["do", "it"] ∨ d ≠ .yes ∧ p.tail.head? = some "not" := by
  rcases CodeFacts.doIt codeFacts _ (coded_mem hp) (head_code h) with hit | ⟨hd, hnot | hnot⟩
  · exact .inl (words_of_code hp hit (by simp) (by simp))
  · have hwords : p = ["do", "not"] := words_of_code hp hnot (by simp) (by simp)
    exact .inr ⟨hd, by rw [hwords]; rfl⟩
  · have hwords : p = ["do", "not", "do", "it"] := words_of_code hp hnot (by simp) (by simp)
    exact .inr ⟨hd, by rw [hwords]; rfl⟩

theorem yes_mem (hp : p ∈ confirmWords) (h : "yes" ∈ p) : p = ["yes"] ∨ p = ["yes", "please"] := by
  have hp := mem_confirmWords_iff.mp hp
  have hcode : wordCode "yes".toList ∈ phraseCode p :=
    List.mem_map_of_mem (f := fun w : String => wordCode w.toList) h
  rcases CodeFacts.yesIn codeFacts _ (coded_mem hp) rfl hcode with hyes | hplease
  · exact .inl (words_of_code hp hyes (by simp) (by simp))
  · exact .inr (words_of_code hp hplease (by simp) (by simp))

theorem mem_confirm_of_text {t : String} (h : t ∈ voiceReviewConfirmPhrases) (hp : splitSpaces t = p) :
    p ∈ confirmWords := List.mem_map.mpr ⟨t, h, hp⟩

theorem yes_mem_confirm : ["yes"] ∈ confirmWords := mem_confirm_of_text (t := "yes") (by simp) (by simp)

theorem sure_mem_confirm : ["sure"] ∈ confirmWords := mem_confirm_of_text (t := "sure") (by simp) (by simp)

theorem proceed_mem_confirm : ["proceed"] ∈ confirmWords :=
  mem_confirm_of_text (t := "proceed") (by simp) (by simp)

theorem yes_please_mem_confirm : ["yes", "please"] ∈ confirmWords :=
  mem_confirm_of_text (t := "yes please") (by simp) (by simp)

theorem please_do_mem_confirm : ["please", "do"] ∈ confirmWords :=
  mem_confirm_of_text (t := "please do") (by simp) (by simp)

theorem go_ahead_mem_confirm : ["go", "ahead"] ∈ confirmWords :=
  mem_confirm_of_text (t := "go ahead") (by simp) (by simp)

end

theorem nil_not_mem : [] ∉ confirmWords := fun h => ne_nil_of_mem (mem_allPhrases h) rfl

theorem composed_head_ne (h : Composed confirmWords words) :
    words.head? ∉ ["thing", "it", "not", ""].map some := by
  intro hhead
  obtain ⟨w, _, hw⟩ := List.mem_map.mp hhead
  obtain ⟨p, _, hp, hsame, _⟩ := h.exists_cons nil_not_mem hw.symm
  exact head_ne hp (by rw [hsame, hw]; exact hhead)

/-- Where `do` begins a phrase that means yes it is `do it`. -/
theorem composed_do (h : Composed confirmWords ("do" :: rest)) : rest.head? = some "it" := by
  obtain ⟨p, more, hp, hhead, heq, _⟩ := h.exists_cons nil_not_mem rfl
  obtain rfl := (head_do (mem_confirmWords_iff.mp hp) hhead).resolve_right fun h => h.1 rfl
  obtain rfl := (List.cons.inj heq).2
  rfl

/-! ## The first phrase that the scan takes -/

/-- No phrase that begins the words is longer than `p`, if none continues `p`. -/
theorem longest_eq_length (hp : p ∈ confirmWords)
    (hall : ∀ q ∈ allPhrases, p <+: q → q <+: p ++ rest → q = p) :
    longest allPhrases (p ++ rest) = p.length := by
  refine longest_eq (mem_allPhrases hp) (List.prefix_append p rest) fun q hq hbegins => ?_
  rcases List.prefix_or_prefix_of_prefix hbegins (List.prefix_append p rest) with hle | hge
  · exact hle.length_le
  · rw [hall q hq hge hbegins]

/-- The phrase is the one that the scan takes, and what is behind it is composed of phrases too. -/
structure Takes (words p rest : List String) : Prop where
  split : words = p ++ rest
  phrase : p ∈ confirmWords
  length : longest allPhrases words = p.length
  composed : Composed confirmWords rest
  pleaseDo : HasPleaseDo words ↔ HasPleaseDo rest

theorem takes_of_ne (hp : p ∈ confirmWords) (hrest : Composed confirmWords rest) (hyes : p ≠ ["yes"])
    (hsure : p ≠ ["sure"]) : Takes (p ++ rest) p rest where
  split := rfl
  phrase := hp
  length := longest_eq_length hp fun q hq hpq _ =>
    (eq_or_of_begins hp hq hpq).resolve_right fun h => h.elim (fun h => hyes h.1) fun h => hsure h.1
  composed := hrest
  pleaseDo := by
    by_cases hmem : "yes" ∈ p
    · obtain rfl := (yes_mem hp hmem).resolve_left hyes
      rw [List.cons_append, List.cons_append, List.nil_append, hasPleaseDo_cons, hasPleaseDo_cons]
      refine (or_iff_right ?_).trans (or_iff_right ?_)
      · -- behind `yes please` comes `do it`
        rintro ⟨more, heq, hit⟩
        obtain rfl : rest = "do" :: more := by simpa using heq
        exact hit (composed_do hrest)
      · rintro ⟨more, heq, _⟩
        exact absurd (List.cons.inj heq).1 (by decide)
    · exact hasPleaseDo_append hmem

theorem head_of_begins {v w : String} {more : List String} (h : v :: w :: more <+: [v] ++ rest) :
    rest.head? = some w := by
  obtain ⟨_, rfl⟩ := (List.cons_prefix_cons.mp h).2
  rfl

theorem takes_sure (hrest : Composed confirmWords rest) : Takes ("sure" :: rest) ["sure"] rest where
  split := rfl
  phrase := sure_mem_confirm
  length := by
    refine longest_eq_length (p := ["sure"]) sure_mem_confirm fun q hq hpq hbegins => ?_
    refine (eq_or_of_begins sure_mem_confirm hq hpq).resolve_right ?_
    rintro (⟨hno, _⟩ | ⟨_, rfl⟩)
    · exact absurd hno (by decide)
    · exact composed_head_ne hrest (by simp [head_of_begins hbegins])
  composed := hrest
  pleaseDo := hasPleaseDo_append (p := ["sure"]) (by decide)

theorem takes_yes (hrest : Composed confirmWords rest) (hplease : rest.head? ≠ some "please") :
    Takes ("yes" :: rest) ["yes"] rest where
  split := rfl
  phrase := yes_mem_confirm
  length := by
    refine longest_eq_length (p := ["yes"]) yes_mem_confirm fun q hq hpq hbegins => ?_
    refine (eq_or_of_begins yes_mem_confirm hq hpq).resolve_right ?_
    rintro (⟨_, rfl⟩ | ⟨hno, _⟩)
    · exact hplease (head_of_begins hbegins)
    · exact absurd hno (by decide)
  composed := hrest
  pleaseDo := by
    rw [hasPleaseDo_cons, or_iff_right]
    rintro ⟨more, heq, _⟩
    rw [(List.cons.inj heq).2] at hplease
    exact hplease rfl

/-- The scan takes a phrase, or gets stuck at `do`. -/
theorem exists_takes (h : Composed confirmWords words) (hne : words ≠ []) :
    (∃ p rest, Takes words p rest) ∨
      ∃ rest, words = "yes" :: "please" :: "do" :: rest ∧ Composed confirmWords rest := by
  cases h with
  | nil => exact absurd rfl hne
  | @append p rest hp hrest =>
      by_cases hsure : p = ["sure"]
      · subst hsure
        exact .inl ⟨_, _, takes_sure hrest⟩
      · by_cases hyes : p = ["yes"]
        · subst hyes
          by_cases hplease : rest.head? = some "please"
          · obtain ⟨q, more, hq, hhead, rfl, hmore⟩ := hrest.exists_cons nil_not_mem hplease
            rcases head_please hq hhead with rfl | rfl
            · exact .inr ⟨more, rfl, hmore⟩
            · -- `please proceed` is read as `please` and `proceed`
              have hproceed : Composed confirmWords ("proceed" :: more) :=
                .append (p := ["proceed"]) proceed_mem_confirm hmore
              exact .inl ⟨_, _, takes_of_ne (p := ["yes", "please"]) yes_please_mem_confirm hproceed
                (by decide) (by decide)⟩
          · exact .inl ⟨_, _, takes_yes hrest hplease⟩
        · exact .inl ⟨_, _, takes_of_ne hp hrest hyes hsure⟩

end

/-! ## The scan -/

section

variable {words rest p : List String} {scan : DecisionScan} {n : ℕ}

theorem scanDecision_succ {phrases : List (VoiceBinaryDecision × List String)} (hne : words ≠ []) :
    scanDecision phrases (n + 1) words scan =
      if longest (phrases.map (·.2)) words = 0 then
        scanDecision phrases n words.tail { scan with uncovered := true }
      else
        scanDecision phrases n (words.drop (longest (phrases.map (·.2)) words))
          { scan with signals := scan.signals ++ (phrases.filter fun p =>
              p.2.isPrefixOf words && p.2.length == longest (phrases.map (·.2)) words).map (·.1) } := by
  cases words with
  | nil => exact absurd rfl hne
  | cons w words => rfl

theorem scanDecision_stuck (h : longest allPhrases words = 0) (hne : words ≠ []) :
    scanDecision plainPhrases (n + 1) words scan =
      scanDecision plainPhrases n words.tail { scan with uncovered := true } := by
  rw [scanDecision_succ hne, ← allPhrases, h, if_pos rfl]

/-- The phrases of a length that the words begin with are one phrase. -/
theorem filter_prefix {phrases : List (VoiceBinaryDecision × List String)} :
    (phrases.filter fun q => q.2.isPrefixOf (p ++ rest) && q.2.length == p.length) =
      phrases.filter (·.2 == p) := by
  refine List.filter_congr fun q _ => ?_
  rw [Bool.eq_iff_iff, Bool.and_eq_true, List.isPrefixOf_iff_prefix, beq_iff_eq, beq_iff_eq]
  constructor
  · rintro ⟨hbegins, hlength⟩
    exact (List.prefix_of_prefix_length_le hbegins (List.prefix_append p rest) hlength.le).eq_of_length hlength
  · rintro rfl
    exact ⟨List.prefix_append _ _, rfl⟩

theorem scanDecision_append (h : longest allPhrases (p ++ rest) = p.length) (hne : p ≠ []) :
    scanDecision plainPhrases (n + 1) (p ++ rest) scan =
      scanDecision plainPhrases n rest
        { scan with signals := scan.signals ++ (plainPhrases.filter (·.2 == p)).map (·.1) } := by
  have hlength : p.length ≠ 0 := fun h0 => hne (List.length_eq_zero_iff.mp h0)
  have hwords : p ++ rest ≠ [] := fun hnil => hne (List.append_eq_nil_iff.mp hnil).1
  rw [scanDecision_succ hwords, ← allPhrases, h, if_neg hlength, filter_prefix, List.drop_left]

/-- Behind `yes please` the scan finds no phrase for `do`. -/
theorem scan_of_pleaseDo (hrest : Composed confirmWords rest)
    (hn : ("yes" :: "please" :: "do" :: rest).length ≤ n + 1) :
    ∃ m scan', scanDecision plainPhrases (n + 1) ("yes" :: "please" :: "do" :: rest) scan =
      scanDecision plainPhrases m rest scan' ∧ scan'.uncovered = true := by
  have hlength : longest allPhrases (["yes", "please"] ++ "do" :: rest) = ["yes", "please"].length := by
    refine longest_eq_length yes_please_mem_confirm fun q hq hpq _ => ?_
    refine (eq_or_of_begins yes_please_mem_confirm hq hpq).resolve_right ?_
    rintro (⟨hno, _⟩ | ⟨hno, _⟩) <;> exact absurd hno (by decide)
  have hstuck : longest allPhrases ("do" :: rest) = 0 := by
    refine longest_eq_zero fun q hq hbegins => ?_
    obtain ⟨d, hd⟩ := mem_allPhrases_iff.mp hq
    obtain ⟨w, q, rfl⟩ := List.exists_cons_of_ne_nil (ne_nil_of_mem hq)
    obtain ⟨rfl, htail⟩ := List.cons_prefix_cons.mp hbegins
    have hheads := composed_head_ne hrest
    rcases head_do hd rfl with hit | ⟨_, hnot⟩
    · obtain rfl := (List.cons.inj hit).2
      obtain ⟨more, rfl⟩ := htail
      exact hheads (by simp)
    · obtain ⟨more, rfl⟩ := htail
      cases q with
      | nil => cases hnot
      | cons v q =>
          obtain rfl := Option.some.inj hnot
          exact hheads (by simp)
  obtain ⟨m, rfl⟩ : ∃ m, n = m + 1 := by
    refine Nat.exists_eq_succ_of_ne_zero fun h0 => ?_
    simp [h0] at hn
  let signals := scan.signals ++ (plainPhrases.filter (·.2 == ["yes", "please"])).map (·.1)
  refine ⟨m, { signals, uncovered := true }, ?_, rfl⟩
  have htaken : scanDecision plainPhrases (m + 2) (["yes", "please"] ++ "do" :: rest) scan =
      scanDecision plainPhrases (m + 1) ("do" :: rest) { scan with signals } :=
    scanDecision_append hlength (by decide)
  exact htaken.trans (scanDecision_stuck hstuck (List.cons_ne_nil _ _))

theorem uncovered_of_scan (h : scan.uncovered = true) :
    (scanDecision plainPhrases n words scan).uncovered = true := by
  induction n generalizing words scan with
  | zero => exact h
  | succ n ih =>
      cases words with
      | nil => exact h
      | cons w words =>
          rw [scanDecision_succ (List.cons_ne_nil w words)]
          split_ifs
          · exact ih rfl
          · exact ih h

theorem mem_signals_scan {d : VoiceBinaryDecision} (h : d ∈ scan.signals) :
    d ∈ (scanDecision plainPhrases n words scan).signals := by
  induction n generalizing words scan with
  | zero => exact h
  | succ n ih =>
      cases words with
      | nil => exact h
      | cons w words =>
          rw [scanDecision_succ (List.cons_ne_nil w words)]
          split_ifs
          · exact ih h
          · exact ih (List.mem_append_left _ h)

/-- Each phrase is in the vocabulary once. -/
theorem signals_eq {d : VoiceBinaryDecision} (h : (d, p) ∈ plainPhrases) :
    (plainPhrases.filter (·.2 == p)).map (·.1) = [d] := by
  have hsame : plainPhrases.filter (·.2 == p) = plainPhrases.filter (· == (d, p)) := by
    refine List.filter_congr fun q hq => ?_
    rw [Bool.eq_iff_iff, beq_iff_eq, beq_iff_eq]
    exact ⟨fun heq => eq_of_code hq h (congrArg phraseCode heq), congrArg Prod.snd⟩
  have hnodup : plainPhrases.Nodup := List.Nodup.of_map _ nodup_codes
  rw [hsame, List.filter_beq, List.count_eq_one_of_mem hnodup h]
  rfl

theorem decision_cases {d : VoiceBinaryDecision} (h : (d, p) ∈ plainPhrases) :
    d = .yes ∨ d = .no ∨ d = .cancel := by
  obtain ⟨text, htext, heq⟩ := List.mem_map.mp h
  obtain ⟨rfl, _⟩ := Prod.mk.inj heq
  simp only [decisionTexts, List.mem_append, List.mem_map] at htext
  rcases htext with (⟨_, _, rfl⟩ | ⟨_, _, rfl⟩) | ⟨_, _, rfl⟩
  · exact .inl rfl
  · exact .inr (.inl rfl)
  · exact .inr (.inr rfl)

/-- Words that the scan covers without a no are composed of phrases that mean yes. -/
theorem composed_of_scan (hn : words.length ≤ n)
    (hcovered : (scanDecision plainPhrases n words scan).uncovered = false)
    (hno : .no ∉ (scanDecision plainPhrases n words scan).signals)
    (hcancel : .cancel ∉ (scanDecision plainPhrases n words scan).signals) : Composed confirmWords words := by
  induction n generalizing words scan with
  | zero =>
      rw [List.length_eq_zero_iff.mp (Nat.le_zero.mp hn)]
      exact .nil
  | succ n ih =>
      by_cases hne : words = []
      · rw [hne]
        exact .nil
      · by_cases hzero : longest allPhrases words = 0
        · rw [scanDecision_stuck hzero hne, uncovered_of_scan rfl] at hcovered
          cases hcovered
        · have htaken := take_longest_mem hzero
          have hsplit : words.take (longest allPhrases words) ++ words.drop (longest allPhrases words) =
              words := List.take_append_drop _ _
          have hlength : (words.take (longest allPhrases words)).length = longest allPhrases words :=
            List.length_take_of_le longest_le_length
          have hne' : words.take (longest allPhrases words) ≠ [] := by
            intro hnil
            rw [hnil] at hlength
            exact hzero hlength.symm
          generalize hp : words.take (longest allPhrases words) = p at *
          generalize hrest : words.drop (longest allPhrases words) = rest at *
          subst hsplit
          rw [scanDecision_append hlength.symm hne'] at hcovered hno hcancel
          have hshort : rest.length ≤ n := by
            have hpos := List.length_pos_iff.mpr hne'
            rw [List.length_append] at hn
            omega
          refine .append ?_ (ih hshort hcovered hno hcancel)
          obtain ⟨d, hd⟩ := mem_allPhrases_iff.mp htaken
          rw [signals_eq hd] at hno hcancel
          have hsignal : d ∈
              (scanDecision plainPhrases n rest { scan with signals := scan.signals ++ [d] }).signals :=
            mem_signals_scan (List.mem_append_right _ List.mem_cons_self)
          rcases decision_cases hd with rfl | rfl | rfl
          · exact mem_confirmWords_iff.mpr hd
          · exact absurd hsignal hno
          · exact absurd hsignal hcancel

/-- On words that are composed of phrases that mean yes the scan finds no other phrase, and covers
them all, if `yes please do` does not mislead it. -/
theorem scan_of_composed (h : Composed confirmWords words) (hn : words.length ≤ n) :
    (HasPleaseDo words → (scanDecision plainPhrases n words scan).uncovered = true) ∧
      (¬ HasPleaseDo words → ∃ k, (words ≠ [] → k ≠ 0) ∧ scanDecision plainPhrases n words scan =
        { scan with signals := scan.signals ++ List.replicate k .yes }) := by
  induction n generalizing words scan with
  | zero =>
      obtain rfl := List.length_eq_zero_iff.mp (Nat.le_zero.mp hn)
      exact ⟨fun hdo => absurd hdo not_hasPleaseDo_nil, fun _ => ⟨0, fun hne => absurd rfl hne, by
        rw [List.replicate_zero, List.append_nil]
        rfl⟩⟩
  | succ n ih =>
      by_cases hne : words = []
      · subst hne
        exact ⟨fun hdo => absurd hdo not_hasPleaseDo_nil, fun _ => ⟨0, fun hne => absurd rfl hne, by
          rw [List.replicate_zero, List.append_nil]
          rfl⟩⟩
      · rcases exists_takes h hne with ⟨p, rest, htakes⟩ | ⟨rest, rfl, hrest⟩
        · obtain ⟨rfl, hp, hlength, hcomposed, hdo⟩ := htakes
          have hpne := ne_nil_of_mem (mem_allPhrases hp)
          have hshort : rest.length ≤ n := by
            have hpos := List.length_pos_iff.mpr hpne
            rw [List.length_append] at hn
            omega
          obtain ⟨hstuck, hclear⟩ :=
            @ih rest { scan with signals := scan.signals ++ [.yes] } hcomposed hshort
          rw [scanDecision_append hlength hpne, signals_eq (mem_confirmWords_iff.mp hp), hdo]
          refine ⟨hstuck, fun hnot => ?_⟩
          obtain ⟨k, _, hscan⟩ := hclear hnot
          refine ⟨k + 1, fun _ => Nat.succ_ne_zero k, ?_⟩
          rw [hscan, List.append_assoc]
          rfl
        · obtain ⟨m, scan', hscan, huncovered⟩ := scan_of_pleaseDo hrest hn
          have hdo : HasPleaseDo ("yes" :: "please" :: "do" :: rest) :=
            ⟨_, List.suffix_rfl, rest, rfl, fun hit => composed_head_ne hrest (by simp [hit])⟩
          refine ⟨fun _ => ?_, fun hnot => absurd hdo hnot⟩
          rw [hscan]
          exact uncovered_of_scan huncovered

end

/-! ## Yes means yes -/

theorem DecisionScan.decision_eq_yes {scan : DecisionScan} : scan.decision = .yes ↔
    .yes ∈ scan.signals ∧ .no ∉ scan.signals ∧ .cancel ∉ scan.signals ∧ scan.uncovered = false := by
  unfold DecisionScan.decision
  by_cases hyes : .yes ∈ scan.signals
  · by_cases hother : .no ∈ scan.signals ∨ .cancel ∈ scan.signals
    · rw [if_pos ⟨hyes, hother⟩]
      refine iff_of_false nofun fun h => ?_
      exact hother.elim h.2.1 h.2.2.1
    · rw [if_neg fun h => hother h.2]
      rw [not_or] at hother
      cases hcovered : scan.uncovered <;> simp [hyes, hother]
  · rw [if_neg fun h => hyes h.1]
    refine iff_of_false ?_ fun h => hyes h.1
    split_ifs <;> exact nofun

/-- The answer means yes exactly if its words are phrases that do; these have no other phrase among
them; and a single phrase means what it means on its own. -/
structure MeansYes (lib : TextPlatform) (input : String) : Prop where
  iff_composed : classifyVoiceBinaryDecision lib input = .yes ↔ Composed confirmWords (utteranceWords lib input)
  no_decline : classifyVoiceBinaryDecision lib input = .yes →
    ∀ p ∈ declineWords, ¬ p <:+: utteranceWords lib input
  agrees : ∀ d, normalizeConfirmationResponse lib input = some d → classifyVoiceBinaryDecision lib input = d

section

variable {lib : TextPlatform} {input : String} {words : List String}

theorem classify_eq (hlib : lib.KeepsPlain) (hne : normalizeVoiceReviewUtterance lib input ≠ "") :
    classifyVoiceBinaryDecision lib input =
      (scanDecision plainPhrases (utteranceWords lib input).length (utteranceWords lib input) {}).decision := by
  unfold classifyVoiceBinaryDecision
  dsimp only
  rw [if_neg hne, decisionPhrases_eq hlib]
  rfl

theorem not_composed_empty : ¬ Composed confirmWords [""] := fun h => composed_head_ne h (by simp)

theorem splitSpaces_ne_nil (s : String) : splitSpaces s ≠ [] := by
  have hne : ∀ l, Go.splitList (· == ' ') l ≠ [] := by
    intro l
    induction l with
    | nil => exact List.cons_ne_nil _ _
    | cons c l _ =>
        unfold Go.splitList
        split_ifs
        · exact List.cons_ne_nil _ _
        · split <;> exact List.cons_ne_nil _ _
  rw [splitSpaces, Go.splitChar, ne_eq, List.map_eq_nil_iff]
  exact hne _

/-- A phrase that declines has a word that no phrase has that means yes. -/
theorem exists_foreign_word (hp : p ∈ declineWords) : ∃ w ∈ p, ∀ q ∈ confirmWords, w ∉ q := by
  obtain ⟨d, hd, hne⟩ : ∃ d, (d, p) ∈ plainPhrases ∧ d ≠ .yes := by
    obtain ⟨text, htext, rfl⟩ := List.mem_map.mp hp
    rcases List.mem_append.mp htext with hno | hcancel
    · exact ⟨.no, List.mem_map.mpr ⟨(.no, text), by simp [decisionTexts, hno], rfl⟩, nofun⟩
    · exact ⟨.cancel, List.mem_map.mpr ⟨(.cancel, text), by simp [decisionTexts, hcancel], rfl⟩,
        nofun⟩
  obtain ⟨c, hc, hforeign⟩ := CodeFacts.foreign codeFacts _ (coded_mem hd) hne
  obtain ⟨w, hw, rfl⟩ := List.mem_map.mp hc
  exact ⟨w, hw, fun q hq hwq => hforeign _ (coded_mem (mem_confirmWords_iff.mp hq)) rfl
    (List.mem_map_of_mem (f := fun w : String => wordCode w.toList) hwq)⟩

theorem not_infix_of_composed (h : Composed confirmWords words) : ∀ p ∈ declineWords, ¬ p <:+: words := by
  intro p hp hwithin
  obtain ⟨w, hw, hforeign⟩ := exists_foreign_word hp
  obtain ⟨q, hq, hwq⟩ := h.exists_phrase (hwithin.subset hw)
  exact hforeign q hq hwq

/-- The answer is yes, if and only if the words are composed of phrases that mean yes and do not
mislead the scan. -/
theorem classify_yes_iff (hlib : lib.KeepsPlain) : classifyVoiceBinaryDecision lib input = .yes ↔
    Composed confirmWords (utteranceWords lib input) ∧ ¬ HasPleaseDo (utteranceWords lib input) := by
  by_cases hempty : normalizeVoiceReviewUtterance lib input = ""
  · have hwords : utteranceWords lib input = [""] := by
      rw [utteranceWords, hempty]
      decide +kernel
    refine iff_of_false ?_ fun h => not_composed_empty (hwords ▸ h.1)
    unfold classifyVoiceBinaryDecision
    rw [if_pos hempty]
    exact nofun
  · rw [classify_eq hlib hempty, DecisionScan.decision_eq_yes]
    constructor
    · rintro ⟨_, hno, hcancel, hcovered⟩
      have hcomposed := composed_of_scan le_rfl hcovered hno hcancel
      refine ⟨hcomposed, fun hdo => ?_⟩
      rw [(scan_of_composed hcomposed le_rfl).1 hdo] at hcovered
      cases hcovered
    · rintro ⟨hcomposed, hnot⟩
      obtain ⟨k, hk, hscan⟩ := (scan_of_composed hcomposed le_rfl).2 hnot
      rw [hscan, List.nil_append]
      have hall : ∀ d ∈ List.replicate k VoiceBinaryDecision.yes, d = .yes :=
        fun _ => List.eq_of_mem_replicate
      refine ⟨List.mem_replicate.mpr ⟨hk (splitSpaces_ne_nil _), rfl⟩, fun hno => ?_,
        fun hcancel => ?_, rfl⟩
      · exact absurd (hall _ hno) nofun
      · exact absurd (hall _ hcancel) nofun

/-- Each text of the vocabulary means what it stands for. -/
theorem decision_of_text {text : VoiceBinaryDecision × String} (h : text ∈ decisionTexts) :
    (scanDecision plainPhrases (splitSpaces text.2).length (splitSpaces text.2) {}).decision = text.1 := by
  have hmem : (text.1, splitSpaces text.2) ∈ plainPhrases := List.mem_map_of_mem h
  have hall : splitSpaces text.2 ∈ allPhrases := mem_allPhrases_iff.mpr ⟨_, hmem⟩
  have hne := ne_nil_of_mem hall
  generalize splitSpaces text.2 = p at *
  obtain ⟨n, hn⟩ := Nat.exists_eq_succ_of_ne_zero fun h0 => hne (List.length_eq_zero_iff.mp h0)
  have hlength : longest allPhrases (p ++ []) = p.length := by
    rw [List.append_nil]
    exact longest_eq hall List.prefix_rfl fun q _ hq => hq.length_le
  have hscan : scanDecision plainPhrases p.length p {} = { signals := [text.1] } := by
    have hstep : scanDecision plainPhrases (n + 1) (p ++ []) {} = scanDecision plainPhrases n [] _ :=
      scanDecision_append hlength hne
    rw [List.append_nil, signals_eq hmem] at hstep
    rw [hn, hstep]
    cases n <;> rfl
  rw [hscan]
  rcases decision_cases hmem with hd | hd | hd <;> rw [hd] <;> rfl

theorem empty_not_mem {d : VoiceBinaryDecision} : (d, "") ∉ decisionTexts := by
  simp [decisionTexts, voiceReviewConfirmPhrases, noReviewPhrases, cancelReviewPhrases]

theorem classify_of_recognised (hlib : lib.KeepsPlain) {d : VoiceBinaryDecision}
    (h : normalizeConfirmationResponse lib input = some d) : classifyVoiceBinaryDecision lib input = d := by
  have hmem : (d, normalizeVoiceReviewUtterance lib input) ∈ decisionTexts := by
    unfold normalizeConfirmationResponse at h
    dsimp only at h
    simp only [decisionTexts, List.mem_append, List.mem_map, Prod.mk.injEq]
    split_ifs at h with hyes hno hcancel
    · exact .inl (.inl ⟨_, hyes, Option.some.inj h, rfl⟩)
    · exact .inl (.inr ⟨_, hno, Option.some.inj h, rfl⟩)
    · exact .inr ⟨_, hcancel, Option.some.inj h, rfl⟩
  have hne : normalizeVoiceReviewUtterance lib input ≠ "" := fun hempty => empty_not_mem (hempty ▸ hmem)
  have hdecision := decision_of_text hmem
  rw [classify_eq hlib hne]
  exact hdecision

end

/-- A yes is understood as one, unless the words say `yes please do` and do not go on with `it`. -/
theorem means_yes_iff {lib : TextPlatform} (hlib : lib.KeepsPlain) (input : String) :
    MeansYes lib input ↔
      ¬ (Composed confirmWords (utteranceWords lib input) ∧ HasPleaseDo (utteranceWords lib input)) := by
  constructor
  · rintro h ⟨hcomposed, hdo⟩
    exact ((classify_yes_iff hlib).mp (h.iff_composed.mpr hcomposed)).2 hdo
  · intro h
    refine ⟨⟨fun hyes => ((classify_yes_iff hlib).mp hyes).1, fun hcomposed => ?_⟩, fun hyes => ?_,
      fun d => classify_of_recognised hlib⟩
    · exact (classify_yes_iff hlib).mpr ⟨hcomposed, fun hdo => h ⟨hcomposed, hdo⟩⟩
    · exact not_infix_of_composed ((classify_yes_iff hlib).mp hyes).1

theorem utteranceWords_plainPlatform (input : String) : utteranceWords plainPlatform input =
    (splitList (· == ' ') (spacedWordsList ((trimScriptList input.toList).map Char.toLower))).map
      String.ofList := by
  rw [utteranceWords, splitSpaces, splitChar, normalizeVoiceReviewUtterance, toList_spacedWords]
  simp [plainPlatform, toList_trimScript]

/-- Two phrases with punctuation between them. -/
theorem means_yes_go_ahead : MeansYes plainPlatform "Yes, please. Go ahead!" ∧
    classifyVoiceBinaryDecision plainPlatform "Yes, please. Go ahead!" = .yes := by
  have hwords : utteranceWords plainPlatform "Yes, please. Go ahead!" = ["yes", "please", "go", "ahead"] := by
    rw [utteranceWords_plainPlatform]
    simp only [String.reduceToList]
    rfl
  have hdo : ¬ HasPleaseDo (utteranceWords plainPlatform "Yes, please. Go ahead!") := by
    rw [hwords]
    simp [hasPleaseDo_cons, PleaseDo, not_hasPleaseDo_nil]
  have hmeans := (means_yes_iff keepsPlain_plainPlatform "Yes, please. Go ahead!").mpr fun h => hdo h.2
  refine ⟨hmeans, hmeans.iff_composed.mpr ?_⟩
  rw [hwords]
  exact .append (p := ["yes", "please"]) yes_please_mem_confirm
    (.append (p := ["go", "ahead"]) go_ahead_mem_confirm .nil)

/-- `yes` and `please do` are phrases of the vocabulary, and together they are not understood. -/
theorem yes_please_do_not_understood :
    Composed confirmWords (utteranceWords plainPlatform "Yes, please do.") ∧
      classifyVoiceBinaryDecision plainPlatform "Yes, please do." ≠ .yes ∧
      classifyVoiceBinaryDecision plainPlatform "Sure, please do." = .yes ∧
      ¬ MeansYes plainPlatform "Yes, please do." := by
  have hwords : utteranceWords plainPlatform "Yes, please do." = ["yes", "please", "do"] := by
    rw [utteranceWords_plainPlatform]
    simp only [String.reduceToList]
    rfl
  have hsure : utteranceWords plainPlatform "Sure, please do." = ["sure", "please", "do"] := by
    rw [utteranceWords_plainPlatform]
    simp only [String.reduceToList]
    rfl
  have hcomposed : Composed confirmWords (utteranceWords plainPlatform "Yes, please do.") := by
    rw [hwords]
    exact .append (p := ["yes"]) yes_mem_confirm (.append (p := ["please", "do"]) please_do_mem_confirm .nil)
  have hno : classifyVoiceBinaryDecision plainPlatform "Yes, please do." ≠ .yes := by
    rw [ne_eq, classify_yes_iff keepsPlain_plainPlatform, hwords]
    exact fun h => h.2 ⟨_, List.suffix_rfl, [], rfl, nofun⟩
  refine ⟨hcomposed, hno, ?_, fun h => hno (h.iff_composed.mpr hcomposed)⟩
  rw [classify_yes_iff keepsPlain_plainPlatform, hsure]
  refine ⟨.append (p := ["sure"]) sure_mem_confirm (.append (p := ["please", "do"]) please_do_mem_confirm .nil), ?_⟩
  simp [hasPleaseDo_cons, PleaseDo, not_hasPleaseDo_nil]

end Scrumboy
