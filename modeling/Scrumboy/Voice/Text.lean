import Scrumboy.Go.Case
import Scrumboy.Web.ScriptText

/-!
# Texts of a spoken command

How the client brings a text that was spoken or typed into one form. The compatibility form of
Unicode and the lower case of a whole text come with the platform, and are a parameter here;
white space, the runs of characters that become one space, and quotes are read off the source.
-/

set_option linter.dupNamespace false

namespace Scrumboy

open Go

/-- What the platform knows about texts. -/
structure TextPlatform where
  /-- `normalize("NFKC")`. -/
  nfkc : String → String
  /-- `toLowerCase()`. -/
  toLowerCase : String → String

def plainApostrophe (c : Char) : Char := if c = '‘' ∨ c = '’' then '\'' else c

/-- `[.!?,;:]`. -/
def isSentencePunctuation (c : Char) : Bool := ".!?,;:".toList.contains c

/-- Sentence punctuation becomes white space, and of white space one space stays. -/
def spacedWords (s : String) : String :=
  replaceRuns isScriptSpace ' '
    (trimScript (replaceRuns isSentencePunctuation ' ' (mapRunes plainApostrophe s)))

def normalizeVoiceReviewUtterance (lib : TextPlatform) (input : String) : String :=
  spacedWords (lib.toLowerCase (trimScript (lib.nfkc input)))

/-- The same on the characters of a text. -/
def trimScriptList (l : List Char) : List Char := (l.dropWhile isScriptSpace).rdropWhile isScriptSpace

def spacedWordsList (l : List Char) : List Char :=
  replaceRunsList isScriptSpace ' ' false
    (trimScriptList (replaceRunsList isSentencePunctuation ' ' false (l.map plainApostrophe)))

theorem toList_trimScript (s : String) : (trimScript s).toList = trimScriptList s.toList := by
  simp [trimScript, trimFunc, trimScriptList]

theorem toList_spacedWords (s : String) : (spacedWords s).toList = spacedWordsList s.toList := by
  simp [spacedWords, spacedWordsList, replaceRuns, toList_trimScript]

/-- `split(" ")`. -/
def splitSpaces (s : String) : List String := splitChar ' ' s

/-- A character of ASCII that is no capital letter. -/
def IsPlainChar (c : Char) : Prop := c.toNat < 128 ∧ ¬ ('A' ≤ c ∧ c ≤ 'Z')

instance (c : Char) : Decidable (IsPlainChar c) := inferInstanceAs (Decidable (_ ∧ _))

/-- Texts of ASCII without capital letters stay as they are. -/
structure TextPlatform.KeepsPlain (lib : TextPlatform) : Prop where
  nfkc : ∀ s : String, (∀ c ∈ s.toList, IsPlainChar c) → lib.nfkc s = s
  toLowerCase : ∀ s : String, (∀ c ∈ s.toList, IsPlainChar c) → lib.toLowerCase s = s

/-- A platform on which texts of ASCII have the forms that they have; all others it does not know. -/
def plainPlatform : TextPlatform := { nfkc := id, toLowerCase := mapRunes Char.toLower }

theorem keepsPlain_plainPlatform : plainPlatform.KeepsPlain where
  nfkc _ _ := rfl
  toLowerCase _ h := mapRunes_eq_self _ _ fun c hc => toLower_of_not_capital (h c hc).2

/-! ## Phrases -/

/-- The apostrophes and quotes that become those of ASCII. -/
def plainQuote (c : Char) : Char :=
  if c = '‘' ∨ c = '’' then '\'' else if c = '“' ∨ c = '”' then '"' else c

/-- `[_-]`. -/
def isDash (c : Char) : Bool := c == '_' || c == '-'

/-- `[.,!?;:()[\]{}]`. -/
def isPhrasePunctuation (c : Char) : Bool := ".,!?;:()[]{}".toList.contains c

def normalizePhrase (lib : TextPlatform) (input : String) : String :=
  let s := mapRunes plainQuote (lib.toLowerCase (lib.nfkc input))
  trimScript (replaceRuns isScriptSpace ' ' (replaceRuns isPhrasePunctuation ' ' (replaceRuns isDash ' ' s)))

/-- What stands between the words of a phrase. -/
def isPhraseBreak (c : Char) : Bool := isDash c || (isPhrasePunctuation c || isScriptSpace c)

/-- The words of a phrase. -/
def phraseWords (lib : TextPlatform) (input : String) : List (List Char) :=
  pieces isPhraseBreak ((lib.toLowerCase (lib.nfkc input)).toList.map plainQuote)

/-- A phrase is brought into one form by putting one space between its words. -/
theorem toList_normalizePhrase (lib : TextPlatform) (input : String) :
    (normalizePhrase lib input).toList = [' '].intercalate (phraseWords lib input) := by
  have hruns : ∀ l, replaceRunsList isScriptSpace ' ' false (replaceRunsList isPhrasePunctuation ' ' false
      (replaceRunsList isDash ' ' false l)) = replaceRunsList isPhraseBreak ' ' false l := by
    intro l
    rw [replaceRunsList_replaceRunsList (by decide) id, replaceRunsList_replaceRunsList (by decide) id]
    rfl
  have hspace : ∀ l, ∀ c ∈ replaceRunsList isPhraseBreak ' ' false l, isScriptSpace c = (c == ' ') := by
    intro l c hc
    rcases mem_replaceRunsList hc with rfl | ⟨_, hno⟩
    · decide
    · have hscript : isScriptSpace c = false := by
        rw [isPhraseBreak, Bool.or_eq_true, Bool.or_eq_true, not_or, not_or] at hno
        exact Bool.eq_false_iff.mpr hno.2.2
      have hne : c ≠ ' ' := by
        rintro rfl
        exact absurd hscript (by decide)
      rw [hscript, beq_false_of_ne hne]
  simp only [normalizePhrase, replaceRuns, trimScript, toList_trimFunc, String.toList_ofList, toList_mapRunes]
  rw [hruns, trim_congr (hspace _), trim_replaceRunsList (by decide)]
  rfl

theorem not_of_mem_phraseWords {lib : TextPlatform} {input : String} {w : List Char}
    (hw : w ∈ phraseWords lib input) : ∀ c ∈ w, ¬ isPhraseBreak c = true := not_of_mem_pieces hw

/-- `split(" ")` and `filter(Boolean)` give the words of a phrase. -/
theorem pieces_normalizePhrase (lib : TextPlatform) (input : String) :
    pieces (· == ' ') (normalizePhrase lib input).toList = phraseWords lib input := by
  rw [toList_normalizePhrase]
  refine pieces_intercalate (fun w hw => ⟨ne_nil_of_mem_pieces hw, fun hspace => ?_⟩)
  exact not_of_mem_phraseWords hw ' ' hspace (by decide)

end Scrumboy
