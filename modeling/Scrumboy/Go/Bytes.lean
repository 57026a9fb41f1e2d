import Mathlib.Data.List.DropRight
import Mathlib.Data.List.SplitOn

/-!
# Strings as bytes

A string that comes from outside is a list of bytes, which need not be UTF-8. The functions of
the standard library that look for ASCII characters work on the bytes; white space may take up
to three of them.
-/

namespace Go

abbrev Bytes := List UInt8

namespace Bytes

def tab : UInt8 := 0x09

def lineFeed : UInt8 := 0x0A

def carriageReturn : UInt8 := 0x0D

def hash : UInt8 := 0x23

def percent : UInt8 := 0x25

def dot : UInt8 := 0x2E

def slash : UInt8 := 0x2F

def colon : UInt8 := 0x3A

def question : UInt8 := 0x3F

def backslash : UInt8 := 0x5C

/-- White space of one byte. -/
def isSpace₁ (a : UInt8) : Bool := (0x09 ≤ a && a ≤ 0x0D) || a == 0x20

/-- White space of two bytes. -/
def isSpace₂ (a b : UInt8) : Bool := a == 0xC2 && (b == 0x85 || b == 0xA0)

/-- White space of three bytes. -/
def isSpace₃ (a b c : UInt8) : Bool :=
  (a == 0xE1 && b == 0x9A && c == 0x80) ||
    (a == 0xE2 && b == 0x80 && ((0x80 ≤ c && c ≤ 0x8A) || c == 0xA8 || c == 0xA9 || c == 0xAF)) ||
    (a == 0xE2 && b == 0x81 && c == 0x9F) || (a == 0xE3 && b == 0x80 && c == 0x80)

def trimSpaceLeft : Bytes → Bytes
  | a :: b :: c :: l =>
      if isSpace₁ a then trimSpaceLeft (b :: c :: l)
      else if isSpace₂ a b then trimSpaceLeft (c :: l)
      else if isSpace₃ a b c then trimSpaceLeft l
      else a :: b :: c :: l
  | [a, b] =>
      if isSpace₁ a then trimSpaceLeft [b]
      else if isSpace₂ a b then []
      else [a, b]
  | [a] => if isSpace₁ a then [] else [a]
  | [] => []

/-- The same from the end, on the reversed string. -/
def trimSpaceRev : Bytes → Bytes
  | a :: b :: c :: l =>
      if isSpace₁ a then trimSpaceRev (b :: c :: l)
      else if isSpace₂ b a then trimSpaceRev (c :: l)
      else if isSpace₃ c b a then trimSpaceRev l
      else a :: b :: c :: l
  | [a, b] =>
      if isSpace₁ a then trimSpaceRev [b]
      else if isSpace₂ b a then []
      else [a, b]
  | [a] => if isSpace₁ a then [] else [a]
  | [] => []

/-- `strings.TrimSpace`. -/
def trimSpace (s : Bytes) : Bytes := (trimSpaceRev (trimSpaceLeft s).reverse).reverse

def hexValue (c : UInt8) : Option UInt8 :=
  if 0x30 ≤ c && c ≤ 0x39 then some (c - 0x30)
  else if 0x61 ≤ c && c ≤ 0x66 then some (c - 0x61 + 10)
  else if 0x41 ≤ c && c ≤ 0x46 then some (c - 0x41 + 10)
  else none

/-- `url.PathUnescape`. -/
def pathUnescape : Bytes → Option Bytes
  | [] => some []
  | c :: l =>
      if c = percent then
        match l with
        | a :: b :: l => do
            let a ← hexValue a
            let b ← hexValue b
            let l ← pathUnescape l
            pure ((a * 16 + b) :: l)
        | _ => none
      else do
        let l ← pathUnescape l
        pure (c :: l)

/-- `s[start : start+n]`. -/
def slice (s : Bytes) (start n : ℕ) : Bytes := (s.drop start).take n

/-- The number that the bytes spell, most significant first. -/
def bigEndian (s : Bytes) : ℕ := s.foldl (fun n b => n * 256 + b.toNat) 0

/-- A slice of a prefix does not depend on what follows the prefix. -/
theorem slice_take_append {s rest : Bytes} {start n k : ℕ} (h : start + n ≤ k) (hk : k ≤ s.length) :
    slice (s.take k ++ rest) start n = slice s start n := by
  have hlen : (s.take k).length = k := List.length_take_of_le hk
  rw [slice, slice, List.drop_append_of_le_length (by omega),
    List.take_append_of_le_length (by rw [List.length_drop]; omega), List.drop_take, List.take_take,
    Nat.min_eq_left (by omega)]

/-- A string without percent signs stands for itself. -/
theorem pathUnescape_of_not_mem {s : Bytes} (h : percent ∉ s) : pathUnescape s = some s := by
  induction s with
  | nil => rfl
  | cons c l ih =>
      rw [List.mem_cons, not_or] at h
      unfold pathUnescape
      rw [if_neg (Ne.symm h.1), ih h.2]
      rfl

end Bytes

/-- What is stripped at the end of a list, from its head. -/
theorem rdropWhile_cons {α : Type*} (p : α → Bool) (a : α) (l : List α) :
    (a :: l).rdropWhile p = if l.rdropWhile p = [] ∧ p a = true then [] else a :: l.rdropWhile p := by
  induction l using List.reverseRecOn with
  | nil => simp [List.rdropWhile_singleton]
  | append_singleton l b ih =>
      rw [← List.cons_append, List.rdropWhile_concat, List.rdropWhile_concat, ih]
      by_cases hb : p b = true
      · simp only [hb, if_true]
      · simp [hb]

end Go
