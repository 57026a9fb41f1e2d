import Mathlib.Data.Nat.Notation
import Mathlib.Data.List.Flatten

/-!
# SHA-256

The hash of the standard library, on bytes and 32-bit words as numbers, and the code for the
authentication of messages that `crypto/hmac` makes of it.
-/

namespace Go

/-- The fractional parts of the square roots of the first primes. -/
def sha256Init : List ℕ :=
  [0x6a09e667, 0xbb67ae85, 0x3c6ef372, 0xa54ff53a, 0x510e527f, 0x9b05688c, 0x1f83d9ab, 0x5be0cd19]

/-- The fractional parts of the cube roots of the first primes. -/
def sha256Round : List ℕ :=
  [0x428a2f98, 0x71374491, 0xb5c0fbcf, 0xe9b5dba5, 0x3956c25b, 0x59f111f1, 0x923f82a4, 0xab1c5ed5,
    0xd807aa98, 0x12835b01, 0x243185be, 0x550c7dc3, 0x72be5d74, 0x80deb1fe, 0x9bdc06a7, 0xc19bf174,
    0xe49b69c1, 0xefbe4786, 0x0fc19dc6, 0x240ca1cc, 0x2de92c6f, 0x4a7484aa, 0x5cb0a9dc, 0x76f988da,
    0x983e5152, 0xa831c66d, 0xb00327c8, 0xbf597fc7, 0xc6e00bf3, 0xd5a79147, 0x06ca6351, 0x14292967,
    0x27b70a85, 0x2e1b2138, 0x4d2c6dfc, 0x53380d13, 0x650a7354, 0x766a0abb, 0x81c2c92e, 0x92722c85,
    0xa2bfe8a1, 0xa81a664b, 0xc24b8b70, 0xc76c51a3, 0xd192e819, 0xd6990624, 0xf40e3585, 0x106aa070,
    0x19a4c116, 0x1e376c08, 0x2748774c, 0x34b0bcb5, 0x391c0cb3, 0x4ed8aa4a, 0x5b9cca4f, 0x682e6ff3,
    0x748f82ee, 0x78a5636f, 0x84c87814, 0x8cc70208, 0x90befffa, 0xa4506ceb, 0xbef9a3f7, 0xc67178f2]

def rotateRight (x n : ℕ) : ℕ := (x >>> n ||| x <<< (32 - n)) % 4294967296

/-- The bytes of a number, the highest first. -/
def bigEndian : ℕ → ℕ → List ℕ
  | 0, _ => []
  | w + 1, n => bigEndian w (n / 256) ++ [n % 256]

/-- A one bit, zeros up to the length of a block, and the number of bits. -/
def sha256Pad (bs : List ℕ) : List ℕ :=
  bs ++ 128 :: List.replicate ((119 - bs.length % 64) % 64) 0 ++ bigEndian 8 (8 * bs.length)

def bigEndianWords : List ℕ → List ℕ
  | a :: b :: c :: d :: rest => (((a * 256 + b) * 256 + c) * 256 + d) :: bigEndianWords rest
  | _ => []

/-- The words of a block, and one more for each further round. -/
def sha256Schedule (block : List ℕ) : List ℕ :=
  (List.range 48).foldl (fun w t =>
    let a := w.getD (t + 1) 0
    let b := w.getD (t + 14) 0
    let σ₀ := rotateRight a 7 ^^^ rotateRight a 18 ^^^ a >>> 3
    let σ₁ := rotateRight b 17 ^^^ rotateRight b 19 ^^^ b >>> 10
    w ++ [(w.getD t 0 + σ₀ + w.getD (t + 9) 0 + σ₁) % 4294967296]) block

/-- One round, on the working variables `a` to `h`. -/
def sha256Step : List ℕ → ℕ → List ℕ
  | [a, b, c, d, e, f, g, h], kw =>
      let s₁ := rotateRight e 6 ^^^ rotateRight e 11 ^^^ rotateRight e 25
      let choice := (e &&& f) ^^^ ((4294967295 - e) &&& g)
      let t₁ := h + s₁ + choice + kw
      let s₀ := rotateRight a 2 ^^^ rotateRight a 13 ^^^ rotateRight a 22
      let majority := (a &&& b) ^^^ (a &&& c) ^^^ (b &&& c)
      [(t₁ + s₀ + majority) % 4294967296, a, b, c, (d + t₁) % 4294967296, e, f, g]
  | v, _ => v

def sha256Block (h block : List ℕ) : List ℕ :=
  let w := sha256Schedule block
  let v := (sha256Round.zipWith (· + ·) w).foldl sha256Step h
  h.zipWith (fun x y => (x + y) % 4294967296) v

/-- `sha256.Sum256`. -/
def sum256 (bs : List ℕ) : List ℕ :=
  let words := bigEndianWords (sha256Pad bs)
  let h := (List.range (words.length / 16)).foldl
    (fun h i => sha256Block h ((words.drop (16 * i)).take 16)) sha256Init
  h.flatMap (bigEndian 4)

/-- `hmac.New(sha256.New, key)`, a message, and `Sum(nil)`. -/
def hmacSha256 (key message : List ℕ) : List ℕ :=
  let key := if 64 < key.length then sum256 key else key
  let key := key ++ List.replicate (64 - key.length) (0 : ℕ)
  sum256 (key.map (0x5c ^^^ ·) ++ sum256 (key.map (0x36 ^^^ ·) ++ message))

example : (sum256 [97, 98, 99]).take 4 = [0xba, 0x78, 0x16, 0xbf] := by decide +kernel

theorem mem_bigEndian_lt {w n b : ℕ} (h : b ∈ bigEndian w n) : b < 256 := by
  induction w generalizing n with
  | zero => cases h
  | succ w ih =>
      rw [bigEndian, List.mem_append, List.mem_singleton] at h
      rcases h with h | rfl
      · exact ih h
      · exact Nat.mod_lt n (by decide)

theorem mem_sum256_lt {bs : List ℕ} {b : ℕ} (h : b ∈ sum256 bs) : b < 256 := by
  obtain ⟨_, _, hb⟩ := List.mem_flatMap.mp h
  exact mem_bigEndian_lt hb

theorem length_bigEndian (w n : ℕ) : (bigEndian w n).length = w := by
  induction w generalizing n with
  | zero => rfl
  | succ w ih => rw [bigEndian, List.length_append, ih, List.length_singleton]

theorem length_sha256Step {v : List ℕ} (h : v.length = 8) (kw : ℕ) : (sha256Step v kw).length = 8 := by
  unfold sha256Step
  split
  · rfl
  · exact h

theorem length_foldl_of_step {α β : Type} {f : List α → β → List α} {n : ℕ}
    (hf : ∀ v b, v.length = n → (f v b).length = n) {v : List α} (hv : v.length = n) (l : List β) :
    (l.foldl f v).length = n := by
  induction l generalizing v with
  | nil => exact hv
  | cons b l ih => exact ih (hf v b hv)

theorem length_sha256Block {h : List ℕ} (hh : h.length = 8) (block : List ℕ) :
    (sha256Block h block).length = 8 := by
  unfold sha256Block
  rw [List.length_zipWith, length_foldl_of_step (fun v kw hv => length_sha256Step hv kw) hh, hh]
  rfl

@[simp] theorem length_sum256 (bs : List ℕ) : (sum256 bs).length = 32 := by
  unfold sum256
  dsimp only
  generalize hwords : (List.range _).foldl _ sha256Init = words
  have hlength : words.length = 8 := by
    rw [← hwords]
    exact length_foldl_of_step (fun v _ hv => length_sha256Block hv _) rfl _
  rw [List.length_flatMap]
  simp only [length_bigEndian, List.map_const', List.sum_replicate_nat, hlength]

@[simp] theorem length_hmacSha256 (key message : List ℕ) : (hmacSha256 key message).length = 32 :=
  length_sum256 _

theorem mem_hmacSha256_lt {key message : List ℕ} {b : ℕ} (h : b ∈ hmacSha256 key message) : b < 256 :=
  mem_sum256_lt h

end Go
