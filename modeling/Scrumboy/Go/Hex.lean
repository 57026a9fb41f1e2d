import Scrumboy.Go.Json

/-!
# Hexadecimal text

`hex.EncodeToString`, which is what `%x` makes of bytes, and `hex.DecodeString`, which takes
digits of either case.
-/

namespace Go

def encodeHex (bs : List ℕ) : String :=
  String.ofList (bs.flatMap fun b => [hexDigit (b / 16), hexDigit (b % 16)])

def decodeHexList : List Char → Option (List ℕ)
  | [] => some []
  | [_] => none
  | a :: b :: rest => do
      let x ← hexValue a
      let y ← hexValue b
      pure ((x * 16 + y) :: (← decodeHexList rest))

def decodeHex (s : String) : Option (List ℕ) := decodeHexList s.toList

theorem decodeHex_encodeHex {bs : List ℕ} (h : ∀ b ∈ bs, b < 256) : decodeHex (encodeHex bs) = some bs := by
  rw [decodeHex, encodeHex, String.toList_ofList]
  induction bs with
  | nil => rfl
  | cons b bs ih =>
      have hb := h b List.mem_cons_self
      have hvalue : b / 16 * 16 + b % 16 = b := by omega
      rw [List.flatMap_cons]
      simp only [List.cons_append, List.nil_append, decodeHexList]
      rw [hexValue_hexDigit (b / 16) (by omega), hexValue_hexDigit (b % 16) (by omega),
        ih fun b hb => h b (List.mem_cons_of_mem _ hb)]
      simp [hvalue]

theorem ascii_of_mem_encodeHex {bs : List ℕ} (h : ∀ b ∈ bs, b < 256) {c : Char}
    (hc : c ∈ (encodeHex bs).toList) : c.toNat < 128 ∧ c ≠ '|' := by
  have hdigit : ∀ n < 16, (hexDigit n).toNat < 128 ∧ hexDigit n ≠ '|' := by decide
  rw [encodeHex, String.toList_ofList] at hc
  obtain ⟨b, hb, hc⟩ := List.mem_flatMap.mp hc
  have hlt := h b hb
  simp only [List.mem_cons, List.not_mem_nil, or_false] at hc
  rcases hc with rfl | rfl
  · exact hdigit _ (by omega)
  · exact hdigit _ (by omega)

end Go
