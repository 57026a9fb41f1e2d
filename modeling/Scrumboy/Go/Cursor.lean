import Scrumboy.Go.Bytes
import Scrumboy.Go.Errors

/-!
# Reading bytes at a position

A function that walks a slice with a cursor, as the source writes it. An index behind the end of
the slice, which would panic, and a loop that the fuel of the model does not cover are results of
their own, so that a model with a cursor can be shown to have neither.
-/

namespace Go

/-- How a function with a cursor ends without a value. -/
inductive Stop (ε : Type)
  | failed (e : ε)
  /-- An index behind the end of the data. -/
  | outside
  /-- More rounds than the model allows. -/
  | unfinished
  deriving DecidableEq, Repr

variable {ε : Type}

/-- `data[pos]` -/
def readAt (data : Bytes) (pos : ℕ) : Except (Stop ε) UInt8 :=
  match data[pos]? with
  | some b => .ok b
  | none => .error .outside

/-- `data[low:low+n]` -/
def readSlice (data : Bytes) (low n : ℕ) : Except (Stop ε) Bytes := do
  reject (data.length < low + n) .outside
  pure (Bytes.slice data low n)

section

variable {data rest : Bytes} {pos : ℕ}

/-- A check that is made with the cursor and without. -/
theorem failed_reject {α : Type} {c : Prop} [Decidable c] {e : ε} {x : Except (Stop ε) α}
    {y : Except ε α} (h : ¬ c → x = y.mapError .failed) :
    (reject c (.failed e) >>= fun _ => x) = (reject c e >>= fun _ => y).mapError .failed := by
  by_cases hc : c
  · rw [reject_bind_of hc, reject_bind_of hc]
    rfl
  · rw [reject_bind_of_not hc, reject_bind_of_not hc]
    exact h hc

theorem readAt_of_drop {b : UInt8} (h : data.drop pos = b :: rest) :
    (readAt data pos : Except (Stop ε) UInt8) = .ok b := by
  have hget : data[pos]? = some b := by
    rw [← List.head?_drop, h]
    rfl
  rw [readAt, hget]

theorem readAt_getD {k : ℕ} (h : k < (data.drop pos).length) :
    (readAt data (pos + k) : Except (Stop ε) UInt8) = .ok ((data.drop pos).getD k 0) := by
  have hget : data[pos + k]? = some ((data.drop pos).getD k 0) := by
    rw [← List.getElem?_drop, List.getD_eq_getElem?_getD, List.getElem?_eq_getElem h, Option.getD_some]
  rw [readAt, hget]

theorem readSlice_eq {n : ℕ} (h : pos + n ≤ data.length) :
    (readSlice data pos n : Except (Stop ε) Bytes) = .ok (Bytes.slice data pos n) :=
  reject_bind_of_not (not_lt.mpr h)

theorem lt_of_drop {b : UInt8} (h : data.drop pos = b :: rest) : pos < data.length := by
  by_contra hle
  rw [List.drop_eq_nil_of_le (not_lt.mp hle)] at h
  cases h

theorem drop_of_drop (front : Bytes) (h : data.drop pos = front ++ rest) :
    data.drop (pos + front.length) = rest := by
  rw [← List.drop_drop, h, List.drop_left]

theorem drop_length_sub (h : rest <:+ data) : data.drop (data.length - rest.length) = rest :=
  (List.suffix_iff_eq_drop.mp h).symm

theorem slice_drop (data : Bytes) (pos k n : ℕ) : Bytes.slice data (pos + k) n = Bytes.slice (data.drop pos) k n := by
  rw [Bytes.slice, Bytes.slice, List.drop_drop]

theorem slice_append {front : Bytes} {k n : ℕ} (h : k + n ≤ front.length) :
    Bytes.slice (front ++ rest) k n = Bytes.slice front k n := by
  rw [Bytes.slice, Bytes.slice, List.drop_append_of_le_length (by omega),
    List.take_append_of_le_length (by rw [List.length_drop]; omega)]

end

end Go
