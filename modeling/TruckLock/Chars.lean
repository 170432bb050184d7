import Mathlib.Data.List.TakeWhile

/-!
# Character arrays

An array of a C program. A store that misses the array is recorded with its
index; what it hits instead is not part of the array.
-/
structure Chars where
  bytes : List UInt8
  outside : List Nat := []
  deriving DecidableEq, Repr

namespace Chars

/-- `char a[n];` outside the functions. -/
def zeros (n : Nat) : Chars := { bytes := List.replicate n 0 }

/-- `char a[] = "…";` -/
def literal (l : List UInt8) : Chars := { bytes := l ++ [0] }

def store (a : Chars) (i : Nat) (b : UInt8) : Chars :=
  if i < a.bytes.length then { a with bytes := a.bytes.set i b }
  else { a with outside := i :: a.outside }

/-- The elements from `i` on, one after the other. -/
def fill (a : Chars) (i : Nat) : List UInt8 → Chars
  | [] => a
  | b :: l => fill (a.store i b) (i + 1) l

/-- `for (int i = 0; i < n; ++i) a[i] = l[i];` -/
def copy (a : Chars) (n : Nat) (l : List UInt8) : Chars :=
  a.fill 0 ((List.range n).map fun i => (l[i]?).getD 0)

/-- The characters in front of the first NUL, and the NUL. -/
def strcpy (a : Chars) (l : List UInt8) : Chars := a.fill 0 (l.takeWhile (· ≠ 0) ++ [0])

/-- The array as a C string; `none` when it does not end in the array. -/
def text (a : Chars) : Option (List UInt8) :=
  if 0 ∈ a.bytes then some (a.bytes.takeWhile (· ≠ 0)) else none

variable {a : Chars} {i : Nat} {l : List UInt8}

@[simp] theorem length_store (a : Chars) (i : Nat) (b : UInt8) :
    (a.store i b).bytes.length = a.bytes.length := by
  unfold store
  split <;> simp

theorem store_inside (b : UInt8) (h : i < a.bytes.length) :
    a.store i b = { a with bytes := a.bytes.set i b } := if_pos h

theorem store_outside (b : UInt8) (h : a.bytes.length ≤ i) :
    (a.store i b).outside = i :: a.outside := by rw [store, if_neg (by omega)]

theorem fill_inside (h : i + l.length ≤ a.bytes.length) :
    a.fill i l = { a with bytes := a.bytes.take i ++ l ++ a.bytes.drop (i + l.length) } := by
  induction l generalizing a i with
  | nil => simp [fill]
  | cons b l ih =>
    rw [List.length_cons] at h
    have hi : i < a.bytes.length := by omega
    have hs : i + 1 + l.length = i + (l.length + 1) := by omega
    have ht : (a.bytes.set i b).take (i + 1) = a.bytes.take i ++ [b] := by
      rw [List.set_eq_take_append_cons_drop, if_pos hi, List.take_append,
        List.take_of_length_le (by rw [List.length_take]; omega)]
      simp [Nat.min_eq_left (Nat.le_of_lt hi)]
    have hd : (a.bytes.set i b).drop (i + 1 + l.length) = a.bytes.drop (i + 1 + l.length) := by
      rw [List.drop_set, if_pos (by omega)]
    rw [fill, store_inside b hi, ih (by simpa using by omega)]
    dsimp only
    rw [ht, hd, hs, List.length_cons]
    simp

/-- Once outside, always outside. -/
theorem fill_keeps (h : a.outside ≠ []) : (a.fill i l).outside ≠ [] := by
  induction l generalizing a i with
  | nil => exact h
  | cons b l ih =>
    refine ih ?_
    unfold store
    split
    · exact h
    · simp

theorem fill_outside (hl : l ≠ []) (h : a.bytes.length < i + l.length) :
    (a.fill i l).outside ≠ [] := by
  induction l generalizing a i with
  | nil => exact absurd rfl hl
  | cons b l ih =>
    rw [List.length_cons] at h
    by_cases hi : i < a.bytes.length
    · refine ih (fun hn => ?_) (by simpa using by omega)
      rw [hn, List.length_nil] at h
      omega
    · have ho := store_outside b (a := a) (i := i) (by omega)
      rw [fill]
      exact fill_keeps (by simp [ho])

/-- A loop over more elements than the array has leaves it. -/
theorem copy_outside {n : Nat} (h : a.bytes.length < n) : (a.copy n l).outside ≠ [] := by
  refine fill_outside (fun hn => ?_) (by simpa using h)
  have := congrArg List.length hn
  simp at this
  omega

/-- `strcpy` needs one element more than the text has characters. -/
theorem strcpy_inside (h0 : a.outside = []) :
    (a.strcpy l).outside = [] ↔ (l.takeWhile (· ≠ 0)).length < a.bytes.length := by
  constructor
  · intro h
    by_contra hn
    exact fill_outside (by simp) (by simp at hn ⊢; omega) h
  · intro h
    rw [strcpy, fill_inside (by simp at h ⊢; omega)]
    exact h0

theorem takeWhile_text (h : 0 ∉ l) (r : List UInt8) : (l ++ 0 :: r).takeWhile (· ≠ 0) = l := by
  have hl : ∀ b ∈ l, b ≠ 0 := by
    rintro b hb rfl
    exact h hb
  rw [List.takeWhile_append_of_pos (by simpa using hl)]
  simp

theorem text_strcpy (h : (l.takeWhile (· ≠ 0)).length < a.bytes.length) :
    (a.strcpy l).text = some (l.takeWhile (· ≠ 0)) := by
  have h0 : 0 ∉ l.takeWhile (· ≠ 0) := fun hm => by simpa using List.mem_takeWhile_imp hm
  rw [strcpy, fill_inside (by simp at h ⊢; omega), text, if_pos (by simp)]
  simp only [List.take_zero, List.nil_append, List.append_assoc, List.cons_append]
  rw [takeWhile_text h0]

end Chars
