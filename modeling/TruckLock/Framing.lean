import Mathlib.Data.List.Basic

/-!
# Framing

Messages written one after the other to a stream, and a reader that cuts them
off the front again. What the reader has seen so far never changes its mind.
-/

/-- Ways of writing messages whose ends can be found in the stream itself. -/
structure Framing (β M : Type) where
  write : M → List β
  read : List β → Option (M × List β)
  read_write : ∀ m w, read (write m ++ w) = some (m, w)
  read_append : ∀ {w m r} v, read w = some (m, r) → read (w ++ v) = some (m, r ++ v)

namespace Framing

variable {β M : Type} (F : Framing β M) {m m' : M} {ms : List M} {p q w : List β}

/-- The messages of a queue, on the stream. -/
def stream (ms : List M) : List β := ms.flatMap F.write

@[simp] theorem stream_nil : F.stream [] = [] := rfl

@[simp] theorem stream_cons (m : M) (ms : List M) : F.stream (m :: ms) = F.write m ++ F.stream ms := rfl

@[simp] theorem stream_append (ms ms' : List M) : F.stream (ms ++ ms') = F.stream ms ++ F.stream ms' :=
  List.flatMap_append

/-- A part of a message is not read, whatever is missing. -/
theorem read_part (h : p ++ q = F.write m) (hq : q ≠ []) : F.read p = none := by
  cases hp : F.read p with
  | none => rfl
  | some mr =>
    obtain ⟨m', r⟩ := mr
    have hall : F.read (F.write m) = some (m, []) := by simpa using F.read_write m []
    rw [← h, F.read_append q hp] at hall
    simp only [Option.some.injEq, Prod.mk.injEq, List.append_eq_nil_iff] at hall
    exact absurd hall.2.2 hq

theorem write_ne_nil (h : F.read [] = none) (m : M) : F.write m ≠ [] := by
  intro hm
  have hread := F.read_write m []
  rw [hm] at hread
  simp [h] at hread

end Framing
