import Mathlib.Data.List.Chain
import Mathlib.Data.List.Infix
import Mathlib.Data.List.Nodup
import Mathlib.Order.Basic

/-!
# Lists that count cyclically

Numbers from 1 to `n`, newest first, of which each is the cyclic successor of
the one before it. As many of them in a row as there are numbers are distinct.
-/
namespace Cycles

def succ (n r : Int) : Int := r % n + 1

structure Cyclic (n : Int) (l : List Int) : Prop where
  range : ∀ r ∈ l, 1 ≤ r ∧ r ≤ n
  chain : l.IsChain fun r r' => r = succ n r'

variable {n : Int}

theorem cyclic_nil : Cyclic n [] := ⟨by simp, .nil⟩

theorem Cyclic.cons {r : Int} {l : List Int} (h : Cyclic n l) (hr : 1 ≤ r ∧ r ≤ n)
    (hs : ∀ r' ∈ l.head?, r = succ n r') : Cyclic n (r :: l) where
  range := List.forall_mem_cons.2 ⟨hr, h.range⟩
  chain := List.isChain_cons.2 ⟨hs, h.chain⟩

/-- The successor of a counter that starts again after `n`. -/
theorem succ_eq {r : Int} (h : 1 ≤ r ∧ r ≤ n) : succ n r = if n ≤ r then 1 else r + 1 := by
  unfold succ
  split
  · obtain rfl : r = n := by omega
    rw [Int.emod_self]
    rfl
  · rw [Int.emod_eq_of_lt (by omega) (by omega)]

theorem Cyclic.part {l m : List Int} (h : Cyclic n l) (hm : m <:+: l) : Cyclic n m where
  range r hr := h.range r (hm.subset hr)
  chain := List.IsChain.infix h.chain hm

/-- The number `k` places before `r` is `k` less, modulo `n`. -/
theorem Cyclic.getElem {r : Int} {l : List Int} (h : Cyclic n (r :: l)) {k : Nat} (hk : k < l.length) :
    (r - l[k]) % n = (k + 1) % n := by
  induction l generalizing r k with
  | nil => simp at hk
  | cons r' l ih =>
    obtain ⟨hr, hc⟩ := List.isChain_cons_cons.1 h.chain
    have hrest : Cyclic n (r' :: l) := ⟨fun x hx => h.range x (List.mem_cons_of_mem _ hx), hc⟩
    have hstep : (r - r') % n = 1 % n := by
      rw [hr, succ, Int.emod_def r' n, show r' - n * (r' / n) + 1 - r' = 1 + n * (-(r' / n)) by
        rw [Int.mul_neg]; omega, Int.add_mul_emod_self_left]
    cases k with
    | zero => simpa using hstep
    | succ k =>
      have hk' : k < l.length := by simpa using hk
      have hi := ih hrest hk'
      rw [List.getElem_cons_succ, show r - l[k] = (r - r') + (r' - l[k]) by omega, Int.add_emod, hstep, hi,
        ← Int.add_emod]
      congr 1
      push_cast
      omega

/-- No more than `n` successive numbers are distinct. -/
theorem Cyclic.nodup {l : List Int} (h : Cyclic n l) (hl : l.length ≤ n) : l.Nodup := by
  induction l with
  | nil => exact List.nodup_nil
  | cons r l ih =>
    have hrest : Cyclic n l := h.part (List.suffix_cons r l).isInfix
    rw [List.length_cons] at hl
    refine List.nodup_cons.2 ⟨fun hr => ?_, ih hrest (by push_cast at hl; omega)⟩
    obtain ⟨k, hk, rfl⟩ := List.getElem_of_mem hr
    have hd := h.getElem hk
    push_cast at hl
    rw [Int.sub_self, Int.zero_emod, Int.emod_eq_of_lt (by omega) (by omega)] at hd
    omega

end Cycles
