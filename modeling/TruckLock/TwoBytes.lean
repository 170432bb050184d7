import Mathlib.Logic.Relation
import Mathlib.Order.Basic

/-!
# Counters in two bytes

What a countdown in a high and a low byte has to do each time it is stepped,
and what becomes of one that steps the low byte right and borrows wrong.
-/
namespace TwoBytes

/-- The number in the cells 100 and 101. -/
def value (cells : Nat → UInt8) : Nat := 256 * (cells 100).toNat + (cells 101).toNat

section

variable {γ : Type} {hi lo n : γ → Nat}

/-- One step of a countdown: right as long as the low byte is at least 2, wrong at the borrow. -/
structure Ticks (hi lo n : γ → Nat) (s t : γ) : Prop where
  count : n t = n s + 1
  down : 2 ≤ lo s → hi t = hi s ∧ lo t = lo s - 1
  borrow : lo s ≤ 1 → 256 * hi t + lo t + 1 ≠ 256 * hi s + lo s

/-- From a high byte that is not 0 such a countdown comes to a wrong value. -/
theorem exists_wrong {R : γ → γ → Prop} {p : γ → Prop}
    (hR : ∀ s, p s → 0 < hi s → ∃ t, R s t ∧ p t ∧ Ticks hi lo n s t) (s : γ) (hp : p s)
    (hs : 0 < hi s) : ∃ t, Relation.ReflTransGen R s t ∧ p t ∧
      256 * hi t + lo t + n t ≠ 256 * hi s + lo s + n s := by
  induction hb : lo s using Nat.strongRecOn generalizing s with
  | _ b ih =>
    obtain ⟨t, hst, hpt, ht⟩ := hR s hp hs
    have hc := ht.count
    by_cases h2 : 2 ≤ lo s
    · obtain ⟨hh, hl⟩ := ht.down h2
      obtain ⟨u, htu, hpu, hu⟩ := ih (lo t) (by omega) t hpt (by omega) rfl
      exact ⟨u, .head hst htu, hpu, by omega⟩
    · have hw := ht.borrow (by omega)
      exact ⟨t, .single hst, hpt, by omega⟩

end

end TwoBytes
