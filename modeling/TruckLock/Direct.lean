import TruckLock.Calls

/-!
# Straight code

Under one input that no handler answers to, a piece of code without loops has
one result, and the machine computes it in some number of steps.
-/
namespace Firmware

variable {σ ι ρ : Type}

namespace Code

/-- The state that the code leaves; loops and resets are not followed. -/
def result (i : ι) : Code σ ι → σ → σ
  | .act f, s => f i s
  | .get f g, s => result i (g (f i s)) s
  | .seq a b, s => result i b (result i a s)
  | .ite c a b, s => if c i s then result i a s else result i b s
  | _, s => s

/-- No loop, no handler and no reset comes up. -/
def Direct (i : ι) : Code σ ι → σ → Prop
  | .skip, _ => True
  | .act _, _ => True
  | .get f g, s => Direct i (g (f i s)) s
  | .seq a b, s => Direct i a s ∧ Direct i b (result i a s)
  | .ite c a b, s => if c i s then Direct i a s else Direct i b s
  | .poll r _, _ => r i = false
  | _, _ => False

variable {i : ι} {c : Code σ ι} {s : σ}

theorem Direct.ite {p : ι → σ → Bool} {a b : Code σ ι} (ha : a.Direct i s) (hb : b.Direct i s) :
    (Code.ite p a b).Direct i s := by
  rw [Direct]
  split
  · exact ha
  · exact hb

theorem Direct.when {p : ι → σ → Bool} {a : Code σ ι} (ha : a.Direct i s) : (Code.when p a).Direct i s :=
  ha.ite trivial

/-- A piece of code whose condition fails. -/
theorem result_not {p : ι → σ → Bool} {a : Code σ ι} (h : p i s = false) :
    (Code.when p a).result i s = s := by simp [Code.when, result, h]

theorem Direct.not {p : ι → σ → Bool} {a : Code σ ι} (h : p i s = false) : (Code.when p a).Direct i s := by
  simp [Code.when, Direct, h]

theorem result_cons (a : Code σ ι) (l : List (Code σ ι)) (s : σ) :
    (Code.block (a :: l)).result i s = (Code.block l).result i (a.result i s) := rfl

theorem result_single (a : Code σ ι) (s : σ) : (Code.block [a]).result i s = a.result i s := rfl

theorem result_poll (r : ι → Bool) (h : ι → Code σ ι) (s : σ) : (Code.poll r h).result i s = s := rfl

theorem result_when {p : ι → σ → Bool} {a : Code σ ι} (h : p i s = true) :
    (Code.when p a).result i s = a.result i s := by
  simp [Code.when, result, h]

theorem Direct.advance {react : ρ → σ → σ} (h : c.Direct i s) (k : List (Code σ ι)) :
    ∃ n, Firmware.advance react (List.replicate n (.run i)) (c :: k) s = some (k, c.result i s) := by
  induction c generalizing s k with
  | skip => exact ⟨1, rfl⟩
  | act f => exact ⟨1, rfl⟩
  | get f g ih =>
    obtain ⟨n, hn⟩ := ih (f i s) h k
    exact ⟨n + 1, by simpa [List.replicate_succ, Firmware.advance, Code.step, result] using hn⟩
  | seq a b iha ihb =>
    obtain ⟨m, hm⟩ := iha h.1 (b :: k)
    obtain ⟨n, hn⟩ := ihb h.2 k
    refine ⟨m + n + 1, ?_⟩
    rw [List.replicate_succ, Firmware.advance, Code.step, Option.bind_some, List.replicate_add,
      advance_append hm]
    exact hn
  | ite p a b iha ihb =>
    cases hp : p i s with
    | true =>
      obtain ⟨n, hn⟩ := iha (by simpa [Direct, hp] using h) k
      exact ⟨n + 1, by simpa [List.replicate_succ, Firmware.advance, Code.step, result, hp] using hn⟩
    | false =>
      obtain ⟨n, hn⟩ := ihb (by simpa [Direct, hp] using h) k
      exact ⟨n + 1, by simpa [List.replicate_succ, Firmware.advance, Code.step, result, hp] using hn⟩
  | whilst p a => exact h.elim
  | poll r g =>
    have hr : r i = false := h
    exact ⟨1, by simp [Firmware.advance, Code.step, result, hr]⟩
  | forever a => exact h.elim
  | reset => exact h.elim

/-- What every statement of the code does, the code does. -/
theorem made_result {E : σ → σ → Prop} {K : Code σ ι → Prop} (hE : ∀ s, E s s)
    (ht : ∀ s t u, E s t → E t u → E s u) (hc : Made E K c) (i : ι) (s : σ) : E s (c.result i s) := by
  induction c generalizing s with
  | act f => exact hc i s
  | get f g ih => exact ih (f i s) (hc _) s
  | seq a b iha ihb => exact ht _ _ _ (iha hc.1 s) (ihb hc.2 _)
  | ite p a b iha ihb =>
    rw [result]
    split
    · exact iha hc.1 s
    · exact ihb hc.2 s
  | skip => exact hE s
  | whilst p a => exact hE s
  | poll r g => exact hE s
  | forever a => exact hE s
  | reset => exact hE s

end Code

/-- One round of a main loop. -/
theorem Machine.exec_round (m : Machine σ ι ρ) {i : ι} {c : Code σ ι} {s : σ} (h : c.Direct i s) :
    ∃ xs, m.exec xs ⟨[.forever c], s⟩ = ⟨[.forever c], c.result i s⟩ := by
  obtain ⟨n, hn⟩ : ∃ n, advance m.react (List.replicate n (.run i)) [c] s = some ([], c.result i s) := h.advance []
  have hf : finish m.react (List.replicate n (.run i)) [c] s = some (c.result i s) := by
    rw [← List.append_nil (List.replicate n (Choice.run i)), finish_append hn]
    rfl
  exact ⟨.run i :: List.replicate n (.run i), exec_of_finish m hf [.forever c]⟩

end Firmware
