import Mathlib.Data.List.Basic

/-!
# The steps of a run

Runs of any step function, and what can be said of each of their steps.
-/
namespace Firmware

variable {α γ : Type}

/-- The state after a run. -/
def steps (step : α → γ → γ) : List α → γ → γ
  | [], c => c
  | x :: xs, c => steps step xs (step x c)

/-- Every step of the run satisfies `φ` with the states before and after it. -/
def Along (step : α → γ → γ) (φ : α → γ → γ → Prop) : List α → γ → Prop
  | [], _ => True
  | x :: xs, c => φ x c (step x c) ∧ Along step φ xs (step x c)

instance decidableAlong (step : α → γ → γ) (φ : α → γ → γ → Prop)
    [h : ∀ x c d, Decidable (φ x c d)] : (xs : List α) → (c : γ) → Decidable (Along step φ xs c)
  | [], _ => .isTrue trivial
  | x :: xs, c =>
    have := decidableAlong step φ xs (step x c)
    inferInstanceAs (Decidable (φ x c (step x c) ∧ Along step φ xs (step x c)))

variable {step : α → γ → γ} {φ ψ : α → γ → γ → Prop}

@[simp] theorem steps_nil (c : γ) : steps step [] c = c := rfl
@[simp] theorem steps_cons (x : α) (xs : List α) (c : γ) :
    steps step (x :: xs) c = steps step xs (step x c) := rfl

theorem steps_append (xs ys : List α) (c : γ) :
    steps step (xs ++ ys) c = steps step ys (steps step xs c) := by
  induction xs generalizing c with
  | nil => rfl
  | cons x xs ih => exact ih (step x c)

theorem Along.imp {xs : List α} {c : γ} (h : Along step φ xs c)
    (hi : ∀ x c, φ x c (step x c) → ψ x c (step x c)) : Along step ψ xs c := by
  induction xs generalizing c with
  | nil => trivial
  | cons x xs ih => exact ⟨hi x c h.1, ih h.2⟩

theorem Along.and {xs : List α} {c : γ} (h : Along step φ xs c) (h' : Along step ψ xs c) :
    Along step (fun x c d => φ x c d ∧ ψ x c d) xs c := by
  induction xs generalizing c with
  | nil => trivial
  | cons x xs ih => exact ⟨⟨h.1, h'.1⟩, ih h.2 h'.2⟩

theorem along_append (xs ys : List α) (c : γ) :
    Along step φ (xs ++ ys) c ↔ Along step φ xs c ∧ Along step φ ys (steps step xs c) := by
  induction xs generalizing c with
  | nil => simp [Along]
  | cons x xs ih => simp [Along, ih, and_assoc]

/-- The run in words: `φ` holds of every step of it. -/
theorem along_iff (xs : List α) (c : γ) :
    Along step φ xs c ↔ ∀ ys x zs, xs = ys ++ x :: zs →
      φ x (steps step ys c) (step x (steps step ys c)) := by
  induction xs generalizing c with
  | nil => simp [Along]
  | cons x xs ih =>
    constructor
    · rintro ⟨hx, hxs⟩ ys y zs he
      cases ys with
      | nil =>
        obtain ⟨rfl, -⟩ := List.cons.inj he
        exact hx
      | cons z ys =>
        obtain ⟨rfl, rfl⟩ := List.cons.inj he
        exact (ih _).1 hxs ys y zs rfl
    · intro h
      exact ⟨h [] x xs rfl, (ih _).2 fun ys y zs he => h (x :: ys) y zs (by simp [he])⟩

/-- An invariant of the states, kept by each step that satisfies `φ`, holds along the run. -/
theorem Along.keeps {I : γ → Prop} {xs : List α} {c : γ} (h : Along step φ xs c) (hc : I c)
    (hi : ∀ x c, I c → φ x c (step x c) → I (step x c)) :
    Along step (fun _ c d => I c ∧ I d) xs c := by
  induction xs generalizing c with
  | nil => trivial
  | cons x xs ih => exact ⟨⟨hc, hi x c hc h.1⟩, ih h.2 (hi x c hc h.1)⟩

theorem Along.invariant {I : γ → Prop} {xs : List α} {c : γ} (h : Along step φ xs c) (hc : I c)
    (hi : ∀ x c, I c → φ x c (step x c) → I (step x c)) : I (steps step xs c) := by
  induction xs generalizing c with
  | nil => exact hc
  | cons x xs ih => exact ih h.2 (hi x c hc h.1)

end Firmware
