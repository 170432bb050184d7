import TruckLock.Runs
import Mathlib.Logic.Function.Basic

/-!
# Tasks that share a state

A device with several programs over one state, of which the scheduler runs one
statement at a time. Each task has its contract; together they keep them when
what one task guarantees is what the others rely on.
-/
namespace Firmware

structure Team (τ σ ι ρ : Type) where
  boot : τ → Code σ ι
  react : ρ → σ → σ
  restart : σ → σ

structure Shared (τ σ ι : Type) where
  code : τ → List (Code σ ι)
  state : σ

variable {τ σ ι ρ : Type}

namespace Team

def start (m : Team τ σ ι ρ) (s : σ) : Shared τ σ ι := ⟨fun t => [m.boot t], s⟩

/-- A statement of one task runs, something outside happens, or the device is reset; a task that
resets ends the others as well. -/
def step [DecidableEq τ] (m : Team τ σ ι ρ) : Choice (τ × ι) ρ → Shared τ σ ι → Shared τ σ ι
  | .run (t, i), c => match Code.step i (c.code t) c.state with
    | some (k, s) => ⟨Function.update c.code t k, s⟩
    | none => m.start (m.restart c.state)
  | .outside r, c => ⟨c.code, m.react r c.state⟩
  | .reset, c => m.start (m.restart c.state)

/-- The contracts fit together: `shared` is that every task may rely on what the others
guarantee. -/
structure Agreed (m : Team τ σ ι ρ) (C : τ → Contract σ ι) (pre : σ → Prop) : Prop where
  boot : ∀ t, Triple (C t) pre (m.boot t) fun _ => False
  shared : ∀ t u i s s', t ≠ u → (C t).guar i s s' → (C u).rely s s'
  restart : ∀ s, (∀ t, (C t).inv s) → pre (m.restart s)

/-- What the contracts ask of one choice. -/
def Meet (m : Team τ σ ι ρ) (C : τ → Contract σ ι) : Choice (τ × ι) ρ → Shared τ σ ι → Prop
  | .run (t, i), c => (C t).may i (c.code t) c.state
  | .outside r, c => ∀ t, (C t).rely c.state (m.react r c.state)
  | .reset, _ => True

/-- Every task is safe for every number of further steps. -/
def Always (C : τ → Contract σ ι) (c : Shared τ σ ι) : Prop := ∀ t n, Safe (C t) n (c.code t) c.state

variable {m : Team τ σ ι ρ} {C : τ → Contract σ ι} {pre : σ → Prop}

theorem Always.inv {c : Shared τ σ ι} (h : Always C c) (t : τ) : (C t).inv c.state := (h t 0).now.1

theorem Agreed.always_start (h : m.Agreed C pre) {s : σ} (hs : pre s) : Always C (m.start s) :=
  fun t n => (h.boot t).safe n [] (fun _ hf => hf.elim) s hs

theorem Agreed.always_step [DecidableEq τ] (h : m.Agreed C pre) (x : Choice (τ × ι) ρ)
    (c : Shared τ σ ι) (hc : Always C c) (hx : m.Meet C x c) : Always C (m.step x c) := by
  have hreset : Always C (m.start (m.restart c.state)) := h.always_start (h.restart c.state hc.inv)
  cases x with
  | run p =>
    obtain ⟨t, i⟩ := p
    cases hst : Code.step i (c.code t) c.state with
    | none => simpa [step, hst] using hreset
    | some q =>
      have hown : ∀ n, (C t).guar i c.state q.2 ∧ Safe (C t) n q.1 q.2 :=
        fun n => (hc t (n + 1)).2.2 i q.1 q.2 hx (by simp [hst])
      simp only [step, hst]
      intro u n
      by_cases hu : u = t
      · subst hu
        simpa using (hown n).2
      · simpa [Function.update_of_ne hu] using
          (hc u (n + 1)).2.1 q.2 (h.shared t u i c.state q.2 (Ne.symm hu) (hown 0).1)
  | outside r => exact fun t n => (hc t (n + 1)).2.1 _ (hx t)
  | reset => exact hreset

/-- A statement of a task keeps its guarantee, or resets the device. -/
theorem Always.guar [DecidableEq τ] {c : Shared τ σ ι} (h : Always C c) {t : τ} {i : ι}
    (hx : (C t).may i (c.code t) c.state) :
    m.step (.run (t, i)) c = m.start (m.restart c.state) ∨
      (C t).guar i c.state (m.step (.run (t, i)) c).state := by
  cases hst : Code.step i (c.code t) c.state with
  | none => exact .inl (by simp [step, hst])
  | some q => exact .inr (by simpa [step, hst] using ((h t 1).2.2 i q.1 q.2 hx hst).1)

end Team

end Firmware
