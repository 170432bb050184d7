import TruckLock.Traces

/-!
# Device programs

The programs of one small device: a finite tree of statements over a state
`σ`, driven by one input of type `ι` for each statement that runs. A statement
is atomic; whatever happens beside the program (an interrupt, time, another
task) falls between two statements.
-/
namespace Firmware

/-- `poll ready h` is a point at which the outside may have the program run
handlers: each ready input runs `h` of it and comes back to the same point. -/
inductive Code (σ ι : Type) where
  | skip : Code σ ι
  | act : (ι → σ → σ) → Code σ ι
  | get : (ι → σ → Int) → (Int → Code σ ι) → Code σ ι
  | seq : Code σ ι → Code σ ι → Code σ ι
  | ite : (ι → σ → Bool) → Code σ ι → Code σ ι → Code σ ι
  | whilst : (ι → σ → Bool) → Code σ ι → Code σ ι
  | poll : (ι → Bool) → (ι → Code σ ι) → Code σ ι
  | forever : Code σ ι → Code σ ι
  | reset : Code σ ι

namespace Code

variable {σ ι : Type}

/-- A statement list, run from left to right. -/
def block : List (Code σ ι) → Code σ ι
  | [] => .skip
  | c :: cs => .seq c (block cs)

@[simp] theorem block_nil : (block [] : Code σ ι) = .skip := rfl
@[simp] theorem block_cons (c : Code σ ι) (cs : List (Code σ ι)) :
    block (c :: cs) = .seq c (block cs) := rfl

@[grind =] def when (c : ι → σ → Bool) (a : Code σ ι) : Code σ ι := .ite c a .skip

/-- A statement that reads no input. -/
@[grind =] def set (f : σ → σ) : Code σ ι := .act fun _ => f

def times : Nat → Code σ ι → Code σ ι
  | 0, _ => .skip
  | n + 1, c => .seq c (times n c)

/-- One statement of the code on top of the stack. `none` is a device reset. -/
def step (i : ι) : List (Code σ ι) → σ → Option (List (Code σ ι) × σ)
  | [], s => some ([], s)
  | .skip :: k, s => some (k, s)
  | .act f :: k, s => some (k, f i s)
  | .get f g :: k, s => some (g (f i s) :: k, s)
  | .seq a b :: k, s => some (a :: b :: k, s)
  | .ite c a b :: k, s => some ((if c i s then a else b) :: k, s)
  | .whilst c a :: k, s => some (if c i s then a :: .whilst c a :: k else k, s)
  | .poll r h :: k, s => some (if r i then h i :: .poll r h :: k else k, s)
  | .forever a :: k, s => some (a :: .forever a :: k, s)
  | .reset :: _, _ => none

/-- Every statement of the code, handlers included, has an effect in `E` of its input. -/
@[grind =] def Every (E : ι → σ → σ → Prop) : Code σ ι → Prop
  | .skip => True
  | .act f => ∀ i s, E i s (f i s)
  | .get _ g => ∀ v, Every E (g v)
  | .seq a b => Every E a ∧ Every E b
  | .ite _ a b => Every E a ∧ Every E b
  | .whilst _ a => Every E a
  | .poll _ h => ∀ i, Every E (h i)
  | .forever a => Every E a
  | .reset => True

theorem every_times {E : ι → σ → σ → Prop} {c : Code σ ι} (h : Every E c) (n : Nat) :
    Every E (times n c) := by
  induction n with
  | zero => trivial
  | succ n ih => exact ⟨h, ih⟩

theorem Every.mono {E E' : ι → σ → σ → Prop} (hE : ∀ i s t, E i s t → E' i s t) {c : Code σ ι}
    (h : Every E c) : Every E' c := by
  induction c with
  | skip => trivial
  | act f => exact fun i s => hE i _ _ (h i s)
  | get f g ih => exact fun v => ih v (h v)
  | seq a b iha ihb => exact ⟨iha h.1, ihb h.2⟩
  | ite p a b iha ihb => exact ⟨iha h.1, ihb h.2⟩
  | whilst p a ih => exact ih h
  | poll r g ih => exact fun i => ih i (h i)
  | forever a ih => exact ih h
  | reset => trivial

/-- One statement of such code has an effect in `E` or none. -/
theorem Every.step {E : ι → σ → σ → Prop} {i : ι} {k l : List (Code σ ι)} {s t : σ}
    (h : ∀ c ∈ k, Every E c) (hs : Code.step i k s = some (l, t)) :
    (∀ c ∈ l, Every E c) ∧ (t = s ∨ E i s t) := by
  cases k with
  | nil =>
    obtain ⟨rfl, rfl⟩ : [] = l ∧ s = t := by simpa [Code.step] using hs
    exact ⟨h, .inl rfl⟩
  | cons c k =>
    rw [List.forall_mem_cons] at h
    obtain ⟨hc, hk⟩ := h
    cases c with
    | skip =>
      obtain ⟨rfl, rfl⟩ : k = l ∧ s = t := by simpa [Code.step] using hs
      exact ⟨hk, .inl rfl⟩
    | act f =>
      obtain ⟨rfl, rfl⟩ : k = l ∧ f i s = t := by simpa [Code.step] using hs
      exact ⟨hk, .inr (hc i s)⟩
    | get f g =>
      obtain ⟨rfl, rfl⟩ : g (f i s) :: k = l ∧ s = t := by simpa [Code.step] using hs
      exact ⟨List.forall_mem_cons.2 ⟨hc _, hk⟩, .inl rfl⟩
    | seq a b =>
      obtain ⟨rfl, rfl⟩ : a :: b :: k = l ∧ s = t := by simpa [Code.step] using hs
      exact ⟨List.forall_mem_cons.2 ⟨hc.1, List.forall_mem_cons.2 ⟨hc.2, hk⟩⟩, .inl rfl⟩
    | ite p a b =>
      obtain ⟨rfl, rfl⟩ : (if p i s then a else b) :: k = l ∧ s = t := by
        simpa [Code.step] using hs
      refine ⟨List.forall_mem_cons.2 ⟨?_, hk⟩, .inl rfl⟩
      split
      · exact hc.1
      · exact hc.2
    | whilst p a =>
      obtain ⟨rfl, rfl⟩ : (if p i s then a :: .whilst p a :: k else k) = l ∧ s = t := by
        simpa [Code.step] using hs
      refine ⟨?_, .inl rfl⟩
      split
      · exact List.forall_mem_cons.2 ⟨hc, List.forall_mem_cons.2 ⟨hc, hk⟩⟩
      · exact hk
    | poll r g =>
      obtain ⟨rfl, rfl⟩ : (if r i then g i :: .poll r g :: k else k) = l ∧ s = t := by
        simpa [Code.step] using hs
      refine ⟨?_, .inl rfl⟩
      split
      · exact List.forall_mem_cons.2 ⟨hc i, List.forall_mem_cons.2 ⟨hc, hk⟩⟩
      · exact hk
    | forever a =>
      obtain ⟨rfl, rfl⟩ : a :: .forever a :: k = l ∧ s = t := by simpa [Code.step] using hs
      exact ⟨List.forall_mem_cons.2 ⟨hc, List.forall_mem_cons.2 ⟨hc, hk⟩⟩, .inl rfl⟩
    | reset => simp [Code.step] at hs

end Code

structure Config (σ ι : Type) where
  code : List (Code σ ι)
  state : σ

theorem Config.of_code {σ ι : Type} {c : Config σ ι} {k : List (Code σ ι)} (h : c.code = k) :
    ∃ s, c = ⟨k, s⟩ := by
  cases c
  exact ⟨_, congrArg (Config.mk · _) h⟩

/-- What happens next: a statement runs, something outside the program happens,
or the power is cut and comes back. -/
inductive Choice (ι ρ : Type) where
  | run : ι → Choice ι ρ
  | outside : ρ → Choice ι ρ
  | reset : Choice ι ρ
  deriving Repr

structure Machine (σ ι ρ : Type) where
  boot : Code σ ι
  react : ρ → σ → σ
  restart : σ → σ

namespace Machine

variable {σ ι ρ : Type}

def start (m : Machine σ ι ρ) (s : σ) : Config σ ι := ⟨[m.boot], s⟩

def step (m : Machine σ ι ρ) : Choice ι ρ → Config σ ι → Config σ ι
  | .run i, c => match Code.step i c.code c.state with
    | some (k, s) => ⟨k, s⟩
    | none => m.start (m.restart c.state)
  | .outside r, c => ⟨c.code, m.react r c.state⟩
  | .reset, c => m.start (m.restart c.state)

/-- The configuration after a run. -/
def exec (m : Machine σ ι ρ) (xs : List (Choice ι ρ)) (c : Config σ ι) : Config σ ι :=
  steps m.step xs c

@[simp] theorem exec_nil (m : Machine σ ι ρ) (c : Config σ ι) : m.exec [] c = c := rfl
@[simp] theorem exec_cons (m : Machine σ ι ρ) (x : Choice ι ρ) (xs : List (Choice ι ρ))
    (c : Config σ ι) : m.exec (x :: xs) c = m.exec xs (m.step x c) := rfl

theorem exec_append (m : Machine σ ι ρ) (xs ys : List (Choice ι ρ)) (c : Config σ ι) :
    m.exec (xs ++ ys) c = m.exec ys (m.exec xs c) :=
  steps_append xs ys c

end Machine

end Firmware
