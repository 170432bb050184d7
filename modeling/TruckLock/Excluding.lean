import TruckLock.Runs

/-!
# Code up to an excluded effect

A run in which some effect does not happen never gets past a statement that
has it, so nothing need be known of the code behind that statement. Pieces of
code that are treated by themselves may be left out as well.
-/
namespace Firmware

variable {σ ι ρ : Type}

namespace Code

/-- The first statement has an effect in `X`. -/
inductive Begins (X : ι → σ → σ → Prop) : Code σ ι → Prop where
  | act {f : ι → σ → σ} (h : ∀ i s, X i s (f i s)) : Begins X (.act f)
  | seq {a b : Code σ ι} (h : Begins X a) : Begins X (.seq a b)

/-- Every statement has an effect in `E`, but for the pieces in `K` and what stands behind an
effect in `X`. -/
inductive Until (E X : ι → σ → σ → Prop) (K : Code σ ι → Prop) : Code σ ι → Prop where
  | begins {c : Code σ ι} (h : Begins X c) : Until E X K c
  | piece {c : Code σ ι} (h : K c) : Until E X K c
  | skip : Until E X K .skip
  | act {f : ι → σ → σ} (h : ∀ i s, E i s (f i s)) : Until E X K (.act f)
  | get {f : ι → σ → Int} {g : Int → Code σ ι} (h : ∀ v, Until E X K (g v)) : Until E X K (.get f g)
  | seq {a b : Code σ ι} (ha : Until E X K a) (hb : Until E X K b) : Until E X K (.seq a b)
  | ite {p : ι → σ → Bool} {a b : Code σ ι} (ha : Until E X K a) (hb : Until E X K b) :
      Until E X K (.ite p a b)
  | whilst {p : ι → σ → Bool} {a : Code σ ι} (h : Until E X K a) : Until E X K (.whilst p a)
  | poll {r : ι → Bool} {g : ι → Code σ ι} (h : ∀ i, Until E X K (g i)) : Until E X K (.poll r g)
  | forever {a : Code σ ι} (h : Until E X K a) : Until E X K (.forever a)
  | reset : Until E X K .reset

variable {E X : ι → σ → σ → Prop} {K : Code σ ι → Prop}

theorem Until.when {p : ι → σ → Bool} {a : Code σ ι} (h : Until E X K a) : Until E X K (.when p a) :=
  .ite h .skip

theorem Until.of_every {c : Code σ ι} (h : Every E c) : Until E X K c := by
  induction c with
  | skip => exact .skip
  | act f => exact .act h
  | get f g ih => exact .get fun v => ih v (h v)
  | seq a b iha ihb => exact .seq (iha h.1) (ihb h.2)
  | ite p a b iha ihb => exact .ite (iha h.1) (ihb h.2)
  | whilst p a ih => exact .whilst (ih h)
  | poll r g ih => exact .poll fun i => ih i (h i)
  | forever a ih => exact .forever (ih h)
  | reset => exact .reset

/-- A stack of such code, or one that the run cannot get past. -/
def Stays (E X : ι → σ → σ → Prop) (K : Code σ ι → Prop) (k : List (Code σ ι)) : Prop :=
  (∀ c ∈ k, Until E X K c) ∨ ∃ a l, k = a :: l ∧ Begins X a

theorem Begins.step {i : ι} {a : Code σ ι} {k l : List (Code σ ι)} {s t : σ} (h : Begins X a)
    (hs : Code.step i (a :: k) s = some (l, t)) (hX : ¬ X i s t) :
    t = s ∧ ∃ b m, l = b :: m ∧ Begins X b := by
  cases h with
  | act h =>
    obtain ⟨-, rfl⟩ : k = l ∧ _ = t := by simpa [Code.step] using hs
    exact absurd (h i s) hX
  | @seq a b h =>
    obtain ⟨rfl, rfl⟩ : a :: b :: k = l ∧ s = t := by simpa [Code.step] using hs
    exact ⟨rfl, a, b :: k, rfl, h⟩

theorem not_begins (i : ι) (s : σ) {a : Code σ ι} : ¬ Begins (fun _ _ _ => False) a := by
  intro h
  induction h with
  | act h => exact h i s
  | seq _ ih => exact ih

/-- A step without the excluded effect, when no piece comes next. -/
theorem Stays.step {i : ι} {k l : List (Code σ ι)} {s t : σ} (h : Stays E X K k)
    (hK : ∀ c m, k = c :: m → ¬ K c) (hs : Code.step i k s = some (l, t)) (hX : ¬ X i s t) :
    Stays E X K l ∧ (t = s ∨ E i s t) := by
  rcases h with h | ⟨a, m, rfl, ha⟩
  · cases k with
    | nil =>
      obtain ⟨rfl, rfl⟩ : [] = l ∧ s = t := by simpa [Code.step] using hs
      exact ⟨.inl h, .inl rfl⟩
    | cons c k =>
      rw [List.forall_mem_cons] at h
      obtain ⟨hc, hk⟩ := h
      cases hc with
      | begins hb =>
        obtain ⟨ht, b⟩ := hb.step hs hX
        exact ⟨.inr b, .inl ht⟩
      | piece hp => exact absurd hp (hK c k rfl)
      | skip =>
        obtain ⟨rfl, rfl⟩ : k = l ∧ s = t := by simpa [Code.step] using hs
        exact ⟨.inl hk, .inl rfl⟩
      | @act f hf =>
        obtain ⟨rfl, rfl⟩ : k = l ∧ f i s = t := by simpa [Code.step] using hs
        exact ⟨.inl hk, .inr (hf i s)⟩
      | @get f g hg =>
        obtain ⟨rfl, rfl⟩ : g (f i s) :: k = l ∧ s = t := by simpa [Code.step] using hs
        exact ⟨.inl (List.forall_mem_cons.2 ⟨hg _, hk⟩), .inl rfl⟩
      | @seq a b ha hb =>
        obtain ⟨rfl, rfl⟩ : a :: b :: k = l ∧ s = t := by simpa [Code.step] using hs
        exact ⟨.inl (List.forall_mem_cons.2 ⟨ha, List.forall_mem_cons.2 ⟨hb, hk⟩⟩), .inl rfl⟩
      | @ite p a b ha hb =>
        obtain ⟨rfl, rfl⟩ : (if p i s then a else b) :: k = l ∧ s = t := by
          simpa [Code.step] using hs
        refine ⟨.inl (List.forall_mem_cons.2 ⟨?_, hk⟩), .inl rfl⟩
        split
        · exact ha
        · exact hb
      | @whilst p a ha =>
        obtain ⟨rfl, rfl⟩ : (if p i s then a :: .whilst p a :: k else k) = l ∧ s = t := by
          simpa [Code.step] using hs
        refine ⟨.inl ?_, .inl rfl⟩
        split
        · exact List.forall_mem_cons.2 ⟨ha, List.forall_mem_cons.2 ⟨.whilst ha, hk⟩⟩
        · exact hk
      | @poll r g hg =>
        obtain ⟨rfl, rfl⟩ : (if r i then g i :: .poll r g :: k else k) = l ∧ s = t := by
          simpa [Code.step] using hs
        refine ⟨.inl ?_, .inl rfl⟩
        split
        · exact List.forall_mem_cons.2 ⟨hg i, List.forall_mem_cons.2 ⟨.poll hg, hk⟩⟩
        · exact hk
      | @forever a ha =>
        obtain ⟨rfl, rfl⟩ : a :: .forever a :: k = l ∧ s = t := by simpa [Code.step] using hs
        exact ⟨.inl (List.forall_mem_cons.2 ⟨ha, List.forall_mem_cons.2 ⟨.forever ha, hk⟩⟩), .inl rfl⟩
      | reset => simp [Code.step] at hs
  · obtain ⟨ht, b⟩ := ha.step hs hX
    exact ⟨.inr b, .inl ht⟩

end Code

end Firmware
