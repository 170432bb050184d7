import TruckLock.Runs
import Mathlib.Data.List.Forall2

/-!
# Two copies of a program in step

Two programs that share a view of the state. What a copy has to itself leaves
the view alone and runs apart from the other; the statements that both have
run in both at once, with the same inputs and the same reading of the clock.
-/
namespace Firmware

variable {σ ι V W β : Type}

/-- What two copies have in common: `ok` is assumed of every input, `input` is what both are fed with,
`said` what each has told the outside so far, newest first, and `inv` a property that each of them keeps.
The pieces are pieces of code that stand in both copies and are treated by themselves. -/
structure Pairing (σ ι V W β : Type) where
  ok : ι → Prop
  input : ι → W
  clock : σ → Nat
  view : σ → V
  said : σ → List β
  inv : σ → Prop
  piece : Code σ ι → Prop

namespace Pairing

variable (C : Pairing σ ι V W β) (R : Prop)

/-- A step that does not show in what the copies share. -/
structure Same (s t : σ) : Prop where
  view : C.view t = C.view s
  said : C.said t = C.said s
  inv : C.inv s → C.inv t

/-- Code that a copy may have to itself. -/
def Apart : Code σ ι → Prop
  | .skip => True
  | .act f => ∀ i s, C.ok i → C.Same s (f i s)
  | .get _ g => ∀ v, Apart (g v)
  | .seq a b => Apart a ∧ Apart b
  | .ite _ a b => Apart a ∧ Apart b
  | .whilst _ a => Apart a
  | .poll r h => ∀ i, C.ok i → r i = true → Apart (h i)
  | .forever _ => False
  | .reset => False

/-- Code that stands in both copies, up to what each of them has to itself. Where `R` holds, `inv` may be
made use of. -/
inductive Paired : Code σ ι → Code σ ι → Prop where
  | apart {a b : Code σ ι} (ha : C.Apart a) (hb : C.Apart b) : Paired a b
  | piece {c : Code σ ι} (h : C.piece c) : Paired c c
  | act {f : ι → σ → σ} (g : W → Nat → V → V) (e : W → Nat → V → List β)
      (h : ∀ i s, (R → C.inv s) → C.view (f i s) = g (C.input i) (C.clock s) (C.view s) ∧
        C.said (f i s) = e (C.input i) (C.clock s) (C.view s) ++ C.said s ∧ (R → C.inv (f i s))) :
      Paired (.act f) (.act f)
  | get {f : ι → σ → Int} {g g' : Int → Code σ ι} (q : W → Nat → V → Int)
      (h : ∀ i s, f i s = q (C.input i) (C.clock s) (C.view s)) (hg : ∀ v, Paired (g v) (g' v)) :
      Paired (.get f g) (.get f g')
  | seq {a a' b b' : Code σ ι} (ha : Paired a a') (hb : Paired b b') : Paired (.seq a b) (.seq a' b')
  | ite {p : ι → σ → Bool} {a a' b b' : Code σ ι} (q : W → Nat → V → Bool)
      (h : ∀ i s, p i s = q (C.input i) (C.clock s) (C.view s)) (ha : Paired a a') (hb : Paired b b') :
      Paired (.ite p a b) (.ite p a' b')
  | whilst {p : ι → σ → Bool} {a a' : Code σ ι} (q : W → Nat → V → Bool)
      (h : ∀ i s, p i s = q (C.input i) (C.clock s) (C.view s)) (ha : Paired a a') :
      Paired (.whilst p a) (.whilst p a')
  | poll {r : ι → Bool} {h : ι → Code σ ι} (hr : ∀ i j, C.input i = C.input j → r i = r j)
      (hh : ∀ i j, C.input i = C.input j → Paired (h i) (h j)) : Paired (.poll r h) (.poll r h)
  | forever {a a' : Code σ ι} (ha : Paired a a') : Paired (.forever a) (.forever a')
  | reset : Paired .reset .reset

/-- What the next statement does to the view does not depend on the clock. -/
def Timeless : Code σ ι → Prop
  | .act f => ∀ i s t, C.view s = C.view t → C.view (f i s) = C.view (f i t) ∧
      ∃ e, C.said (f i s) = e ++ C.said s ∧ C.said (f i t) = e ++ C.said t
  | .get f _ => ∀ i s t, C.view s = C.view t → f i s = f i t
  | .ite p _ _ => ∀ i s t, C.view s = C.view t → p i s = p i t
  | .whilst p _ => ∀ i s t, C.view s = C.view t → p i s = p i t
  | _ => True

/-- Two states that agree in what the copies share; since the start, where they had said `a` and `b`, they
have said the same. -/
structure Agree (a b : List β) (s t : σ) : Prop where
  view : C.view s = C.view t
  said : ∃ n, C.said s = n ++ a ∧ C.said t = n ++ b
  inv : R → C.inv s ∧ C.inv t

/-- The stacks are the same up to what the copies have to themselves. -/
def Aligned (k l : List (Code σ ι)) : Prop :=
  ∃ n m k' l', k = n ++ k' ∧ l = m ++ l' ∧ (∀ c ∈ n, C.Apart c) ∧ (∀ c ∈ m, C.Apart c) ∧
    List.Forall₂ (C.Paired R) k' l'

variable {C R} {a b : List β} {c d : Code σ ι} {k l m n : List (Code σ ι)} {i j : ι} {s t u : σ}

theorem Same.refl (s : σ) : C.Same s s := ⟨rfl, rfl, id⟩

theorem Agree.first (h : C.Agree R a b s t) (hs : C.Same s u) : C.Agree R a b u t := by
  obtain ⟨n, hn, hn'⟩ := h.said
  exact ⟨hs.view.trans h.view, ⟨n, hs.said.trans hn, hn'⟩, fun hR => ⟨hs.inv (h.inv hR).1, (h.inv hR).2⟩⟩

theorem Agree.second (h : C.Agree R a b s t) (hs : C.Same t u) : C.Agree R a b s u := by
  obtain ⟨n, hn, hn'⟩ := h.said
  exact ⟨h.view.trans hs.view.symm, ⟨n, hn, hs.said.trans hn'⟩, fun hR => ⟨(h.inv hR).1, hs.inv (h.inv hR).2⟩⟩

theorem Apart.when {p : ι → σ → Bool} (h : C.Apart c) : C.Apart (.when p c) := ⟨h, trivial⟩

theorem apart_times (h : C.Apart c) (n : Nat) : C.Apart (.times n c) := by
  induction n with
  | zero => trivial
  | succ n ih => exact ⟨h, ih⟩

theorem Paired.when {p : ι → σ → Bool} {c' : Code σ ι} (q : W → Nat → V → Bool)
    (h : ∀ i s, p i s = q (C.input i) (C.clock s) (C.view s)) (hc : C.Paired R c c') :
    C.Paired R (.when p c) (.when p c') :=
  .ite q h hc (.apart trivial trivial)

theorem Paired.own (h : C.Apart c) : C.Paired R c c := .apart h h

/-- The end of a block. -/
theorem Paired.done : C.Paired R .skip .skip := .own trivial

/-- A statement of a copy by itself. -/
theorem Apart.step (h : C.Apart c) (hi : C.ok i) :
    ∃ n t, Code.step i (c :: k) s = some (n ++ k, t) ∧ (∀ a ∈ n, C.Apart a) ∧ C.Same s t := by
  cases c with
  | skip => exact ⟨[], s, rfl, by simp, .refl s⟩
  | act f => exact ⟨[], f i s, rfl, by simp, h i s hi⟩
  | get f g => exact ⟨[g (f i s)], s, rfl, List.forall_mem_singleton.2 (h _), .refl s⟩
  | seq a b => exact ⟨[a, b], s, rfl, by simpa using ⟨h.1, h.2⟩, .refl s⟩
  | ite p a b =>
    refine ⟨[if p i s then a else b], s, rfl, List.forall_mem_singleton.2 ?_, .refl s⟩
    split
    · exact h.1
    · exact h.2
  | whilst p a =>
    cases hp : p i s with
    | true => exact ⟨[a, .whilst p a], s, by simp [Code.step, hp], by simpa using ⟨h, h⟩, .refl s⟩
    | false => exact ⟨[], s, by simp [Code.step, hp], by simp, .refl s⟩
  | poll r g =>
    cases hr : r i with
    | true => exact ⟨[g i, .poll r g], s, by simp [Code.step, hr], by simpa using ⟨h i hi hr, h⟩, .refl s⟩
    | false => exact ⟨[], s, by simp [Code.step, hr], by simp, .refl s⟩
  | forever a => exact h.elim
  | reset => exact h.elim

/-- What one copy has to itself there, the other has to itself too. -/
theorem Paired.apart_iff (h : C.Paired R c d) : C.Apart c ↔ C.Apart d := by
  induction h with
  | apart ha hb => exact iff_of_true ha hb
  | piece _ => rfl
  | act _ _ _ => rfl
  | get _ _ _ ih => exact forall_congr' ih
  | seq _ _ iha ihb => exact and_congr iha ihb
  | ite _ _ _ _ iha ihb => exact and_congr iha ihb
  | whilst _ _ _ ih => exact ih
  | poll _ _ _ => rfl
  | forever _ _ => rfl
  | reset => rfl

/-- The same statement of both copies. -/
theorem Paired.step (h : C.Paired R c d) (hc : ¬ C.Apart c) (hp : ¬ C.piece c) (hij : C.input i = C.input j)
    (ht : C.clock s = C.clock t ∨ C.Timeless c) (hst : C.Agree R a b s t) :
    c = .reset ∧ d = .reset ∨ ∃ m n u v, Code.step i (c :: k) s = some (m ++ k, u) ∧
      Code.step j (d :: l) t = some (n ++ l, v) ∧ List.Forall₂ (C.Paired R) m n ∧ C.Agree R a b u v := by
  -- a value that is read off the view, the inputs and the clock
  have hsame : ∀ {β : Type} {f : ι → σ → β} {q : W → Nat → V → β},
      (∀ i s, f i s = q (C.input i) (C.clock s) (C.view s)) →
      (C.clock s = C.clock t ∨ ∀ i s t, C.view s = C.view t → f i s = f i t) → f i s = f j t := by
    intro β f q hf ht
    rcases ht with ht | ht
    · rw [hf, hf, hij, ht, hst.view]
    · rw [ht i s t hst.view, hf, hf, hij]
  cases h with
  | apart ha _ => exact absurd ha hc
  | piece h => exact absurd h hp
  | @act f g e h =>
    refine .inr ⟨[], [], f i s, f j t, rfl, rfl, .nil, ?_⟩
    obtain ⟨n, hn, hn'⟩ := hst.said
    obtain ⟨hv, hs, hi⟩ := h i s fun hR => (hst.inv hR).1
    obtain ⟨hv', hs', hi'⟩ := h j t fun hR => (hst.inv hR).2
    rcases ht with ht | ht
    · refine ⟨by rw [hv, hv', hij, ht, hst.view], ⟨e (C.input i) (C.clock s) (C.view s) ++ n, ?_, ?_⟩,
        fun hR => ⟨hi hR, hi' hR⟩⟩
      · rw [hs, hn, List.append_assoc]
      · rw [hs', hn', hij, ht, hst.view, List.append_assoc]
    · obtain ⟨hview, x, hx, hx'⟩ := ht i s t hst.view
      obtain ⟨hvi, hsi, -⟩ := h i t fun hR => (hst.inv hR).2
      refine ⟨by rw [hview, hvi, hv', hij], ⟨x ++ n, ?_, ?_⟩, fun hR => ⟨hi hR, hi' hR⟩⟩
      · rw [hx, hn, List.append_assoc]
      · rw [hs', ← hij, ← hsi, hx', hn', List.append_assoc]
  | @get f g g' q h hg =>
    refine .inr ⟨[g (f i s)], [g' (f j t)], s, t, rfl, rfl, ?_, hst⟩
    rw [hsame h ht]
    exact .cons (hg _) .nil
  | @seq a a' b b' ha hb => exact .inr ⟨[a, b], [a', b'], s, t, rfl, rfl, .cons ha (.cons hb .nil), hst⟩
  | @ite p a a' b b' q h ha hb =>
    refine .inr ⟨[if p i s then a else b], [if p j t then a' else b'], s, t, rfl, rfl, ?_, hst⟩
    rw [hsame h ht]
    split
    · exact .cons ha .nil
    · exact .cons hb .nil
  | @whilst p a a' q h ha =>
    have hpt := hsame h ht
    cases hps : p i s with
    | true =>
      exact .inr ⟨[a, .whilst p a], [a', .whilst p a'], s, t, by simp [Code.step, hps], by simp [Code.step, ← hpt, hps],
        .cons ha (.cons (.whilst q h ha) .nil), hst⟩
    | false =>
      exact .inr ⟨[], [], s, t, by simp [Code.step, hps], by simp [Code.step, ← hpt, hps], .nil, hst⟩
  | @poll r g hr hh =>
    have hrj := hr i j hij
    cases hri : r i with
    | true =>
      exact .inr ⟨[g i, .poll r g], [g j, .poll r g], s, t, by simp [Code.step, hri], by simp [Code.step, ← hrj, hri],
        .cons (hh i j hij) (.cons (.poll hr hh) .nil), hst⟩
    | false => exact .inr ⟨[], [], s, t, by simp [Code.step, hri], by simp [Code.step, ← hrj, hri], .nil, hst⟩
  | @forever a a' ha =>
    exact .inr ⟨[a, .forever a], [a', .forever a'], s, t, rfl, rfl, .cons ha (.cons (.forever ha) .nil), hst⟩
  | reset => exact .inl ⟨rfl, rfl⟩

theorem Paired.symm (h : C.Paired R c d) : C.Paired R d c := by
  induction h with
  | apart ha hb => exact .apart hb ha
  | piece h => exact .piece h
  | act g e h => exact .act g e h
  | get q h _ ih => exact .get q h ih
  | seq _ _ iha ihb => exact .seq iha ihb
  | ite q h _ _ iha ihb => exact .ite q h iha ihb
  | whilst q h _ ih => exact .whilst q h ih
  | poll hr _ ih => exact .poll hr fun i j hij => ih j i hij.symm
  | forever _ ih => exact .forever ih
  | reset => exact .reset

theorem Agree.symm (h : C.Agree R a b s t) : C.Agree R b a t s := by
  obtain ⟨n, hn, hn'⟩ := h.said
  exact ⟨h.view.symm, ⟨n, hn', hn⟩, fun hR => (h.inv hR).symm⟩

theorem Aligned.symm (h : C.Aligned R k l) : C.Aligned R l k := by
  obtain ⟨n, m, k', l', hk, hl, hn, hm, hp⟩ := h
  refine ⟨m, n, l', k', hl, hk, hm, hn, ?_⟩
  exact (List.Forall₂.flip hp).imp fun _ _ h => h.symm

/-- One copy goes on with what it has to itself. -/
theorem Aligned.first (h : C.Aligned R (c :: k) l) (hc : C.Apart c) (hi : C.ok i) :
    ∃ k' u, Code.step i (c :: k) s = some (k', u) ∧ C.Same s u ∧ C.Aligned R k' l := by
  obtain ⟨p, u, hs, hp, hu⟩ := hc.step (k := k) (s := s) hi
  refine ⟨p ++ k, u, hs, hu, ?_⟩
  obtain ⟨n, m, k', l', hk, rfl, hn, hm, hkl⟩ := h
  cases n with
  | cons a n =>
    obtain ⟨rfl, rfl⟩ := List.cons.inj hk
    refine ⟨p ++ n, m, k', l', (List.append_assoc p n k').symm, rfl, fun x hx => ?_, hm, hkl⟩
    rcases List.mem_append.1 hx with hx | hx
    · exact hp x hx
    · exact hn x (List.mem_cons_of_mem _ hx)
  | nil =>
    obtain rfl : c :: k = k' := hk
    cases hkl with
    | @cons _ d _ l' hcd hkl =>
      refine ⟨p, m ++ [d], k, l', rfl, by rw [List.append_assoc, List.singleton_append], hp, fun x hx => ?_, hkl⟩
      rcases List.mem_append.1 hx with hx | hx
      · exact hm x hx
      · rw [List.mem_singleton.1 hx]
        exact hcd.apart_iff.1 hc

/-- Where neither copy is at something of its own, both are at the same place. -/
theorem Aligned.both (h : C.Aligned R k l) (hk : ∀ c k', k = c :: k' → ¬ C.Apart c)
    (hl : ∀ d l', l = d :: l' → ¬ C.Apart d) : List.Forall₂ (C.Paired R) k l := by
  obtain ⟨n, m, k', l', rfl, rfl, hn, hm, hp⟩ := h
  cases n with
  | cons c n => exact absurd (hn c List.mem_cons_self) (hk c _ rfl)
  | nil =>
    cases m with
    | cons d m => exact absurd (hm d List.mem_cons_self) (hl d _ rfl)
    | nil => exact hp

theorem aligned_of_paired (h : List.Forall₂ (C.Paired R) k l) : C.Aligned R k l :=
  ⟨[], [], k, l, rfl, rfl, by simp, by simp, h⟩

end Pairing

end Firmware
