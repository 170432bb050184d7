import TruckLock.Contract

/-!
# Runs of a machine under a contract

A triple about the boot code carries over to every configuration that a run
reaches, resets included, and a triple about one piece of code to every call
of it that ends.
-/
namespace Firmware

variable {σ ι ρ : Type}

namespace Machine

/-- Every choice of the run satisfies `φ` with the configurations before and after it. -/
abbrev Along (m : Machine σ ι ρ) (φ : Choice ι ρ → Config σ ι → Config σ ι → Prop)
    (xs : List (Choice ι ρ)) (c : Config σ ι) : Prop :=
  Firmware.Along m.step φ xs c

theorem along_append {m : Machine σ ι ρ} {φ : Choice ι ρ → Config σ ι → Config σ ι → Prop}
    (xs ys : List (Choice ι ρ)) (c : Config σ ι) :
    m.Along φ (xs ++ ys) c ↔ m.Along φ xs c ∧ m.Along φ ys (m.exec xs c) :=
  Firmware.along_append xs ys c

/-- What the contract asks of one choice: the inputs it may assume, the outside
steps it relies on. Resets are always allowed. -/
def Meet (m : Machine σ ι ρ) (C : Contract σ ι) : Choice ι ρ → Config σ ι → Prop
  | .run i, c => C.may i c.code c.state
  | .outside r, c => C.rely c.state (m.react r c.state)
  | .reset, _ => True

/-- What the contract says of one step: a statement keeps the guarantee or resets the device. -/
def Did (m : Machine σ ι ρ) (C : Contract σ ι) (x : Choice ι ρ) (c d : Config σ ι) : Prop :=
  d = m.start (m.restart c.state) ∨
    (∃ r, x = .outside r ∧ d = ⟨c.code, m.react r c.state⟩ ∧ C.rely c.state d.state) ∨
    ∃ i, x = .run i ∧ Code.step i c.code c.state = some (d.code, d.state) ∧
      C.guar i c.state d.state

/-- Safe for every number of further steps. -/
def Always (C : Contract σ ι) (c : Config σ ι) : Prop := ∀ n, Safe C n c.code c.state

theorem Always.inv {C : Contract σ ι} {c : Config σ ι} (h : Always C c) : C.inv c.state :=
  (h 0).now.1

theorem Always.top {C : Contract σ ι} {c : Config σ ι} (h : Always C c) {a : Code σ ι}
    {k : List (Code σ ι)} (hk : c.code = .forever a :: k) : C.top c.state := by
  have hh := (h 0).now.2
  rw [hk] at hh
  exact hh

variable {m : Machine σ ι ρ} {C : Contract σ ι} {pre : σ → Prop}

theorem always_start (hb : Triple C pre m.boot fun _ => False) {s : σ} (hs : pre s) :
    Always C (m.start s) :=
  fun n => hb.safe n [] (fun _ h => h.elim) s hs

theorem always_step (hb : Triple C pre m.boot fun _ => False)
    (hr : ∀ s, C.inv s → pre (m.restart s)) (x : Choice ι ρ) (c : Config σ ι)
    (hc : Always C c) (hx : m.Meet C x c) : m.Did C x c (m.step x c) ∧ Always C (m.step x c) := by
  have hreset : Always C (m.start (m.restart c.state)) := always_start hb (hr c.state hc.inv)
  cases x with
  | run i =>
    cases hst : Code.step i c.code c.state with
    | none => simpa [step, hst, Did] using hreset
    | some p =>
      obtain ⟨hg, -⟩ := (hc 1).2.2 i p.1 p.2 hx (by simp [hst])
      refine ⟨.inr (.inr ⟨i, rfl, ?_, ?_⟩), ?_⟩
      · simp [step, hst]
      · simpa [step, hst] using hg
      · simp only [step, hst]
        exact fun n => ((hc (n + 1)).2.2 i p.1 p.2 hx (by simp [hst])).2
  | outside r =>
    exact ⟨.inr (.inl ⟨r, rfl, rfl, hx⟩), fun n => (hc (n + 1)).2.1 _ hx⟩
  | reset => exact ⟨.inl rfl, hreset⟩

/-- A run whose choices meet the contract is safe throughout. -/
theorem along_always (hb : Triple C pre m.boot fun _ => False)
    (hr : ∀ s, C.inv s → pre (m.restart s)) (xs : List (Choice ι ρ)) (c : Config σ ι)
    (hc : Always C c) (hm : m.Along (fun x c _ => m.Meet C x c) xs c) :
    m.Along (fun x c d => Always C c ∧ m.Did C x c d ∧ Always C d) xs c := by
  induction xs generalizing c with
  | nil => trivial
  | cons x xs ih =>
    obtain ⟨hd, hs⟩ := always_step hb hr x c hc hm.1
    exact ⟨⟨hc, hd, hs⟩, ih _ hs hm.2⟩

theorem always_exec (hb : Triple C pre m.boot fun _ => False)
    (hr : ∀ s, C.inv s → pre (m.restart s)) (xs : List (Choice ι ρ)) (c : Config σ ι)
    (hc : Always C c) (hm : m.Along (fun x c _ => m.Meet C x c) xs c) :
    Always C (m.exec xs c) :=
  hm.invariant hc fun x c hc hx => (always_step hb hr x c hc hx).2

/-- An effect `D` that every statement has, and whatever happens beside them. -/
theorem every_step {D : Choice ι ρ → σ → σ → Prop} (hD : ∀ i s, D (.run i) s s)
    (hb : Code.Every (fun i => D (.run i)) m.boot) (hreact : ∀ r s, D (.outside r) s (m.react r s))
    (hrestart : ∀ x s, D x s (m.restart s)) (x : Choice ι ρ) (c : Config σ ι)
    (hc : ∀ a ∈ c.code, Code.Every (fun i => D (.run i)) a) :
    D x c.state (m.step x c).state ∧
      ∀ a ∈ (m.step x c).code, Code.Every (fun i => D (.run i)) a := by
  have hstart : ∀ s, ∀ a ∈ (m.start s).code, Code.Every (fun i => D (.run i)) a :=
    fun s => by simpa [start] using hb
  cases x with
  | run i =>
    cases hst : Code.step i c.code c.state with
    | none =>
      have hd : m.step (.run i) c = m.start (m.restart c.state) := by simp [step, hst]
      rw [hd]
      exact ⟨hrestart _ c.state, hstart _⟩
    | some p =>
      have hd : m.step (.run i) c = ⟨p.1, p.2⟩ := by simp [step, hst]
      obtain ⟨hk, ht⟩ := Code.Every.step hc hst
      rw [hd]
      refine ⟨?_, hk⟩
      rcases ht with ht | ht
      · rw [ht]
        exact hD i c.state
      · exact ht
  | outside r => exact ⟨hreact r c.state, hc⟩
  | reset => exact ⟨hrestart _ c.state, hstart _⟩

theorem along_every {D : Choice ι ρ → σ → σ → Prop} (hD : ∀ i s, D (.run i) s s)
    (hb : Code.Every (fun i => D (.run i)) m.boot) (hreact : ∀ r s, D (.outside r) s (m.react r s))
    (hrestart : ∀ x s, D x s (m.restart s)) (xs : List (Choice ι ρ)) (c : Config σ ι)
    (hc : ∀ a ∈ c.code, Code.Every (fun i => D (.run i)) a) :
    m.Along (fun x c d => D x c.state d.state) xs c := by
  induction xs generalizing c with
  | nil => trivial
  | cons x xs ih =>
    obtain ⟨hd, hk⟩ := every_step hD hb hreact hrestart x c hc
    exact ⟨hd, ih _ hk⟩

end Machine

/-- The code on the stack run alone until it has ended; `none` when the choices do not
fit, do not suffice or reset the device. -/
def finish (react : ρ → σ → σ) : List (Choice ι ρ) → List (Code σ ι) → σ → Option σ
  | [], [], s => some s
  | .run i :: xs, c :: k, s =>
    (Code.step i (c :: k) s).bind fun p => finish react xs p.1 p.2
  | .outside r :: xs, k, s => finish react xs k (react r s)
  | _, _, _ => none

namespace Code

theorem step_append (i : ι) (c : Code σ ι) (l k : List (Code σ ι)) (s : σ) :
    step i (c :: l ++ k) s = (step i (c :: l) s).map fun p => (p.1 ++ k, p.2) := by
  cases c <;> simp [step] <;> split <;> rfl

end Code

/-- A call that ends does in the machine what it does alone. -/
theorem exec_of_finish (m : Machine σ ι ρ) {xs : List (Choice ι ρ)} {l : List (Code σ ι)} {s t : σ}
    (h : finish m.react xs l s = some t) (k : List (Code σ ι)) :
    m.exec xs ⟨l ++ k, s⟩ = ⟨k, t⟩ := by
  induction xs generalizing l s with
  | nil =>
    cases l with
    | nil => simp_all [finish]
    | cons c l => simp [finish] at h
  | cons x xs ih =>
    cases x with
    | run i =>
      cases l with
      | nil => simp [finish] at h
      | cons c l =>
        simp only [finish, Option.bind_eq_some_iff] at h
        obtain ⟨p, hp, h⟩ := h
        have hs : m.step (.run i) ⟨c :: l ++ k, s⟩ = ⟨p.1 ++ k, p.2⟩ := by
          simp only [Machine.step, Code.step_append, hp, Option.map_some]
        rw [Machine.exec_cons, hs]
        exact ih h
    | outside r => exact ih (by simpa [finish] using h)
    | reset => simp [finish] at h

/-- A preorder that every statement follows, over a call that ends. -/
theorem every_finish {E : σ → σ → Prop} (hE : ∀ s, E s s) (ht : ∀ s t u, E s t → E t u → E s u)
    {react : ρ → σ → σ} (hr : ∀ r s, E s (react r s)) {xs : List (Choice ι ρ)} {k : List (Code σ ι)}
    {s t : σ} (hk : ∀ c ∈ k, Code.Every (fun _ => E) c) (h : finish react xs k s = some t) : E s t := by
  induction xs generalizing k s with
  | nil =>
    cases k with
    | nil =>
      obtain rfl : s = t := by simpa [finish] using h
      exact hE s
    | cons c k => simp [finish] at h
  | cons x xs ih =>
    cases x with
    | run i =>
      cases k with
      | nil => simp [finish] at h
      | cons c k =>
        simp only [finish, Option.bind_eq_some_iff] at h
        obtain ⟨p, hp, h⟩ := h
        obtain ⟨hk', hs⟩ := Code.Every.step hk hp
        rcases hs with hs | hs
        · rw [← hs]
          exact ih hk' h
        · exact ht _ _ _ hs (ih hk' h)
    | outside r => exact ht _ _ _ (hr r s) (ih hk (by simpa [finish] using h))
    | reset => simp [finish] at h

/-- The state in which the code on the stack resets the device; `none` when the choices do not lead
up to just that. -/
def resets (react : ρ → σ → σ) : List (Choice ι ρ) → List (Code σ ι) → σ → Option σ
  | [.run _], .reset :: _, s => some s
  | .run i :: xs, k, s => (Code.step i k s).bind fun p => resets react xs p.1 p.2
  | .outside r :: xs, k, s => resets react xs k (react r s)
  | _, _, _ => none

/-- Code without a reset in it. -/
@[grind =] def Code.Lasts : Code σ ι → Prop
  | .skip => True
  | .act _ => True
  | .get _ g => ∀ v, Lasts (g v)
  | .seq a b => Lasts a ∧ Lasts b
  | .ite _ a b => Lasts a ∧ Lasts b
  | .whilst _ a => Lasts a
  | .poll _ h => ∀ i, Lasts (h i)
  | .forever a => Lasts a
  | .reset => False

theorem Code.Lasts.step {i : ι} {c : Code σ ι} {k l : List (Code σ ι)} {s t : σ} (hc : c.Lasts)
    (hk : ∀ a ∈ k, a.Lasts) (h : Code.step i (c :: k) s = some (l, t)) : ∀ a ∈ l, a.Lasts := by
  cases c with
  | skip =>
    obtain ⟨rfl, -⟩ : k = l ∧ s = t := by simpa [Code.step] using h
    exact hk
  | act f =>
    obtain ⟨rfl, -⟩ : k = l ∧ f i s = t := by simpa [Code.step] using h
    exact hk
  | get f g =>
    obtain ⟨rfl, -⟩ : g (f i s) :: k = l ∧ s = t := by simpa [Code.step] using h
    exact List.forall_mem_cons.2 ⟨hc _, hk⟩
  | seq a b =>
    obtain ⟨rfl, -⟩ : a :: b :: k = l ∧ s = t := by simpa [Code.step] using h
    exact List.forall_mem_cons.2 ⟨hc.1, List.forall_mem_cons.2 ⟨hc.2, hk⟩⟩
  | ite p a b =>
    obtain ⟨rfl, -⟩ : (if p i s then a else b) :: k = l ∧ s = t := by simpa [Code.step] using h
    refine List.forall_mem_cons.2 ⟨?_, hk⟩
    split
    · exact hc.1
    · exact hc.2
  | whilst p a =>
    obtain ⟨rfl, -⟩ : (if p i s then a :: .whilst p a :: k else k) = l ∧ s = t := by
      simpa [Code.step] using h
    split
    · exact List.forall_mem_cons.2 ⟨hc, List.forall_mem_cons.2 ⟨hc, hk⟩⟩
    · exact hk
  | poll r g =>
    obtain ⟨rfl, -⟩ : (if r i then g i :: .poll r g :: k else k) = l ∧ s = t := by
      simpa [Code.step] using h
    split
    · exact List.forall_mem_cons.2 ⟨hc i, List.forall_mem_cons.2 ⟨hc, hk⟩⟩
    · exact hk
  | forever a =>
    obtain ⟨rfl, -⟩ : a :: .forever a :: k = l ∧ s = t := by simpa [Code.step] using h
    exact List.forall_mem_cons.2 ⟨hc, List.forall_mem_cons.2 ⟨hc, hk⟩⟩
  | reset => exact hc.elim

theorem resets_run {react : ρ → σ → σ} {c : Code σ ι} (hc : c ≠ .reset) (i : ι)
    (xs : List (Choice ι ρ)) (k : List (Code σ ι)) (s : σ) :
    resets react (.run i :: xs) (c :: k) s =
      (Code.step i (c :: k) s).bind fun p => resets react xs p.1 p.2 := by
  rw [resets]
  intro _ h
  exact absurd (List.cons.inj h).1 hc

/-- Code that lasts has ended before the code below it resets the device. -/
theorem finish_of_resets {react : ρ → σ → σ} {xs : List (Choice ι ρ)} {l k : List (Code σ ι)}
    {s t : σ} (hl : ∀ c ∈ l, c.Lasts) (h : resets react xs (l ++ k) s = some t) :
    ∃ ys zs u, xs = ys ++ zs ∧ finish react ys l s = some u ∧ resets react zs k u = some t := by
  induction xs generalizing l s with
  | nil => simp [resets] at h
  | cons x xs ih =>
    cases l with
    | nil => exact ⟨[], x :: xs, s, rfl, rfl, h⟩
    | cons c l =>
      rw [List.forall_mem_cons] at hl
      cases x with
      | run i =>
        have hne : c ≠ .reset := by
          rintro rfl
          exact hl.1
        rw [List.cons_append, resets_run hne, ← List.cons_append, Code.step_append] at h
        obtain ⟨p, hp, h⟩ := Option.bind_eq_some_iff.1 h
        obtain ⟨q, hq, rfl⟩ := Option.map_eq_some_iff.1 hp
        obtain ⟨ys, zs, u, rfl, hf, hz⟩ := ih (hl.1.step hl.2 hq) h
        exact ⟨.run i :: ys, zs, u, rfl, by simp [finish, hq, hf], hz⟩
      | outside r =>
        obtain ⟨ys, zs, u, rfl, hf, hz⟩ := ih (List.forall_mem_cons.2 hl) (by simpa [resets] using h)
        exact ⟨.outside r :: ys, zs, u, rfl, by simpa [finish] using hf, hz⟩
      | reset => simp [resets] at h

section

variable {V : Type} {react : ρ → σ → σ} {view : σ → V}

theorem resets_seq (hr : ∀ r s, view (react r s) = view s) {xs : List (Choice ι ρ)}
    {a b : Code σ ι} {k : List (Code σ ι)} {s t : σ} (h : resets react xs (.seq a b :: k) s = some t) :
    ∃ ys u, view u = view s ∧ resets react ys (a :: b :: k) u = some t := by
  induction xs generalizing s with
  | nil => simp [resets] at h
  | cons x xs ih =>
    cases x with
    | run i =>
      rw [resets_run (by simp)] at h
      exact ⟨xs, s, rfl, h⟩
    | outside r =>
      obtain ⟨ys, u, hu, hy⟩ := ih (s := react r s) (by simpa [resets] using h)
      exact ⟨ys, u, hu.trans (hr r s), hy⟩
    | reset => simp [resets] at h

theorem resets_reset (hr : ∀ r s, view (react r s) = view s) {xs : List (Choice ι ρ)}
    {k : List (Code σ ι)} {s t : σ} (h : resets react xs (.reset :: k) s = some t) :
    view t = view s := by
  induction xs generalizing s with
  | nil => simp [resets] at h
  | cons x xs ih =>
    cases x with
    | run i =>
      cases xs with
      | nil =>
        obtain rfl : s = t := by simpa [resets] using h
        rfl
      | cons x xs => simp [resets, Code.step] at h
    | outside r => exact (ih (by simpa [resets] using h)).trans (hr r s)
    | reset => simp [resets] at h

end

theorem Safe.finish {C : Contract σ ι} {react : ρ → σ → σ} (hr : ∀ r s, C.rely s (react r s))
    {xs : List (Choice ι ρ)} (hm : ∀ i, .run i ∈ xs → ∀ k s, C.may i k s) {k : List (Code σ ι)}
    {s t : σ} (h : ∀ n, Safe C n k s) (hf : Firmware.finish react xs k s = some t) : C.fin t := by
  induction xs generalizing k s with
  | nil =>
    cases k with
    | nil =>
      obtain rfl : s = t := by simpa [Firmware.finish] using hf
      exact (h 0).2
    | cons c k => simp [Firmware.finish] at hf
  | cons x xs ih =>
    cases x with
    | run i =>
      cases k with
      | nil => simp [Firmware.finish] at hf
      | cons c k =>
        simp only [Firmware.finish, Option.bind_eq_some_iff] at hf
        obtain ⟨p, hp, hf⟩ := hf
        exact ih (fun j hj => hm j (by simp [hj]))
          (fun n => ((h (n + 1)).2.2 i p.1 p.2 (hm i (by simp) _ s) hp).2) hf
    | outside r =>
      exact ih (fun j hj => hm j (by simp [hj])) (fun n => (h (n + 1)).2.1 _ (hr r s))
        (by simpa [Firmware.finish] using hf)
    | reset => simp [Firmware.finish] at hf

/-- Nothing is left to run. -/
theorem Stable.ended {C : Contract σ ι} {Q : σ → Prop} (hQ : Stable C Q) (hf : ∀ s, Q s → C.fin s)
    (n : Nat) : ∀ s, Q s → Safe C n [] s := by
  refine hQ.safe [] hf n ?_ n le_rfl
  intro m _ hk i k u u' hu _ hst
  obtain ⟨rfl, rfl⟩ : [] = k ∧ u = u' := by simpa [Code.step] using hst
  exact ⟨C.guar_refl i u, hk u hu⟩

/-- The postcondition of a call that ends. -/
theorem Triple.finish {C : Contract σ ι} {react : ρ → σ → σ} {P Q : σ → Prop} {c : Code σ ι}
    (hc : Triple C P c Q) (hr : ∀ r s, C.rely s (react r s)) (hQ : Stable C Q)
    (hf : ∀ s, Q s → C.fin s) {xs : List (Choice ι ρ)}
    (hm : ∀ i, .run i ∈ xs → ∀ k s, C.may i k s) {s t : σ} (hs : P s)
    (h : Firmware.finish react xs [c] s = some t) : C.fin t :=
  Safe.finish hr hm (fun n => hc.safe n [] (hQ.ended hf n) s hs) h

end Firmware
