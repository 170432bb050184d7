import TruckLock.Code
import Mathlib.Order.SuccPred.Archimedean

/-!
# Contracts for device programs

A contract says what a program may assume of its inputs (`may`) and of the
steps taken beside it (`rely`), what each of its own steps does (`guar`), what
holds in every state (`inv`), at the head of a main loop (`top`) and when a
call has ended (`fin`). `Triple` is the pre- and postcondition of one piece of
code under a contract: the precondition has to be stable under `rely`.
-/
namespace Firmware

structure Contract (σ ι : Type) where
  may : ι → List (Code σ ι) → σ → Prop
  rely : σ → σ → Prop
  guar : ι → σ → σ → Prop
  guar_refl : ∀ i s, guar i s s
  inv : σ → Prop
  top : σ → Prop
  fin : σ → Prop

variable {σ ι : Type}

namespace Contract

/-- What the contract asks of a state because of the code that runs next. -/
def here (C : Contract σ ι) : List (Code σ ι) → σ → Prop
  | [], s => C.fin s
  | .forever _ :: _, s => C.top s
  | _, _ => True

end Contract

/-- The next `n` steps, of the program or beside it, meet the contract. -/
def Safe (C : Contract σ ι) : Nat → List (Code σ ι) → σ → Prop
  | 0, k, s => C.inv s ∧ C.here k s
  | n + 1, k, s => (C.inv s ∧ C.here k s) ∧ (∀ s', C.rely s s' → Safe C n k s') ∧
      ∀ i k' s', C.may i k s → Code.step i k s = some (k', s') → C.guar i s s' ∧ Safe C n k' s'

theorem Safe.now {C : Contract σ ι} {n : Nat} {k : List (Code σ ι)} {s : σ} (h : Safe C n k s) :
    C.inv s ∧ C.here k s := by
  cases n with
  | zero => exact h
  | succ n => exact h.1

theorem Safe.pred {C : Contract σ ι} {n : Nat} {k : List (Code σ ι)} {s : σ}
    (h : Safe C (n + 1) k s) : Safe C n k s := by
  induction n generalizing k s with
  | zero => exact h.1
  | succ n ih =>
    refine ⟨h.1, fun s' hs => ih (h.2.1 s' hs), ?_⟩
    intro i k' s' hm hs
    obtain ⟨hg, hn⟩ := h.2.2 i k' s' hm hs
    exact ⟨hg, ih hn⟩

theorem Safe.mono {C : Contract σ ι} {m n : Nat} {k : List (Code σ ι)} {s : σ}
    (h : Safe C n k s) (hmn : m ≤ n) : Safe C m k s := by
  induction n, hmn using Nat.le_induction with
  | base => exact h
  | succ n _ ih => exact ih h.pred

/-- An assertion that implies the invariant and survives the steps beside the program. -/
structure Stable (C : Contract σ ι) (P : σ → Prop) : Prop where
  inv : ∀ s, P s → C.inv s
  rely : ∀ s s', P s → C.rely s s' → P s'

/-- One statement is safe when its own step is; `n` bounds the rest of the run. -/
theorem Stable.safe {C : Contract σ ι} {P : σ → Prop} (hP : Stable C P) (k : List (Code σ ι))
    (hh : ∀ s, P s → C.here k s) (N : Nat)
    (h : ∀ n < N, (∀ s, P s → Safe C n k s) → ∀ i k' s s', P s → C.may i k s →
      Code.step i k s = some (k', s') → C.guar i s s' ∧ Safe C n k' s') :
    ∀ n ≤ N, ∀ s, P s → Safe C n k s := by
  intro n
  induction n with
  | zero => exact fun _ s hs => ⟨hP.inv s hs, hh s hs⟩
  | succ n ih =>
    intro hn s hs
    have hk := ih (by omega)
    refine ⟨⟨hP.inv s hs, hh s hs⟩, fun s' hr => hk s' (hP.rely s s' hs hr), ?_⟩
    exact fun i k' s' hm hst => h n (by omega) hk i k' s s' hs hm hst

/-- From `P`, the code meets the contract and ends, if it ends, in `Q`. -/
structure Triple (C : Contract σ ι) (P : σ → Prop) (c : Code σ ι) (Q : σ → Prop) : Prop where
  stable : Stable C P
  safe : ∀ n k, (∀ s, Q s → Safe C n k s) → ∀ s, P s → Safe C n (c :: k) s

namespace Triple

variable {C : Contract σ ι} {P P' Q Q' R : σ → Prop}

/-- Strengthen the precondition and weaken the postcondition. -/
theorem conseq {c : Code σ ι} (h : Triple C P c Q) (hP' : Stable C P') (hp : ∀ s, P' s → P s)
    (hq : ∀ s, Q s → Q' s) : Triple C P' c Q' where
  stable := hP'
  safe n k hk s hs := h.safe n k (fun t ht => hk t (hq t ht)) s (hp s hs)

theorem post {c : Code σ ι} (h : Triple C P c Q) (hq : ∀ s, Q s → Q' s) : Triple C P c Q' :=
  h.conseq h.stable (fun _ hs => hs) hq

theorem pre {c : Code σ ι} (h : Triple C P c Q) (hP' : Stable C P') (hp : ∀ s, P' s → P s) :
    Triple C P' c Q :=
  h.conseq hP' hp (fun _ hs => hs)

theorem absurd {c : Code σ ι} : Triple C (fun _ => False) c Q :=
  ⟨⟨fun _ h => h.elim, fun _ _ h => h.elim⟩, fun _ _ _ _ h => h.elim⟩

theorem skip (hP : Stable C P) (h : ∀ s, P s → Q s) : Triple C P .skip Q where
  stable := hP
  safe N k hk := by
    refine hP.safe (.skip :: k) (fun _ _ => trivial) N ?_ N le_rfl
    intro n hn _ i k' s s' hs _ hst
    obtain ⟨rfl, rfl⟩ : k = k' ∧ s = s' := by simpa [Code.step] using hst
    exact ⟨C.guar_refl i s, (hk s (h s hs)).mono hn.le⟩

theorem act {f : ι → σ → σ} (hP : Stable C P)
    (h : ∀ i k s, P s → C.may i (.act f :: k) s → C.guar i s (f i s) ∧ Q (f i s)) :
    Triple C P (.act f) Q where
  stable := hP
  safe N k hk := by
    refine hP.safe (.act f :: k) (fun _ _ => trivial) N ?_ N le_rfl
    intro n hn _ i k' s s' hs hm hst
    obtain ⟨rfl, rfl⟩ : k = k' ∧ f i s = s' := by simpa [Code.step] using hst
    obtain ⟨hg, hq⟩ := h i k s hs hm
    exact ⟨hg, (hk _ hq).mono hn.le⟩

/-- `R v` is what is known after the value `v` has been read. -/
theorem get {R : Int → σ → Prop} {f : ι → σ → Int} {g : Int → Code σ ι} (hP : Stable C P)
    (h : ∀ i k s, P s → C.may i (.get f g :: k) s → R (f i s) s)
    (hg : ∀ v, Triple C (R v) (g v) Q) : Triple C P (.get f g) Q where
  stable := hP
  safe N k hk := by
    refine hP.safe (.get f g :: k) (fun _ _ => trivial) N ?_ N le_rfl
    intro n hn _ i k' s s' hs hm hst
    obtain ⟨rfl, rfl⟩ : g (f i s) :: k = k' ∧ s = s' := by simpa [Code.step] using hst
    have hv := (hg (f i s)).safe n k (fun t ht => (hk t ht).mono hn.le) s (h i k s hs hm)
    exact ⟨C.guar_refl i s, hv⟩

theorem seq {a b : Code σ ι} (ha : Triple C P a R) (hb : Triple C R b Q) :
    Triple C P (.seq a b) Q where
  stable := ha.stable
  safe N k hk := by
    refine ha.stable.safe (.seq a b :: k) (fun _ _ => trivial) N ?_ N le_rfl
    intro n hn _ i k' s s' hs _ hst
    obtain ⟨rfl, rfl⟩ : a :: b :: k = k' ∧ s = s' := by simpa [Code.step] using hst
    have hk' : ∀ t, Q t → Safe C n k t := fun t ht => (hk t ht).mono hn.le
    exact ⟨C.guar_refl i s, ha.safe n _ (hb.safe n k hk') s hs⟩

theorem ite {c : ι → σ → Bool} {a b : Code σ ι} {T F : σ → Prop} (hP : Stable C P)
    (h₁ : ∀ i k s, P s → C.may i (.ite c a b :: k) s → c i s = true → T s)
    (h₂ : ∀ i k s, P s → C.may i (.ite c a b :: k) s → c i s = false → F s)
    (ha : Triple C T a Q) (hb : Triple C F b Q) : Triple C P (.ite c a b) Q where
  stable := hP
  safe N k hk := by
    refine hP.safe (.ite c a b :: k) (fun _ _ => trivial) N ?_ N le_rfl
    intro n hn _ i k' s s' hs hm hst
    have hk' : ∀ t, Q t → Safe C n k t := fun t ht => (hk t ht).mono hn.le
    refine ⟨?_, ?_⟩
    · obtain ⟨-, rfl⟩ : _ ∧ s = s' := by simpa [Code.step] using hst
      exact C.guar_refl i s
    · cases hc : c i s with
      | true =>
        obtain ⟨rfl, rfl⟩ : a :: k = k' ∧ s = s' := by simpa [Code.step, hc] using hst
        exact ha.safe n k hk' s (h₁ i k s hs hm hc)
      | false =>
        obtain ⟨rfl, rfl⟩ : b :: k = k' ∧ s = s' := by simpa [Code.step, hc] using hst
        exact hb.safe n k hk' s (h₂ i k s hs hm hc)

/-- `P` is the loop invariant. -/
theorem whilst {c : ι → σ → Bool} {a : Code σ ι} {T : σ → Prop} (hP : Stable C P)
    (h₁ : ∀ i k s, P s → C.may i (.whilst c a :: k) s → c i s = true → T s)
    (h₂ : ∀ i k s, P s → C.may i (.whilst c a :: k) s → c i s = false → Q s)
    (ha : Triple C T a P) : Triple C P (.whilst c a) Q where
  stable := hP
  safe N k hk := by
    refine hP.safe (.whilst c a :: k) (fun _ _ => trivial) N ?_ N le_rfl
    intro n hn hself i k' s s' hs hm hst
    cases hc : c i s with
    | true =>
      obtain ⟨rfl, rfl⟩ : a :: .whilst c a :: k = k' ∧ s = s' := by simpa [Code.step, hc] using hst
      exact ⟨C.guar_refl i s, ha.safe n _ hself s (h₁ i k s hs hm hc)⟩
    | false =>
      obtain ⟨rfl, rfl⟩ : k = k' ∧ s = s' := by simpa [Code.step, hc] using hst
      exact ⟨C.guar_refl i s, (hk s (h₂ i k s hs hm hc)).mono hn.le⟩

/-- Every handler that the outside may start at a poll keeps `P`; `D i` is what is known
once the input `i` starts one. -/
theorem poll {r : ι → Bool} {h : ι → Code σ ι} {D : ι → σ → Prop} (hP : Stable C P)
    (h₁ : ∀ i k s, P s → C.may i (.poll r h :: k) s → r i = true → D i s)
    (hh : ∀ i, r i = true → Triple C (D i) (h i) P) (hq : ∀ s, P s → Q s) :
    Triple C P (.poll r h) Q where
  stable := hP
  safe N k hk := by
    refine hP.safe (.poll r h :: k) (fun _ _ => trivial) N ?_ N le_rfl
    intro n hn hself i k' s s' hs hm hst
    cases hr : r i with
    | true =>
      obtain ⟨rfl, rfl⟩ : h i :: .poll r h :: k = k' ∧ s = s' := by simpa [Code.step, hr] using hst
      exact ⟨C.guar_refl i s, (hh i hr).safe n _ hself s (h₁ i k s hs hm hr)⟩
    | false =>
      obtain ⟨rfl, rfl⟩ : k = k' ∧ s = s' := by simpa [Code.step, hr] using hst
      exact ⟨C.guar_refl i s, (hk s (hq s hs)).mono hn.le⟩

theorem forever {a : Code σ ι} (ht : ∀ s, P s → C.top s) (ha : Triple C P a P) :
    Triple C P (.forever a) Q where
  stable := ha.stable
  safe N k _ := by
    refine ha.stable.safe (.forever a :: k) ht N ?_ N le_rfl
    intro n _ hself i k' s s' hs _ hst
    obtain ⟨rfl, rfl⟩ : a :: .forever a :: k = k' ∧ s = s' := by simpa [Code.step] using hst
    exact ⟨C.guar_refl i s, ha.safe n _ hself s hs⟩

theorem reset (hP : Stable C P) : Triple C P .reset Q where
  stable := hP
  safe N k _ := by
    refine hP.safe (.reset :: k) (fun _ _ => trivial) N ?_ N le_rfl
    intro n _ _ i k' s s' _ _ hst
    simp [Code.step] at hst

end Triple

/-- The code is made of statements with an effect in `E` and of polls in `K`. -/
def Made (E : σ → σ → Prop) (K : Code σ ι → Prop) : Code σ ι → Prop
  | .skip => True
  | .act f => ∀ i s, E s (f i s)
  | .get _ g => ∀ v, Made E K (g v)
  | .seq a b => Made E K a ∧ Made E K b
  | .ite _ a b => Made E K a ∧ Made E K b
  | .whilst _ a => Made E K a
  | .poll r h => K (.poll r h)
  | .forever _ => False
  | .reset => True

section

variable {E : σ → σ → Prop} {K : Code σ ι → Prop}

@[simp] theorem made_skip : Made E K .skip := trivial
@[simp] theorem made_reset : Made E K .reset := trivial
@[simp] theorem made_act (f : ι → σ → σ) : Made E K (.act f) ↔ ∀ i s, E s (f i s) := Iff.rfl
@[simp] theorem made_get (f : ι → σ → Int) (g : Int → Code σ ι) :
    Made E K (.get f g) ↔ ∀ v, Made E K (g v) := Iff.rfl
@[simp] theorem made_seq (a b : Code σ ι) :
    Made E K (.seq a b) ↔ Made E K a ∧ Made E K b := Iff.rfl
@[simp] theorem made_ite (c : ι → σ → Bool) (a b : Code σ ι) :
    Made E K (.ite c a b) ↔ Made E K a ∧ Made E K b := Iff.rfl
@[simp] theorem made_when (c : ι → σ → Bool) (a : Code σ ι) :
    Made E K (.when c a) ↔ Made E K a := and_iff_left trivial
@[simp] theorem made_whilst (c : ι → σ → Bool) (a : Code σ ι) :
    Made E K (.whilst c a) ↔ Made E K a := Iff.rfl

theorem made_set {f : σ → σ} (h : ∀ s, E s (f s)) : Made E K (.set f) := fun _ => h

theorem Made.mono {E' : σ → σ → Prop} (hE : ∀ s t, E s t → E' s t) {c : Code σ ι} (h : Made E K c) :
    Made E' K c := by
  induction c with
  | skip => trivial
  | act f => exact fun i s => hE _ _ (h i s)
  | get f g ih => exact fun v => ih v (h v)
  | seq a b iha ihb => exact ⟨iha h.1, ihb h.2⟩
  | ite p a b iha ihb => exact ⟨iha h.1, ihb h.2⟩
  | whilst p a ih => exact ih h
  | poll r g => exact h
  | forever a => exact h.elim
  | reset => trivial

theorem made_times {c : Code σ ι} (h : Made E K c) (n : Nat) : Made E K (.times n c) := by
  induction n with
  | zero => trivial
  | succ n ih => exact ⟨h, ih⟩

end

section

variable {C : Contract σ ι} {I : σ → Prop}

/-- An assertion closed under `E` is an invariant of all code made of `E`. -/
theorem Made.triple {E : σ → σ → Prop} {K : Code σ ι → Prop} (hI : Stable C I)
    (hE : ∀ i f k s, C.may i (.act f :: k) s → E s (f i s) → I s →
      C.guar i s (f i s) ∧ I (f i s))
    (hK : ∀ c, K c → Triple C I c I) {c : Code σ ι} (hc : Made E K c) : Triple C I c I := by
  induction c with
  | skip => exact .skip hI fun _ hs => hs
  | act f => exact .act hI fun i k s hs hm => hE i f k s hm (hc i s) hs
  | get f g ih => exact .get hI (fun _ _ _ hs _ => hs) fun v => ih v (hc v)
  | seq a b iha ihb => exact .seq (iha hc.1) (ihb hc.2)
  | ite c a b iha ihb =>
    exact .ite hI (fun _ _ _ hs _ _ => hs) (fun _ _ _ hs _ _ => hs) (iha hc.1) (ihb hc.2)
  | whilst c a ih => exact .whilst hI (fun _ _ _ hs _ _ => hs) (fun _ _ _ hs _ _ => hs) (ih hc)
  | poll r h _ => exact hK _ hc
  | forever a _ => exact hc.elim
  | reset => exact .reset hI

/-- The same for code of which every statement has an effect in `E`, handlers included. -/
theorem Triple.every {E : ι → σ → σ → Prop} (hI : Stable C I) (ht : ∀ s, I s → C.top s)
    (hE : ∀ i f k s, C.may i (.act f :: k) s → E i s (f i s) → I s →
      C.guar i s (f i s) ∧ I (f i s)) {c : Code σ ι} (hc : Code.Every E c) : Triple C I c I := by
  induction c with
  | skip => exact .skip hI fun _ hs => hs
  | act f => exact .act hI fun i k s hs hm => hE i f k s hm (hc i s) hs
  | get f g ih => exact .get hI (fun _ _ _ hs _ => hs) fun v => ih v (hc v)
  | seq a b iha ihb => exact .seq (iha hc.1) (ihb hc.2)
  | ite c a b iha ihb =>
    exact .ite hI (fun _ _ _ hs _ _ => hs) (fun _ _ _ hs _ _ => hs) (iha hc.1) (ihb hc.2)
  | whilst c a ih => exact .whilst hI (fun _ _ _ hs _ _ => hs) (fun _ _ _ hs _ _ => hs) (ih hc)
  | poll r h ih =>
    exact .poll (D := fun _ s => I s) hI (fun _ _ _ hs _ _ => hs) (fun i _ => ih i (hc i))
      fun _ hs => hs
  | forever a ih => exact .forever ht (ih hc)
  | reset => exact .reset hI

end

end Firmware
