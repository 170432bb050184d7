import TruckLock.Runs

/-!
# Contracts on a view of the state

Where a property speaks of a view of the state only, and what happens beside
the program leaves the view alone, the assertions are predicates on the view
and most statements are idle. The others are described as the view sees them:
a chain of moves is a piece of straight-line code.
-/
namespace Firmware

variable {σ ι ρ V : Type}

/-- Whatever may happen beside the program without showing in the view. -/
def Beside (view : σ → V) : Type := { r : σ → σ // ∀ s, view (r s) = view s }

namespace Beside

def react (view : σ → V) (r : Beside view) : σ → σ := r.1

theorem view_react (view : σ → V) (r : Beside view) (s : σ) : view (react view r s) = view s := r.2 s

end Beside

/-- A contract on the view: `ok` is assumed of each statement, `good` is shown of it. -/
structure Spec (ι V : Type) where
  ok : ι → V → V → Prop
  good : V → V → Prop
  good_refl : ∀ v, good v v
  inv : V → Prop
  top : V → Prop
  fin : V → Prop

/-- One statement as the view sees it. -/
abbrev Move (ι V : Type) := ι → V → V → Prop

/-- A statement with one effect on the view. -/
def Move.to (f : V → V) : Move ι V := fun _ v w => w = f v

namespace Spec

/-- The spec of a call of which only the end matters, fed with inputs that satisfy `f`. -/
def fed (f : ι → Prop) (Q : V → Prop) : Spec ι V where
  ok i _ _ := f i
  good _ _ := True
  good_refl _ := trivial
  inv _ := True
  top _ := True
  fin := Q

/-- The spec of a call with any inputs. -/
abbrev call (Q : V → Prop) : Spec ι V := fed (fun _ => True) Q

/-- The spec of a call, fed with inputs that satisfy `f`, that keeps `I` to its end. -/
def under (f : ι → Prop) (I Q : V → Prop) : Spec ι V where
  ok i _ _ := f i
  good _ _ := True
  good_refl _ := trivial
  inv := I
  top _ := True
  fin := Q

/-- The spec of such a call with any inputs. -/
abbrev within (I Q : V → Prop) : Spec ι V := under (fun _ => True) I Q

/-- The contract amid steps beside the program that the view sees as `rel`. -/
def amid (S : Spec ι V) (rel : V → V → Prop) (view : σ → V) : Contract σ ι where
  may i k s := ∀ l t, Code.step i k s = some (l, t) → S.ok i (view s) (view t)
  rely s t := rel (view s) (view t)
  guar _ s t := S.good (view s) (view t)
  guar_refl _ s := S.good_refl (view s)
  inv s := S.inv (view s)
  top s := S.top (view s)
  fin s := S.fin (view s)

/-- The contract where nothing beside the program shows in the view. -/
def on (S : Spec ι V) (view : σ → V) : Contract σ ι := S.amid (fun v w => w = v) view

/-- The moves lead from `v` to `Q`, each of them as the spec asks. -/
def Chain (S : Spec ι V) : List (Move ι V) → (V → Prop) → V → Prop
  | [], Q, v => Q v
  | m :: ms, Q, v => S.inv v ∧ ∀ i w, m i v w → S.ok i v w → S.good v w ∧ Chain S ms Q w

@[simp] theorem chain_nil (S : Spec ι V) (Q : V → Prop) (v : V) : S.Chain [] Q v ↔ Q v := Iff.rfl

@[simp] theorem chain_cons (S : Spec ι V) (m : Move ι V) (ms : List (Move ι V)) (Q : V → Prop)
    (v : V) : S.Chain (m :: ms) Q v ↔
      S.inv v ∧ ∀ i w, m i v w → S.ok i v w → S.good v w ∧ S.Chain ms Q w := Iff.rfl

variable {S : Spec ι V} {view : σ → V} {A B Q : V → Prop}

/-- A single move with one effect. -/
theorem chain_to {f : V → V} {v : V} (hv : S.inv v)
    (h : ∀ i, S.ok i v (f v) → S.good v (f v) ∧ Q (f v)) : S.Chain [.to f] Q v := by
  refine ⟨hv, ?_⟩
  rintro i _ rfl hok
  exact h i hok

/-- A move in front of a chain. -/
theorem chain_step {m : Move ι V} {ms : List (Move ι V)} {v : V} (h : S.Chain [m] A v)
    (hms : ∀ i w, m i v w → A w → S.Chain ms Q w) : S.Chain (m :: ms) Q v :=
  ⟨h.1, fun i w hm hok => ⟨(h.2 i w hm hok).1, hms i w hm (h.2 i w hm hok).2⟩⟩

theorem Chain.inv {ms : List (Move ι V)} (hQ : ∀ v, Q v → S.inv v) {v : V} (h : S.Chain ms Q v) :
    S.inv v := by
  cases ms with
  | nil => exact hQ v h
  | cons m ms => exact h.1

theorem Chain.imp {ms : List (Move ι V)} {v : V} (h : S.Chain ms A v) (hi : ∀ v, A v → B v) :
    S.Chain ms B v := by
  induction ms generalizing v with
  | nil => exact hi v h
  | cons m ms ih => exact ⟨h.1, fun i w hm hok => ⟨(h.2 i w hm hok).1, ih (h.2 i w hm hok).2⟩⟩

/-- A property that each move of the chain keeps. -/
theorem Chain.and_kept {p : V → Prop} {ms : List (Move ι V)} {v : V} (h : S.Chain ms A v) (hp : p v)
    (hm : ∀ m ∈ ms, ∀ i v w, m i v w → p v → p w) : S.Chain ms (fun w => A w ∧ p w) v := by
  induction ms generalizing v with
  | nil => exact ⟨h, hp⟩
  | cons m ms ih =>
    refine ⟨h.1, fun i w hmw hok => ⟨(h.2 i w hmw hok).1, ?_⟩⟩
    exact ih (h.2 i w hmw hok).2 (hm m (by simp) i v w hmw hp) fun m' hm' => hm m' (by simp [hm'])

/-- An assertion on the view that implies the invariant and survives the steps beside the program. -/
structure Steady (S : Spec ι V) (rel : V → V → Prop) (A : V → Prop) : Prop where
  inv : ∀ v, A v → S.inv v
  rel : ∀ v w, A v → rel v w → A w

theorem Steady.stable {rel : V → V → Prop} (h : S.Steady rel A) :
    Stable (S.amid rel view) fun s => A (view s) where
  inv s hs := h.inv (view s) hs
  rely s t hs hst := h.rel (view s) (view t) hs hst

theorem steady (hA : ∀ v, A v → S.inv v) : S.Steady (fun v w => w = v) A where
  inv := hA
  rel := by
    rintro v _ hv rfl
    exact hv

theorem stable (hA : ∀ v, A v → S.inv v) : Stable (S.on view) fun s => A (view s) :=
  (steady hA).stable

/-- A triple with assertions on the view, amid steps beside the program. -/
abbrev Amid (S : Spec ι V) (rel : V → V → Prop) (view : σ → V) (A : V → Prop) (c : Code σ ι)
    (B : V → Prop) : Prop :=
  Triple (S.amid rel view) (fun s => A (view s)) c fun s => B (view s)

namespace Amid

variable {rel : V → V → Prop}

/-- One statement, by what it does to the view. -/
theorem step {f : ι → σ → σ} (hA : S.Steady rel A)
    (h : ∀ i s, A (view s) → S.ok i (view s) (view (f i s)) →
      S.good (view s) (view (f i s)) ∧ B (view (f i s))) : S.Amid rel view A (.act f) B :=
  Triple.act hA.stable fun i k s hs hmay => h i s hs (hmay k (f i s) (by simp [Code.step]))

/-- One statement, from an assertion that has its move in it. -/
theorem move {f : ι → σ → σ} {m : Move ι V} (hA : S.Steady rel A)
    (hf : ∀ i s, m i (view s) (view (f i s))) (h : ∀ v, A v → S.Chain [m] B v) :
    S.Amid rel view A (.act f) B :=
  step hA fun i s hs hok => (h (view s) hs).2 i _ (hf i s) hok

/-- Code whose statements show in the view as the move `m` at most. -/
theorem made {E : σ → σ → Prop} {K : Code σ ι → Prop} {m : Move ι V}
    (hA : S.Steady rel A) (hE : ∀ i s t, E s t → m i (view s) (view t))
    (hm : ∀ v, A v → S.Chain [m] A v) (hK : ∀ c, K c → S.Amid rel view A c A) {c : Code σ ι}
    (hc : Made E K c) : S.Amid rel view A c A :=
  Made.triple hA.stable (fun i f k s hmay hE' hs => (hm (view s) hs).2 i _ (hE i s _ hE')
    (hmay k (f i s) (by simp [Code.step]))) hK hc

/-- Code that does not show in the view keeps every assertion on it. -/
theorem idle {K : Code σ ι → Prop} (hA : S.Steady rel A) (hK : ∀ c, K c → S.Amid rel view A c A)
    {c : Code σ ι} (hc : Made (fun s t => view t = view s) K c) : S.Amid rel view A c A := by
  refine made (E := fun s t => view t = view s) (m := .to id) hA (fun _ _ _ h => h) ?_ hK hc
  intro v hv
  refine ⟨hA.inv v hv, ?_⟩
  rintro i w hw -
  obtain rfl : w = v := hw
  exact ⟨S.good_refl w, hv⟩

theorem ite {T F : V → Prop} {c : ι → σ → Bool} {a a' : Code σ ι} (hA : S.Steady rel A)
    (h₁ : ∀ i s, A (view s) → c i s = true → T (view s))
    (h₂ : ∀ i s, A (view s) → c i s = false → F (view s))
    (ha : S.Amid rel view T a B) (hb : S.Amid rel view F a' B) :
    S.Amid rel view A (.ite c a a') B :=
  Triple.ite hA.stable (fun i _ s hs _ h => h₁ i s hs h) (fun i _ s hs _ h => h₂ i s hs h) ha hb

theorem skip (hA : S.Steady rel A) (h : ∀ v, A v → B v) : S.Amid rel view A .skip B :=
  Triple.skip hA.stable fun s hs => h (view s) hs

theorem done (hA : S.Steady rel A) : S.Amid rel view A .skip A := skip hA fun _ h => h

theorem when {T : V → Prop} {c : ι → σ → Bool} {a : Code σ ι} (hA : S.Steady rel A)
    (h₁ : ∀ i s, A (view s) → c i s = true → T (view s))
    (h₂ : ∀ i s, A (view s) → c i s = false → B (view s)) (hB : S.Steady rel B)
    (ha : S.Amid rel view T a B) : S.Amid rel view A (.when c a) B :=
  ite hA h₁ h₂ ha (done hB)

/-- A test with a known outcome. -/
theorem known {c : ι → σ → Bool} {a a' : Code σ ι} {b : Bool} (hA : S.Steady rel A)
    (hb : ∀ i s, A (view s) → c i s = b) (h : S.Amid rel view A (if b then a else a') B) :
    S.Amid rel view A (.ite c a a') B := by
  cases b with
  | true =>
    exact ite (F := fun _ => False) hA (fun _ _ hs _ => hs) (fun i s hs hc => by simp [hb i s hs] at hc)
      h .absurd
  | false =>
    exact ite (T := fun _ => False) hA (fun i s hs hc => by simp [hb i s hs] at hc) (fun _ _ hs _ => hs)
      .absurd h

/-- A test that the view cannot see: both branches are possible. -/
theorem choose {c : ι → σ → Bool} {a a' : Code σ ι} (ha : S.Amid rel view A a B)
    (hb : S.Amid rel view A a' B) : S.Amid rel view A (.ite c a a') B :=
  Triple.ite ha.stable (fun _ _ _ hs _ _ => hs) (fun _ _ _ hs _ _ => hs) ha hb

theorem whilst {c : ι → σ → Bool} {a : Code σ ι} (ha : S.Amid rel view A a A) :
    S.Amid rel view A (.whilst c a) A :=
  Triple.whilst ha.stable (fun _ _ _ hs _ _ => hs) (fun _ _ _ hs _ _ => hs) ha

/-- Two pieces of code that keep the same assertion. -/
theorem both {a b : Code σ ι} (ha : S.Amid rel view A a A) (hb : S.Amid rel view A b A) :
    S.Amid rel view A (.seq a b) A :=
  .seq ha hb

/-- A poll whose handlers keep the assertion. -/
theorem poll {r : ι → Bool} {h : ι → Code σ ι} (hA : S.Steady rel A)
    (hh : ∀ i, S.Amid rel view A (h i) A) : S.Amid rel view A (.poll r h) A :=
  Triple.poll (D := fun _ s => A (view s)) hA.stable (fun _ _ _ hs _ _ => hs) (fun i _ => hh i)
    fun _ hs => hs

theorem get {f : ι → σ → Int} {g : Int → Code σ ι} (hA : S.Steady rel A)
    (hg : ∀ n, S.Amid rel view A (g n) B) : S.Amid rel view A (.get f g) B :=
  Triple.get (R := fun _ s => A (view s)) hA.stable (fun _ _ _ hs _ => hs) hg

end Amid

/-- A triple with assertions on the view, which only the program changes. -/
abbrev Leads (S : Spec ι V) (view : σ → V) (A : V → Prop) (c : Code σ ι) (B : V → Prop) : Prop :=
  Triple (S.on view) (fun s => A (view s)) c fun s => B (view s)

namespace Leads

/-- The end of a call. -/
theorem finish_fed {f : ι → Prop} {react : ρ → σ → σ} {c : Code σ ι}
    (hr : ∀ r s, view (react r s) = view s) (h : (fed f Q).Leads view A c Q)
    {xs : List (Choice ι ρ)} (hx : ∀ i, .run i ∈ xs → f i) {s t : σ} (hs : A (view s))
    (hf : Firmware.finish react xs [c] s = some t) : Q (view t) :=
  Triple.finish h hr (stable fun _ _ => trivial) (fun _ hq => hq) (fun i hi _ _ _ _ _ => hx i hi) hs hf

theorem finish {react : ρ → σ → σ} {c : Code σ ι} (hr : ∀ r s, view (react r s) = view s)
    (h : (call Q).Leads view A c Q) {xs : List (Choice ι ρ)} {s t : σ} (hs : A (view s))
    (hf : Firmware.finish react xs [c] s = some t) : Q (view t) :=
  finish_fed hr h (fun _ _ => trivial) hs hf

theorem act {f : ι → σ → σ} {m : Move ι V} {l : List (Move ι V)}
    (hf : ∀ i s, m i (view s) (view (f i s))) :
    S.Leads view (S.Chain (m :: l) Q) (.act f) (S.Chain l Q) :=
  Triple.act (stable fun _ h => h.1) fun i k s hs hmay =>
    hs.2 i _ (hf i s) (hmay k (f i s) (by simp [Code.step]))

theorem step {f : ι → σ → σ} (hA : ∀ v, A v → S.inv v)
    (h : ∀ i s, A (view s) → S.ok i (view s) (view (f i s)) →
      S.good (view s) (view (f i s)) ∧ B (view (f i s))) : S.Leads view A (.act f) B :=
  Amid.step (steady hA) h

theorem move {f : ι → σ → σ} {m : Move ι V} (hf : ∀ i s, m i (view s) (view (f i s)))
    (h : ∀ v, A v → S.Chain [m] B v) : S.Leads view A (.act f) B :=
  Amid.move (steady fun v hv => (h v hv).1) hf h

theorem made {E : σ → σ → Prop} {K : Code σ ι → Prop} {m : Move ι V}
    (hA : ∀ v, A v → S.inv v) (hE : ∀ i s t, E s t → m i (view s) (view t))
    (hm : ∀ v, A v → S.Chain [m] A v) (hK : ∀ c, K c → S.Leads view A c A) {c : Code σ ι}
    (hc : Made E K c) : S.Leads view A c A :=
  Amid.made (steady hA) hE hm hK hc

theorem idle {K : Code σ ι → Prop} (hA : ∀ v, A v → S.inv v)
    (hK : ∀ c, K c → S.Leads view A c A) {c : Code σ ι}
    (hc : Made (fun s t => view t = view s) K c) : S.Leads view A c A :=
  Amid.idle (steady hA) hK hc

theorem ite {T F : V → Prop} {c : ι → σ → Bool} {a a' : Code σ ι} (hA : ∀ v, A v → S.inv v)
    (h₁ : ∀ i s, A (view s) → c i s = true → T (view s))
    (h₂ : ∀ i s, A (view s) → c i s = false → F (view s))
    (ha : S.Leads view T a B) (hb : S.Leads view F a' B) : S.Leads view A (.ite c a a') B :=
  Amid.ite (steady hA) h₁ h₂ ha hb

theorem when {T : V → Prop} {c : ι → σ → Bool} {a : Code σ ι} (hA : ∀ v, A v → S.inv v)
    (h₁ : ∀ i s, A (view s) → c i s = true → T (view s))
    (h₂ : ∀ i s, A (view s) → c i s = false → B (view s)) (ha : S.Leads view T a B) :
    S.Leads view A (.when c a) B :=
  ite (F := fun v => S.inv v ∧ B v) hA h₁ (fun i s hs h => ⟨hA _ hs, h₂ i s hs h⟩) ha
    (Triple.skip (stable (A := fun v => S.inv v ∧ B v) fun _ h => h.1) fun _ h => h.2)

theorem known {c : ι → σ → Bool} {a a' : Code σ ι} {b : Bool} (hA : ∀ v, A v → S.inv v)
    (hb : ∀ i s, A (view s) → c i s = b) (h : S.Leads view A (if b then a else a') B) :
    S.Leads view A (.ite c a a') B :=
  Amid.known (steady hA) hb h

theorem choose {c : ι → σ → Bool} {a a' : Code σ ι} (ha : S.Leads view A a B)
    (hb : S.Leads view A a' B) : S.Leads view A (.ite c a a') B :=
  Amid.choose ha hb

theorem skip (hA : ∀ v, A v → S.inv v) (h : ∀ v, A v → B v) : S.Leads view A .skip B :=
  Amid.skip (steady hA) h

theorem done (hA : ∀ v, A v → S.inv v) : S.Leads view A .skip A := skip hA fun _ h => h

theorem both {a b : Code σ ι} (ha : S.Leads view A a A) (hb : S.Leads view A b A) :
    S.Leads view A (.seq a b) A :=
  Amid.both ha hb

theorem poll {r : ι → Bool} {h : ι → Code σ ι} (hA : ∀ v, A v → S.inv v)
    (hh : ∀ i, S.Leads view A (h i) A) : S.Leads view A (.poll r h) A :=
  Amid.poll (steady hA) hh

theorem get {f : ι → σ → Int} {g : Int → Code σ ι} (hA : ∀ v, A v → S.inv v)
    (hg : ∀ n, S.Leads view A (g n) B) : S.Leads view A (.get f g) B :=
  Amid.get (steady hA) hg

end Leads

end Spec

end Firmware
