import TruckLock.Views

/-!
# Calls and the points they pass

A call that ends, by coming back or by resetting the device, has passed every
statement that its code cannot go around. What is known of the states on the
way may decide which branches it takes.
-/
namespace Firmware

variable {σ ι ρ V : Type}

/-- The code on the stack after some steps that neither end the call nor reset the device. -/
def advance (react : ρ → σ → σ) :
    List (Choice ι ρ) → List (Code σ ι) → σ → Option (List (Code σ ι) × σ)
  | [], k, s => some (k, s)
  | .run i :: xs, c :: k, s => (Code.step i (c :: k) s).bind fun p => advance react xs p.1 p.2
  | .outside r :: xs, k, s => advance react xs k (react r s)
  | _, _, _ => none

/-- The call comes to an end in `u`. -/
def Ends (react : ρ → σ → σ) (xs : List (Choice ι ρ)) (k : List (Code σ ι)) (s u : σ) : Prop :=
  finish react xs k s = some u ∨ resets react xs k s = some u

section

variable {react : ρ → σ → σ} {xs ys : List (Choice ι ρ)} {k l : List (Code σ ι)} {s t u : σ}

/-- What follows the steps of a call, after some steps: the same of the rest of the call. -/
theorem append_of_advance {β : Type*} {F : List (Choice ι ρ) → List (Code σ ι) → σ → β}
    (hrun : ∀ i xs c k s l t, Code.step i (c :: k) s = some (l, t) →
      F (.run i :: xs) (c :: k) s = F xs l t)
    (hout : ∀ r xs k s, F (.outside r :: xs) k s = F xs k (react r s))
    (h : advance react xs k s = some (l, t)) : F (xs ++ ys) k s = F ys l t := by
  induction xs generalizing k s with
  | nil =>
    obtain ⟨rfl, rfl⟩ : k = l ∧ s = t := by simpa [advance] using h
    rfl
  | cons x xs ih =>
    cases x with
    | run i =>
      cases k with
      | nil => simp [advance] at h
      | cons c k =>
        obtain ⟨p, hp, h⟩ := Option.bind_eq_some_iff.1 h
        rw [List.cons_append, hrun i (xs ++ ys) c k s p.1 p.2 hp]
        exact ih h
    | outside r =>
      rw [List.cons_append, hout]
      exact ih (by simpa [advance] using h)
    | reset => simp [advance] at h

theorem ne_reset {c : Code σ ι} {i : ι} (h : Code.step i (c :: k) s = some (l, t)) : c ≠ .reset := by
  rintro rfl
  simp [Code.step] at h

theorem advance_append (h : advance react xs k s = some (l, t)) :
    advance react (xs ++ ys) k s = advance react ys l t :=
  append_of_advance (fun _ _ _ _ _ _ _ hs => by rw [advance, hs, Option.bind_some])
    (fun _ _ _ _ => by rw [advance]) h

theorem finish_append (h : advance react xs k s = some (l, t)) :
    finish react (xs ++ ys) k s = finish react ys l t :=
  append_of_advance (fun _ _ _ _ _ _ _ hs => by rw [finish, hs, Option.bind_some])
    (fun _ _ _ _ => by rw [finish]) h

theorem resets_append (h : advance react xs k s = some (l, t)) :
    resets react (xs ++ ys) k s = resets react ys l t :=
  append_of_advance (fun _ _ _ _ _ _ _ hs => by rw [resets_run (ne_reset hs), hs, Option.bind_some])
    (fun _ _ _ _ => by rw [resets]) h

theorem Ends.rest (hu : Ends react (xs ++ ys) k s u) (h : advance react xs k s = some (l, t)) :
    Ends react ys l t u := by
  rwa [Ends, finish_append h, resets_append h] at hu

/-- The first statement of a call that ends, after what happens beside it. -/
theorem Ends.first {c : Code σ ι} (hc : c ≠ .reset) (h : Ends react xs (c :: k) s u) :
    ∃ (rs : List ρ) (i : ι) (ys : List (Choice ι ρ)) (l : List (Code σ ι)) (t : σ),
      xs = rs.map .outside ++ .run i :: ys ∧
      Code.step i (c :: k) (rs.foldl (fun s r => react r s) s) = some (l, t) ∧ Ends react ys l t u := by
  induction xs generalizing s with
  | nil => simp [Ends, finish, resets] at h
  | cons x xs ih =>
    cases x with
    | run i =>
      rw [Ends, finish, resets_run hc] at h
      cases hp : Code.step i (c :: k) s with
      | none => simp [hp] at h
      | some p =>
        rw [hp] at h
        exact ⟨[], i, xs, p.1, p.2, rfl, hp, h⟩
    | outside r =>
      obtain ⟨rs, i, ys, l, t, rfl, hst, he⟩ := ih (s := react r s) (by simpa [Ends, finish, resets] using h)
      exact ⟨r :: rs, i, ys, l, t, rfl, hst, he⟩
    | reset => simp [Ends, finish, resets] at h

theorem advance_first {c : Code σ ι} {i : ι} (rs : List ρ)
    (h : Code.step i (c :: k) (rs.foldl (fun s r => react r s) s) = some (l, t)) :
    advance react (rs.map .outside ++ [.run i]) (c :: k) s = some (l, t) := by
  induction rs generalizing s with
  | nil => simpa [advance] using h
  | cons r rs ih => exact ih h

theorem advance_outside {c : Code σ ι} (rs : List ρ) :
    advance react (rs.map .outside) (c :: k) s = some (c :: k, rs.foldl (fun s r => react r s) s) := by
  induction rs generalizing s with
  | nil => rfl
  | cons r rs ih => exact ih

theorem finish_reset : finish react xs (.reset :: k) s = none := by
  induction xs generalizing s with
  | nil => rfl
  | cons x xs ih =>
    cases x with
    | run i => rfl
    | outside r => exact ih
    | reset => rfl

theorem Safe.advance {C : Contract σ ι} (hr : ∀ r s, C.rely s (react r s))
    (hm : ∀ i, .run i ∈ xs → ∀ k s, C.may i k s) (h : ∀ n, Safe C n k s)
    (ha : Firmware.advance react xs k s = some (l, t)) : ∀ n, Safe C n l t := by
  induction xs generalizing k s with
  | nil =>
    obtain ⟨rfl, rfl⟩ : k = l ∧ s = t := by simpa [Firmware.advance] using ha
    exact h
  | cons x xs ih =>
    cases x with
    | run i =>
      cases k with
      | nil => simp [Firmware.advance] at ha
      | cons c k =>
        obtain ⟨p, hp, ha⟩ := Option.bind_eq_some_iff.1 ha
        exact ih (fun j hj => hm j (by simp [hj]))
          (fun n => ((h (n + 1)).2.2 i p.1 p.2 (hm i (by simp) _ s) hp).2) ha
    | outside r =>
      exact ih (fun j hj => hm j (by simp [hj])) (fun n => (h (n + 1)).2.1 _ (hr r s))
        (by simpa [Firmware.advance] using ha)
    | reset => simp [Firmware.advance] at ha

/-- Every state of a call keeps the invariant, and the last one the postcondition. -/
theorem Spec.Leads.advance_under {view : σ → V} {f : ι → Prop} {I A Q : V → Prop} {c : Code σ ι}
    (hr : ∀ r s, view (react r s) = view s) (h : (under f I Q).Leads view A c Q) (hQ : ∀ v, Q v → I v)
    (hx : ∀ i, .run i ∈ xs → f i) (hs : A (view s))
    (ha : Firmware.advance react xs [c] s = some (l, t)) : I (view t) ∧ (l = [] → Q (view t)) := by
  have hend : Stable ((under f I Q).on view) fun u => Q (view u) := Spec.stable hQ
  have hsafe := Safe.advance hr (fun i hi _ _ _ _ _ => hx i hi)
    (fun n => h.safe n [] (hend.ended (fun _ hq => hq) n) s hs) ha
  refine ⟨(hsafe 0).now.1, ?_⟩
  rintro rfl
  exact (hsafe 0).now.2

theorem Spec.Leads.advance {view : σ → V} {I A Q : V → Prop} {c : Code σ ι}
    (hr : ∀ r s, view (react r s) = view s) (h : (within I Q).Leads view A c Q) (hQ : ∀ v, Q v → I v)
    (hs : A (view s)) (ha : Firmware.advance react xs [c] s = some (l, t)) :
    I (view t) ∧ (l = [] → Q (view t)) :=
  advance_under hr h hQ (fun _ _ => trivial) hs ha

/-- A call comes back or resets the device, not both. -/
theorem resets_of_finish (h : finish react xs k s = some t) : resets react xs k s = none := by
  induction xs generalizing k s with
  | nil => simp [resets]
  | cons x xs ih =>
    cases x with
    | run i =>
      cases k with
      | nil => simp [finish] at h
      | cons c k =>
        simp only [finish, Option.bind_eq_some_iff] at h
        obtain ⟨p, hp, h⟩ := h
        rw [resets_run (ne_reset hp), hp, Option.bind_some]
        exact ih h
    | outside r => exact ih (by simpa [finish] using h)
    | reset => simp [finish] at h

theorem resets_nil (xs : List (Choice ι ρ)) (s : σ) : resets react xs ([] : List (Code σ ι)) s = none := by
  induction xs generalizing s with
  | nil => simp [resets]
  | cons x xs ih =>
    cases x with
    | run i => simpa [resets, Code.step] using ih s
    | outside r => simpa [resets] using ih (react r s)
    | reset => simp [resets]

/-- A call of code that lasts comes back. -/
theorem Ends.comes_back (hl : ∀ c ∈ k, c.Lasts) (h : Ends react xs k s u) :
    finish react xs k s = some u := by
  rcases h with h | h
  · exact h
  · obtain ⟨ys, zs, v, -, -, hz⟩ := finish_of_resets (k := []) hl (by rwa [List.append_nil])
    rw [resets_nil] at hz
    exact absurd hz (by simp)

theorem Ends.run {c : Code σ ι} {i : ι} (h : Ends react (.run i :: xs) (c :: k) s u)
    (hs : Code.step i (c :: k) s = some (l, t)) : Ends react xs l t u := by
  rwa [Ends, finish, resets_run (ne_reset hs), hs, Option.bind_some, Option.bind_some] at h

/-- A preorder that every statement follows, over a call that ends. -/
theorem Ends.every {E : σ → σ → Prop} (hE : ∀ s, E s s) (ht : ∀ s t u, E s t → E t u → E s u)
    (hr : ∀ r s, E s (react r s)) (hk : ∀ c ∈ k, Code.Every (fun _ => E) c)
    (h : Ends react xs k s u) : E s u := by
  rcases h with h | h
  · exact every_finish hE ht hr hk h
  · induction xs, k, s using resets.induct react with
    | case1 i k s =>
      obtain rfl : s = u := by simpa [resets] using h
      exact hE s
    | case2 i xs k s hne ih =>
      rw [resets] at h
      · obtain ⟨p, hp, h⟩ := Option.bind_eq_some_iff.1 h
        obtain ⟨hk', hs⟩ := Code.Every.step hk hp
        rcases hs with hs | hs
        · rw [← hs]
          exact ih p hk' h
        · exact ht _ _ _ hs (ih p hk' h)
      · exact hne
    | case3 r xs k s ih => exact ht _ _ _ (hr r s) (ih hk (by simpa [resets] using h))
    | case4 xs k s h1 h2 h3 =>
      rw [resets] at h
      · simp at h
      · exact h2
      · exact h3
      · exact h1

/-- Code that a call has left to run is made of the same effects. -/
theorem every_advance {E : ι → σ → σ → Prop} (hk : ∀ c ∈ k, Code.Every E c)
    (h : advance react xs k s = some (l, t)) : ∀ c ∈ l, Code.Every E c := by
  induction xs generalizing k s with
  | nil =>
    obtain ⟨rfl, rfl⟩ : k = l ∧ s = t := by simpa [advance] using h
    exact hk
  | cons x xs ih =>
    cases x with
    | run i =>
      cases k with
      | nil => simp [advance] at h
      | cons c k =>
        obtain ⟨p, hp, h⟩ := Option.bind_eq_some_iff.1 h
        exact ih (Code.Every.step hk hp).1 h
    | outside r => exact ih hk (by simpa [advance] using h)
    | reset => simp [advance] at h

/-- A run without a reset: the call has come back on the way, or some of it is left to run. -/
theorem exec_cases {m : Machine σ ι ρ}
    (hx : m.Along (fun _ c d => d ≠ m.start (m.restart c.state)) xs ⟨l ++ k, s⟩) :
    (∃ ys zs t, xs = ys ++ zs ∧ finish m.react ys l s = some t) ∨
      ∃ c n t, advance m.react xs l s = some (c :: n, t) ∧ m.exec xs ⟨l ++ k, s⟩ = ⟨c :: n ++ k, t⟩ := by
  induction xs generalizing l s with
  | nil =>
    cases l with
    | nil => exact .inl ⟨[], [], s, rfl, rfl⟩
    | cons c l => exact .inr ⟨c, l, s, rfl, rfl⟩
  | cons x xs ih =>
    cases l with
    | nil => exact .inl ⟨[], x :: xs, s, rfl, rfl⟩
    | cons c l =>
      cases x with
      | run i =>
        cases hp : Code.step i (c :: l) s with
        | none =>
          have hs : m.step (.run i) ⟨c :: l ++ k, s⟩ = m.start (m.restart s) := by
            simp only [Machine.step, Code.step_append, hp, Option.map_none]
          exact absurd hs hx.1
        | some p =>
          have hs : m.step (.run i) ⟨c :: l ++ k, s⟩ = ⟨p.1 ++ k, p.2⟩ := by
            simp only [Machine.step, Code.step_append, hp, Option.map_some]
          have hxs := hx.2
          rw [hs] at hxs
          rcases ih hxs with ⟨ys, zs, t, rfl, hf⟩ | ⟨d, n, t, ha, he⟩
          · exact .inl ⟨.run i :: ys, zs, t, rfl, by rw [finish, hp, Option.bind_some, hf]⟩
          · refine .inr ⟨d, n, t, by rw [advance, hp, Option.bind_some, ha], ?_⟩
            rw [Machine.exec_cons, hs, he]
      | outside r =>
        rcases ih (l := c :: l) (s := m.react r s) hx.2 with ⟨ys, zs, t, rfl, hf⟩ | ⟨d, n, t, ha, he⟩
        · exact .inl ⟨.outside r :: ys, zs, t, rfl, by rw [finish, hf]⟩
        · exact .inr ⟨d, n, t, by rw [advance, ha], he⟩
      | reset => exact absurd rfl hx.1

/-- No call of the code goes around `g`, as long as the states on the way satisfy `I`. -/
inductive Passes (I : σ → Prop) (g : Code σ ι) : Code σ ι → Prop where
  | here : Passes I g g
  | left {a b : Code σ ι} (ha : Passes I g a) (hb : b.Lasts) : Passes I g (.seq a b)
  | right {a b : Code σ ι} (ha : a.Lasts) (hb : Passes I g b) : Passes I g (.seq a b)
  | yes {p : ι → σ → Bool} {a b : Code σ ι} (hp : ∀ i s, I s → p i s = true) (ha : Passes I g a) :
      Passes I g (.ite p a b)

/-- A call that ends has passed `g`, with code left that does not reset the device. -/
theorem Passes.reached {E : σ → σ → Prop} (hE : ∀ s, E s s) (ht : ∀ s t u, E s t → E t u → E s u)
    (hr : ∀ r s, E s (react r s)) {I : σ → Prop} {s₀ : σ} (hI : ∀ s, E s₀ s → E s u → I s)
    {g c : Code σ ι} (hc : Passes I g c) (hl : ∀ a ∈ l, a.Lasts) (hk : ∀ a ∈ k, a.Lasts)
    (hev : ∀ a ∈ l ++ c :: k, Code.Every (fun _ => E) a) (hs : E s₀ s)
    (h : Ends react xs (l ++ c :: k) s u) :
    ∃ ys zs m t, xs = ys ++ zs ∧ advance react ys (l ++ c :: k) s = some (g :: m, t) ∧
      ∀ a ∈ m, a.Lasts := by
  induction xs generalizing l c k s with
  | nil =>
    obtain ⟨b, n, hb⟩ : ∃ b n, l ++ c :: k = b :: n := List.exists_cons_of_ne_nil (by simp)
    simp [hb, Ends, finish, resets] at h
  | cons x xs ih =>
    have hsu := h.every hE ht hr hev
    cases x with
    | run i =>
      have next : ∀ (l' k' : List (Code σ ι)) {c' : Code σ ι} {t : σ},
          Code.step i (l ++ c :: k) s = some (l' ++ c' :: k', t) → Passes I g c' →
          (∀ a ∈ l', a.Lasts) → (∀ a ∈ k', a.Lasts) →
          ∃ ys zs m t, .run i :: xs = ys ++ zs ∧
            advance react ys (l ++ c :: k) s = some (g :: m, t) ∧ ∀ a ∈ m, a.Lasts := by
        intro l' k' c' t hst hc' hl' hk'
        obtain ⟨hev', hEt⟩ := Code.Every.step hev hst
        have ht' : E s₀ t := by
          rcases hEt with rfl | hEt
          · exact hs
          · exact ht _ _ _ hs hEt
        obtain ⟨b, n, hb⟩ : ∃ b n, l ++ c :: k = b :: n := List.exists_cons_of_ne_nil (by simp)
        rw [hb] at h hst ⊢
        obtain ⟨ys, zs, m, v, rfl, hy, hm⟩ := ih hc' hl' hk' hev' ht' (h.run hst)
        exact ⟨.run i :: ys, zs, m, v, rfl, by rw [advance, hst, Option.bind_some, hy], hm⟩
      cases l with
      | nil =>
        cases hc with
        | here => exact ⟨[], .run i :: xs, k, s, rfl, rfl, hk⟩
        | @left a b ha hb =>
          exact next [] (b :: k) rfl ha hl (List.forall_mem_cons.2 ⟨hb, hk⟩)
        | @right a b ha hb =>
          exact next [a] k rfl hb (by simpa using ha) hk
        | @yes p a b hp ha =>
          have hst : Code.step i (.ite p a b :: k) s = some (a :: k, s) := by
            rw [Code.step, hp i s (hI s hs hsu)]
            rfl
          exact next [] k hst ha hl hk
      | cons a l =>
        rw [List.forall_mem_cons] at hl
        cases hst : Code.step i (a :: l) s with
        | none =>
          have hne : a ≠ .reset := by
            rintro rfl
            exact hl.1
          have hn : Code.step i (a :: l ++ c :: k) s = none := by rw [Code.step_append, hst]; rfl
          rw [List.cons_append, Ends, finish, resets_run hne, ← List.cons_append, hn] at h
          simp at h
        | some p =>
          exact next p.1 k (by rw [Code.step_append, hst]; rfl) hc (hl.1.step hl.2 hst) hk
    | outside r =>
      obtain ⟨ys, zs, m, t, rfl, hy, hm⟩ := ih (s := react r s) hc hl hk hev (ht _ _ _ hs (hr r s))
        (by simpa [Ends, finish, resets] using h)
      exact ⟨.outside r :: ys, zs, m, t, rfl, by rw [advance, hy], hm⟩
    | reset => simp [Ends, finish, resets] at h

end

end Firmware
