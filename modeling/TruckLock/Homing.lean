import TruckLock.Direct

/-!
# Coming back

Runs that never end, in which code that asks for some inputs is not given them
for ever. Code whose loops and handlers are of this kind comes to an end, and a
device whose main loop is made of such code is back at the top of it again and
again, whatever has happened before.
-/
namespace Firmware

variable {σ ι ρ : Type}

namespace Code

/-- On inputs in `ok`, and if nothing in `T` is there each time it is asked for, the code ends or resets the
device. -/
@[grind =] def Rests (ok : ι → Prop) (T : (ι → Bool) → Prop) : Code σ ι → Prop
  | .skip => True
  | .act _ => True
  | .get _ g => ∀ v, Rests ok T (g v)
  | .seq a b => Rests ok T a ∧ Rests ok T b
  | .ite c a b => Rests ok T a ∧ (Rests ok T b ∨ ∀ j s, ok j → c j s = true)
  | .whilst c a => Rests ok T a ∧ ((∀ j s, ok j → c j s = false) ∨ a = .reset)
  | .poll r h => T r ∧ ∀ j, ok j → Rests ok T (h j)
  | .forever _ => False
  | .reset => True

variable {ok q : ι → Prop} {T : (ι → Bool) → Prop} {j : ι} {c : Code σ ι} {s t : σ} {k l : List (Code σ ι)}

theorem Rests.ite {p : ι → σ → Bool} {a b : Code σ ι} (ha : a.Rests ok T) (hb : b.Rests ok T) :
    (Code.ite p a b).Rests ok T := ⟨ha, .inl hb⟩

theorem Rests.times {a : Code σ ι} (ha : a.Rests ok T) (n : Nat) : (Code.times n a).Rests ok T := by
  induction n with
  | zero => trivial
  | succ n ih => exact ⟨ha, ih⟩

/-- One statement leaves such code. -/
theorem Rests.step (hj : ok j) (hc : c.Rests ok T) (hk : ∀ a ∈ k, a.Rests ok T)
    (h : Code.step j (c :: k) s = some (l, t)) : ∀ a ∈ l, a.Rests ok T := by
  cases c with
  | skip =>
    obtain ⟨rfl, -⟩ : k = l ∧ s = t := by simpa [Code.step] using h
    exact hk
  | act f =>
    obtain ⟨rfl, -⟩ : k = l ∧ f j s = t := by simpa [Code.step] using h
    exact hk
  | get f g =>
    obtain ⟨rfl, -⟩ : g (f j s) :: k = l ∧ s = t := by simpa [Code.step] using h
    exact List.forall_mem_cons.2 ⟨hc _, hk⟩
  | seq a b =>
    obtain ⟨rfl, -⟩ : a :: b :: k = l ∧ s = t := by simpa [Code.step] using h
    exact List.forall_mem_cons.2 ⟨hc.1, List.forall_mem_cons.2 ⟨hc.2, hk⟩⟩
  | ite p a b =>
    obtain ⟨rfl, -⟩ : (if p j s then a else b) :: k = l ∧ s = t := by simpa [Code.step] using h
    refine List.forall_mem_cons.2 ⟨?_, hk⟩
    split
    · exact hc.1
    · rename_i hp
      exact hc.2.resolve_right fun h => hp (h j s hj)
  | whilst p a =>
    obtain ⟨rfl, -⟩ : (if p j s then a :: .whilst p a :: k else k) = l ∧ s = t := by
      simpa [Code.step] using h
    split
    · exact List.forall_mem_cons.2 ⟨hc.1, List.forall_mem_cons.2 ⟨hc, hk⟩⟩
    · exact hk
  | poll r g =>
    obtain ⟨rfl, -⟩ : (if r j then g j :: .poll r g :: k else k) = l ∧ s = t := by
      simpa [Code.step] using h
    split
    · exact List.forall_mem_cons.2 ⟨hc.2 j hj, List.forall_mem_cons.2 ⟨hc, hk⟩⟩
    · exact hk
  | forever a => exact hc.elim
  | reset => simp [Code.step] at h

theorem every_true (c : Code σ ι) : c.Every fun _ _ _ => True := by
  induction c with
  | skip => trivial
  | act g => exact fun _ _ => trivial
  | get g h ih => exact ih
  | seq a b iha ihb => exact ⟨iha, ihb⟩
  | ite p a b iha ihb => exact ⟨iha, ihb⟩
  | whilst p a ih => exact ih
  | poll r h ih => exact ih
  | forever a ih => exact ih
  | reset => trivial

end Code

/-- What happens, for ever. -/
abbrev Schedule (ι ρ : Type) := Nat → Choice ι ρ

/-- Statements keep running, on inputs in `q`, and nothing resets the device from outside. -/
structure Schedule.Goes (q : ι → Prop) (f : Schedule ι ρ) : Prop where
  fair : ∀ m, ∃ n, m ≤ n ∧ ∃ j, f n = .run j
  quiet : ∀ n j, f n = .run j → q j
  on : ∀ n, f n ≠ .reset

namespace Machine

variable {m : Machine σ ι ρ} {f : Schedule ι ρ} {o : Config σ ι} {ok q : ι → Prop} {T : (ι → Bool) → Prop}
  {E : σ → σ → Prop}

/-- The configuration after `n` choices. -/
def nth (m : Machine σ ι ρ) (f : Schedule ι ρ) (c : Config σ ι) : Nat → Config σ ι
  | 0 => c
  | n + 1 => m.step (f n) (nth m f c n)

/-- Code that asks for an input in `T` again and again finds again and again that it is not there. -/
def Settles (m : Machine σ ι ρ) (f : Schedule ι ρ) (o : Config σ ι) (T : (ι → Bool) → Prop) : Prop :=
  ∀ r h k, T r → (∀ n, ∃ n', n ≤ n' ∧ (m.nth f o n').code = .poll r h :: k ∧ ∃ j, f n' = .run j) →
    ∀ n, ∃ n', n ≤ n' ∧ (m.nth f o n').code = .poll r h :: k ∧ ∃ j, f n' = .run j ∧ r j = false

/-- Everything from `n` to `n'` has the effect `E`. -/
def Through (m : Machine σ ι ρ) (f : Schedule ι ρ) (o : Config σ ι) (E : σ → σ → Prop) (n n' : Nat) : Prop :=
  ∀ d, n ≤ d → d ≤ n' → E (m.nth f o n).state (m.nth f o d).state

/-- A preorder that whatever happens beside the program follows. -/
structure Around (m : Machine σ ι ρ) (E : σ → σ → Prop) : Prop where
  refl : ∀ s, E s s
  trans : ∀ s t u, E s t → E t u → E s u
  react : ∀ r s, E s (m.react r s)

namespace Around

variable (hE : m.Around E) {n n' n'' : Nat}

include hE

theorem stay (n : Nat) : Through m f o E n n := fun d h h' => by
  obtain rfl : n = d := by omega
  exact hE.refl _

theorem join (h : Through m f o E n n') (h' : Through m f o E n' n'') (hle : n ≤ n') : Through m f o E n n'' := by
  intro d hd hd'
  by_cases hlt : d ≤ n'
  · exact h d hd hlt
  · exact hE.trans _ _ _ (h n' hle le_rfl) (h' d (by omega) hd')

theorem one (h : E (m.nth f o n).state (m.nth f o (n + 1)).state) : Through m f o E n (n + 1) := by
  intro d hd hd'
  rcases Nat.eq_or_lt_of_le hd with rfl | hlt
  · exact hE.refl _
  · obtain rfl : d = n + 1 := by omega
    exact h

/-- The next statement runs; until then, only what happens beside the program. -/
theorem next_run (hf : f.Goes q) (n : Nat) : ∃ n' j, n ≤ n' ∧ f n' = .run j ∧ q j ∧
    (m.nth f o n').code = (m.nth f o n).code ∧ Through m f o E n n' := by
  obtain ⟨n', hn, j, hj⟩ := hf.fair n
  induction h : n' - n generalizing n with
  | zero =>
    obtain rfl : n = n' := by omega
    exact ⟨n, j, le_rfl, hj, hf.quiet n j hj, rfl, hE.stay n⟩
  | succ d ih =>
    cases hx : f n with
    | run j => exact ⟨n, j, le_rfl, hx, hf.quiet n j hx, rfl, hE.stay n⟩
    | reset => exact absurd hx (hf.on n)
    | outside r =>
      obtain ⟨n', j, hn', hj, hq, hc, he⟩ := ih (n + 1) (by omega) (by omega)
      have hst : m.nth f o (n + 1) = ⟨(m.nth f o n).code, m.react r (m.nth f o n).state⟩ := by
        rw [nth, hx]
        rfl
      refine ⟨n', j, by omega, hj, hq, by rw [hc, hst], hE.join (hE.one ?_) he (by omega)⟩
      rw [hst]
      exact hE.react r _

/-- One statement that does not reset the device. -/
theorem next_step (hf : f.Goes q) {n : Nat} {c : Code σ ι} {k : List (Code σ ι)}
    (hc : (m.nth f o n).code = c :: k) (hn : c ≠ .reset) :
    ∃ n' j, n ≤ n' ∧ q j ∧ Through m f o E n n' ∧ Code.step j (c :: k) (m.nth f o n').state =
      some ((m.nth f o (n' + 1)).code, (m.nth f o (n' + 1)).state) := by
  obtain ⟨n', j, hn', hj, hq, hk, he⟩ := hE.next_run (o := o) hf n
  rw [hc] at hk
  refine ⟨n', j, hn', hq, he, ?_⟩
  rw [nth, hj, step, hk]
  cases c with
  | reset => exact absurd rfl hn
  | _ => rfl

/-- A statement that only moves on. -/
theorem next_move (hf : f.Goes q) {n : Nat} {c : Code σ ι} {k : List (Code σ ι)} {l : ι → σ → List (Code σ ι)}
    (hc : (m.nth f o n).code = c :: k) (hl : ∀ j s, Code.step j (c :: k) s = some (l j s, s)) :
    ∃ n' j, n ≤ n' ∧ q j ∧ Through m f o E n (n' + 1) ∧ (m.nth f o (n' + 1)).code = l j (m.nth f o n').state := by
  have hne : c ≠ .reset := by
    rintro rfl
    obtain ⟨n', j, -⟩ := hE.next_run (o := o) hf n
    simpa [Code.step] using hl j (m.nth f o n').state
  obtain ⟨n', j, hle, hq, he, hst⟩ := hE.next_step hf hc hne
  obtain ⟨hk, hs⟩ := Prod.mk.inj (Option.some.inj ((hl j _).symm.trans hst))
  exact ⟨n', j, hle, hq, hE.join he (hE.one (hs ▸ hE.refl _)) hle, hk.symm⟩

/-- A device reset in the code. -/
theorem next_reset (hf : f.Goes q) {n : Nat} {k : List (Code σ ι)} (hc : (m.nth f o n).code = .reset :: k) :
    ∃ n', n ≤ n' ∧ (m.nth f o n').code = [m.boot] := by
  obtain ⟨n', j, hn', hj, -, hk, -⟩ := hE.next_run (o := o) hf n
  refine ⟨n' + 1, by omega, ?_⟩
  rw [nth, hj, step, hk, hc]
  rfl

end Around

/-- From `n` on the stack comes down to `k`, with the effect `E` on the way, or code with a reset resets the device. -/
def Comes (m : Machine σ ι ρ) (f : Schedule ι ρ) (o : Config σ ι) (E : σ → σ → Prop) (c : Code σ ι)
    (k : List (Code σ ι)) (n : Nat) : Prop :=
  ∃ n', n ≤ n' ∧ ((m.nth f o n').code = k ∧ Through m f o E n n' ∨
    ¬ c.Lasts ∧ (m.nth f o n').code = [m.boot])

theorem Comes.after {c c' : Code σ ι} {k : List (Code σ ι)} {n n' : Nat} (hE : m.Around E)
    (h : Comes m f o E c k n') (hle : n ≤ n') (he : Through m f o E n n') (hc : c'.Lasts → c.Lasts) :
    Comes m f o E c' k n := by
  obtain ⟨n'', hle', h⟩ := h
  exact ⟨n'', by omega, h.imp (fun h => ⟨h.1, hE.join he h.2 hle⟩) fun h => ⟨fun hl => h.1 (hc hl), h.2⟩⟩

/-- A call that hands out inputs comes to an end if the handlers do: else it would ask again and again. -/
theorem comes_poll (hE : m.Around E) (hf : f.Goes q) (hs : m.Settles f o T) {c : Code σ ι} {r : ι → Bool}
    {h : ι → Code σ ι} (hr : T r) {k : List (Code σ ι)} {n : Nat} (hh : ∀ j n, q j →
      (m.nth f o n).code = h j :: .poll r h :: k → Comes m f o E c (.poll r h :: k) n)
    (hn : (m.nth f o n).code = .poll r h :: k) : Comes m f o E c k n := by
  by_contra hno
  have hend : ∀ n' j, n ≤ n' → Through m f o E n n' → (m.nth f o n').code = .poll r h :: k → f n' = .run j →
      (m.nth f o (n' + 1)).code = (if r j then h j :: .poll r h :: k else k) ∧ Through m f o E n (n' + 1) := by
    intro n' j hle he hc hj
    have hst : m.nth f o (n' + 1) = ⟨if r j then h j :: .poll r h :: k else k, (m.nth f o n').state⟩ := by
      rw [nth, hj, step, hc]
      rfl
    exact ⟨by rw [hst], hE.join he (hE.one (by rw [hst]; exact hE.refl _)) hle⟩
  have hagain : ∀ N, ∃ n', N ≤ n' ∧ n ≤ n' ∧ (m.nth f o n').code = .poll r h :: k ∧ Through m f o E n n' ∧
      ∃ j, f n' = .run j := by
    have hrun : ∀ n', n ≤ n' → (m.nth f o n').code = .poll r h :: k → Through m f o E n n' →
        ∃ n'', n' ≤ n'' ∧ (m.nth f o n'').code = .poll r h :: k ∧ Through m f o E n n'' ∧ ∃ j, f n'' = .run j ∧ q j := by
      intro n' hle hc he
      obtain ⟨n'', j, hle', hj, hq, hc', he'⟩ := hE.next_run (o := o) hf n'
      exact ⟨n'', hle', hc'.trans hc, hE.join he he' hle, j, hj, hq⟩
    intro N
    induction N with
    | zero =>
      obtain ⟨n', hle, hc, he, j, hj, -⟩ := hrun n le_rfl hn (hE.stay n)
      exact ⟨n', Nat.zero_le _, hle, hc, he, j, hj⟩
    | succ N ih =>
      obtain ⟨n₁, hN, hle, hc, he, -⟩ := ih
      obtain ⟨n₂, hle₂, hc₂, he₂, j, hj, hq⟩ := hrun n₁ hle hc he
      obtain ⟨hk, he₃⟩ := hend n₂ j (by omega) he₂ hc₂ hj
      by_cases hrj : r j = true
      · rw [if_pos hrj] at hk
        obtain ⟨n₄, hle₄, ⟨hc₄, he₄⟩ | hb⟩ := hh j (n₂ + 1) hq hk
        · obtain ⟨n₅, hle₅, hc₅, he₅, i, hi, -⟩ := hrun n₄ (by omega) hc₄ (hE.join he₃ he₄ (by omega))
          exact ⟨n₅, by omega, by omega, hc₅, he₅, i, hi⟩
        · exact absurd ⟨n₄, by omega, .inr hb⟩ hno
      · rw [if_neg hrj] at hk
        exact absurd ⟨n₂ + 1, by omega, .inl ⟨hk, he₃⟩⟩ hno
  obtain ⟨n', hle, hc, j, hj, hrj⟩ := hs r h k hr (fun N => by
    obtain ⟨n', hN, -, hc, -, hj⟩ := hagain N
    exact ⟨n', hN, hc, hj⟩) n
  obtain ⟨n'', hle', -, -, he, -⟩ := hagain n'
  obtain ⟨hk, he'⟩ := hend n' j hle (fun d hd hd' => he d hd (by omega)) hc hj
  rw [if_neg (by simp [hrj])] at hk
  exact hno ⟨n' + 1, by omega, .inl ⟨hk, he'⟩⟩

/-- Code that rests comes to an end. -/
theorem comes (hE : m.Around E) (hf : f.Goes q) (hs : m.Settles f o T) (hq : ∀ j, q j → ok j) {c : Code σ ι}
    (hc : c.Rests ok T) (he : c.Every fun _ => E) {k : List (Code σ ι)} {n : Nat} (hn : (m.nth f o n).code = c :: k) :
    Comes m f o E c k n := by
  induction c generalizing k n with
  | skip =>
    obtain ⟨n', j, hle, -, hu, hk⟩ := hE.next_move hf hn (l := fun _ _ => k) fun _ _ => rfl
    exact ⟨n' + 1, by omega, .inl ⟨hk, hu⟩⟩
  | act g =>
    obtain ⟨n', j, hle, -, hu, hst⟩ := hE.next_step hf hn (by simp)
    obtain ⟨hk, hs'⟩ := Prod.mk.inj (Option.some.inj hst)
    exact ⟨n' + 1, by omega, .inl ⟨hk.symm, hE.join hu (hE.one (hs' ▸ he j _)) hle⟩⟩
  | get g h ih =>
    obtain ⟨n', j, hle, -, hu, hk⟩ := hE.next_move hf hn (l := fun j s => h (g j s) :: k) fun _ _ => rfl
    exact (ih _ (hc _) (he _) hk).after hE (by omega) hu fun hl => hl _
  | seq a b iha ihb =>
    obtain ⟨n', j, hle, -, hu, hk⟩ := hE.next_move hf hn (l := fun _ _ => a :: b :: k) fun _ _ => rfl
    obtain ⟨n'', hle', ⟨hk', he'⟩ | ⟨hl, hb⟩⟩ := iha hc.1 he.1 hk
    · exact (ihb hc.2 he.2 hk').after hE (by omega) (hE.join hu he' (by omega)) fun hl => hl.2
    · exact ⟨n'', by omega, .inr ⟨fun h => hl h.1, hb⟩⟩
  | ite p a b iha ihb =>
    obtain ⟨n', j, hle, hqj, hu, hk⟩ :=
      hE.next_move hf hn (l := fun j s => (if p j s then a else b) :: k) fun _ _ => rfl
    by_cases hp : p j (m.nth f o n').state = true
    · rw [if_pos hp] at hk
      exact (iha hc.1 he.1 hk).after hE (by omega) hu fun hl => hl.1
    · rw [if_neg hp] at hk
      have hb : b.Rests ok T := hc.2.resolve_right fun h => hp (h j _ (hq j hqj))
      exact (ihb hb he.2 hk).after hE (by omega) hu fun hl => hl.2
  | whilst p a ih =>
    obtain ⟨n', j, hle, hqj, hu, hk⟩ :=
      hE.next_move hf hn (l := fun j s => if p j s then a :: .whilst p a :: k else k) fun _ _ => rfl
    by_cases hp : p j (m.nth f o n').state = true
    · rw [if_pos hp] at hk
      obtain rfl : a = .reset := hc.2.resolve_left fun h => by simp [h j _ (hq j hqj)] at hp
      obtain ⟨n'', hle', hb⟩ := hE.next_reset hf hk
      exact ⟨n'', by omega, .inr ⟨id, hb⟩⟩
    · rw [if_neg hp] at hk
      exact ⟨n' + 1, by omega, .inl ⟨hk, hu⟩⟩
  | poll r g ih =>
    refine comes_poll hE hf hs hc.1 (fun j n' hj hk => ?_) hn
    exact (ih j (hc.2 j (hq j hj)) (he j) hk).after hE le_rfl (hE.stay n') fun hl => hl j
  | forever a ih => exact hc.elim
  | reset =>
    obtain ⟨n', hle, hb⟩ := hE.next_reset hf hn
    exact ⟨n', hle, .inr ⟨id, hb⟩⟩

/-- A list of such pieces of code without a reset, in front of others. -/
theorem comes_block (hE : m.Around E) (hf : f.Goes q) (hs : m.Settles f o T) (hq : ∀ j, q j → ok j)
    {l l' : List (Code σ ι)} (hl : ∀ c ∈ l, c.Rests ok T ∧ c.Lasts ∧ c.Every fun _ => E) {k : List (Code σ ι)} {n : Nat}
    (hn : (m.nth f o n).code = .block (l ++ l') :: k) :
    ∃ n', n ≤ n' ∧ (m.nth f o n').code = .block l' :: k ∧ Through m f o E n n' := by
  induction l generalizing n with
  | nil => exact ⟨n, le_rfl, hn, hE.stay n⟩
  | cons c l ih =>
    rw [List.forall_mem_cons] at hl
    obtain ⟨⟨hc, hlast, he⟩, hl⟩ := hl
    obtain ⟨n₁, j, hle, -, he₁, hk⟩ := hE.next_move hf hn (l := fun _ _ => c :: .block (l ++ l') :: k) fun _ _ => rfl
    obtain ⟨n₂, hle', h⟩ := comes hE hf hs hq hc he hk
    obtain ⟨hk', he₂⟩ := h.resolve_right fun h => h.1 hlast
    obtain ⟨n₃, hle₃, hk₃, he₃⟩ := ih hl hk'
    exact ⟨n₃, by omega, hk₃, hE.join (hE.join he₁ he₂ (by omega)) he₃ (by omega)⟩

theorem around_true : m.Around fun _ _ => True := ⟨fun _ => trivial, fun _ _ _ _ _ => trivial, fun _ _ => trivial⟩

section

variable {a b : Code σ ι}

/-- The stack of a device with a setup and a main loop. -/
def Homed (ok : ι → Prop) (T : (ι → Bool) → Prop) (m : Machine σ ι ρ) (b : Code σ ι) (k : List (Code σ ι)) : Prop :=
  k = [m.boot] ∨ ∃ l, k = l ++ [.forever b] ∧ ∀ c ∈ l, c.Rests ok T

theorem homed_step (hboot : m.boot = .seq a (.forever b)) (ha : a.Rests ok T) (hb : b.Rests ok T) {c : Config σ ι}
    (hc : Homed ok T m b c.code) {x : Choice ι ρ} (hx : ∀ j, x = .run j → ok j) : Homed ok T m b (m.step x c).code := by
  cases x with
  | outside r => exact hc
  | reset => exact .inl rfl
  | run j =>
    rcases hc with hc | ⟨l, hc, hl⟩
    · refine .inr ⟨[a], ?_, by simpa using ha⟩
      rw [step, hc, hboot]
      rfl
    · cases l with
      | nil =>
        refine .inr ⟨[b], ?_, by simpa using hb⟩
        rw [step, hc]
        rfl
      | cons c' l =>
        rw [List.forall_mem_cons] at hl
        rw [step, hc, Code.step_append]
        cases hst : Code.step j (c' :: l) c.state with
        | none => exact .inl rfl
        | some p => exact .inr ⟨p.1, rfl, hl.1.step (hx j rfl) hl.2 hst⟩

theorem homed_exec (hboot : m.boot = .seq a (.forever b)) (ha : a.Rests ok T) (hb : b.Rests ok T)
    {xs : List (Choice ι ρ)} (hx : ∀ j, .run j ∈ xs → ok j) {c : Config σ ι} (hc : Homed ok T m b c.code) :
    Homed ok T m b (m.exec xs c).code := by
  induction xs generalizing c with
  | nil => exact hc
  | cons x xs ih =>
    exact ih (fun j hj => hx j (by simp [hj])) (homed_step hboot ha hb hc fun j hj => hx j (by simp [hj]))

theorem homed_nth (hboot : m.boot = .seq a (.forever b)) (ha : a.Rests ok T) (hb : b.Rests ok T) (hf : f.Goes q)
    (hq : ∀ j, q j → ok j) (hc : Homed ok T m b o.code) (n : Nat) : Homed ok T m b (m.nth f o n).code := by
  induction n with
  | zero => exact hc
  | succ n ih => exact homed_step hboot ha hb ih fun j hj => hq j (hf.quiet n j hj)

/-- From then on the device is at the top of its main loop again and again, if the setup does not reset it. -/
theorem comes_back (hf : f.Goes q) (hs : m.Settles f o T) (hq : ∀ j, q j → ok j)
    (hboot : m.boot = .seq a (.forever b)) (ha : a.Rests ok T) (hb : b.Rests ok T) (hl : a.Lasts)
    (hc : Homed ok T m b o.code) (n : Nat) :
    ∃ n', n ≤ n' ∧ (m.nth f o n').code = [.forever b] := by
  have hends : ∀ {c : Code σ ι} {k n}, c.Rests ok T → (m.nth f o n).code = c :: k →
      Comes m f o (fun _ _ => True) c k n := fun hc hn => comes around_true hf hs hq hc (Code.every_true _) hn
  have hstart : ∀ n, (m.nth f o n).code = [m.boot] → ∃ n', n ≤ n' ∧ (m.nth f o n').code = [.forever b] := by
    intro n hn
    rw [hboot] at hn
    obtain ⟨n', -, hle, -, -, hset⟩ := around_true.next_move hf hn (l := fun _ _ => [a, .forever b]) fun _ _ => rfl
    obtain ⟨n'', hle', h⟩ := hends ha hset
    exact ⟨n'', by omega, (h.resolve_right fun h => h.1 hl).1⟩
  have hstack : ∀ (l : List (Code σ ι)) n, (m.nth f o n).code = l ++ [.forever b] → (∀ c ∈ l, c.Rests ok T) →
      ∃ n', n ≤ n' ∧ (m.nth f o n').code = [.forever b] := by
    intro l
    induction l with
    | nil => exact fun n hn _ => ⟨n, le_rfl, hn⟩
    | cons c l ih =>
      intro n hn hrests
      rw [List.forall_mem_cons] at hrests
      obtain ⟨n', hle, ⟨hk, -⟩ | ⟨-, hk⟩⟩ := hends hrests.1 hn
      · obtain ⟨n'', hle', h⟩ := ih n' hk hrests.2
        exact ⟨n'', by omega, h⟩
      · obtain ⟨n'', hle', h⟩ := hstart n' hk
        exact ⟨n'', by omega, h⟩
  rcases homed_nth hboot ha hb hf hq hc n with hn | ⟨l, hn, hrests⟩
  · exact hstart n hn
  · exact hstack l n hn hrests

end

end Machine

end Firmware
