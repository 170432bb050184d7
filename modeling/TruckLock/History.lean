/-!
# Histories

A history is a list of events, newest first. `Since p q` is the past-time
operator: some event satisfies `q`, and every later one satisfies `p`.
`Always` says that each event satisfies a relation with the events before it.
-/
namespace History

variable {ε : Type}

def Since (p q : ε → Prop) : List ε → Prop
  | [] => False
  | e :: l => q e ∨ p e ∧ Since p q l

@[simp] theorem since_nil (p q : ε → Prop) : ¬ Since p q [] := id
@[simp] theorem since_cons (p q : ε → Prop) (e : ε) (l : List ε) :
    Since p q (e :: l) ↔ q e ∨ p e ∧ Since p q l := Iff.rfl

instance decidableSince (p q : ε → Prop) [DecidablePred p] [DecidablePred q] :
    (l : List ε) → Decidable (Since p q l)
  | [] => .isFalse id
  | e :: l =>
    have := decidableSince p q l
    inferInstanceAs (Decidable (q e ∨ p e ∧ Since p q l))

/-- The operator in words: a split of the history at the event that satisfied `q`. -/
theorem since_iff (p q : ε → Prop) (l : List ε) :
    Since p q l ↔ ∃ later e earlier, l = later ++ e :: earlier ∧ q e ∧ ∀ x ∈ later, p x := by
  induction l with
  | nil => simp
  | cons x l ih =>
    rw [since_cons, ih]
    constructor
    · rintro (hq | ⟨hp, later, e, earlier, rfl, hq, hl⟩)
      · exact ⟨[], x, l, rfl, hq, by simp⟩
      · refine ⟨x :: later, e, earlier, rfl, hq, ?_⟩
        simpa [hp] using hl
    · rintro ⟨later, e, earlier, he, hq, hl⟩
      cases later with
      | nil =>
        obtain ⟨rfl, -⟩ := List.cons.inj he
        exact .inl hq
      | cons y later =>
        obtain ⟨rfl, rfl⟩ := List.cons.inj he
        exact .inr ⟨hl x (by simp), later, e, earlier, rfl, hq, fun z hz => hl z (by simp [hz])⟩

theorem Since.mono {p p' q q' : ε → Prop} {l : List ε} (h : Since p q l)
    (hp : ∀ e, p e → p' e) (hq : ∀ e, q e → q' e) : Since p' q' l := by
  induction l with
  | nil => exact h
  | cons e l ih =>
    rcases h with h | ⟨h, hl⟩
    · exact .inl (hq e h)
    · exact .inr ⟨hp e h, ih hl⟩

/-- Events that may come in between and do not count do not matter. -/
theorem since_filter {f : ε → Bool} {p q : ε → Prop} (hp : ∀ e, f e = false → p e)
    (hq : ∀ e, f e = false → ¬ q e) (l : List ε) : Since p q (l.filter f) ↔ Since p q l := by
  induction l with
  | nil => rfl
  | cons e l ih =>
    cases he : f e with
    | true => simp [he, ih]
    | false => simp [he, ih, hp e he, hq e he]

/-- A summary of histories, event by event, does not depend on events that leave it alone. -/
theorem summary_filter {α : Type} {f : List ε → α} {p : ε → Bool}
    (hf : ∀ e l l', f l = f l' → f (e :: l) = f (e :: l'))
    (hp : ∀ e l, p e = false → f (e :: l) = f l) (l : List ε) : f (l.filter p) = f l := by
  induction l with
  | nil => rfl
  | cons e l ih =>
    cases he : p e with
    | true =>
      rw [List.filter_cons_of_pos he]
      exact hf e _ _ ih
    | false =>
      rw [List.filter_cons_of_neg (by simp [he]), ih]
      exact (hp e l he).symm

/-- Each event satisfies `φ` with the events before it. -/
def Always (φ : ε → List ε → Prop) : List ε → Prop
  | [] => True
  | e :: l => φ e l ∧ Always φ l

@[simp] theorem always_nil (φ : ε → List ε → Prop) : Always φ [] := trivial
@[simp] theorem always_cons (φ : ε → List ε → Prop) (e : ε) (l : List ε) :
    Always φ (e :: l) ↔ φ e l ∧ Always φ l := Iff.rfl

theorem always_iff (φ : ε → List ε → Prop) (l : List ε) :
    Always φ l ↔ ∀ later e earlier, l = later ++ e :: earlier → φ e earlier := by
  induction l with
  | nil => simp
  | cons x l ih =>
    rw [always_cons, ih]
    constructor
    · rintro ⟨hx, hl⟩ later e earlier he
      cases later with
      | nil =>
        obtain ⟨rfl, rfl⟩ := List.cons.inj he
        exact hx
      | cons y later =>
        obtain ⟨rfl, rfl⟩ := List.cons.inj he
        exact hl later e earlier rfl
    · intro h
      exact ⟨h [] x l rfl, fun later e earlier he => h (x :: later) e earlier (by simp [he])⟩

end History
