import TruckLock.CenterFace
import TruckLock.CenterRequests

/-!
# The verdict of a breath test

`readIsAlcohol` keeps the extremes of the readings since the last press and
compares them when it closes the test. A press during a sample folds a reading
of the test before into the new one.
-/
namespace Center

open Firmware Spec History

/-- The readings since the last press, newest first. -/
def readings : List Event → Option (List Int)
  | [] => none
  | .boot :: _ => none
  | .pressed _ _ :: _ => some []
  | .analog current :: l => (readings l).map (current :: ·)
  | _ :: l => readings l

/-- A reading is being compared with the extremes. -/
def measuring : List Event → Bool
  | [] => false
  | .boot :: _ | .pressed _ _ :: _ | .sampling :: _ | .camera _ :: _ => false
  | .analog _ :: _ => true
  | _ :: l => measuring l

inductive Outcome where
  | alcohol | blowHarder | notAlcohol | unknownDriver
  deriving DecidableEq, Repr

/-- The end of a test, and the values that it was judged by if it was. -/
def Event.outcome : Event → Option (Outcome × Option Verdict)
  | .alcohol v => some (.alcohol, some v)
  | .blowHarder v => some (.blowHarder, some v)
  | .notAlcohol v => some (.notAlcohol, some v)
  | .unknownDriver => some (.unknownDriver, none)
  | _ => none

/-- What a test with these readings should find. -/
def verdict (downLimit upLimit threshold : Int) (isMatchFaceID : Bool) (l : List Int) : Outcome :=
  if isMatchFaceID = false then .unknownDriver
  else if ∃ r ∈ l, threshold + upLimit < r then .alcohol
  else if ∀ r ∈ l, threshold - downLimit < r then .blowHarder
  else .notAlcohol

theorem readings_filter (l : List Event) : readings (l.filter Event.onTest) = readings l := by
  refine summary_filter (fun e l l' h => ?_) (fun e l he => ?_) l
  · cases e <;> first | rfl | exact h | exact congrArg (Option.map _) h
  · cases e <;> first | rfl | simp [Event.onTest] at he

theorem measuring_filter (l : List Event) : measuring (l.filter Event.onTest) = measuring l := by
  refine summary_filter (fun e l l' h => ?_) (fun e l he => ?_) l
  · cases e <;> first | rfl | exact h
  · cases e <;> first | rfl | simp [Event.onTest] at he

/-- `MAX` and `MIN` after a press and some readings. -/
def maxOf (l : List Int) : Int := l.foldr max 0

def minOf (l : List Int) : Int := l.foldr min 1024

theorem lt_maxOf {l : List Int} {b : Int} (hl : l ≠ []) (h : ∀ r ∈ l, 0 ≤ r) :
    b < maxOf l ↔ ∃ r ∈ l, b < r := by
  induction l with
  | nil => exact absurd rfl hl
  | cons r l ih =>
    rw [List.forall_mem_cons] at h
    simp only [maxOf, List.foldr_cons, lt_max_iff, List.exists_mem_cons_iff]
    cases l with
    | nil =>
      have := h.1
      simp
      omega
    | cons r' l => exact or_congr Iff.rfl (ih (by simp) h.2)

theorem lt_minOf {l : List Int} {b : Int} (hl : l ≠ []) (h : ∀ r ∈ l, r ≤ 1024) :
    b < minOf l ↔ ∀ r ∈ l, b < r := by
  induction l with
  | nil => exact absurd rfl hl
  | cons r l ih =>
    rw [List.forall_mem_cons] at h
    simp only [minOf, List.foldr_cons, lt_min_iff, List.forall_mem_cons]
    cases l with
    | nil =>
      have := h.1
      simp
      omega
    | cons r' l => exact and_congr Iff.rfl (ih (by simp) h.2)

/-- The comparisons of `judge` in terms of the readings. -/
theorem verdict_eq {l : List Int} (hl : l ≠ []) (h : ∀ r ∈ l, 0 ≤ r ∧ r ≤ 1024)
    (downLimit upLimit threshold : Int) :
    verdict downLimit upLimit threshold true l =
      if upLimit < maxOf l - threshold then .alcohol
      else if threshold - minOf l < downLimit then .blowHarder else .notAlcohol := by
  have h1 : upLimit < maxOf l - threshold ↔ ∃ r ∈ l, threshold + upLimit < r := by
    rw [← lt_maxOf hl fun r hr => (h r hr).1]
    omega
  have h2 : threshold - minOf l < downLimit ↔ ∀ r ∈ l, threshold - downLimit < r := by
    rw [← lt_minOf hl fun r hr => (h r hr).2]
    omega
  simp only [verdict, h1, h2, Bool.true_eq_false, if_false]

/-- Neither the order nor the repetition of the readings matters. -/
theorem verdict_congr {l l' : List Int} (h : ∀ r, r ∈ l ↔ r ∈ l') (downLimit upLimit threshold : Int)
    (isMatchFaceID : Bool) : verdict downLimit upLimit threshold isMatchFaceID l =
      verdict downLimit upLimit threshold isMatchFaceID l' := by
  simp only [verdict, h]

theorem verdict_mono {l l' : List Int} (h : ∀ r ∈ l, r ∈ l') {downLimit upLimit threshold : Int}
    {isMatchFaceID : Bool} (ha : verdict downLimit upLimit threshold isMatchFaceID l = .alcohol) :
    verdict downLimit upLimit threshold isMatchFaceID l' = .alcohol := by
  unfold verdict at ha ⊢
  split at ha
  · simp at ha
  split at ha
  · rename_i hf hr
    obtain ⟨r, hr, hlt⟩ := hr
    rw [if_neg hf, if_pos ⟨r, h r hr, hlt⟩]
  split at ha
  · simp at ha
  · simp at ha

/-- An outcome is what the readings before it should find. -/
def Sound (e : Event) (l : List Event) : Prop :=
  ∀ o v, e.outcome = some (o, some v) → ∀ rs, readings l = some rs → rs ≠ [] →
    (∀ r ∈ rs, 0 ≤ r ∧ r ≤ 1024) → o = verdict v.downLimit v.upLimit v.threshold true rs

/-- What a test has measured. -/
structure Measured where
  MAX : Int
  MIN : Int
  current : Int
  hist : List Event

def State.measured (s : State) : Measured where
  MAX := s.MAX
  MIN := s.MIN
  current := s.current
  hist := s.log.filter Event.onTest

/-- The events of a test that are neither readings nor judgements. -/
def Event.plain : Event → Bool
  | .started | .called _ | .sampling | .camera _ | .returned | .unknownDriver => true
  | _ => false

namespace Measured

def say (v : Measured) (e : Event) : Measured := { v with hist := e :: v.hist }

/-- What happens beside the program: presses, but none during a sample. -/
def Beside (v w : Measured) : Prop :=
  w = v ∨ ∃ last stop, measuring v.hist = false ∧ w = { v with MAX := 0, MIN := 1024 }.say (.pressed last stop)

def spec : Spec Env Measured where
  ok _ _ _ := True
  good v w := ∀ e, w.hist = e :: v.hist → Sound e v.hist
  good_refl v e h := by simp at h
  inv _ := True
  top _ := True
  fin _ := True

/-- The extremes are those of the readings. -/
def Folded (v : Measured) : Prop := ∀ l, readings v.hist = some l → v.MAX = maxOf l ∧ v.MIN = minOf l

/-- A step that measures nothing and judges nothing. -/
def Plain (s t : State) : Prop :=
  t.measured = s.measured ∨ ∃ e, e.plain = true ∧ t.measured = s.measured.say e

theorem measured_emit (s : State) (e : Event) (he : e.onTest = true) :
    (s.emit e).measured = s.measured.say e := by
  simp only [State.measured, State.emit, List.filter_cons, he, if_true, say]

theorem plain_emit {s t : State} {e : Event} (hp : e.plain = true) (h : t.measured = s.measured) :
    Plain s (t.emit e) := by
  refine .inr ⟨e, hp, ?_⟩
  rw [measured_emit, h]
  cases e <;> first | rfl | simp [Event.plain] at hp

theorem plain_of_apart {s t : State} (h : Apart s t) : Plain s t := by
  refine .inl ?_
  have hh : t.log.filter Event.onTest = s.log.filter Event.onTest := congrArg Test.hist h.1.1
  simp only [State.measured, h.2.1, h.2.2.1, h.2.2.2, hh]

theorem good_of_say {v w : Measured} {e : Event} (hw : w.hist = e :: v.hist) (h : Sound e v.hist) :
    spec.good v w := by
  intro x hx
  obtain rfl := (List.cons.inj (hx.symm.trans hw)).1
  exact h

theorem good_same {v w : Measured} (h : w.hist = v.hist) : spec.good v w := by
  intro e he
  simp [h] at he

theorem sound_plain {e : Event} (h : e.plain = true) (l : List Event) : Sound e l := by
  intro o v ho
  cases e <;> simp [Event.plain] at h <;> simp [Event.outcome] at ho

theorem readings_plain {e : Event} (h : e.plain = true) (l : List Event) :
    readings (e :: l) = readings l := by
  cases e <;> first | rfl | simp [Event.plain] at h

/-- An assertion of which a press says nothing. -/
theorem steady_of {A : Measured → Prop}
    (h : ∀ v last stop, A v → measuring v.hist = false →
      A ({ v with MAX := 0, MIN := 1024 }.say (.pressed last stop))) :
    spec.Steady Beside A where
  inv _ _ := trivial
  rel := by
    rintro v _ hv (rfl | ⟨last, stop, hm, rfl⟩)
    · exact hv
    · exact h v last stop hv hm

theorem steady_folded : spec.Steady Beside Folded := by
  refine steady_of fun v last stop _ _ l hl => ?_
  obtain rfl := Option.some.inj hl
  exact ⟨rfl, rfl⟩

/-- During a sample there is no press. -/
theorem steady_measuring {A : Measured → Prop} (h : ∀ v, A v → measuring v.hist = true) :
    spec.Steady Beside A :=
  steady_of fun v _ _ hv hm => absurd ((h v hv).symm.trans hm) (by simp)

theorem amid_plain {c : Sketch} (hc : c.Every fun _ => Plain) :
    spec.Amid Beside State.measured Folded c Folded := by
  have hstable : Stable (spec.amid Beside State.measured) fun s => Folded s.measured :=
    steady_folded.stable
  refine Triple.every hstable (fun _ _ => trivial) (fun i f k s _ he hs => ?_) hc
  show spec.good s.measured (f i s).measured ∧ Folded (f i s).measured
  rcases he with he | ⟨e, hp, he⟩
  · rw [he]
    exact ⟨spec.good_refl _, hs⟩
  · rw [he]
    exact ⟨good_of_say rfl (sound_plain hp _), fun l hl => hs l ((readings_plain hp _).symm.trans hl)⟩

theorem amid_remote {c : Sketch} (hc : Remote c) : spec.Amid Beside State.measured Folded c Folded :=
  amid_plain (hc.mono fun _ _ _ h => plain_of_apart h)

/-- In the middle of a sample: the extremes as functions of the readings before the latest one. -/
structure Busy (current : Int) (M m : List Int → Int) (v : Measured) : Prop where
  measuring : measuring v.hist = true
  folded : ∀ l, readings v.hist = some l → ∃ l', l = current :: l' ∧ v.MAX = M l' ∧ v.MIN = m l'

theorem Busy.steady {current : Int} {M m : List Int → Int} :
    spec.Steady Beside (Busy current M m) :=
  steady_measuring fun _ hv => hv.measuring

theorem amid_fold (current : Int) :
    spec.Amid Beside State.measured (Busy current maxOf minOf)
      (.block [
        .when (fun _ s => s.MAX < current) (.set fun s => { s with MAX := current }),
        .when (fun _ s => current < s.MIN) (.set fun s => { s with MIN := current })])
      Folded := by
  refine .seq (R := fun s => Busy current (fun l => maxOf (current :: l)) minOf s.measured) ?_ (.seq ?_
    (Amid.done steady_folded))
  · refine Amid.when (T := fun v => Busy current maxOf minOf v ∧ v.MAX < current) Busy.steady
      (fun _ _ hs hc => ⟨hs, of_decide_eq_true hc⟩) (fun _ s hs hc => ⟨hs.measuring, fun l hl => ?_⟩)
      Busy.steady (Amid.step (steady_measuring fun _ hv => hv.1.measuring) fun _ s hs _ =>
        ⟨good_same rfl, hs.1.measuring, fun l hl => ?_⟩)
    · obtain ⟨l', rfl, hM, hm⟩ := hs.folded l hl
      refine ⟨l', rfl, ?_, hm⟩
      have hle : ¬ s.measured.MAX < current := of_decide_eq_false hc
      rw [hM] at hle ⊢
      exact (max_eq_right (not_lt.1 hle)).symm
    · obtain ⟨l', rfl, hM, hm⟩ := hs.1.folded l hl
      refine ⟨l', rfl, ?_, hm⟩
      have hlt := hs.2
      rw [hM] at hlt
      exact (max_eq_left hlt.le).symm
  · refine Amid.when (T := fun v => Busy current (fun l => maxOf (current :: l)) minOf v ∧
      current < v.MIN) Busy.steady
      (fun _ _ hs hc => ⟨hs, of_decide_eq_true hc⟩) (fun _ s hs hc l hl => ?_) steady_folded
      (Amid.step (steady_measuring fun _ hv => hv.1.measuring) fun _ s hs _ => ⟨good_same rfl, fun l hl => ?_⟩)
    · obtain ⟨l', rfl, hM, hm⟩ := hs.folded l hl
      have hle : ¬ current < s.measured.MIN := of_decide_eq_false hc
      refine ⟨hM, ?_⟩
      rw [hm] at hle ⊢
      exact (min_eq_right (not_lt.1 hle)).symm
    · obtain ⟨l', rfl, hM, hm⟩ := hs.1.folded l hl
      have hlt := hs.2
      rw [hm] at hlt
      exact ⟨hM, (min_eq_left hlt.le).symm⟩

variable (P : Platform)

/-- The reading is logged in the statement that takes it. -/
theorem amid_sample : spec.Amid Beside State.measured Folded (sample P) Folded := by
  have hbusy : spec.Steady Beside fun v => Busy v.current maxOf minOf v :=
    steady_measuring fun _ hv => hv.measuring
  refine .seq (amid_plain fun _ _ => .inl rfl)
    (.seq (R := fun s => Busy s.measured.current maxOf minOf s.measured) ?_ (.seq (Triple.get
    (R := fun c s => Busy c maxOf minOf s.measured) hbusy.stable (fun _ _ _ hs _ => hs) amid_fold) (amid_plain ?_)))
  · refine Amid.step (B := fun v => Busy v.current maxOf minOf v) steady_folded fun i s hs _ => ?_
    rw [measured_emit _ _ rfl]
    refine ⟨good_of_say rfl (by simp [Sound, Event.outcome]), rfl, fun l hl => ?_⟩
    obtain ⟨l', hl', rfl⟩ := Option.map_eq_some_iff.1 hl
    exact ⟨l', rfl, hs l' hl'⟩
  · exact ⟨fun _ _ => plain_emit rfl rfl, ⟨fun _ _ => .inl rfl, trivial⟩, fun _ _ => .inl rfl, trivial⟩

/-- `MAX` has been read: it is that of the readings, unless a press has come. -/
def Judging (M : Int) (v : Measured) : Prop :=
  Folded v ∧ ∀ l, readings v.hist = some l → l ≠ [] → M = maxOf l

theorem Judging.steady {M : Int} : spec.Steady Beside (Judging M) :=
  steady_of fun v last stop hv hm => by
    refine ⟨steady_folded.rel v _ hv.1 (.inr ⟨last, stop, hm, rfl⟩), fun l hl hne => ?_⟩
    obtain rfl := Option.some.inj hl
    exact absurd rfl hne

/-- Both extremes have been read. -/
def Judged (M m : Int) (v : Measured) : Prop :=
  Judging M v ∧ ∀ l, readings v.hist = some l → l ≠ [] → m = minOf l

theorem Judged.steady {M m : Int} : spec.Steady Beside (Judged M m) :=
  steady_of fun v last stop hv hm => by
    refine ⟨Judging.steady.rel v _ hv.1 (.inr ⟨last, stop, hm, rfl⟩), fun l hl hne => ?_⟩
    obtain rfl := Option.some.inj hl
    exact absurd rfl hne

theorem folded_say {v : Measured} (h : Folded v) {e : Event} (he : readings (e :: v.hist) = readings v.hist) :
    Folded (v.say e) :=
  fun l hl => h l (he.symm.trans hl)

theorem amid_judge (downLimit upLimit threshold : Int) :
    spec.Amid Beside State.measured Folded (judge downLimit upLimit threshold) Folded := by
  refine Triple.get (R := fun M s => Judging M s.measured) steady_folded.stable
    (fun _ _ s hs _ => ⟨hs, fun l hl _ => (hs l hl).1⟩) fun M => ?_
  refine Amid.known (b := decide (upLimit < M - threshold)) Judging.steady (fun _ _ _ => rfl) ?_
  by_cases hM : upLimit < M - threshold
  · simp only [hM, decide_true, if_true]
    refine Amid.step Judging.steady fun _ s hs _ => ?_
    rw [measured_emit _ _ rfl]
    refine ⟨good_of_say rfl fun o v ho rs hrs hne hr => ?_, folded_say hs.1 rfl⟩
    obtain ⟨rfl, rfl⟩ : Outcome.alcohol = o ∧ _ = v := by simpa [Event.outcome] using ho
    rw [verdict_eq hne hr, if_pos]
    rwa [← hs.2 rs hrs hne]
  · simp only [hM, decide_false, Bool.false_eq_true, if_false]
    refine Triple.get (R := fun m s => Judged M m s.measured) Judging.steady.stable
      (fun _ _ s hs _ => ⟨hs, fun l hl _ => (hs.1 l hl).2⟩) fun m => ?_
    refine Amid.known (b := decide (threshold - m < downLimit)) Judged.steady (fun _ _ _ => rfl) ?_
    by_cases hm : threshold - m < downLimit
    · simp only [hm, decide_true, if_true]
      refine .seq (R := fun s => Folded s.measured) (Amid.step Judged.steady fun _ s hs _ => ?_)
        (amid_remote (remote_delay _))
      rw [measured_emit _ _ rfl]
      refine ⟨good_of_say rfl fun o v ho rs hrs hne hr => ?_, folded_say hs.1.1 rfl⟩
      obtain ⟨rfl, rfl⟩ : Outcome.blowHarder = o ∧ _ = v := by simpa [Event.outcome] using ho
      rw [verdict_eq hne hr, if_neg, if_pos]
      · rwa [← hs.2 rs hrs hne]
      · rwa [← hs.1.2 rs hrs hne]
    · simp only [hm, decide_false, Bool.false_eq_true, if_false]
      refine Amid.step Judged.steady fun _ s hs _ => ?_
      rw [measured_emit _ _ rfl]
      refine ⟨good_of_say rfl fun o v ho rs hrs hne hr => ?_, folded_say hs.1.1 rfl⟩
      obtain ⟨rfl, rfl⟩ : Outcome.notAlcohol = o ∧ _ = v := by simpa [Event.outcome] using ho
      rw [verdict_eq hne hr, if_neg, if_neg]
      · rwa [← hs.2 rs hrs hne]
      · rwa [← hs.1.2 rs hrs hne]

theorem amid_close (downLimit upLimit threshold : Int) :
    spec.Amid Beside State.measured Folded (close P downLimit upLimit threshold) Folded := by
  refine .seq (amid_plain fun _ _ => .inl rfl) (.seq (Amid.get steady_folded fun _ =>
    Amid.get steady_folded fun _ => amid_remote ⟨remote_delay _, remote_send P (fun _ => rfl),
      remote_delay _, trivial⟩) (.seq (Amid.choose (amid_judge _ _ _) (amid_plain ?_))
    (amid_plain ⟨fun _ _ => .inl rfl, fun _ _ => .inl rfl, trivial⟩)))
  exact ⟨fun _ _ => plain_emit rfl rfl, (remote_delay 2000).mono fun _ _ _ h => plain_of_apart h⟩

theorem amid_readIsAlcohol (downLimit upLimit threshold : Int) :
    spec.Amid Beside State.measured Folded (readIsAlcohol P downLimit upLimit threshold) Folded := by
  refine .seq (amid_plain fun _ _ => plain_emit rfl rfl) (.seq (Amid.choose ?_ (amid_close P _ _ _))
    (amid_plain ⟨fun _ _ => plain_emit rfl rfl, trivial⟩))
  exact .seq (amid_plain fun _ _ => plain_emit rfl rfl)
    (Amid.get steady_folded fun _ => Amid.choose (amid_sample P) (Amid.done steady_folded))

theorem amid_setup : spec.Amid Beside State.measured Folded (setup P) Folded := by
  have hp : ∀ {c : Sketch}, Remote c → c.Every fun _ => Plain :=
    fun hc => hc.mono fun _ _ _ h => plain_of_apart h
  exact amid_plain ⟨fun _ _ => .inl rfl, fun _ _ => .inl rfl, fun _ _ => .inl rfl, fun _ _ => .inl rfl,
    fun _ _ => .inl rfl, fun _ _ => .inl rfl, ⟨trivial, trivial⟩, hp (remote_delay _),
    fun _ _ => plain_of_apart (apart_emit _ rfl rfl rfl rfl rfl rfl), hp (remote_delay _),
    hp (remote_testWiFi P 20), hp (remote_delay _), fun _ _ => .inl rfl, fun _ _ => .inl rfl,
    hp (remote_delay _), hp (remote_send P fun _ => rfl), hp (remote_delay _),
    hp (remote_send P fun _ => rfl), hp (remote_delay _), fun _ _ => .inl rfl, fun _ _ => .inl rfl,
    fun _ _ => plain_emit rfl rfl, trivial⟩

theorem sketch : Triple (spec.amid Beside State.measured) (fun s => Folded s.measured) (device P).boot
    fun _ => False :=
  .seq (amid_setup P) (.forever (fun _ _ => trivial)
    (amid_loop P steady_folded (fun hc => amid_remote hc) (amid_readIsAlcohol P)))

end Measured

/-- No press comes while a reading is being compared. -/
def Undisturbed (s t : State) : Prop := ∀ e ∈ s.during t, e.presses = true → measuring s.log = false

instance (s t : State) : Decidable (Undisturbed s t) := inferInstanceAs (Decidable (∀ e ∈ _, _ → _))

theorem measured_react {r : Outside} {s : State} (h : Undisturbed s (react r s)) :
    Measured.Beside s.measured (react r s).measured := by
  cases r with
  | wait ms => exact .inl rfl
  | button spin =>
    obtain ⟨last, c, x, hs, -, -⟩ := press_spec spin s
    simp only [react] at h ⊢
    split
    · rw [if_pos ‹_›, hs] at h
      rw [hs]
      exact .inr ⟨last, c, (measuring_filter _).trans
        (h (.pressed last c) (by rw [during_of_log (e := .pressed last c) rfl]; simp) rfl), rfl⟩
    · exact .inl rfl

theorem sound_filter {e : Event} {l : List Event} (h : Sound e (l.filter Event.onTest)) : Sound e l := by
  simpa only [Sound, readings_filter] using h

/-- An event that a step logs is a reset, a press, or sound. -/
theorem sound_of_did {P : Platform} {x : Choice Env Outside} {c d : Config State Env} {e : Event}
    (hd : (device P).Did (Measured.spec.amid Measured.Beside State.measured) x c d)
    (he : d.state.log = e :: c.state.log) : Sound e c.state.log := by
  intro o v ho
  have htest : e.onTest = true := by
    cases e <;> first | rfl | simp [Event.outcome] at ho
  have hh : d.state.measured.hist = e :: c.state.measured.hist := by
    show List.filter _ _ = _
    rw [he, List.filter_cons_of_pos htest]
    rfl
  refine sound_filter ?_ o v ho
  rcases hd with rfl | ⟨r, -, -, hd | ⟨last, stop, -, hd⟩⟩ | ⟨i, -, -, hd⟩
  · obtain rfl := (List.cons.inj hh).1
    simp [Event.outcome] at ho
  · exact absurd (congrArg List.length (hh.symm.trans (congrArg Measured.hist hd))) (by simp)
  · obtain rfl := (List.cons.inj (hh.symm.trans (congrArg Measured.hist hd))).1
    simp [Event.outcome] at ho
  · exact hd e hh

/-- In a run without such presses every outcome is what the readings before it should find. -/
theorem sound_of_undisturbed (P : Platform) (flash : Nat → UInt8) (xs : Run)
    (hx : (device P).Along (fun _ c d => Undisturbed c.state d.state) xs
      ((device P).start (powerOn flash))) : Always Sound (after P flash xs).state.log := by
  have hr : ∀ s l, readings ((device P).restart s).measured.hist = some l →
      ((device P).restart s).measured.MAX = maxOf l ∧ ((device P).restart s).measured.MIN = minOf l :=
    fun s l hl => absurd (show none = some l from hl) (by simp)
  have h0 := Machine.always_start (m := device P) (Measured.sketch P) (s := powerOn flash)
    fun l hl => absurd (show none = some l from hl) (by simp)
  have hb : Always Sound (powerOn flash).log := ⟨fun o v ho => by simp [Event.outcome] at ho, trivial⟩
  refine ((hx.and (along_grew P flash xs)).invariant (I := fun c => Machine.Always _ c ∧
    Always Sound c.state.log) ⟨h0, hb⟩ ?_).2
  rintro x c ⟨hc, hl⟩ ⟨hu, hg⟩
  have hm : (device P).Meet (Measured.spec.amid Measured.Beside State.measured) x c := by
    cases x with
    | run i => exact fun _ _ _ => trivial
    | outside r => exact measured_react hu
    | reset => trivial
  obtain ⟨hd, ha⟩ := Machine.always_step (Measured.sketch P) (fun s _ => hr s) x c hc hm
  refine ⟨ha, ?_⟩
  rcases hg with hg | ⟨e, hg⟩
  · rwa [hg]
  · rw [hg]
    exact ⟨sound_of_did hd hg, hl⟩

/-- What the call that closes a test leaves of it. -/
structure Ended where
  isMatchFaceID : Bool
  outcomes : List (Outcome × Option Verdict)

def State.ended (s : State) : Ended where
  isMatchFaceID := s.isMatchFaceID
  outcomes := s.log.filterMap Event.outcome

theorem ended_react (r : Outside) (s : State) : (react r s).ended = s.ended := by
  cases r with
  | wait ms => rfl
  | button spin =>
    obtain ⟨last, c, x, hs, -, -⟩ := press_spec spin s
    simp only [react]
    split
    · rw [hs]
      rfl
    · rfl

theorem outcomes_filter (l : List Event) :
    (l.filter Event.onTest).filterMap Event.outcome = l.filterMap Event.outcome := by
  rw [List.filterMap_filter]
  refine List.filterMap_congr fun e _ => ?_
  cases e <;> rfl

theorem ended_of_apart {s t : State} (h : Apart s t) : t.ended = s.ended := by
  have hm : t.isMatchFaceID = s.isMatchFaceID := congrArg Test.isMatchFaceID h.1.1
  have hh : t.log.filter Event.onTest = s.log.filter Event.onTest := congrArg Test.hist h.1.1
  rw [State.ended, State.ended, hm, ← outcomes_filter, hh, outcomes_filter]

namespace Ended

/-- One more outcome: an unknown driver if there has been no face, and otherwise one that was judged by
these values. -/
structure Once (downLimit upLimit threshold : Int) (e v : Ended) (o : Outcome) (x : Option Verdict) :
    Prop where
  outcomes : v.outcomes = (o, x) :: e.outcomes
  unknown : o = .unknownDriver ↔ e.isMatchFaceID = false
  values : ∀ w, x = some w → w.downLimit = downLimit ∧ w.upLimit = upLimit ∧ w.threshold = threshold

def After (downLimit upLimit threshold : Int) (e v : Ended) : Prop :=
  ∃ o x, Once downLimit upLimit threshold e v o x

variable {A : Ended → Prop} {Q : Ended → Prop} {e : Ended} (P : Platform)

theorem leads_remote {c : Sketch} (hc : Remote c) : (call Q).Leads State.ended A c A := by
  have hstable : Stable ((call Q : Spec Env Ended).on State.ended) fun s => A s.ended :=
    stable fun _ _ => trivial
  refine Triple.every hstable (fun _ _ => trivial) (fun i f k s _ he hs => ⟨trivial, ?_⟩) hc
  rwa [ended_of_apart he]

theorem after_emit {s t : State} {d : Event} {o : Outcome} {x : Option Verdict}
    {downLimit upLimit threshold : Int} (hs : s.ended = e) (hl : t.log = d :: s.log)
    (ho : d.outcome = some (o, x)) (hu : o = .unknownDriver ↔ e.isMatchFaceID = false)
    (hx : ∀ w, x = some w → w.downLimit = downLimit ∧ w.upLimit = upLimit ∧ w.threshold = threshold) :
    After downLimit upLimit threshold e t.ended := by
  refine ⟨o, x, ?_, hu, hx⟩
  rw [← hs]
  simp only [State.ended, hl, List.filterMap_cons, ho]

theorem leads_judge (downLimit upLimit threshold : Int) (he : e.isMatchFaceID = true) :
    (call Q).Leads State.ended (· = e) (judge downLimit upLimit threshold)
      (After downLimit upLimit threshold e) := by
  have hall : ∀ v, v = e → (call Q : Spec Env Ended).inv v := fun _ _ => trivial
  have hval : ∀ {w : Verdict}, w.downLimit = downLimit ∧ w.upLimit = upLimit ∧ w.threshold = threshold →
      ∀ w', some w = some w' → w'.downLimit = downLimit ∧ w'.upLimit = upLimit ∧ w'.threshold = threshold :=
    fun h _ hw => Option.some.inj hw ▸ h
  refine Leads.get hall fun MAX => Leads.choose ?_ (Leads.get hall fun MIN => Leads.choose
    (.seq (R := fun s => After downLimit upLimit threshold e s.ended) ?_ (leads_remote (remote_delay _))) ?_)
  · exact Leads.step hall fun i s hs _ =>
      ⟨trivial, after_emit hs rfl rfl (by simp [he]) (hval ⟨rfl, rfl, rfl⟩)⟩
  · exact Leads.step hall fun i s hs _ =>
      ⟨trivial, after_emit hs rfl rfl (by simp [he]) (hval ⟨rfl, rfl, rfl⟩)⟩
  · exact Leads.step hall fun i s hs _ =>
      ⟨trivial, after_emit hs rfl rfl (by simp [he]) (hval ⟨rfl, rfl, rfl⟩)⟩

theorem leads_close (downLimit upLimit threshold : Int) :
    (call Q).Leads State.ended (· = e) (close P downLimit upLimit threshold)
      (After downLimit upLimit threshold e) := by
  have hall : ∀ v, v = e → (call Q : Spec Env Ended).inv v := fun _ _ => trivial
  refine .seq (Leads.step hall fun i s hs _ => ⟨trivial, hs⟩) (.seq (Leads.get hall fun _ => Leads.get hall fun _ =>
    leads_remote ⟨remote_delay _, remote_send P (fun _ => rfl), remote_delay _, trivial⟩)
    (.seq (R := fun s => After downLimit upLimit threshold e s.ended) ?_ ?_))
  · refine Leads.known (b := e.isMatchFaceID) hall (fun i s hs => congrArg Ended.isMatchFaceID hs) ?_
    cases he : e.isMatchFaceID with
    | true => exact leads_judge _ _ _ he
    | false =>
      refine .seq (R := fun s => After downLimit upLimit threshold e s.ended) ?_ (leads_remote (remote_delay _))
      exact Leads.step hall fun i s hs _ => ⟨trivial, after_emit hs rfl rfl (by simp [he]) (by simp)⟩
  · have hall' : ∀ v, After downLimit upLimit threshold e v → (call Q : Spec Env Ended).inv v := fun _ _ => trivial
    refine .seq (R := fun s => After downLimit upLimit threshold e s.ended) ?_ (.seq
      (R := fun s => After downLimit upLimit threshold e s.ended) ?_ (Leads.done hall'))
    · exact Leads.step hall' fun i s hs _ => ⟨trivial, hs⟩
    · exact Leads.step hall' fun i s ⟨o, x, ho⟩ _ => ⟨trivial, o, x, ho.outcomes, ho.unknown, ho.values⟩

end Ended

namespace Raising

/-- The flags of a test: as they were, and raised by the verdicts logged since. -/
def Raised (e v : Lock) : Prop :=
  ∃ n, v.hist = n ++ e.hist ∧ ∀ r : Request, r.rank < 2 → v.pending r = (e.pending r || n.any (Event.raises r))

variable {e v w : Lock} {Q : Lock → Prop}

theorem Raised.say {d : Event} (h : Raised e v) (hh : w.hist = d :: v.hist)
    (hp : ∀ r : Request, r.rank < 2 → w.pending r = (v.pending r || d.raises r)) : Raised e w := by
  obtain ⟨n, hn, hv⟩ := h
  refine ⟨d :: n, by rw [hh, hn]; rfl, fun r hr => ?_⟩
  rw [hp r hr, hv r hr, List.any_cons, Bool.or_assoc, Bool.or_comm (d.raises r)]

theorem kept : Kept (call Q) (Raised e) where
  inv _ _ := trivial
  loosen v hv := by
    rw [Answers.chain_call]
    rintro i _ ⟨n, b, rfl⟩
    exact hv
  onV1 := by
    have hother : ∀ r q : Request, r.rank < 2 → 2 ≤ q.rank → r ≠ q := by
      rintro r q h1 h2 rfl
      omega
    refine onV1_of_steps ?_ ?_ ?_ ?_
    · intro v p hv
      exact chain_to trivial fun _ _ => ⟨trivial, hv.say rfl fun r _ => by simp [Event.raises]⟩
    · intro v k hv
      refine chain_sending trivial ?_
      rintro i w (rfl | rfl) -
      · exact ⟨trivial, hv.say rfl fun r _ => by simp [Event.raises]⟩
      · exact ⟨trivial, hv⟩
    · intro v hv _
      exact chain_to trivial fun _ _ => ⟨trivial, hv.say rfl fun r hr => by
        simp [Event.raises, hother r .unblockNow hr (by decide)]⟩
    · intro v hv _
      exact chain_to trivial fun _ _ => ⟨trivial, hv.say rfl fun r hr => by
        simp [Event.raises, hother r .blockNow hr (by decide)]⟩

theorem chain_judging {r : Request} {d : Verdict → Event} {ok : Verdict → Prop}
    (hd : ∀ x q, (d x).raises q = decide (q = r)) (hv : Raised e v) :
    (call Q).Chain [Lock.judging r d ok] (Raised e) v := by
  rw [Answers.chain_call]
  rintro i _ ⟨x, -, -, rfl⟩
  refine hv.say rfl fun q _ => ?_
  by_cases h : q = r <;> simp [hd, h]

theorem leads_close (P : Platform) (downLimit upLimit threshold : Int) :
    (call Q).Leads State.lock (Raised e) (close P downLimit upLimit threshold) (Raised e) :=
  Center.leads_close P kept (fun _ hv _ => chain_judging (fun _ _ => rfl) hv)
    (fun _ hv _ => chain_judging (fun _ _ => rfl) hv) _ _ _

end Raising

def Event.ends (e : Event) : Option Outcome := e.outcome.map Prod.fst

/-- The newest outcome of a log, with the readings before it. -/
def lastEnd : List Event → Option (Outcome × Option (List Int))
  | [] => none
  | e :: l => match e.ends with
    | some o => some (o, readings l)
    | none => lastEnd l

/-- A call from `s` to `t` that closes a test: it has one outcome, `o`, after the readings `l`. -/
structure Closes (downLimit upLimit threshold : Int) (s t : State) (o : Outcome)
    (l : Option (List Int)) : Prop where
  once : (s.during t).filterMap Event.ends = [o]
  last : lastEnd t.log = some (o, l)
  isAlcohol : t.isAlcoholState = (s.isAlcoholState || decide (o = .alcohol))
  notAlcohol : t.notAlcoholState = (s.notAlcoholState || decide (o = .notAlcohol))
  unknown : s.isMatchFaceID = false → o = .unknownDriver
  sound : ∀ rs, l = some rs → rs ≠ [] → (∀ r ∈ rs, 0 ≤ r ∧ r ≤ 1024) →
    o = verdict downLimit upLimit threshold s.isMatchFaceID rs
  congr : ∀ rs rs', l = some rs → rs ≠ [] → (∀ r ∈ rs, 0 ≤ r ∧ r ≤ 1024) → (∀ r, r ∈ rs' ↔ r ∈ rs) →
    verdict downLimit upLimit threshold s.isMatchFaceID rs' = o
  mono : ∀ rs rs', l = some rs → rs ≠ [] → (∀ r ∈ rs, 0 ≤ r ∧ r ≤ 1024) → (∀ r ∈ rs, r ∈ rs') →
    o = .alcohol → verdict downLimit upLimit threshold s.isMatchFaceID rs' = .alcohol

theorem lastEnd_eq {later earlier : List Event} {e : Event} {o : Outcome}
    (hl : ∀ x ∈ later, x.ends = none) (he : e.ends = some o) :
    lastEnd (later ++ e :: earlier) = some (o, readings earlier) := by
  induction later with
  | nil => simp [lastEnd, he]
  | cons x later ih =>
    rw [List.forall_mem_cons] at hl
    rw [List.cons_append, lastEnd, hl.1]
    exact ih hl.2

theorem any_raises (l : List Event) :
    l.any (Event.raises .isAlcohol) = decide (.alcohol ∈ l.filterMap Event.ends) ∧
    l.any (Event.raises .notAlcohol) = decide (.notAlcohol ∈ l.filterMap Event.ends) := by
  induction l with
  | nil => exact ⟨rfl, rfl⟩
  | cons e l ih =>
    rw [List.any_cons, List.any_cons, ih.1, ih.2]
    cases e <;> simp [Event.raises, Event.ends, Event.outcome]

theorem any_filter_raises (r : Request) (l : List Event) :
    (l.filter Event.onLock).any (Event.raises r) = l.any (Event.raises r) := by
  rw [List.any_filter]
  refine congrArg (List.any l) (funext fun e => ?_)
  cases e <;> first | rfl | simp [Event.raises]

/-- Only a driver without a face is not judged by any values. -/
theorem outcome_values {e : Event} {o : Outcome} {x : Option Verdict} (he : e.outcome = some (o, x)) :
    o = .unknownDriver ∨ ∃ w, x = some w := by
  cases e <;> simp [Event.outcome] at he
  · exact .inr ⟨_, he.2.symm⟩
  · exact .inr ⟨_, he.2.symm⟩
  · exact .inr ⟨_, he.2.symm⟩
  · exact .inl he.1.symm

/-- If no press in the run comes while a reading is being compared, the call that closes a test has one
outcome, and it is the one that the readings since the last press should have. -/
theorem test_closes (P : Platform) (flash : Nat → UInt8) (xs ys : Run) {downLimit upLimit threshold : Int}
    {k : List Sketch} {t : State}
    (hx : (device P).Along (fun _ c d => Undisturbed c.state d.state) (xs ++ ys)
      ((device P).start (powerOn flash)))
    (hc : (after P flash xs).code = close P downLimit upLimit threshold :: k)
    (hf : finish react ys [close P downLimit upLimit threshold] (after P flash xs).state = some t) :
    ∃ o l, Closes downLimit upLimit threshold (after P flash xs).state t o l := by
  have hend : after P flash (xs ++ ys) = ⟨k, t⟩ := by
    rw [after, Machine.exec_append]
    have he : after P flash xs = ⟨[close P downLimit upLimit threshold] ++ k, (after P flash xs).state⟩ := by
      rw [List.singleton_append, ← hc]
    have hx := exec_of_finish (device P) hf k
    rwa [← he] at hx
  have hsound := sound_of_undisturbed P flash (xs ++ ys) hx
  rw [hend] at hsound
  generalize (after P flash xs).state = s at hf ⊢
  have ht : t.log = s.during t ++ s.log := during_append (grows_close P _ _ _) hf
  obtain ⟨o, x, hout, hunknown, hval⟩ := Leads.finish ended_react
    (Ended.leads_close P downLimit upLimit threshold) rfl hf
  have honce : (s.during t).filterMap Event.outcome = [(o, x)] := by
    refine List.append_cancel_right (?_ : _ ++ s.log.filterMap Event.outcome = _ ++ s.log.filterMap Event.outcome)
    rw [← List.filterMap_append, ← ht]
    exact hout
  obtain ⟨later, e, earlier, hd, hlater, he, hearlier⟩ := List.filterMap_eq_cons_iff.1 honce
  have hends : (s.during t).filterMap Event.ends = [o] := by
    have h := congrArg (List.map Prod.fst) honce
    rwa [List.map_filterMap] at h
  have hlog : t.log = later ++ e :: (earlier ++ s.log) := by
    rw [ht, hd]
    simp
  obtain ⟨n, hn, hflags⟩ := Leads.finish (A := Raising.Raised s.lock) (fun r s => lock_react s r)
    (Raising.leads_close P downLimit upLimit threshold) ⟨[], rfl, by simp⟩ hf
  have hn : n = (s.during t).filter Event.onLock := by
    refine List.append_cancel_right (?_ : n ++ s.lock.hist = _ ++ s.lock.hist)
    rw [← hn]
    show t.log.filter Event.onLock = _
    rw [ht, List.filter_append]
    rfl
  have hverdict : ∀ rs, readings (earlier ++ s.log) = some rs → rs ≠ [] →
      (∀ r ∈ rs, 0 ≤ r ∧ r ≤ 1024) → o = verdict downLimit upLimit threshold s.isMatchFaceID rs := by
    intro rs hrs hne hr
    cases hm : s.isMatchFaceID with
    | false => simpa [verdict] using hunknown.2 hm
    | true =>
      have hne' : o ≠ .unknownDriver := fun h => absurd (hm.symm.trans (hunknown.1 h)) (by simp)
      obtain ⟨w, rfl⟩ := (outcome_values he).resolve_left hne'
      obtain ⟨rfl, rfl, rfl⟩ := hval w rfl
      exact (always_iff _ _).1 hsound later e _ hlog o w he rs hrs hne hr
  refine ⟨o, readings (earlier ++ s.log), hends, ?_, ?_, ?_, hunknown.2, hverdict, ?_, ?_⟩
  · rw [hlog]
    refine lastEnd_eq (fun y hy => ?_) (by simp [Event.ends, he])
    simp [Event.ends, hlater y hy]
  · have h := hflags .isAlcohol (by decide)
    rw [hn, any_filter_raises, (any_raises _).1, hends] at h
    simpa [eq_comm] using h
  · have h := hflags .notAlcohol (by decide)
    rw [hn, any_filter_raises, (any_raises _).2, hends] at h
    simpa [eq_comm] using h
  · intro rs rs' hrs hne hr hmem
    rw [hverdict rs hrs hne hr]
    exact verdict_congr hmem _ _ _ _
  · intro rs rs' hrs hne hr hmem ho
    exact verdict_mono hmem ((hverdict rs hrs hne hr).symm.trans ho)

/-- The call of `readIsAlcohol` in `loop`. -/
def callReadIsAlcohol (P : Platform) : Sketch :=
  .get (fun _ s => s.downLimit) fun downLimit => .get (fun _ s => s.upLimit) fun upLimit =>
    .get (fun _ s => s.threshold) fun threshold => readIsAlcohol P downLimit upLimit threshold

/-- Seven seconds after a press the call closes the test. -/
theorem call_closes (P : Platform) (i : Env) (k : List Sketch) {s : State}
    (h : ¬ elapsed s.millis s.t1 < 7000) :
    ((device P).exec (rounds i 7) ⟨callReadIsAlcohol P :: k, s⟩).code =
      close P s.downLimit s.upLimit s.threshold :: .block [.set fun s => s.emit .returned] :: k := by
  show (if decide (elapsed s.millis s.t1 < 7000) = true then _ else _) :: _ = _
  rw [decide_eq_false h]
  rfl

/-- A run up to a call, with all settings zero. -/
theorem code_of_call (P : Platform) (flash : Nat → UInt8) (xs : Run) (i : Env) {k : List Sketch}
    (hc : (after P flash xs).code = callReadIsAlcohol P :: k)
    (hs : (after P flash xs).state.downLimit = 0 ∧ (after P flash xs).state.upLimit = 0 ∧
      (after P flash xs).state.threshold = 0 ∧
      ¬ elapsed (after P flash xs).state.millis (after P flash xs).state.t1 < 7000) :
    (after P flash (xs ++ rounds i 7)).code =
      close P 0 0 0 :: .block [.set fun s => s.emit .returned] :: k := by
  have h := call_closes P i k hs.2.2.2
  rw [hs.1, hs.2.1, hs.2.2.1, ← hc] at h
  rw [after, Machine.exec_append]
  exact h

/-- A drunk driver's test, up to the call that closes it. -/
def measured : Run := idle 164 ++ press ++ rounds drunk 140 ++ pause 7000 ++ rounds drunk 100

set_option maxRecDepth 10000 in
theorem test_closes_measured : ∃ t o l,
    finish react (rounds drunk 26) [close bench 0 0 0]
      (after bench (flashOf 5) (measured ++ rounds drunk 7)).state = some t ∧
    Closes 0 0 0 (after bench (flashOf 5) (measured ++ rounds drunk 7)).state t o l ∧
    o = .alcohol ∧ l = some [5, 5] := by
  have hf : (finish react (rounds drunk 26) [close bench 0 0 0]
      (after bench (flashOf 5) (measured ++ rounds drunk 7)).state).map (fun t => lastEnd t.log) =
        some (some (.alcohol, some [5, 5])) := by
    decide +kernel
  obtain ⟨t, ht, hl⟩ := Option.map_eq_some_iff.1 hf
  have hc := code_of_call bench (flashOf 5) measured drunk
    (k := (after bench (flashOf 5) measured).code.tail) rfl (by decide +kernel)
  obtain ⟨o, l, h⟩ := test_closes bench (flashOf 5) _ _ (by decide +kernel) hc ht
  obtain ⟨rfl, rfl⟩ : o = .alcohol ∧ l = some [5, 5] := by simpa using h.last.symm.trans hl
  exact ⟨t, _, _, ht, h, rfl, rfl⟩

/-- A second press while the first reading is being compared, and nothing on the sensor after it. -/
def disturbed : Run :=
  idle 164 ++ press ++ rounds drunk 79 ++ press ++ rounds { camRX := false } 122 ++ pause 7000

set_option maxRecDepth 10000 in
/-- The reading before the second press decides the test of the clean breath after it. -/
theorem test_can_mix : ¬ ∀ (P : Platform) (flash : Nat → UInt8) (xs ys : Run)
    (downLimit upLimit threshold : Int) (k : List Sketch) (t : State),
    (after P flash xs).code = close P downLimit upLimit threshold :: k →
    finish react ys [close P downLimit upLimit threshold] (after P flash xs).state = some t →
    ∃ o l, Closes downLimit upLimit threshold (after P flash xs).state t o l := by
  intro h
  have hf : (finish react (rounds drunk 26) [close bench 0 0 0]
      (after bench (flashOf 5) (disturbed ++ rounds { camRX := false } 7)).state).map
        (fun t => lastEnd t.log) = some (some (.alcohol, some [0])) := by
    decide +kernel
  obtain ⟨t, ht, hl⟩ := Option.map_eq_some_iff.1 hf
  have hc := code_of_call bench (flashOf 5) disturbed { camRX := false }
    (k := (after bench (flashOf 5) disturbed).code.tail) rfl (by decide +kernel)
  obtain ⟨o, l, hcl⟩ := h bench (flashOf 5) _ _ 0 0 0 _ t hc ht
  obtain ⟨rfl, rfl⟩ : o = .alcohol ∧ l = some [0] := by simpa using hcl.last.symm.trans hl
  have hv := hcl.sound [0] rfl (by simp) (by simp)
  revert hv
  simp [verdict]
  split <;> simp

end Center
