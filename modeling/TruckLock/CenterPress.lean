import TruckLock.CenterFace

/-!
# The seven seconds of a press

A press opens a window of seven seconds, counted from its end. `readIsAlcohol`
counts them from `t1`, compares before it looks at the flags again, and clears
what it shares with the interrupt one by one. Presses that stay clear of that
get their whole window.
-/
namespace Center

open Firmware Spec History

/-- Milliseconds from the clock `b` to the clock `a`, as the sketch counts them. -/
def apart (a b : Nat) : Nat := elapsed (a % 2 ^ 32) (b % 2 ^ 32)

/-- The window that is open: the clock when its press last set `t1`, if it did, and at its end.
It is closed by the first call of `readIsAlcohol` that starts seven seconds after the press. -/
def window : List Event → Option (Option Nat × Nat)
  | [] => none
  | .boot :: _ => none
  | .pressed last stop :: _ => some (last, stop)
  | .called clock :: l => (window l).filter fun p => apart clock p.2 < 7000
  | _ :: l => window l

/-- `readIsAlcohol` is comparing or closing a test. -/
def critical : List Event → Bool
  | [] => false
  | .boot :: _ => false
  | .called _ :: _ => true
  | .sampling :: _ => false
  | .returned :: _ => false
  | _ :: l => critical l

/-- `setup` has ended. -/
def ready : List Event → Bool
  | [] => false
  | .boot :: _ => false
  | .started :: _ => true
  | _ :: l => ready l

theorem window_filter (l : List Event) : window (l.filter Event.onTest) = window l := by
  refine summary_filter (fun e l l' h => ?_) (fun e l he => ?_) l
  · cases e <;> first | rfl | exact h | exact congrArg (Option.filter _) h
  · cases e <;> first | rfl | simp [Event.onTest] at he

theorem critical_filter (l : List Event) : critical (l.filter Event.onTest) = critical l := by
  refine summary_filter (fun e l l' h => ?_) (fun e l he => ?_) l
  · cases e <;> first | rfl | exact h
  · cases e <;> first | rfl | simp [Event.onTest] at he

theorem ready_filter (l : List Event) : ready (l.filter Event.onTest) = ready l := by
  refine summary_filter (fun e l l' h => ?_) (fun e l he => ?_) l
  · cases e <;> first | rfl | exact h
  · cases e <;> first | rfl | simp [Event.onTest] at he

namespace Press

/-- A call that finds the window open takes it for open. -/
def Called (v w : Test) : Prop :=
  ∀ clock b stop, w.hist = .called clock :: v.hist → window v.hist = some (some b, stop) →
    apart clock stop < 7000 → apart clock b < 7000

/-- While the window is open no verdict is raised and no face forgotten. -/
structure Good (v w : Test) : Prop where
  judge : ∀ e, w.hist = e :: v.hist → e.judges = true → window v.hist = none
  face : window v.hist ≠ none → v.isMatchFaceID = true → w.isMatchFaceID = true

def spec : Spec Env Test where
  ok _ := Called
  good := Good
  good_refl v := ⟨fun e h => by simp at h, fun _ h => h⟩
  inv v := window v.hist ≠ none → v.alcoholFlash = true ∧ v.camTXPin = false
  top _ := True
  fin _ := True

/-- A press that sets `t1`, after `setup` and away from the closing of a test. -/
def ok (v : Test) (last : Option Nat) (_ : Nat) : Prop :=
  last ≠ none ∧ critical v.hist = false ∧ ready v.hist = true

structure Inv (g : Stage) (v : Test) : Prop where
  flash : window v.hist ≠ none → v.alcoholFlash = true ∧ v.camTXPin = false
  time : ∀ last stop, window v.hist = some (last, stop) → ∃ b, last = some b ∧ v.t1 = b % 2 ^ 32
  setup : g = .setup → window v.hist = none ∧ ready v.hist = false
  asked : g = .asked → critical v.hist = true ∧ (window v.hist ≠ none → elapsed v.now v.t1 < 7000)
  closing : g = .closing → critical v.hist = true ∧ window v.hist = none

variable {g g' : Stage} {v w : Test}

theorem Inv.steady (g : Stage) : spec.Steady (Test.Beside ok) (Inv g) where
  inv _ hv := hv.flash
  rel := by
    rintro v _ hv (rfl | ⟨last, stop, ⟨hlast, hc, hr⟩, rfl⟩)
    · exact hv
    · obtain ⟨b, rfl⟩ := Option.ne_none_iff_exists'.1 hlast
      refine ⟨fun _ => ⟨rfl, rfl⟩, ?_, fun h => ?_, fun h => ?_, fun h => ?_⟩
      · rintro _ _ h
        obtain ⟨rfl, rfl⟩ := Prod.mk.inj (Option.some.inj h)
        exact ⟨b, rfl, rfl⟩
      · simp [(hv.setup h).2] at hr
      · simp [(hv.asked h).1] at hc
      · simp [(hv.closing h).1] at hc

/-- An event that leaves the window alone. -/
theorem Inv.say (hv : Inv g v) {e : Event} (hw : window (e :: v.hist) = window v.hist)
    (hj : e.judges = true → window v.hist = none)
    (hs : g' = .setup → ready (e :: v.hist) = false ∧ g = .setup)
    (ha : g' ≠ .asked) (hc : g' = .closing → critical (e :: v.hist) = true ∧ window v.hist = none) :
    spec.Chain [Test.saying e] (Inv g') v := by
  refine chain_to hv.flash fun _ _ => ⟨⟨fun x hx hxj => ?_, fun _ h => h⟩, ?_⟩
  · obtain rfl := (List.cons.inj hx).1
    exact hj hxj
  · refine ⟨fun h => hv.flash (hw ▸ h), fun last stop h => hv.time last stop (hw ▸ h), fun h => ?_,
      fun h => absurd h ha, fun h => ⟨(hc h).1, hw.trans (hc h).2⟩⟩
    obtain ⟨hr, hg⟩ := hs h
    exact ⟨hw.trans (hv.setup hg).1, hr⟩

/-- A flag that changes while no window is open. -/
theorem Inv.put (hv : Inv g v) (h0 : window v.hist = none) (hh : w.hist = v.hist)
    (ht : w.t1 = v.t1) (hn : w.now = v.now) : Good v w ∧ Inv g w := by
  refine ⟨⟨fun e h => ?_, fun h => absurd h0 h⟩, ?_, ?_, ?_, ?_, ?_⟩
  · simp [hh] at h
  · rw [hh]
    exact fun h => absurd h0 h
  · rw [hh, ht]
    exact hv.time
  · rw [hh]
    exact hv.setup
  · rw [hh, ht, hn]
    exact hv.asked
  · rw [hh]
    exact hv.closing

/-- The stages differ in what they know of the closing of a test. -/
theorem Inv.move (hv : Inv g v) (hg : g' = .rest ∨ g' = .sampling ∨ g' = .seen) : Inv g' v :=
  ⟨hv.flash, hv.time, by rintro rfl; simp at hg, by rintro rfl; simp at hg, by rintro rfl; simp at hg⟩

theorem Inv.call (hv : Inv .rest v) : spec.Chain [Test.calling] (Inv .asked) v := by
  refine ⟨hv.flash, ?_⟩
  rintro i _ ⟨clock, rfl⟩ hok
  have hwin : ∀ p, window (.called clock :: v.hist) = some p →
      window v.hist = some p ∧ apart clock p.2 < 7000 := by
    intro p hp
    simpa [window, Option.filter_eq_some_iff] using hp
  refine ⟨⟨fun e h hj => ?_, fun _ h => h⟩, fun h => ?_, fun last stop h => ?_, by simp,
    fun _ => ⟨rfl, fun h => ?_⟩, by simp⟩
  · obtain rfl := (List.cons.inj h).1
    simp [Event.judges] at hj
  · obtain ⟨p, hp⟩ := Option.ne_none_iff_exists'.1 h
    exact hv.flash (by simp [(hwin p hp).1])
  · exact hv.time last stop (hwin _ h).1
  · obtain ⟨⟨last, stop⟩, hp⟩ := Option.ne_none_iff_exists'.1 h
    obtain ⟨hp, ha⟩ := hwin _ hp
    obtain ⟨b, rfl, ht⟩ := hv.time last stop hp
    have hb := hok clock b stop rfl hp ha
    show elapsed (clock % 2 ^ 32) v.t1 < 7000
    rw [ht]
    exact hb

theorem watched : Watched spec ok Inv where
  steady := Inv.steady
  top _ _ _ := trivial
  initial := ⟨by simp [Test.initial, window], by simp [Test.initial, window],
    fun _ => ⟨rfl, rfl⟩, by simp, by simp⟩
  boot v _ := ⟨by simp [Test.boot, Test.initial, window], by simp [Test.boot, Test.initial, window],
    fun _ => ⟨rfl, rfl⟩, by simp, by simp⟩
  park v hv := chain_to hv.flash fun _ _ => hv.put (hv.setup rfl).1 rfl rfl rfl
  calm v hv := chain_to hv.flash fun _ _ => hv.put (hv.setup rfl).1 rfl rfl rfl
  started v hv := hv.say rfl (by simp [Event.judges]) (by simp) (by simp) (by simp)
  call v hv := hv.call
  sample v hv := hv.say rfl (by simp [Event.judges]) (by simp) (by simp) (by simp)
  analog v n hv := hv.say rfl (by simp [Event.judges]) (by simp) (by simp) (by simp)
  look v hv := by
    refine ⟨hv.flash, ?_⟩
    rintro i _ ⟨level, rfl⟩ -
    refine ⟨⟨fun e h hj => ?_, fun _ h => h⟩, hv.flash, hv.time, by simp, by simp, by simp⟩
    obtain rfl := (List.cons.inj h).1
    simp [Event.judges] at hj
  matched v hv _ := chain_to hv.flash fun _ _ => ⟨⟨fun e h => by simp at h, fun _ _ => rfl⟩,
    hv.flash, hv.time, by simp, by simp, by simp⟩
  unmatched v hv _ := hv.move (by simp)
  closes v hv h := by
    have h0 : window v.hist = none := by
      by_contra hw
      exact absurd ((hv.asked rfl).2 hw) (not_lt.2 h)
    exact ⟨hv.flash, hv.time, by simp, by simp, fun _ => ⟨(hv.asked rfl).1, h0⟩⟩
  dark v hv := chain_to hv.flash fun _ _ => hv.put (hv.closing rfl).2 rfl rfl rfl
  drunk v x hv _ := hv.say rfl (fun _ => (hv.closing rfl).2) (by simp) (by simp) fun _ => hv.closing rfl
  sober v x hv _ := hv.say rfl (fun _ => (hv.closing rfl).2) (by simp) (by simp) fun _ => hv.closing rfl
  weak v x hv := hv.say rfl (by simp [Event.judges]) (by simp) (by simp) fun _ => hv.closing rfl
  unknown v hv := hv.say rfl (by simp [Event.judges]) (by simp) (by simp) fun _ => hv.closing rfl
  release v hv := chain_to hv.flash fun _ _ => hv.put (hv.closing rfl).2 rfl rfl rfl
  forget v hv := chain_to hv.flash fun _ _ => hv.put (hv.closing rfl).2 rfl rfl rfl
  returned v hv := hv.elim
    (fun hv => hv.say rfl (by simp [Event.judges]) (by simp) (by simp) (by simp))
    (fun hv => hv.say rfl (by simp [Event.judges]) (by simp) (by simp) (by simp))

end Press

/-- A press sets `t1` and comes after `setup` and away from the closing of a test, and a call of
`readIsAlcohol` does not fall between the seven seconds after `t1` and those after the press. -/
def Event.clear (l : List Event) : Event → Bool
  | .pressed last _ => last.isSome && !critical l && ready l
  | .called clock => (window l).all fun p =>
    p.1.all fun b => decide (apart clock p.2 < 7000 → apart clock b < 7000)
  | _ => true

def Clear (s t : State) : Prop := ∀ e ∈ s.during t, e.clear s.log = true

instance (s t : State) : Decidable (Clear s t) := inferInstanceAs (Decidable (∀ e ∈ _, _))

theorem clear_called {l : List Event} {clock b stop : Nat}
    (h : Event.clear l (.called clock) = true) (hw : window l = some (some b, stop))
    (ha : apart clock stop < 7000) : apart clock b < 7000 := by
  have he : Event.clear l (.called clock) = (window l).all fun p =>
      p.1.all fun b => decide (apart clock p.2 < 7000 → apart clock b < 7000) := rfl
  rw [he, hw, Option.all_some, Option.all_some, decide_eq_true_eq] at h
  exact h ha

theorem permitted_clear {x : Choice Env Outside} {c d : Config State Env}
    (h : Clear c.state d.state) (hg : Grew c.state d.state) : Permitted Press.spec Press.ok x c d := by
  cases x with
  | run i =>
    intro clock b stop hh hw ha
    have hl := log_of_filter hg hh
    exact clear_called (h (.called clock) (by simp [during_of_log hl])) ((window_filter _).symm.trans hw) ha
  | outside r =>
    intro last stop hl
    have hc := h (.pressed last stop) (by simp [during_of_log hl])
    simp only [Event.clear, Bool.and_eq_true, Bool.not_eq_true'] at hc
    exact ⟨Option.isSome_iff_ne_none.1 hc.1.1, (critical_filter _).trans hc.1.2,
      (ready_filter _).trans hc.2⟩
  | reset => trivial

/-- Presses that stay clear get their whole window: while it is open the test is on, the camera is
asked, no verdict is raised and no face is forgotten. -/
theorem press_gets_window (P : Platform) (flash : Nat → UInt8) (xs : Run)
    (hx : (device P).Along (fun _ c d => Clear c.state d.state) xs
      ((device P).start (powerOn flash))) :
    (window (after P flash xs).state.log ≠ none →
      (after P flash xs).state.alcoholFlash = true ∧ (after P flash xs).state.camTXPin = false) ∧
    (device P).Along (fun _ c d => window c.state.log ≠ none → window d.state.log ≠ none →
      (∀ e ∈ c.state.during d.state, e.judges = false) ∧
      (c.state.isMatchFaceID = true → d.state.isMatchFaceID = true)) xs
      ((device P).start (powerOn flash)) := by
  have hp := Press.watched.along P flash xs ((hx.and (along_grew P flash xs)).imp fun x c h =>
    permitted_clear h.1 h.2)
  refine ⟨fun h => ?_, (hp.and (along_grew P flash xs)).imp fun x c h hc hd => ?_⟩
  · have hstart : Press.spec.inv ((device P).start (powerOn flash)).state.test := by
      simp [Press.spec, test_powerOn, Machine.start, Test.initial, window]
    have hinv : Press.spec.inv (after P flash xs).state.test :=
      hp.invariant (I := fun c => Press.spec.inv c.state.test) hstart fun _ _ _ hs => hs.2.2
    exact hinv ((window_filter _).trans_ne h)
  · have hwin : window c.state.test.hist ≠ none := (window_filter _).trans_ne hc
    refine ⟨fun e he => ?_, fun hm => ?_⟩
    · by_contra hj
      rw [Bool.not_eq_false] at hj
      have hh := test_hist (log_of_during h.2 he) (Event.onTest_of_judges hj)
      exact hwin ((h.1.2.1.judged hh hj).judge e hh hj)
    · rcases h.1.2.1 with hg | ⟨last, stop, hw⟩ | hw
      · exact hg.face hwin hm
      · exact (congrArg Test.isMatchFaceID hw).trans hm
      · have hd' : window ((device P).step x c).state.test.hist ≠ none := (window_filter _).trans_ne hd
        rw [hw] at hd'
        exact absurd rfl hd'

/-- A press and one round of samples. -/
def sampled : Run := idle 164 ++ press ++ rounds drunk 140

set_option maxRecDepth 10000 in
theorem press_gets_window_sampled :
    (after bench (flashOf 5) sampled).state.alcoholFlash = true ∧
      (after bench (flashOf 5) sampled).state.camTXPin = false :=
  (press_gets_window bench (flashOf 5) sampled (by decide +kernel)).1 (by decide +kernel)

/-- The button is pressed again while the test is being closed. -/
def impatient : Run := sampled ++ pause 7000 ++ rounds drunk 120 ++ press ++ rounds drunk 20

set_option maxRecDepth 10000 in
/-- The end of the test before takes the request to the camera back. -/
theorem press_can_be_lost : ¬ ∀ (P : Platform) (flash : Nat → UInt8) (xs : Run),
    window (after P flash xs).state.log ≠ none →
      (after P flash xs).state.alcoholFlash = true ∧ (after P flash xs).state.camTXPin = false := by
  intro h
  have h := h bench (flashOf 5) impatient (by decide +kernel)
  revert h
  decide +kernel

end Center
