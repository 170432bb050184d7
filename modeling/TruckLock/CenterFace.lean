import TruckLock.CenterLog
import TruckLock.CenterWatch
import TruckLock.History

/-!
# The face and the breath of one test

A press opens a new window but leaves `isMatchFaceID` as it is. If no press
finds it set, the face that a verdict rests on was seen in the same window as
the breath.
-/
namespace Center

open Firmware Spec History

namespace Event

/-- A new window, or a reset. -/
def opens : Event → Bool
  | .boot | .pressed _ _ => true
  | _ => false

def presses : Event → Bool
  | .pressed _ _ => true
  | _ => false

end Event

/-- The camera has answered since the window was opened. -/
def Recognised : List Event → Prop := Since (fun e => e.opens = false) (· = .camera false)

/-- Inside `readIsAlcohol`. -/
def inside : List Event → Bool
  | [] => false
  | .boot :: _ => false
  | .called _ :: _ => true
  | .returned :: _ => false
  | _ :: l => inside l

instance : DecidablePred Recognised := fun l => inferInstanceAs (Decidable (Since _ _ l))

theorem recognised_filter (l : List Event) : Recognised (l.filter Event.onTest) ↔ Recognised l := by
  refine since_filter (fun e he => ?_) (fun e he h => ?_) l
  · cases e <;> first | rfl | simp [Event.onTest] at he
  · simp [h, Event.onTest] at he

theorem inside_filter (l : List Event) : inside (l.filter Event.onTest) = inside l := by
  refine summary_filter (fun e l l' h => ?_) (fun e l he => ?_) l
  · cases e <;> first | rfl | exact h
  · cases e <;> first | rfl | simp [Event.onTest] at he

/-- The stages inside `readIsAlcohol`. -/
def Stage.within : Stage → Bool
  | .setup | .rest => false
  | _ => true

namespace Face

def spec : Spec Env Test where
  ok _ _ _ := True
  good v w := ∀ e, w.hist = e :: v.hist → e.judges = true → Recognised v.hist
  good_refl v e h := by simp at h
  inv _ := True
  top _ := True
  fin _ := True

/-- Presses fall outside `readIsAlcohol` and find no face. -/
def ok (v : Test) (_ : Option Nat) (_ : Nat) : Prop := inside v.hist = false ∧ v.isMatchFaceID = false

structure Inv (g : Stage) (v : Test) : Prop where
  face : v.isMatchFaceID = true → Recognised v.hist
  within : g.within = true → inside v.hist = true
  seen : g = .seen → v.camLevel = false → Recognised v.hist

variable {g g' : Stage} {v w : Test}

theorem good_of_say {e : Event} (hw : w.hist = e :: v.hist)
    (h : e.judges = true → Recognised v.hist) : spec.good v w := by
  intro x hx hj
  obtain rfl := (List.cons.inj (hx.symm.trans hw)).1
  exact h hj

theorem Inv.steady (g : Stage) : spec.Steady (Test.Beside ok) (Inv g) where
  inv _ _ := trivial
  rel := by
    rintro v _ hv (rfl | ⟨last, stop, ⟨hi, hm⟩, rfl⟩)
    · exact hv
    · have hg : g.within = false := by
        by_contra hg
        simp [hv.within (by simpa using hg)] at hi
      refine ⟨fun h => absurd (hm.symm.trans h) (by simp), fun h => ?_, ?_⟩
      · simp [hg] at h
      · rintro rfl
        cases hg

/-- An event of the same stage. -/
theorem Inv.say (hv : Inv g v) {e : Event} (ho : e.opens = false)
    (hi : inside (e :: v.hist) = inside v.hist) (hg : g'.within = g.within) (hs : g' ≠ .seen)
    (hj : e.judges = true → v.isMatchFaceID = true) : spec.Chain [Test.saying e] (Inv g') v :=
  chain_to trivial fun _ _ => ⟨good_of_say rfl fun h => hv.face (hj h),
    fun h => .inr ⟨ho, hv.face h⟩, fun h => hi.trans (hv.within (hg.symm.trans h)),
    fun h => absurd h hs⟩

theorem watched : Watched spec ok Inv where
  steady := Inv.steady
  top _ _ _ := trivial
  initial := ⟨by simp [Test.initial], by simp [Stage.within], by simp⟩
  boot v _ := ⟨by simp [Test.boot, Test.initial], by simp [Stage.within], by simp⟩
  park v hv := chain_to trivial fun _ _ => ⟨fun e h => by simp at h, hv.face, hv.within, hv.seen⟩
  calm v hv := chain_to trivial fun _ _ => ⟨fun e h => by simp at h, hv.face, hv.within, hv.seen⟩
  started v hv := hv.say rfl rfl rfl (by simp) (by simp [Event.judges])
  call v hv := by
    refine ⟨trivial, ?_⟩
    rintro i _ ⟨clock, rfl⟩ -
    exact ⟨good_of_say rfl (by simp [Event.judges]), fun h => .inr ⟨rfl, hv.face h⟩, fun _ => rfl,
      by simp⟩
  sample v hv := hv.say rfl rfl rfl (by simp) (by simp [Event.judges])
  analog v n hv := hv.say rfl rfl rfl (by simp) (by simp [Event.judges])
  look v hv := by
    refine ⟨trivial, ?_⟩
    rintro i _ ⟨level, rfl⟩ -
    refine ⟨good_of_say rfl (by simp [Event.judges]), fun h => .inr ⟨rfl, hv.face h⟩,
      fun _ => hv.within rfl, fun _ hl => .inl ?_⟩
    obtain rfl : level = false := hl
    rfl
  matched v hv hl := chain_to trivial fun _ _ => ⟨fun e h => by simp at h,
    fun _ => hv.seen rfl hl, fun _ => hv.within rfl, by simp⟩
  unmatched v hv _ := ⟨hv.face, fun _ => hv.within rfl, by simp⟩
  closes v hv _ := ⟨hv.face, fun _ => hv.within rfl, by simp⟩
  dark v hv := chain_to trivial fun _ _ => ⟨fun e h => by simp at h, hv.face, hv.within, hv.seen⟩
  drunk v x hv hm := hv.say rfl rfl rfl (by simp) fun _ => hm
  sober v x hv hm := hv.say rfl rfl rfl (by simp) fun _ => hm
  weak v x hv := hv.say rfl rfl rfl (by simp) (by simp [Event.judges])
  unknown v hv := hv.say rfl rfl rfl (by simp) (by simp [Event.judges])
  release v hv := chain_to trivial fun _ _ => ⟨fun e h => by simp at h, hv.face, hv.within, hv.seen⟩
  forget v hv := chain_to trivial fun _ _ => ⟨fun e h => by simp at h, by simp, hv.within, hv.seen⟩
  returned v hv := by
    have hf : v.isMatchFaceID = true → Recognised v.hist := hv.elim Inv.face Inv.face
    exact chain_to trivial fun _ _ => ⟨good_of_say rfl (by simp [Event.judges]),
      fun h => .inr ⟨rfl, hf h⟩, by simp [Stage.within], by simp⟩

end Face

/-- A press falls outside `readIsAlcohol`. -/
def Between (s t : State) : Prop := ∀ e ∈ s.during t, e.presses = true → inside s.log = false

/-- A press finds no face that is still remembered. -/
def Unmatched (s t : State) : Prop :=
  ∀ e ∈ s.during t, e.presses = true → s.isMatchFaceID = false

instance (s t : State) : Decidable (Between s t) := inferInstanceAs (Decidable (∀ e ∈ _, _ → _))
instance (s t : State) : Decidable (Unmatched s t) := inferInstanceAs (Decidable (∀ e ∈ _, _ → _))

/-- As long as no press finds a face that is still remembered, every test that is closed with a
request has seen a face since the last press. -/
theorem face_in_window (P : Platform) (flash : Nat → UInt8) (xs : Run)
    (hb : (device P).Along (fun _ c d => Between c.state d.state) xs
      ((device P).start (powerOn flash)))
    (hx : (device P).Along (fun _ c d => Unmatched c.state d.state) xs
      ((device P).start (powerOn flash))) :
    (device P).Along (fun _ c d => ∀ e ∈ c.state.during d.state, e.judges = true →
      Recognised c.state.log) xs ((device P).start (powerOn flash)) := by
  have hp := Face.watched.along P flash xs ((hb.and hx).imp fun x c h => ?_)
  · refine (hp.and (along_grew P flash xs)).imp fun x c h e he hj => (recognised_filter _).1 ?_
    have hh := test_hist (log_of_during h.2 he) (Event.onTest_of_judges hj)
    exact h.1.2.1.judged hh hj e hh hj
  · cases x with
    | run i => trivial
    | outside r =>
      intro last stop hl
      have hd := during_of_log hl
      refine ⟨(inside_filter _).trans (h.1 (.pressed last stop) ?_ rfl),
        h.2 (.pressed last stop) ?_ rfl⟩
      · rw [hd]
        simp
      · rw [hd]
        simp
    | reset => trivial

set_option maxRecDepth 10000 in
theorem face_in_window_tested :
    (after bench (flashOf 5) (tested drunk)).state.isAlcoholState = true ∧
    (device bench).Along (fun _ c d => ∀ e ∈ c.state.during d.state, e.judges = true →
      Recognised c.state.log) (tested drunk) ((device bench).start (powerOn (flashOf 5))) :=
  ⟨by decide +kernel, face_in_window bench (flashOf 5) (tested drunk) (by decide +kernel)
    (by decide +kernel)⟩

/-- One person shows the face; another one presses again and blows. -/
def swapped : Run :=
  idle 164 ++ press ++ rounds drunk 109 ++ press ++ rounds { adc := 5 } 109 ++ pause 7000 ++
    rounds { adc := 5 } 100

set_option maxRecDepth 10000 in
/-- A face of the window before is enough for a verdict. -/
theorem face_can_be_stale : ¬ ∀ (P : Platform) (flash : Nat → UInt8) (xs : Run),
    (device P).Along (fun _ c d => Between c.state d.state) xs ((device P).start (powerOn flash)) →
    (device P).Along (fun _ c d => ∀ e ∈ c.state.during d.state, e.judges = true →
      Recognised c.state.log) xs ((device P).start (powerOn flash)) := by
  intro h
  have h := h bench (flashOf 5) swapped (by decide +kernel)
  revert h
  decide +kernel

end Center
