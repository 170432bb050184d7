import TruckLock.CenterLog
import TruckLock.CenterWatch
import TruckLock.History

/-!
# No verdict without an answer of the camera

Presses may fall anywhere, so the answer need not belong to the same window;
but a test that ends in a request has found the answer line low since the last
reset.
-/
namespace Center

open Firmware Spec History

/-- The camera has answered since the last reset. -/
def Sighted : List Event → Prop := Since (· ≠ .boot) (· = .camera false)

theorem sighted_filter (l : List Event) : Sighted (l.filter Event.onTest) ↔ Sighted l := by
  refine since_filter (fun e he => ?_) (fun e he h => ?_) l
  · rintro rfl
    simp [Event.onTest] at he
  · simp [h, Event.onTest] at he

namespace Sight

def spec : Spec Env Test where
  ok _ _ _ := True
  good v w := ∀ e, w.hist = e :: v.hist → e.judges = true → Sighted v.hist
  good_refl v e h := by simp at h
  inv _ := True
  top _ := True
  fin _ := True

/-- Any press, at any time. -/
def ok (_ : Test) (_ : Option Nat) (_ : Nat) : Prop := True

structure Inv (g : Stage) (v : Test) : Prop where
  face : v.isMatchFaceID = true → Sighted v.hist
  seen : g = .seen → v.camLevel = false → Sighted v.hist

variable {g g' : Stage} {v w : Test}

theorem good_of_say {e : Event} (hw : w.hist = e :: v.hist) (h : e.judges = true → Sighted v.hist) :
    spec.good v w := by
  intro x hx hj
  obtain rfl := (List.cons.inj (hx.symm.trans hw)).1
  exact h hj

theorem Inv.steady (g : Stage) : spec.Steady (Test.Beside ok) (Inv g) where
  inv _ _ := trivial
  rel := by
    rintro v _ hv (rfl | ⟨last, stop, -, rfl⟩)
    · exact hv
    · exact ⟨fun h => .inr ⟨by simp, hv.face h⟩, fun hg h => .inr ⟨by simp, hv.seen hg h⟩⟩

/-- An event of the program. -/
theorem Inv.say (hv : Inv g v) {e : Event} (he : e ≠ .boot) (hs : g' ≠ .seen)
    (hj : e.judges = true → v.isMatchFaceID = true) : spec.Chain [Test.saying e] (Inv g') v :=
  chain_to trivial fun _ _ => ⟨good_of_say rfl fun h => hv.face (hj h),
    fun h => .inr ⟨he, hv.face h⟩, fun h => absurd h hs⟩

/-- An assignment that does not set `isMatchFaceID`. -/
theorem Inv.put (hv : Inv g v) {f : Test → Test} (hh : (f v).hist = v.hist)
    (hm : (f v).isMatchFaceID = true → v.isMatchFaceID = true) (hs : g ≠ .seen) :
    spec.Chain [.to f] (Inv g) v :=
  chain_to trivial fun _ _ => ⟨fun e h => by simp [hh] at h, fun h => hh ▸ hv.face (hm h), fun h => absurd h hs⟩

theorem watched : Watched spec ok Inv where
  steady := Inv.steady
  top _ _ _ := trivial
  initial := ⟨by simp [Test.initial], by simp⟩
  boot v _ := ⟨by simp [Test.boot, Test.initial], by simp⟩
  park v hv := hv.put rfl id (by simp)
  calm v hv := hv.put rfl id (by simp)
  started v hv := hv.say (by simp) (by simp) (by simp [Event.judges])
  call v hv := by
    refine ⟨trivial, ?_⟩
    rintro i _ ⟨clock, rfl⟩ -
    exact ⟨good_of_say rfl (by simp [Event.judges]), fun h => .inr ⟨by simp, hv.face h⟩, by simp⟩
  sample v hv := hv.say (by simp) (by simp) (by simp [Event.judges])
  analog v n hv := hv.say (by simp) (by simp) (by simp [Event.judges])
  look v hv := by
    refine ⟨trivial, ?_⟩
    rintro i _ ⟨level, rfl⟩ -
    refine ⟨good_of_say rfl (by simp [Event.judges]), fun h => .inr ⟨by simp, hv.face h⟩, fun _ hl => .inl ?_⟩
    obtain rfl : level = false := hl
    rfl
  matched v hv hl := chain_to trivial fun _ _ => ⟨fun e h => by simp at h, fun _ => hv.seen rfl hl, by simp⟩
  unmatched v hv _ := ⟨hv.face, by simp⟩
  closes v hv _ := ⟨hv.face, by simp⟩
  dark v hv := hv.put rfl id (by simp)
  drunk v x hv hm := hv.say (by simp) (by simp) fun _ => hm
  sober v x hv hm := hv.say (by simp) (by simp) fun _ => hm
  weak v x hv := hv.say (by simp) (by simp) (by simp [Event.judges])
  unknown v hv := hv.say (by simp) (by simp) (by simp [Event.judges])
  release v hv := hv.put rfl id (by simp)
  forget v hv := hv.put rfl (by simp) (by simp)
  returned v hv := by
    have hf : v.isMatchFaceID = true → Sighted v.hist := hv.elim Inv.face Inv.face
    exact chain_to trivial fun _ _ => ⟨good_of_say rfl (by simp [Event.judges]),
      fun h => .inr ⟨by simp, hf h⟩, by simp⟩

end Sight

/-- Every verdict of a log has an answer of the camera before it. -/
def Vouched (l : List Event) : Prop := Always (fun e l => e.judges = true → Sighted l) l

/-- In every run, whatever is pressed and reset when. -/
theorem vouched_after (P : Platform) (flash : Nat → UInt8) (xs : Run) : Vouched (after P flash xs).state.log := by
  have hp := Sight.watched.along P flash xs ((along_grew P flash xs).imp fun x c _ => by
    cases x with
    | outside r => exact fun _ _ _ => trivial
    | _ => trivial)
  have h0 : Vouched (powerOn flash).log := ⟨by simp [Event.judges], trivial⟩
  refine (hp.and (along_grew P flash xs)).invariant (I := fun c => Vouched c.state.log) h0 fun x c hc h => ?_
  rcases h.2 with hl | ⟨e, hl⟩
  · rw [hl]
    exact hc
  · rw [hl]
    refine ⟨fun hj => (sighted_filter _).1 ?_, hc⟩
    have hh := test_hist hl (Event.onTest_of_judges hj)
    exact h.1.2.1.judged hh hj e hh hj

theorem Vouched.camera {l : List Event} (h : Vouched l) {e : Event} (he : e ∈ l) (hj : e.judges = true) :
    .camera false ∈ l := by
  obtain ⟨later, earlier, rfl⟩ := List.append_of_mem he
  obtain ⟨newer, x, older, rfl, rfl, -⟩ := (since_iff _ _ _).1 ((always_iff _ _).1 h later e earlier rfl hj)
  simp

end Center
