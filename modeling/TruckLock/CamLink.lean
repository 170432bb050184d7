import TruckLock.CamAnswer
import TruckLock.CenterLog

/-!
# Center and the camera on their two wires

The request line runs from Center's `camTXPin` to the camera's `camRXPin` and
the answer line back. Either device takes a step at any time; the camera sees
each change of the request line at once.
-/
namespace CamLink

open Firmware History

structure Net where
  center : Config Center.State Center.Env
  cam : Shared Cam.Task Cam.State Cam.Env

inductive Move where
  | center (x : Choice Center.Env Center.Outside)
  | cam (t : Cam.Task) (i : Cam.Env)
  | camReset

/-- Center's next choice with the answer line as it is. -/
def wired (camRX : Bool) : Choice Center.Env Center.Outside → Choice Center.Env Center.Outside
  | .run i => .run { i with camRX := camRX }
  | x => x

def Net.step (P : Center.Platform) : Move → Net → Net
  | .center x, n =>
    let c := (Center.device P).step (wired n.cam.state.camTXPin x) n.center
    { center := c, cam := Cam.device.step (.outside (.line c.state.camTXPin)) n.cam }
  | .cam t i, n => { n with cam := Cam.device.step (.run (t, i)) n.cam }
  | .camReset, n => { n with cam := Cam.device.step .reset n.cam }

def Net.start (P : Center.Platform) (flash : Nat → UInt8) (card : Nat → Cam.Image) : Net where
  center := (Center.device P).start (Center.powerOn flash)
  cam := Cam.device.start (Cam.powerOn card)

/-- Center reads a low answer line in this step. -/
def Net.Answered (n n' : Net) : Prop := .camera false ∈ n.center.state.during n'.center.state

instance (n n' : Net) : Decidable (n.Answered n') := inferInstanceAs (Decidable (_ ∈ _))

section

variable {P : Center.Platform} {n : Net}

/-- The tasks of the camera keep to their contracts, and Center logs what it reads. -/
structure Sound (n : Net) : Prop where
  cam : Team.Always (fun t => (Cam.spec t).amid (Cam.Beside t) Cam.State.wire) n.cam
  center : ∀ a ∈ n.center.code, Center.Grows a

theorem sound_start (P : Center.Platform) (flash : Nat → UInt8) (card : Nat → Cam.Image) :
    Sound (.start P flash card) where
  cam := Cam.agreed.always_start (s := Cam.powerOn card) ⟨(by cases ·), fun _ => (by cases ·)⟩
  center a ha := by
    obtain rfl := List.mem_singleton.1 ha
    exact Center.grows_device P

theorem Sound.matched (h : Sound n) (hl : n.cam.state.camTXPin = false) : Cam.Matched n.cam.state.log :=
  (Cam.matched_filter _).1 ((h.cam.inv .loop).line hl)

theorem sound_step (m : Move) (h : Sound n) (hc : Cam.Clean n.cam.state (n.step P m).cam.state) :
    Sound (n.step P m) := by
  cases m with
  | center x =>
    exact ⟨Cam.agreed.always_step (.outside (.line _)) _ h.cam fun t => Cam.beside_react _ hc t,
      (Center.logs_step P _ _ h.center).2⟩
  | cam t i => exact ⟨Cam.agreed.always_step (.run (t, i)) _ h.cam fun _ _ _ => trivial, h.center⟩
  | camReset => exact ⟨Cam.agreed.always_step .reset _ h.cam trivial, h.center⟩

/-- What Center reads is the answer line. -/
theorem line_of_answered (m : Move) (h : Sound n) (ha : n.Answered (n.step P m)) :
    n.cam.state.camTXPin = false := by
  cases m with
  | center x =>
    have hl := (Center.logs_step P (wired n.cam.state.camTXPin x) n.center h.center).1
    have he := Center.log_of_during hl.grew ha
    rcases hl with hl | ⟨e, hl, hr⟩
    · rw [hl] at he
      exact absurd (congrArg List.length he) (by simp)
    · obtain rfl := (List.cons.inj (he.symm.trans hl)).1
      obtain ⟨i, hi, hr⟩ := hr
      cases x with
      | run j =>
        obtain rfl := Choice.run.inj hi
        exact hr
      | _ => cases hi
  | cam t i => simp [Net.Answered, Net.step, Center.State.during] at ha
  | camReset => simp [Net.Answered, Net.step, Center.State.during] at ha

end

/-- As long as each fall of the request line finds the answer line high and no task with an answer on
its way, a low answer line means that a face was recognised since that fall. -/
theorem answer_fresh (P : Center.Platform) (flash : Nat → UInt8) (card : Nat → Cam.Image)
    (ms : List Move)
    (hx : Along (Net.step P) (fun _ n n' => Cam.Clean n.cam.state n'.cam.state) ms (.start P flash card)) :
    Along (Net.step P) (fun _ n n' => n.Answered n' → Cam.Matched n.cam.state.log) ms
      (.start P flash card) := by
  have hk := hx.keeps (sound_start P flash card) fun m n h hc => sound_step m h hc
  exact hk.imp fun m n h ha => h.1.matched (line_of_answered m h.1 ha)

def camLoop (i : Cam.Env) (k : Nat) : List Move := List.replicate k (.cam .loop i)

def centerMoves (xs : Center.Run) : List Move := xs.map .center

/-- A frame with a registered face. -/
def registered : Cam.Env := { netBoxes := true, recognizeFace := 0 }

def emptyCard : Nat → Cam.Image := fun _ => { present := false }

/-- A press, a face in front of the camera, and a sample. -/
def faceShown : List Move :=
  camLoop {} 52 ++ centerMoves (Center.idle 164 ++ Center.press) ++ camLoop registered 38 ++
    centerMoves (Center.rounds { adc := 5 } 90)

set_option maxRecDepth 10000 in
theorem answer_fresh_shown :
    (steps (Net.step Center.bench) faceShown
      (.start Center.bench (Center.flashOf 5) emptyCard)).center.state.isMatchFaceID = true ∧
    Along (Net.step Center.bench) (fun _ n n' => n.Answered n' → Cam.Matched n.cam.state.log) faceShown
      (.start Center.bench (Center.flashOf 5) emptyCard) :=
  ⟨by decide +kernel, answer_fresh Center.bench (Center.flashOf 5) emptyCard faceShown (by decide +kernel)⟩

/-- The camera recognises a face as the test ends, and the next press comes before its loop has looked
at the request line again. -/
def pressedAgain : List Move :=
  camLoop {} 52 ++ centerMoves (Center.idle 164 ++ Center.press ++ Center.rounds { adc := 5 } 109 ++
    Center.pause 7000) ++ camLoop registered 38 ++
    centerMoves (Center.rounds {} 110 ++ Center.press ++ Center.rounds { adc := 5 } 90)

set_option maxRecDepth 10000 in
/-- An answer of the test before is read as one of this test. -/
theorem answer_can_be_stale : ¬ ∀ (P : Center.Platform) (flash : Nat → UInt8) (card : Nat → Cam.Image)
    (ms : List Move), Along (Net.step P) (fun _ n n' => n.Answered n' → Cam.Matched n.cam.state.log) ms
      (.start P flash card) := by
  intro h
  have h := h Center.bench (Center.flashOf 5) emptyCard pressedAgain
  revert h
  decide +kernel

end CamLink
