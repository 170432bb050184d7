import TruckLock.CamFound
import TruckLock.CamLink
import TruckLock.CenterSeen
import TruckLock.RelayOpen

/-!
# The truck

Center with the camera on its two wires and the relay on its connection. The
relay is open only if the app has asked for it, or a breath test has been
passed by a driver whose face the camera had recognised.
-/
namespace Truck

open Firmware Center

structure Net extends RelayLink.Net where
  cam : Shared Cam.Task Cam.State Cam.Env

/-- A move of Center, the relay or their connection, or one of the camera. -/
inductive Move where
  | link (m : RelayLink.Move)
  | cam (t : Cam.Task) (i : Cam.Env)
  | camReset

/-- Center finds the answer line as it is. -/
def wired (camRX : Bool) : RelayLink.Move → RelayLink.Move
  | .center x join => .center (CamLink.wired camRX x) join
  | m => m

def Net.step (P : Platform) : Move → Net → Net
  | .link m, n =>
    let l := n.toNet.step P (wired n.cam.state.camTXPin m)
    { l with cam := Cam.device.step (.outside (.line l.center.state.camTXPin)) n.cam }
  | .cam t i, n => { n with cam := Cam.device.step (.run (t, i)) n.cam }
  | .camReset, n => { n with cam := Cam.device.step .reset n.cam }

def Net.start (P : Platform) (flash : Nat → UInt8) (card : Nat → Cam.Image) : Net :=
  { RelayLink.Net.start P flash with cam := Cam.device.start (Cam.powerOn card) }

def Net.after (P : Platform) (flash : Nat → UInt8) (card : Nat → Cam.Image) (ms : List Move) : Net :=
  steps (Net.step P) ms (.start P flash card)

section

variable {P : Platform} {n : Net}

/-- The camera keeps to its contracts, and a low answer line that Center has read stands for a face. -/
structure Sound (n : Net) : Prop where
  cam : Team.Always (fun t => (Cam.Backed.spec t).amid (Cam.Backed.Beside t) Cam.State.wire) n.cam
  center : ∀ a ∈ n.center.code, Grows a
  seen : .camera false ∈ n.center.state.log → Cam.Found n.cam.state.log

/-- The camera forgets nothing. -/
theorem found_step {c : Shared Cam.Task Cam.State Cam.Env}
    (h : Team.Always (fun t => (Cam.Backed.spec t).amid (Cam.Backed.Beside t) Cam.State.wire) c)
    (x : Choice (Cam.Task × Cam.Env) Cam.Outside) (hf : Cam.Found c.state.log) :
    Cam.Found (Cam.device.step x c).state.log := by
  have hw : ∀ s : Cam.State, Cam.Found s.wire.hist ↔ Cam.Found s.log := fun s => Cam.found_filter s.log
  have hreset : Cam.Found (Cam.device.start (Cam.device.restart c.state)).state.log := hf.cons .boot
  cases x with
  | run p =>
    obtain ⟨t, i⟩ := p
    rcases h.guar (m := Cam.device) (t := t) (i := i) fun _ _ _ => trivial with hs | hg
    · rw [hs]
      exact hreset
    · exact (hw _).1 (hg.found ((hw _).2 hf))
  | outside r => exact (hw _).1 ((Cam.Backed.beside_react .loop r c.state).found ((hw _).2 hf))
  | reset => exact hreset

theorem sound_start (P : Platform) (flash : Nat → UInt8) (card : Nat → Cam.Image) :
    Sound (.start P flash card) where
  cam := Cam.Backed.agreed.always_start (s := Cam.powerOn card) (by (intro h; cases h))
  center a ha := by
    obtain rfl := List.mem_singleton.1 ha
    exact grows_device P
  seen h := by
    have h : Event.camera false ∈ [Event.boot] := h
    simp at h

/-- The camera moves. -/
theorem sound_cam (h : Sound n) (x : Choice (Cam.Task × Cam.Env) Cam.Outside) :
    Sound { n with cam := Cam.device.step x n.cam } where
  cam := by
    refine Cam.Backed.agreed.always_step x _ h.cam ?_
    cases x with
    | run p => exact fun _ _ _ => trivial
    | outside r => exact fun t => Cam.Backed.beside_react t r n.cam.state
    | reset => trivial
  center := h.center
  seen hs := found_step h.cam x (h.seen hs)

/-- A low answer line stands for a face. -/
theorem Sound.found (h : Sound n) (hl : n.cam.state.camTXPin = false) : Cam.Found n.cam.state.log :=
  (Cam.found_filter _).1 (h.cam.inv .loop hl)

/-- What Center logs when it reads a low line. -/
theorem Sound.read (h : Sound n) {x : Choice Env Outside} {s : State}
    (hl : Logs (CamLink.wired n.cam.state.camTXPin x) n.center.state s) (hs : .camera false ∈ s.log) :
    Cam.Found n.cam.state.log := by
  rcases hl with hl | ⟨e, hl, hr⟩
  · exact h.seen (hl ▸ hs)
  · rw [hl] at hs
    rcases List.mem_cons.1 hs with rfl | hs
    · obtain ⟨i, hi, hr⟩ := hr
      cases x with
      | run j =>
        obtain rfl := Choice.run.inj hi
        exact h.found hr
      | _ => cases hi
    · exact h.seen hs

/-- A move of Center or of its connection. -/
theorem sound_link (h : Sound n) (m : RelayLink.Move) :
    Sound { n with toNet := n.toNet.step P (wired n.cam.state.camTXPin m) } := by
  have hcenter := RelayLink.step_center P (wired n.cam.state.camTXPin m) n.toNet
  cases m with
  | center x join =>
    have hs : (n.toNet.step P (wired n.cam.state.camTXPin (.center x join))).center =
        (device P).step (CamLink.wired n.cam.state.camTXPin x) n.center := hcenter
    obtain ⟨hl, hg⟩ := logs_step P (CamLink.wired n.cam.state.camTXPin x) n.center h.center
    refine ⟨h.cam, by rwa [hs], fun hc => ?_⟩
    rw [hs] at hc
    exact h.read hl hc
  | _ =>
    refine ⟨h.cam, ?_, ?_⟩
    · rw [hcenter]
      exact h.center
    · rw [hcenter]
      exact h.seen

theorem sound_step (m : Move) (h : Sound n) : Sound (n.step P m) := by
  cases m with
  | link m => exact sound_cam (sound_link h m) _
  | cam t i => exact sound_cam h _
  | camReset => exact sound_cam h _

/-- Center logs one event at most. -/
theorem grew_step (m : Move) (h : Sound n) : Grew n.center.state (n.step P m).center.state := by
  cases m with
  | link m =>
    have hcenter := RelayLink.step_center P (wired n.cam.state.camTXPin m) n.toNet
    show Grew n.center.state (n.toNet.step P (wired n.cam.state.camTXPin m)).center.state
    rw [hcenter]
    cases m with
    | center x join => exact (logs_step P (CamLink.wired n.cam.state.camTXPin x) n.center h.center).1.grew
    | _ => exact .inl rfl
  | _ => exact .inl rfl

/-- The part of a run that concerns Center and the relay. -/
def links (P : Platform) : List Move → Net → List RelayLink.Move
  | [], _ => []
  | m :: ms, n =>
    match m with
    | .link m' => wired n.cam.state.camTXPin m' :: links P ms (n.step P m)
    | _ => links P ms (n.step P m)

/-- The camera is no more than an input to Center. -/
theorem toNet_run (ms : List Move) (n : Net) :
    (steps (Net.step P) ms n).toNet = (links P ms n).foldl (fun n m => n.step P m) n.toNet := by
  induction ms generalizing n with
  | nil => rfl
  | cons m ms ih =>
    rw [steps_cons, ih]
    cases m <;> rfl

end

theorem toNet_after (P : Platform) (flash : Nat → UInt8) (card : Nat → Cam.Image) (ms : List Move) :
    (Net.after P flash card ms).toNet = RelayLink.Net.after P flash (links P ms (.start P flash card)) :=
  toNet_run ms _

/-- The app has asked to unlock a truck that is locked. -/
def Asked (log : List Event) : Prop := .appUnblock true ∈ log

/-- A recognised driver has passed a test. -/
def Passed (log : List Event) : Prop := ∃ w, .notAlcohol w ∈ log ∧ w.isMatchFaceID = true ∧ w.Sober

theorem after_concat (P : Platform) (flash : Nat → UInt8) (card : Nat → Cam.Image) (ms : List Move) (m : Move) :
    Net.after P flash card (ms ++ [m]) = (Net.after P flash card ms).step P m :=
  steps_append ms [m] _

theorem sound_after (P : Platform) (flash : Nat → UInt8) (card : Nat → Cam.Image) (ms : List Move) :
    Sound (Net.after P flash card ms) := by
  induction ms using List.reverseRecOn with
  | nil => exact sound_start P flash card
  | append_singleton ms m ih =>
    rw [after_concat]
    exact sound_step m ih

/-- What stands in the log has been logged at a move. -/
theorem logged {P : Platform} {flash : Nat → UInt8} {card : Nat → Cam.Image} {e : Event} (he : e ≠ .boot) (ms : List Move)
    (h : e ∈ (Net.after P flash card ms).center.state.log) :
    ∃ before m later, ms = before ++ m :: later ∧ (Net.after P flash card (before ++ [m])).center.state.log =
      e :: (Net.after P flash card before).center.state.log := by
  induction ms using List.reverseRecOn with
  | nil => exact absurd (List.mem_singleton.1 h) he
  | append_singleton ms m ih =>
    have hold : e ∈ (Net.after P flash card ms).center.state.log → ∃ before m' later, ms ++ [m] = before ++ m' :: later ∧
        (Net.after P flash card (before ++ [m'])).center.state.log =
          e :: (Net.after P flash card before).center.state.log := by
      intro h
      obtain ⟨before, m', later, rfl, hl⟩ := ih h
      exact ⟨before, m', later ++ [m], by simp, hl⟩
    rcases grew_step (P := P) m (sound_after P flash card ms) with hg | ⟨e', hg⟩
    · rw [after_concat, hg] at h
      exact hold h
    · rw [← after_concat] at hg
      rw [hg] at h
      rcases List.mem_cons.1 h with rfl | h
      · exact ⟨ms, m, [], rfl, hg⟩
      · exact hold h

theorem mem_of_raised {r : Request} {l : List Event} (h : Raised r l) : ∃ e ∈ l, Raises r e := by
  obtain ⟨later, e, earlier, rfl, he, -⟩ := (History.since_iff _ _ l).1 h
  exact ⟨e, by simp, he⟩

theorem asked_or_passed {r : Request} {l : List Event} (hr : r = .notAlcohol ∨ r = .unblockNow) (h : Raised r l) :
    Asked l ∨ Passed l := by
  obtain ⟨e, he, hre⟩ := mem_of_raised h
  rcases hr with rfl | rfl
  · obtain ⟨w, rfl, hw⟩ := hre
    exact .inr ⟨w, he, hw⟩
  · obtain rfl : e = .appUnblock true := hre
    exact .inl he

theorem Grounds.asked_or_passed {c : Command} {r : Option Request} {l : List Event} (h : Grounds c r l) :
    Asked l ∨ Passed l := by
  rcases h.grounds with ⟨-, hr⟩ | ⟨-, hr⟩ | ⟨-, q, later, earlier, hq, rfl, hr⟩
  · exact Truck.asked_or_passed (.inl rfl) hr
  · exact Truck.asked_or_passed (.inr rfl) hr
  · refine (Truck.asked_or_passed hq hr).imp (fun h => ?_) fun ⟨w, hw, h⟩ => ⟨w, ?_, h⟩
    · exact List.mem_append_right _ (List.mem_cons_of_mem _ h)
    · exact List.mem_append_right _ (List.mem_cons_of_mem _ hw)

/-- Center passes a driver at the move `m` behind `before`, and the camera has recognised a registered face before. -/
structure PassedSeen (P : Platform) (flash : Nat → UInt8) (card : Nat → Cam.Image) (before : List Move) (m : Move)
    (w : Verdict) : Prop where
  verdict : (Net.after P flash card (before ++ [m])).center.state.log =
    .notAlcohol w :: (Net.after P flash card before).center.state.log
  passed : w.isMatchFaceID = true ∧ w.Sober
  found : Cam.Found (Net.after P flash card before).cam.state.log

/-- A verdict stands for an answer of the camera that Center has read before. -/
theorem passedSeen_of_passed {P : Platform} {flash : Nat → UInt8} {card : Nat → Cam.Image} {ms : List Move}
    (h : Passed (Net.after P flash card ms).center.state.log) :
    ∃ before m later w, ms = before ++ m :: later ∧ PassedSeen P flash card before m w := by
  obtain ⟨w, hw, hp⟩ := h
  obtain ⟨before, m, later, hms, hl⟩ := logged (by simp) ms hw
  refine ⟨before, m, later, w, hms, hl, hp, (sound_after P flash card before).seen ?_⟩
  have hv : Vouched (Net.after P flash card (before ++ [m])).center.state.log := by
    rw [toNet_after, RelayLink.after_center]
    exact vouched_after P flash _
  have hseen := hv.camera (e := .notAlcohol w) (by simp [hl]) rfl
  rw [hl] at hseen
  exact (List.mem_cons.1 hseen).resolve_left (by simp)

/-- Whatever is lost, pressed, reset or run in between: the relay is open only if the app has asked to unlock,
or a test has been passed and the camera had recognised a registered face before. -/
theorem opens (P : Platform) (flash : Nat → UInt8) (card : Nat → Cam.Image) (ms : List Move)
    (h : (Net.after P flash card ms).relay.relayPin = true) :
    Asked (Net.after P flash card ms).center.state.log ∨
      ∃ before m later w, ms = before ++ m :: later ∧ PassedSeen P flash card before m w := by
  have hn := toNet_after P flash card ms
  rw [hn] at h
  obtain ⟨before, x, join, mid, later, c, r, rest, hms, hc, hlast⟩ := RelayLink.lastFrame_after _ h
  have hl : (RelayLink.Net.after P flash before).center.state.log <:+
      (RelayLink.Net.after P flash (before ++ (.center x join :: mid ++ .deliver :: later))).center.state.log :=
    RelayLink.log_suffix before _
  rw [← List.append_assoc, ← hms, ← hn] at hl
  refine (Grounds.asked_or_passed (RelayLink.grounds_of_sent hlast.broadcast hc)).imp (fun ha => hl.subset ha)
    fun hp => ?_
  exact passedSeen_of_passed (hp.imp fun w hw => ⟨hl.subset hw.1, hw.2⟩)

/-- The driver presses the button, shows a face, blows, and passes. -/
def passedTest : List Move :=
  List.replicate 52 (.cam .loop {}) ++ List.map .link (RelayLink.centerMoves false (idle 170) ++
    RelayLink.centerMoves true ([.run { frame := some "/" }] ++ idle 30) ++ [.deliver] ++
    RelayLink.centerMoves false press) ++ List.replicate 38 (.cam .loop CamLink.registered) ++
  List.map .link (RelayLink.centerMoves false (idle 150 ++ pause 7000 ++ idle 150 ++ pause 1000 ++ idle 30) ++
    [.deliver])

set_option maxRecDepth 10000 in
theorem opens_passed :
    (Net.after bench (flashOf 5) CamLink.emptyCard passedTest).relay.relayPin = true ∧
    (Asked (Net.after bench (flashOf 5) CamLink.emptyCard passedTest).center.state.log ∨
      ∃ before m later w, passedTest = before ++ m :: later ∧
        PassedSeen bench (flashOf 5) CamLink.emptyCard before m w) :=
  have h : (Net.after bench (flashOf 5) CamLink.emptyCard passedTest).relay.relayPin = true := by
    decide +kernel
  ⟨h, opens bench (flashOf 5) CamLink.emptyCard passedTest h⟩

end Truck
