import TruckLock.Cam
import TruckLock.History
import TruckLock.Views

/-!
# The camera's answer to a request

A low answer line stands for a face that was recognised after the request line
had fallen, as long as no fall of it finds the line low or a task on the way
from a match to its answer. Each task relies on the others for what it has
recognised itself.
-/
namespace Cam

open Firmware Spec History

namespace Event

def onWire : Event → Bool
  | .boot | .fell | .recognised _ _ | .asked _ _ | .answered _ => true
  | _ => false

/-- A registered face. -/
def finds : Event → Bool
  | .recognised _ matchedId => 0 ≤ matchedId
  | _ => false

end Event

/-- A registered face has been recognised since the request line last fell. -/
def Matched : List Event → Prop := Since (· ≠ .fell) (fun e => e.finds = true)

/-- The task has recognised a face and is not done with its answer. -/
def pending (t : Task) : List Event → Bool
  | [] => false
  | .boot :: _ => false
  | .recognised u matchedId :: l => if u = t then 0 ≤ matchedId else pending t l
  | .asked u level :: l => if u = t then !level else pending t l
  | .answered u :: l => if u = t then false else pending t l
  | _ :: l => pending t l

instance : DecidablePred Matched := fun l => inferInstanceAs (Decidable (Since _ _ l))

theorem matched_filter (l : List Event) : Matched (l.filter Event.onWire) ↔ Matched l := by
  refine since_filter (fun e he => ?_) (fun e he h => ?_) l
  · rintro rfl
    simp [Event.onWire] at he
  · cases e <;> simp [Event.onWire, Event.finds] at he h

theorem pending_filter (t : Task) (l : List Event) :
    pending t (l.filter Event.onWire) = pending t l := by
  refine summary_filter (fun e l l' h => ?_) (fun e l he => ?_) l
  · cases e <;> simp [pending, h]
  · cases e <;> first | rfl | simp [Event.onWire] at he

/-- What the tasks know of the two lines. -/
@[ext] structure Wire where
  camTXPin : Bool
  matchedId : Task → Int
  level : Task → Bool
  hist : List Event

def State.wire (s : State) : Wire where
  camTXPin := s.camTXPin
  matchedId := s.matchedId
  level := s.level
  hist := s.log.filter Event.onWire

/-- Behind a low answer line, and behind every answer on its way, there is a match. -/
structure Fresh (v : Wire) : Prop where
  line : v.camTXPin = false → Matched v.hist
  task : ∀ t, pending t v.hist = true → Matched v.hist

/-- Nothing has changed for the task. -/
structure Kept (t : Task) (v w : Wire) : Prop where
  pending : pending t w.hist = pending t v.hist
  matchedId : w.matchedId t = v.matchedId t
  level : w.level t = v.level t

/-- What a task does is nothing to the others. -/
def spec (t : Task) : Spec Env Wire where
  ok _ _ _ := True
  good v w := (Fresh v → Fresh w) ∧ ∀ u, u ≠ t → Kept u v w
  good_refl _ := ⟨id, fun _ _ => ⟨rfl, rfl, rfl⟩⟩
  inv := Fresh
  top _ := True
  fin _ := True

def Beside (t : Task) (v w : Wire) : Prop := (Fresh v → Fresh w) ∧ Kept t v w

abbrev Keeps (t : Task) (c : Sketch) : Prop := (spec t).Amid (Beside t) State.wire Fresh c Fresh

abbrev Quiet (c : Sketch) : Prop := Made (fun s s' : State => s'.wire = s.wire) (fun _ => False) c

section

variable {t : Task} {v w : Wire}

theorem steady_fresh : (spec t).Steady (Beside t) Fresh where
  inv _ h := h
  rel _ _ h hr := hr.1 h

/-- An assertion about what the task itself has recognised. -/
theorem steady_own {p : Wire → Prop} (hp : ∀ v w, Kept t v w → p v → p w) :
    (spec t).Steady (Beside t) fun v => Fresh v ∧ p v where
  inv _ h := h.1
  rel v w h hr := ⟨hr.1 h.1, hp v w hr.2 h.2⟩

/-- The task's own variables may change. -/
theorem good_own {f : Task → Int} {g : Task → Bool} (hf : ∀ u, u ≠ t → f u = v.matchedId u)
    (hg : ∀ u, u ≠ t → g u = v.level u) :
    (spec t).good v { v with matchedId := f, level := g } :=
  ⟨fun h => ⟨h.line, h.task⟩, fun u hu => ⟨rfl, hf u hu, hg u hu⟩⟩

theorem Fresh.recognised (h : Fresh v) (t : Task) (matchedId : Int) :
    Fresh { v with
      matchedId := put v.matchedId t matchedId, hist := .recognised t matchedId :: v.hist } where
  line hl := .inr ⟨by simp, h.line hl⟩
  task u hu := by
    simp only [Cam.pending] at hu
    split at hu
    · exact .inl hu
    · exact .inr ⟨by simp, h.task u hu⟩

theorem Fresh.asked (h : Fresh v) (ht : Cam.pending t v.hist = true) (level : Bool) :
    Fresh { v with level := put v.level t level, hist := .asked t level :: v.hist } where
  line hl := .inr ⟨by simp, h.line hl⟩
  task _ _ := .inr ⟨by simp, h.task t ht⟩

theorem Fresh.answered (h : Fresh v) (ht : Cam.pending t v.hist = true) :
    Fresh { v with camTXPin := false, hist := .answered t :: v.hist } where
  line _ := .inr ⟨by simp, h.task t ht⟩
  task _ _ := .inr ⟨by simp, h.task t ht⟩

end

section

variable (t : Task)

theorem keeps_quiet {c : Sketch} (hc : Quiet c) : Keeps t c :=
  Amid.idle steady_fresh (fun _ h => h.elim) hc

theorem keeps_skip : Keeps t .skip := Amid.done steady_fresh

theorem quiet_alloc (b : Buffer) : Quiet (alloc t b) := fun _ _ => rfl

theorem quiet_allocImage : Quiet (allocImage t) := ⟨fun _ _ => rfl, quiet_alloc t _⟩

theorem quiet_free (b : Buffer) : Quiet (free t b) := fun _ _ => rfl

theorem quiet_fbRead : Quiet (fbRead t) := fun _ _ => rfl

theorem quiet_toJpg : Quiet (toJpg t) := ⟨quiet_fbRead t, fun _ _ => rfl⟩

theorem quiet_rgbPrint : Quiet (rgbPrint t) := fun _ _ => rfl

theorem quiet_rgbPrintf (str : State → Text) : Quiet (rgbPrintf t str) := by
  have hp : Quiet (rgbPrintf.printed t) := ⟨quiet_rgbPrint t, quiet_free t _, trivial⟩
  exact ⟨fun _ _ => rfl, ⟨⟨quiet_alloc t _, hp, trivial⟩, hp⟩, trivial⟩

theorem quiet_enroll : Quiet (enroll t) :=
  ⟨fun _ _ => rfl, fun _ => quiet_rgbPrintf t _, ⟨fun _ _ => rfl, trivial⟩, trivial⟩

/-- A variable of the task's own changes. -/
theorem keeps_matchedId (n : Int) :
    Keeps t (.set fun s => { s with matchedId := put s.matchedId t n }) := by
  refine Amid.step steady_fresh fun _ s hs _ => ?_
  have hg := good_own (t := t) (v := s.wire) (f := put s.matchedId t n) (g := s.level)
    (fun u hu => Function.update_of_ne hu _ _) fun _ _ => rfl
  exact ⟨hg, hg.1 hs⟩

/-- A task that has recognised a face answers for itself. -/
theorem amid_answer : (spec t).Amid (Beside t) State.wire
    (fun v => Fresh v ∧ pending t v.hist = true) (answer t) Fresh := by
  have hheld : (spec t).Steady (Beside t) fun v => Fresh v ∧ pending t v.hist = true :=
    steady_own fun v w hk hv => hk.pending.trans hv
  have hasked : (spec t).Steady (Beside t) fun v =>
      Fresh v ∧ (v.level t = false → pending t v.hist = true) :=
    steady_own fun v w hk hv hl => hk.pending.trans (hv (hk.level.symm.trans hl))
  refine .seq (R := fun s => Fresh s.wire ∧ (s.wire.level t = false → pending t s.wire.hist = true)) ?_
    (Amid.when (T := fun v => Fresh v ∧ pending t v.hist = true) hasked (fun i s hs hc => ⟨hs.1, hs.2 ?_⟩)
    (fun _ _ hs _ => hs.1) steady_fresh ?_)
  · refine Amid.step (B := fun v => Fresh v ∧ (v.level t = false → pending t v.hist = true)) hheld
      fun i s hs _ => ⟨⟨fun _ => hs.1.asked hs.2 s.camRXPin, fun u hu => ⟨?_, rfl, ?_⟩⟩,
        hs.1.asked hs.2 s.camRXPin, fun hl => ?_⟩
    · exact if_neg (Ne.symm hu)
    · exact Function.update_of_ne hu _ _
    · have hl : put s.level t s.camRXPin t = false := hl
      have hl : s.camRXPin = false := by simpa [put] using hl
      show pending t (.asked t s.camRXPin :: s.wire.hist) = true
      simp [pending, hl]
  · simpa [State.wire] using hc
  · exact Amid.step hheld fun i s hs _ => ⟨⟨fun _ => hs.1.answered hs.2, fun u hu =>
      ⟨if_neg (Ne.symm hu), rfl, rfl⟩⟩, hs.1.answered hs.2⟩

theorem keeps_recognise : Keeps t (recognise t) := by
  have hknown : (spec t).Steady (Beside t) fun v =>
      Fresh v ∧ (0 ≤ v.matchedId t → pending t v.hist = true) :=
    steady_own fun v w hk hv hl => hk.pending.trans (hv (hk.matchedId ▸ hl))
  refine .seq (R := fun s => Fresh s.wire ∧ (0 ≤ s.wire.matchedId t → pending t s.wire.hist = true)) ?_
    (Amid.ite (T := fun v => Fresh v ∧ pending t v.hist = true) (F := Fresh) hknown
    (fun i s hs hc => ⟨hs.1, hs.2 (of_decide_eq_true hc)⟩) (fun _ _ hs _ => hs.1) ?_ ?_)
  rotate_left
  · exact .seq (amid_answer t) (keeps_quiet t ⟨quiet_rgbPrintf t _, trivial⟩)
  · exact .seq (keeps_quiet t fun _ _ => rfl) (.seq (keeps_quiet t (quiet_rgbPrint t))
      (.seq (keeps_matchedId t _) (Amid.done steady_fresh)))
  refine Amid.step (B := fun v => Fresh v ∧ (0 ≤ v.matchedId t → pending t v.hist = true)) steady_fresh
    fun i s hs _ => ⟨⟨fun _ => hs.recognised t i.recognizeFace, fun u hu => ⟨?_, ?_, rfl⟩⟩,
      hs.recognised t i.recognizeFace, fun hl => ?_⟩
  · exact if_neg (Ne.symm hu)
  · exact Function.update_of_ne hu _ _
  · have hl : 0 ≤ put s.matchedId t i.recognizeFace t := hl
    show pending t (.recognised t i.recognizeFace :: s.wire.hist) = true
    simpa [pending, put] using hl

theorem keeps_runFaceRecognition : Keeps t (runFaceRecognition t) := by
  have hdone := keeps_skip t
  refine .seq (keeps_matchedId t 0) (.seq (keeps_quiet t (quiet_alloc t _)) (.seq (Amid.choose
    (.seq (Amid.choose (Amid.choose (keeps_quiet t (quiet_enroll t)) (keeps_recognise t)) ?_)
    (.seq (keeps_quiet t (quiet_free t _)) hdone)) hdone) hdone))
  exact .seq (keeps_quiet t fun _ _ => rfl) (keeps_quiet t (quiet_rgbPrint t))

theorem keeps_faceRecognition : Keeps t (faceRecognition t) := by
  have hdone := keeps_skip t
  refine .seq (keeps_quiet t fun _ _ => rfl) (.seq (Amid.choose (.reset steady_fresh.stable) hdone)
    (.seq (keeps_quiet t (quiet_allocImage t)) (.seq (Amid.choose (keeps_quiet t fun _ _ => rfl)
    (.seq (keeps_quiet t fun _ _ => rfl) (.seq (keeps_quiet t fun _ _ => rfl) (.seq ?_
    (.seq (keeps_quiet t (quiet_free t _)) hdone))))) hdone)))
  exact Amid.choose (Amid.choose (keeps_runFaceRecognition t) hdone) hdone

theorem keeps_captureHandler : Keeps t (captureHandler t) := by
  have hdone := keeps_skip t
  refine .seq (keeps_quiet t fun _ _ => rfl) (Amid.choose hdone (.seq (keeps_quiet t (quiet_fbRead t))
    (Amid.choose (keeps_quiet t ⟨quiet_fbRead t, fun _ _ => rfl⟩) (.seq (keeps_quiet t (quiet_allocImage t))
    (Amid.choose (keeps_quiet t fun _ _ => rfl) (.seq (keeps_quiet t fun _ _ => rfl) (.seq
    (keeps_quiet t fun _ _ => rfl) (.seq ?_ (.seq (keeps_quiet t (quiet_free t _)) hdone)))))))))
  exact Amid.choose (Amid.choose (Amid.choose (keeps_runFaceRecognition t) hdone) hdone) hdone

theorem quiet_giveBack : Quiet (giveBack t) := ⟨fun _ _ => rfl, fun _ _ => rfl⟩

theorem keeps_streamImage (netBoxes : Int) : Keeps t (streamImage t netBoxes) := by
  have hdone := keeps_skip t
  refine .seq (keeps_quiet t (quiet_fbRead t)) (Amid.choose (.seq (Amid.choose
    (Amid.choose (keeps_runFaceRecognition t) hdone) hdone) (keeps_quiet t ?_))
    (keeps_quiet t fun _ _ => rfl))
  exact ⟨quiet_toJpg t, ⟨fun _ _ => rfl, trivial⟩, quiet_giveBack t, trivial⟩

theorem keeps_streamFrame : Keeps t (streamFrame t) := by
  have hquiet : Quiet (.seq (fbRead t) <| .ite (fun _ s => s.raw t)
      (.block [toJpg t, giveBack t, .when (fun _ s => !s.ok t) fail]) (borrow t)) :=
    ⟨quiet_fbRead t, ⟨quiet_toJpg t, quiet_giveBack t, ⟨fun _ _ => rfl, trivial⟩, trivial⟩, fun _ _ => rfl⟩
  refine .seq (keeps_quiet t (quiet_fbRead t)) (Amid.choose (keeps_quiet t hquiet)
    (.seq (keeps_quiet t (quiet_allocImage t)) (Amid.choose (keeps_quiet t fun _ _ => rfl)
    (.seq (.seq (keeps_quiet t fun _ _ => rfl) (Amid.choose (keeps_quiet t fun _ _ => rfl) (Amid.choose
    (Amid.get steady_fresh (keeps_streamImage t)) (keeps_streamImage t 0))))
    (keeps_quiet t (quiet_free t _))))))

theorem keeps_streamHandler : Keeps t (streamHandler t) := by
  have hdone := keeps_skip t
  have hsend : Quiet sendChunk := ⟨fun _ _ => rfl, trivial⟩
  have hjpg : Quiet (sendJpg t) := ⟨⟨⟨quiet_fbRead t, trivial⟩, fun _ _ => rfl⟩, trivial⟩
  have hend : Quiet (.block [
      sendChunk, sendJpg t, sendChunk,
      .ite (fun _ s => (s.fb t).isSome)
        (.seq (giveBack t) (.set fun s => { s with jpgBuf := .null }))
        (.when (fun _ s => s.jpgBuf ≠ .null) <|
          .seq (free t .jpg) (.set fun s => { s with jpgBuf := .null })),
      .when (fun _ s => !s.res) (.set fun s => { s with streamState := false })]) :=
    ⟨hsend, hjpg, hsend, ⟨⟨quiet_giveBack t, fun _ _ => rfl⟩, ⟨fun _ _ => rfl, fun _ _ => rfl⟩, trivial⟩,
      ⟨fun _ _ => rfl, trivial⟩, trivial⟩
  refine .seq (keeps_quiet t fun _ _ => rfl) (.seq (keeps_quiet t fun _ _ => rfl) (.seq
    (Amid.whilst ?_) (.seq (keeps_quiet t fun _ _ => rfl) hdone)))
  exact .seq (keeps_quiet t fun _ _ => rfl) (.seq (Amid.choose (keeps_quiet t fun _ _ => rfl)
    (keeps_streamFrame t)) (keeps_quiet t hend))

theorem quiet_statusHandler : Quiet statusHandler := by
  have hset : ∀ f : State → State, (∀ s, (f s).wire = s.wire) → Quiet (.set f) := fun _ hf _ s => hf s
  have hprint : ∀ name number rest, Quiet (sprintf name number rest) := fun _ _ _ _ _ => rfl
  refine ⟨hset _ fun _ => rfl, ?_⟩
  exact ⟨hprint _ _ _, hprint _ _ _, hprint _ _ _, hprint _ _ _, hprint _ _ _, hprint _ _ _, hprint _ _ _,
    hprint _ _ _, hset _ fun _ => rfl, trivial⟩

theorem quiet_cmdHandler (c : Control) : Quiet (cmdHandler c) := by
  cases c with
  | faceDetect val => exact ⟨fun _ _ => rfl, fun _ _ => rfl, trivial⟩
  | faceEnroll val => exact fun _ _ => rfl
  | faceRecognize val => exact ⟨fun _ _ => rfl, fun _ _ => rfl, trivial⟩
  | flash val => exact fun _ _ => rfl
  | sensor => trivial
  | facename index name => exact fun _ _ => rfl
  | clearface => exact fun _ _ => rfl
  | undefined => trivial

theorem keeps_serve {handle : Option Request → Sketch} (h : ∀ r, Keeps t (handle r)) :
    Triple ((spec t).amid (Beside t) State.wire) (fun s => Fresh s.wire) (serve t handle) fun _ => False :=
  .seq (Amid.whilst (Amid.done steady_fresh))
    (.forever (fun _ _ => trivial) (Amid.poll steady_fresh fun i => h i.request))

theorem keeps_cameraHandle (r : Option Request) : Keeps .camera (cameraHandle r) := by
  have hdone := keeps_skip .camera
  cases r with
  | none => exact hdone
  | some r =>
    cases r with
    | status => exact keeps_quiet .camera quiet_statusHandler
    | capture => exact keeps_captureHandler .camera
    | control c => exact keeps_quiet .camera (quiet_cmdHandler c)
    | _ => exact hdone

theorem keeps_streamHandle (r : Option Request) : Keeps .stream (streamHandle r) := by
  have hdone := keeps_skip .stream
  cases r with
  | none => exact hdone
  | some r =>
    cases r with
    | stream => exact keeps_streamHandler .stream
    | _ => exact hdone

theorem quiet_enrollFile (file : Nat) : Quiet (enrollFile t file) :=
  ⟨⟨fun _ _ => rfl, ⟨⟨⟨fun _ _ => rfl, ⟨⟨fun _ _ => rfl, trivial⟩, quiet_free t _⟩, trivial⟩, trivial⟩,
    quiet_free t _⟩, trivial⟩, fun _ _ => rfl⟩

/-- The line is released. -/
theorem keeps_release : Keeps t (.set fun s => { s with camTXPin := true }) := by
  have h : ∀ v : Wire, Fresh v → Fresh { v with camTXPin := true } :=
    fun v hv => ⟨fun hl => absurd hl (by simp), hv.task⟩
  exact Amid.step steady_fresh fun _ s hs _ => ⟨⟨h s.wire, fun _ _ => ⟨rfl, rfl, rfl⟩⟩, h s.wire hs⟩

theorem keeps_loop : Triple ((spec .loop).amid (Beside .loop) State.wire) (fun s => Fresh s.wire)
    (.seq setup (.forever loop)) fun _ => False := by
  have hdone := keeps_skip .loop
  have hstart : ∀ u, Quiet (httpdStart u) := fun u => ⟨fun _ _ => rfl, trivial⟩
  have hfiles : ∀ l : List Nat, Quiet (.block (l.map (enrollFile .loop))) := by
    intro l
    induction l with
    | nil => trivial
    | cons j l ih => exact ⟨quiet_enrollFile .loop j, ih⟩
  refine .seq (R := fun s => Fresh s.wire) ?_ (.forever (fun _ _ => trivial) ?_)
  · exact .seq (Amid.choose (.reset steady_fresh.stable) hdone) (.seq (.seq (Amid.choose
      (keeps_quiet _ fun _ _ => rfl) (.reset steady_fresh.stable)) (keeps_quiet _
      ⟨hfiles files, fun _ _ => rfl, trivial⟩)) (.seq (keeps_quiet _ (hstart .camera)) (.seq
      (keeps_quiet _ (hstart .stream)) (.seq (keeps_release _) hdone))))
  · exact .seq (Amid.choose (keeps_faceRecognition _) hdone) (.seq (Amid.choose (keeps_release _) hdone)
      hdone)

end

/-- Each task may rely on the others. -/
theorem agreed : device.Agreed (fun t => (spec t).amid (Beside t) State.wire) fun s => Fresh s.wire where
  boot t := by
    cases t with
    | loop => exact keeps_loop
    | camera => exact keeps_serve .camera keeps_cameraHandle
    | stream => exact keeps_serve .stream keeps_streamHandle
  shared t u _ s s' hne h := ⟨h.1, h.2 u (Ne.symm hne)⟩
  restart s _ := ⟨fun hl => absurd hl (by simp [device, restart, State.wire]), fun t ht => by cases ht⟩

/-- A fall of the request line finds the answer line high and no task with an answer on its way. -/
def Clean (s s' : State) : Prop :=
  s.camRXPin = true → s'.camRXPin = false → s.camTXPin = true ∧ ∀ t, pending t s.log = false

instance (s s' : State) : Decidable (Clean s s') := inferInstanceAs (Decidable (_ → _ → _ ∧ ∀ _, _))

theorem beside_react {s : State} (r : Outside) (h : Clean s (react r s)) (t : Task) :
    Beside t s.wire (react r s).wire := by
  obtain ⟨level⟩ := r
  by_cases hf : s.camRXPin = true ∧ level = false
  · obtain ⟨htx, hp⟩ := h hf.1 hf.2
    have hw : (react (.line level) s).wire = { s.wire with hist := .fell :: s.wire.hist } := by
      simp only [react, if_pos hf]
      rfl
    rw [hw]
    refine ⟨fun _ => ⟨fun hl => absurd (htx.symm.trans hl) (by simp), fun u hu => ?_⟩, rfl, rfl, rfl⟩
    have hu : pending u s.wire.hist = true := hu
    rw [State.wire, pending_filter, hp u] at hu
    cases hu
  · have hw : (react (.line level) s).wire = s.wire := by
      simp only [react, if_neg hf]
      rfl
    rw [hw]
    exact ⟨id, rfl, rfl, rfl⟩

end Cam
