import TruckLock.CamAnswer

/-!
# No answer without a face

However the request line moves and whichever tasks run between two statements,
the answer line of the camera is low only if a registered face has been
recognised before.
-/
namespace Cam

open Firmware Spec

/-- A registered face has been recognised at some time. -/
def Found (l : List Event) : Prop := ∃ t matchedId, 0 ≤ matchedId ∧ .recognised t matchedId ∈ l

theorem found_filter (l : List Event) : Found (l.filter Event.onWire) ↔ Found l := by
  simp [Found, List.mem_filter, Event.onWire]

theorem Found.cons {l : List Event} (h : Found l) (e : Event) : Found (e :: l) :=
  h.imp fun _ h => h.imp fun _ h => ⟨h.1, List.mem_cons_of_mem e h.2⟩

/-- Behind a low answer line there is a face. -/
def Backed (v : Wire) : Prop := v.camTXPin = false → Found v.hist

namespace Backed

/-- What a task does is nothing to the others. -/
structure Good (t : Task) (v w : Wire) : Prop where
  backed : Backed v → Backed w
  found : Found v.hist → Found w.hist
  others : ∀ u, u ≠ t → w.matchedId u = v.matchedId u

structure Beside (t : Task) (v w : Wire) : Prop where
  backed : Backed v → Backed w
  found : Found v.hist → Found w.hist
  own : w.matchedId t = v.matchedId t

def spec (t : Task) : Spec Env Wire where
  ok _ _ _ := True
  good := Good t
  good_refl _ := ⟨id, id, fun _ _ => rfl⟩
  inv := Backed
  top _ := True
  fin _ := True

abbrev Keeps (t : Task) (c : Sketch) : Prop := (spec t).Amid (Beside t) State.wire Backed c Backed

variable (t : Task)

theorem steady : (spec t).Steady (Beside t) Backed where
  inv _ h := h
  rel _ _ h hr := hr.backed h

/-- The task has recognised a face. -/
theorem steady_found : (spec t).Steady (Beside t) fun v => Found v.hist where
  inv _ h _ := h
  rel _ _ h hr := hr.found h

theorem steady_known : (spec t).Steady (Beside t) fun v => Backed v ∧ (0 ≤ v.matchedId t → Found v.hist) where
  inv _ h := h.1
  rel v w h hr := ⟨hr.backed h.1, fun hl => hr.found (h.2 (by rwa [← hr.own]))⟩

theorem keeps_quiet {c : Sketch} (hc : Quiet c) : Keeps t c := Amid.idle (steady t) (fun _ h => h.elim) hc

theorem keeps_skip : Keeps t .skip := Amid.done (steady t)

/-- A statement that does not pull the answer line. -/
theorem keeps_set {f : State → State} (hl : ∀ s, (f s).wire.camTXPin = false → s.wire.camTXPin = false)
    (hh : ∀ s, (f s).wire.hist = s.wire.hist) (hm : ∀ s u, u ≠ t → (f s).wire.matchedId u = s.wire.matchedId u) :
    Keeps t (.set f) := by
  refine Amid.step (steady t) fun _ s hs _ => ?_
  have hb : Backed s.wire → Backed (f s).wire := fun h hf => by
    rw [hh]
    exact h (hl s hf)
  exact ⟨⟨hb, fun h => by rwa [hh], hm s⟩, hb hs⟩

theorem keeps_matchedId (n : Int) : Keeps t (.set fun s => { s with matchedId := put s.matchedId t n }) :=
  keeps_set t (fun _ h => h) (fun _ => rfl) fun _ _ hu => Function.update_of_ne hu _ _

/-- Only a task that has recognised a face answers. -/
theorem keeps_answer : (spec t).Amid (Beside t) State.wire (fun v => Found v.hist) (answer t) Backed := by
  have hstep : ∀ {f : State → State}, (∀ s, Found s.wire.hist → Found (f s).wire.hist) →
      (∀ s u, (f s).wire.matchedId u = s.wire.matchedId u) →
      (spec t).Amid (Beside t) State.wire (fun v => Found v.hist) (.set f) fun v => Found v.hist := by
    intro f hf hm
    refine Amid.step (steady_found t) fun _ s hs _ => ?_
    exact ⟨⟨fun _ _ => hf s hs, hf s, fun u _ => hm s u⟩, hf s hs⟩
  refine Triple.post (Q := fun s => Found s.wire.hist) ?_ fun _ hs _ => hs
  refine .seq (hstep (fun s h => h.cons (.asked t s.camRXPin)) fun _ _ => rfl)
    (Amid.choose ?_ (Amid.done (steady_found t)))
  exact hstep (fun _ h => h.cons (.answered t)) fun _ _ => rfl

theorem keeps_recognise : Keeps t (recognise t) := by
  refine .seq (R := fun s => Backed s.wire ∧ (0 ≤ s.wire.matchedId t → Found s.wire.hist)) ?_
    (Amid.ite (T := fun v => Found v.hist) (F := Backed) (steady_known t)
    (fun i s hs hc => hs.2 (of_decide_eq_true hc)) (fun _ _ hs _ => hs.1) ?_ ?_)
  rotate_left
  · exact .seq (keeps_answer t) (keeps_quiet t ⟨quiet_rgbPrintf t _, trivial⟩)
  · exact .seq (keeps_quiet t fun _ _ => rfl) (.seq (keeps_quiet t (quiet_rgbPrint t))
      (.seq (keeps_matchedId t _) (keeps_skip t)))
  refine Amid.step (B := fun v => Backed v ∧ (0 ≤ v.matchedId t → Found v.hist)) (steady t) fun i s hs _ => ?_
  have hb : Backed { s.wire with
      matchedId := put s.matchedId t i.recognizeFace, hist := .recognised t i.recognizeFace :: s.wire.hist } :=
    fun hl => (hs hl).cons _
  refine ⟨⟨fun _ => hb, fun h => h.cons _, fun u hu => Function.update_of_ne hu _ _⟩, hb, fun hl => ?_⟩
  have hl : 0 ≤ put s.matchedId t i.recognizeFace t := hl
  exact ⟨t, i.recognizeFace, by simpa [put] using hl, List.mem_cons_self⟩

theorem keeps_runFaceRecognition : Keeps t (runFaceRecognition t) := by
  have hdone := keeps_skip t
  refine .seq (keeps_matchedId t 0) (.seq (keeps_quiet t (quiet_alloc t _)) (.seq (Amid.choose
    (.seq (Amid.choose (Amid.choose (keeps_quiet t (quiet_enroll t)) (keeps_recognise t)) ?_)
    (.seq (keeps_quiet t (quiet_free t _)) hdone)) hdone) hdone))
  exact .seq (keeps_quiet t fun _ _ => rfl) (keeps_quiet t (quiet_rgbPrint t))

theorem keeps_faceRecognition : Keeps t (faceRecognition t) := by
  have hdone := keeps_skip t
  refine .seq (keeps_quiet t fun _ _ => rfl) (.seq (Amid.choose (.reset (steady t).stable) hdone)
    (.seq (keeps_quiet t (quiet_allocImage t)) (.seq (Amid.choose (keeps_quiet t fun _ _ => rfl)
    (.seq (keeps_quiet t fun _ _ => rfl) (.seq (keeps_quiet t fun _ _ => rfl) (.seq ?_
    (.seq (keeps_quiet t (quiet_free t _)) hdone))))) hdone)))
  exact Amid.choose (Amid.choose (keeps_runFaceRecognition t) hdone) hdone

theorem keeps_captureHandler : Keeps t (captureHandler t) := by
  have hdone := keeps_skip t
  refine .seq (keeps_quiet t fun _ _ => rfl) (Amid.choose hdone (.seq (keeps_quiet t (quiet_fbRead t))
    (Amid.choose (keeps_quiet t ⟨quiet_fbRead t, fun _ _ => rfl⟩) (.seq (keeps_quiet t (quiet_allocImage t))
    (Amid.choose (keeps_quiet t fun _ _ => rfl) (.seq (keeps_quiet t fun _ _ => rfl) (.seq
    (keeps_quiet t fun _ _ => rfl) (.seq ?_ (.seq (keeps_quiet t (quiet_free t _)) hdone)))))))))
  exact Amid.choose (Amid.choose (Amid.choose (keeps_runFaceRecognition t) hdone) hdone) hdone

theorem keeps_streamImage (netBoxes : Int) : Keeps t (streamImage t netBoxes) := by
  have hdone := keeps_skip t
  refine .seq (keeps_quiet t (quiet_fbRead t)) (Amid.choose (.seq (Amid.choose
    (Amid.choose (keeps_runFaceRecognition t) hdone) hdone) (keeps_quiet t ?_))
    (keeps_quiet t fun _ _ => rfl))
  exact ⟨quiet_toJpg t, ⟨fun _ _ => rfl, trivial⟩, quiet_giveBack t, trivial⟩

theorem keeps_streamFrame : Keeps t (streamFrame t) := by
  have hquiet : Quiet (.seq (fbRead t) <| .ite (fun _ s => s.raw t)
      (.block [toJpg t, giveBack t, .when (fun _ s => !s.ok t) fail]) (borrow t)) :=
    ⟨quiet_fbRead t, ⟨quiet_toJpg t, quiet_giveBack t, ⟨fun _ _ => rfl, trivial⟩, trivial⟩, fun _ _ => rfl⟩
  refine .seq (keeps_quiet t (quiet_fbRead t)) (Amid.choose (keeps_quiet t hquiet)
    (.seq (keeps_quiet t (quiet_allocImage t)) (Amid.choose (keeps_quiet t fun _ _ => rfl)
    (.seq (.seq (keeps_quiet t fun _ _ => rfl) (Amid.choose (keeps_quiet t fun _ _ => rfl) (Amid.choose
    (Amid.get (steady t) (keeps_streamImage t)) (keeps_streamImage t 0))))
    (keeps_quiet t (quiet_free t _))))))

theorem keeps_streamHandler : Keeps t (streamHandler t) := by
  have hdone := keeps_skip t
  have hsend : Quiet sendChunk := ⟨fun _ _ => rfl, trivial⟩
  have hjpg : Quiet (sendJpg t) := ⟨⟨⟨quiet_fbRead t, trivial⟩, fun _ _ => rfl⟩, trivial⟩
  have hback : Quiet (.ite (fun _ s => (s.fb t).isSome)
      (.seq (giveBack t) (.set fun s => { s with jpgBuf := .null }))
      (.when (fun _ s => s.jpgBuf ≠ .null) <| .seq (free t .jpg) (.set fun s => { s with jpgBuf := .null }))) :=
    ⟨⟨quiet_giveBack t, fun _ _ => rfl⟩, ⟨fun _ _ => rfl, fun _ _ => rfl⟩, trivial⟩
  refine .seq (keeps_quiet t fun _ _ => rfl) (.seq (keeps_quiet t fun _ _ => rfl) (.seq
    (Amid.whilst ?_) (.seq (keeps_quiet t fun _ _ => rfl) hdone)))
  exact .seq (keeps_quiet t fun _ _ => rfl) (.seq (Amid.choose (keeps_quiet t fun _ _ => rfl)
    (keeps_streamFrame t)) (keeps_quiet t ⟨hsend, hjpg, hsend, hback, ⟨fun _ _ => rfl, trivial⟩, trivial⟩))

theorem keeps_serve {handle : Option Request → Sketch} (h : ∀ r, Keeps t (handle r)) :
    Triple ((spec t).amid (Beside t) State.wire) (fun s => Backed s.wire) (serve t handle) fun _ => False :=
  .seq (Amid.whilst (keeps_skip t)) (.forever (fun _ _ => trivial) (Amid.poll (steady t) fun i => h i.request))

theorem keeps_cameraHandle (r : Option Request) : Keeps .camera (cameraHandle r) := by
  have hdone := keeps_skip .camera
  cases r with
  | none => exact hdone
  | some r =>
    cases r with
    | status => exact keeps_quiet .camera quiet_statusHandler
    | capture => exact keeps_captureHandler .camera
    | control c => exact keeps_quiet .camera (quiet_cmdHandler c)
    | _ => exact hdone

theorem keeps_streamHandle (r : Option Request) : Keeps .stream (streamHandle r) := by
  have hdone := keeps_skip .stream
  cases r with
  | none => exact hdone
  | some r =>
    cases r with
    | stream => exact keeps_streamHandler .stream
    | _ => exact hdone

theorem keeps_release : Keeps t (.set fun s => { s with camTXPin := true }) :=
  keeps_set t (fun _ h => absurd h (by simp [State.wire])) (fun _ => rfl) fun _ _ _ => rfl

theorem keeps_loop : Triple ((spec .loop).amid (Beside .loop) State.wire) (fun s => Backed s.wire)
    (.seq setup (.forever loop)) fun _ => False := by
  have hdone := keeps_skip .loop
  have hstart : ∀ u, Quiet (httpdStart u) := fun u => ⟨fun _ _ => rfl, trivial⟩
  have hfiles : ∀ l : List Nat, Quiet (.block (l.map (enrollFile .loop))) := by
    intro l
    induction l with
    | nil => trivial
    | cons j l ih => exact ⟨quiet_enrollFile .loop j, ih⟩
  have hreset : Keeps .loop .reset := .reset (steady .loop).stable
  refine .seq (R := fun s => Backed s.wire) ?_ (.forever (fun _ _ => trivial) ?_)
  · exact .seq (Amid.choose hreset hdone) (.seq (.seq (Amid.choose (keeps_quiet _ fun _ _ => rfl) hreset)
      (keeps_quiet _ ⟨hfiles files, fun _ _ => rfl, trivial⟩)) (.seq (keeps_quiet _ (hstart .camera)) (.seq
      (keeps_quiet _ (hstart .stream)) (.seq (keeps_release _) hdone))))
  · exact .seq (Amid.choose (keeps_faceRecognition _) hdone) (.seq (Amid.choose (keeps_release _) hdone) hdone)

/-- Each task may rely on the others. -/
theorem agreed : device.Agreed (fun t => (spec t).amid (Beside t) State.wire) fun s => Backed s.wire where
  boot t := by
    cases t with
    | loop => exact keeps_loop
    | camera => exact keeps_serve .camera keeps_cameraHandle
    | stream => exact keeps_serve .stream keeps_streamHandle
  shared t u _ s s' hne h := ⟨h.backed, h.found, h.others u (Ne.symm hne)⟩
  restart s _ hl := absurd hl (by simp [device, restart, State.wire])

theorem beside_react (r : Outside) (s : State) : Beside t s.wire (react r s).wire := by
  obtain ⟨level⟩ := r
  by_cases hf : s.camRXPin = true ∧ level = false
  · have hw : (react (.line level) s).wire = { s.wire with hist := .fell :: s.wire.hist } := by
      simp only [react, if_pos hf]
      rfl
    rw [hw]
    exact ⟨fun h hl => (h hl).cons _, fun h => h.cons _, rfl⟩
  · have hw : (react (.line level) s).wire = s.wire := by
      simp only [react, if_neg hf]
      rfl
    rw [hw]
    exact ⟨id, id, rfl⟩

end Backed

end Cam
