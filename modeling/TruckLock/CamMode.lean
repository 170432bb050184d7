import TruckLock.Calls
import TruckLock.Cam

/-!
# Requests to `/control` and the recognition mode

The settings that `cmd_handler` keeps, what a sequence of requests makes of
them, and in which of them the three users of `run_face_recognition` run it.
-/
namespace Cam

open Firmware Spec

@[ext] structure Settings where
  detectionEnabled : Int8
  recognitionEnabled : Int8
  isEnrolling : Int8
  flashValue : Int8
  deriving DecidableEq, Repr

def State.settings (s : State) : Settings where
  detectionEnabled := s.detectionEnabled
  recognitionEnabled := s.recognitionEnabled
  isEnrolling := s.isEnrolling
  flashValue := s.flashValue

/-- The settings after a request. -/
def Settings.request (v : Settings) : Control → Settings
  | .faceDetect val =>
    { v with
      detectionEnabled := Int8.ofInt val
      recognitionEnabled := if Int8.ofInt val = 0 then 0 else v.recognitionEnabled }
  | .faceEnroll val => { v with isEnrolling := Int8.ofInt val }
  | .faceRecognize val =>
    { v with
      recognitionEnabled := Int8.ofInt val
      detectionEnabled := if Int8.ofInt val = 0 then v.detectionEnabled else Int8.ofInt val }
  | .flash val => { v with flashValue := Int8.ofInt val }
  | _ => v

def Settings.requests (v : Settings) (cs : List Control) : Settings := cs.foldl Settings.request v

/-- `cmd_handler` for one request after the other. -/
def requests (cs : List Control) : Sketch := .block (cs.map cmdHandler)

/-- The settings between the two assignments of a request. -/
def Settings.half (v : Settings) : Control → Settings
  | .faceDetect val => { v with detectionEnabled := Int8.ofInt val }
  | .faceRecognize val => { v with recognitionEnabled := Int8.ofInt val }
  | c => v.request c

/-- The code takes settings in `A` to settings in `B`, and keeps to `I` on the way. -/
abbrev Sets (I Q A : Settings → Prop) (c : Sketch) (B : Settings → Prop) : Prop :=
  (within I Q).Leads State.settings A c B

section

variable {I Q : Settings → Prop}

theorem at_settings {v : Settings} (hv : I v) : ∀ w, w = v → I w := by
  rintro w rfl
  exact hv

theorem sets_act {f : State → State} {F : Settings → Settings} (hf : ∀ s, (f s).settings = F s.settings)
    {v : Settings} (hv : I v) : Sets I Q (· = v) (.set f) (· = F v) :=
  Leads.step (at_settings hv) fun _ s hs _ => ⟨trivial, by rw [hf, hs]⟩

/-- One variable is written, and another one if the first has a certain value. -/
theorem sets_both {f g : State → State} {p : State → Bool} {F G : Settings → Settings}
    {P : Settings → Bool} (hf : ∀ s, (f s).settings = F s.settings) (hg : ∀ s, (g s).settings = G s.settings)
    (hp : ∀ s, p s = P s.settings) {v : Settings} (hv : I v) (hF : I (F v)) :
    Sets I Q (· = v) (.seq (.set f) (.when (fun _ s => p s) (.set g))) (· = if P (F v) then G (F v) else F v) := by
  have hsecond : Sets I Q (· = F v) (.when (fun _ s => p s) (.set g))
      (· = if P (F v) then G (F v) else F v) := by
    refine Leads.known (b := P (F v)) (at_settings hF) (fun _ s hs => by rw [hp, hs]) ?_
    cases P (F v) with
    | true => exact sets_act hg hF
    | false => exact Leads.done (at_settings hF)
  exact .seq (sets_act hf hv) hsecond

theorem sets_cmdHandler {v : Settings} (c : Control) (hv : I v) (hh : I (v.half c)) :
    Sets I Q (· = v) (cmdHandler c) (· = v.request c) := by
  have hdone : Sets I Q (· = v) .skip (· = v) := Leads.done (at_settings hv)
  cases c with
  | faceDetect val =>
    have h := sets_both (Q := Q) (f := fun s => { s with detectionEnabled := Int8.ofInt val })
      (g := fun s => { s with recognitionEnabled := 0 }) (p := fun s => decide (s.detectionEnabled = 0))
      (F := fun v => { v with detectionEnabled := Int8.ofInt val })
      (G := fun v => { v with recognitionEnabled := 0 }) (P := fun v => decide (v.detectionEnabled = 0))
      (fun _ => rfl) (fun _ => rfl) (fun _ => rfl) hv hh
    refine h.post fun s hs => ?_
    rw [hs]
    by_cases hz : Int8.ofInt val = 0 <;> simp [Settings.request, hz]
  | faceEnroll val => exact sets_act (F := fun v => { v with isEnrolling := Int8.ofInt val }) (fun _ => rfl) hv
  | faceRecognize val =>
    have h := sets_both (Q := Q) (f := fun s => { s with recognitionEnabled := Int8.ofInt val })
      (g := fun s => { s with detectionEnabled := Int8.ofInt val })
      (p := fun s => decide (s.recognitionEnabled ≠ 0))
      (F := fun v => { v with recognitionEnabled := Int8.ofInt val })
      (G := fun v => { v with detectionEnabled := Int8.ofInt val })
      (P := fun v => decide (v.recognitionEnabled ≠ 0)) (fun _ => rfl) (fun _ => rfl) (fun _ => rfl) hv hh
    refine h.post fun s hs => ?_
    rw [hs]
    by_cases hz : Int8.ofInt val = 0 <;> simp [Settings.request, hz]
  | flash val => exact sets_act (F := fun v => { v with flashValue := Int8.ofInt val }) (fun _ => rfl) hv
  | sensor => exact hdone
  | facename index name => exact Leads.step (at_settings hv) fun _ _ hs _ => ⟨trivial, hs⟩
  | clearface => exact Leads.step (at_settings hv) fun _ _ hs _ => ⟨trivial, hs⟩
  | undefined => exact hdone

/-- The settings that a sequence of requests goes through. -/
theorem sets_requests {K : Control → Settings → Prop} (hK : ∀ c v, I v → K c v → I (v.half c) ∧ I (v.request c))
    {cs : List Control} {v : Settings} (hv : I v) (h : Along (fun c v => v.request c) (fun c v _ => K c v) cs v) :
    Sets I Q (· = v) (requests cs) (· = v.requests cs) := by
  induction cs generalizing v with
  | nil => exact Leads.done (at_settings hv)
  | cons c cs ih =>
    obtain ⟨hh, hr⟩ := hK c v hv h.1
    exact .seq (sets_cmdHandler c hv hh) (ih hr h.2)

end

theorem settings_requests {xs : List (Choice Env (Firmware.Beside State.settings))} {cs : List Control} {s u : State}
    (h : finish (Firmware.Beside.react _) xs [requests cs] s = some u) : u.settings = s.settings.requests cs := by
  have hall : Along (fun c (v : Settings) => v.request c) (fun _ _ _ => True) cs s.settings :=
    (along_iff _ _).2 fun _ _ _ _ => trivial
  exact Spec.Leads.finish (Q := (· = s.settings.requests cs)) (Firmware.Beside.view_react _)
    (sets_requests (I := fun _ => True) (fun _ _ _ _ => ⟨trivial, trivial⟩) trivial hall) rfl h

/-- A request is handled in one statement or in four. -/
theorem advance_cmdHandler (c : Control) (k : List Sketch) (s : State) : ∃ xs u,
    advance (Firmware.Beside.react State.settings) xs (cmdHandler c :: k) s = some (k, u) ∧
      u.settings = s.settings.request c ∧ u.streamState = s.streamState := by
  have hboth : ∀ (f g : State → State) (p : State → Bool), (∀ s, (f s).streamState = s.streamState) →
      (∀ s, (g s).streamState = s.streamState) → (if p (f s) then g (f s) else f s).settings = s.settings.request c →
      ∃ xs u, advance (Firmware.Beside.react State.settings) xs
        (.seq (.set f) (.when (fun _ s => p s) (.set g)) :: k) s = some (k, u) ∧
          u.settings = s.settings.request c ∧ u.streamState = s.streamState := by
    intro f g p hf hg hs
    refine ⟨List.replicate 4 (.run {}), if p (f s) then g (f s) else f s, ?_, hs, ?_⟩
    · cases h : p (f s) <;> simp [advance, Code.step, Code.when, Code.set, List.replicate, h]
    · cases h : p (f s) <;> simp [hf, hg]
  cases c with
  | faceDetect val =>
    refine hboth (fun s => { s with detectionEnabled := Int8.ofInt val }) (fun s => { s with recognitionEnabled := 0 })
      (fun s => decide (s.detectionEnabled = 0)) (fun _ => rfl) (fun _ => rfl) ?_
    by_cases hz : Int8.ofInt val = 0 <;> simp [Settings.request, State.settings, hz]
  | faceRecognize val =>
    refine hboth (fun s => { s with recognitionEnabled := Int8.ofInt val })
      (fun s => { s with detectionEnabled := Int8.ofInt val }) (fun s => decide (s.recognitionEnabled ≠ 0))
      (fun _ => rfl) (fun _ => rfl) ?_
    by_cases hz : Int8.ofInt val = 0 <;> simp [Settings.request, State.settings, hz]
  | _ => exact ⟨[.run {}], _, rfl, rfl, rfl⟩

/-- The first thing that `run_face_recognition` does: it asks for a buffer for the face. -/
def Event.asksFace (t : Task) : Event → Bool
  | .alloc u .alignedFace _ => u = t
  | _ => false

structure Seeing where
  detectionEnabled : Int8
  recognitionEnabled : Int8
  streamState : Bool
  fb : Option Frame
  faces : Nat

/-- What decides whether a task recognises faces, and how often it has begun to. -/
def State.seeing (t : Task) (s : State) : Seeing where
  detectionEnabled := s.detectionEnabled
  recognitionEnabled := s.recognitionEnabled
  streamState := s.streamState
  fb := s.fb t
  faces := s.log.countP (Event.asksFace t)

/-- The function performs face recognition on some frame of the kind, if the calls let it. -/
def Performs (t : Task) (f : Sketch) (fb : Frame) (s : State) : Prop :=
  ∃ (xs : List (Choice Env (Firmware.Beside (State.seeing t)))) (l : List Sketch) (u : State),
    (∀ i, .run i ∈ xs → i.fb = some fb) ∧ advance (Firmware.Beside.react _) xs [f] s = some (l, u) ∧
      (s.seeing t).faces < (u.seeing t).faces

structure Still (d r : Int8) (n : Nat) (v : Seeing) : Prop where
  detectionEnabled : v.detectionEnabled = d
  recognitionEnabled : v.recognitionEnabled = r
  faces : v.faces = n

abbrev Sees (n : Nat) (t : Task) (A : Seeing → Prop) (c : Sketch) (B : Seeing → Prop) : Prop :=
  (within (fun v => v.faces = n) fun v => v.faces = n).Leads (State.seeing t) A c B

/-- Code that begins no recognition and leaves the mode alone. -/
abbrev Blind (t : Task) (c : Sketch) : Prop :=
  Made (fun s s' : State => (s'.seeing t).detectionEnabled = (s.seeing t).detectionEnabled ∧
    (s'.seeing t).recognitionEnabled = (s.seeing t).recognitionEnabled ∧
    (s'.seeing t).faces = (s.seeing t).faces) (fun _ => False) c

section

variable (t : Task) {d r : Int8} {n : Nat}

theorem still_faces (v : Seeing) (h : Still d r n v) : v.faces = n := h.faces

theorem sees_blind {c : Sketch} (hc : Blind t c) : Sees n t (Still d r n) c (Still d r n) := by
  refine Leads.made (m := fun _ v w => w.detectionEnabled = v.detectionEnabled ∧
    w.recognitionEnabled = v.recognitionEnabled ∧ w.faces = v.faces) still_faces (fun _ _ _ h => h) ?_
    (fun _ h => h.elim) hc
  intro v hv
  refine ⟨hv.faces, fun _ w hw _ => ⟨trivial, ?_, ?_, ?_⟩⟩
  · exact hw.1.trans hv.detectionEnabled
  · exact hw.2.1.trans hv.recognitionEnabled
  · exact hw.2.2.trans hv.faces

theorem blind_alloc {b : Buffer} (hb : b ≠ .alignedFace) : Blind t (alloc t b) := by
  intro i s
  refine ⟨rfl, rfl, List.countP_cons_of_neg ?_⟩
  cases b <;> simp_all [Event.asksFace]

theorem blind_allocImage : Blind t (allocImage t) := ⟨fun _ _ => ⟨rfl, rfl, rfl⟩, blind_alloc t (by decide)⟩

theorem blind_free (b : Buffer) : Blind t (free t b) := fun _ _ => ⟨rfl, rfl, rfl⟩

theorem blind_toJpg : Blind t (toJpg t) :=
  ⟨fun _ _ => ⟨rfl, rfl, rfl⟩, fun _ _ => ⟨rfl, rfl, rfl⟩⟩

theorem blind_giveBack : Blind t (giveBack t) :=
  ⟨fun _ _ => ⟨rfl, rfl, rfl⟩, fun _ _ => ⟨rfl, rfl, rfl⟩⟩

/-- Without recognition no face is looked at. -/
theorem sees_unrecognised (a : Sketch) :
    Sees n t (Still d 0 n) (.when (fun _ s => s.recognitionEnabled ≠ 0) a) (Still d 0 n) := by
  refine Leads.known (b := false) still_faces (fun _ s hs => ?_) (Leads.done still_faces)
  rw [show s.recognitionEnabled = 0 from hs.recognitionEnabled]
  rfl

/-- Without detection a frame is sent as it is. -/
theorem sees_plain {a b : Sketch} (ha : Sees n t (Still 0 r n) a (Still 0 r n)) :
    Sees n t (Still 0 r n) (.ite (fun _ s => s.plain t) a b) (Still 0 r n) := by
  refine Leads.known (b := true) still_faces (fun _ s hs => ?_) ha
  simp [State.plain, show s.detectionEnabled = 0 from hs.detectionEnabled]

theorem sees_captureHandler (h : d = 0 ∨ r = 0) :
    Sees n t (Still d r n) (captureHandler t) (Still d r n) := by
  have hdone : Sees n t (Still d r n) .skip (Still d r n) := Leads.done still_faces
  refine .seq (sees_blind t fun _ _ => ⟨rfl, rfl, rfl⟩) (Leads.choose hdone
    (.seq (sees_blind t fun _ _ => ⟨rfl, rfl, rfl⟩) ?_))
  have hplain : Blind t (.seq (fbRead t) (fbReturn t)) :=
    ⟨fun _ _ => ⟨rfl, rfl, rfl⟩, fun _ _ => ⟨rfl, rfl, rfl⟩⟩
  rcases h with rfl | rfl
  · exact sees_plain t (sees_blind t hplain)
  · refine Leads.choose (sees_blind t hplain) (.seq (sees_blind t (blind_allocImage t)) (Leads.choose
      (sees_blind t fun _ _ => ⟨rfl, rfl, rfl⟩) (.seq (sees_blind t fun _ _ => ⟨rfl, rfl, rfl⟩) (.seq
      (sees_blind t fun _ _ => ⟨rfl, rfl, rfl⟩) (.seq ?_ (sees_blind t ⟨blind_free t _, trivial⟩))))))
    exact Leads.choose (Leads.choose (sees_unrecognised t _) hdone) hdone

theorem sees_streamFrame (h : d = 0 ∨ r = 0) : Sees n t (Still d r n) (streamFrame t) (Still d r n) := by
  have hread : Sees n t (Still d r n) (fbRead t) (Still d r n) := sees_blind t fun _ _ => ⟨rfl, rfl, rfl⟩
  have hplain : Blind t (.seq (fbRead t) <| .ite (fun _ s => s.raw t)
      (.block [toJpg t, giveBack t, .when (fun _ s => !s.ok t) fail]) (borrow t)) :=
    ⟨fun _ _ => ⟨rfl, rfl, rfl⟩, ⟨blind_toJpg t, blind_giveBack t, ⟨fun _ _ => ⟨rfl, rfl, rfl⟩, trivial⟩,
      trivial⟩, fun _ _ => ⟨rfl, rfl, rfl⟩⟩
  refine .seq hread ?_
  rcases h with rfl | rfl
  · exact sees_plain t (sees_blind t hplain)
  · have hfail : Sees n t (Still d 0 n) fail (Still d 0 n) := sees_blind t fun _ _ => ⟨rfl, rfl, rfl⟩
    have himage : ∀ netBoxes, Sees n t (Still d 0 n) (streamImage t netBoxes) (Still d 0 n) := fun netBoxes =>
      .seq hread (Leads.choose (.seq (Leads.choose (sees_unrecognised t _) (Leads.done still_faces))
        (sees_blind t ⟨blind_toJpg t, ⟨fun _ _ => ⟨rfl, rfl, rfl⟩, trivial⟩, blind_giveBack t, trivial⟩))
        (sees_blind t fun _ _ => ⟨rfl, rfl, rfl⟩))
    refine Leads.choose (sees_blind t hplain) (.seq (sees_blind t (blind_allocImage t)) (Leads.choose hfail
      (.seq (.seq (sees_blind t fun _ _ => ⟨rfl, rfl, rfl⟩) (Leads.choose hfail (Leads.choose
      (Leads.get still_faces himage) (himage 0)))) (sees_blind t (blind_free t _)))))

theorem sees_streamHandler (h : d = 0 ∨ r = 0) :
    Sees n t (Still d r n) (streamHandler t) (Still d r n) := by
  have hend : Blind t (.block [
      sendChunk, sendJpg t, sendChunk,
      .ite (fun _ s => (s.fb t).isSome)
        (.seq (giveBack t) (.set fun s => { s with jpgBuf := .null }))
        (.when (fun _ s => s.jpgBuf ≠ .null) <|
          .seq (free t .jpg) (.set fun s => { s with jpgBuf := .null })),
      .when (fun _ s => !s.res) (.set fun s => { s with streamState := false })]) := by
    have hset : ∀ f : State → State, (∀ s, (f s).detectionEnabled = s.detectionEnabled ∧
        (f s).recognitionEnabled = s.recognitionEnabled ∧ (f s).log = s.log) → Blind t (.set f) :=
      fun f hf _ s => ⟨(hf s).1, (hf s).2.1, by rw [State.seeing, (hf s).2.2]; rfl⟩
    have hsend : Blind t sendChunk := ⟨fun _ _ => ⟨rfl, rfl, rfl⟩, trivial⟩
    have hjpg : Blind t (sendJpg t) :=
      ⟨⟨⟨fun _ _ => ⟨rfl, rfl, rfl⟩, trivial⟩, fun _ _ => ⟨rfl, rfl, rfl⟩⟩, trivial⟩
    exact ⟨hsend, hjpg, hsend, ⟨⟨blind_giveBack t, hset _ fun _ => ⟨rfl, rfl, rfl⟩⟩,
      ⟨blind_free t _, hset _ fun _ => ⟨rfl, rfl, rfl⟩⟩, trivial⟩,
      ⟨hset _ fun _ => ⟨rfl, rfl, rfl⟩, trivial⟩, trivial⟩
  refine .seq (sees_blind t fun _ _ => ⟨rfl, rfl, rfl⟩) (.seq (sees_blind t fun _ _ => ⟨rfl, rfl, rfl⟩)
    (.seq (Amid.whilst (.seq (sees_blind t fun _ _ => ⟨rfl, rfl, rfl⟩) (.seq ?_ (sees_blind t hend))))
    (sees_blind t ⟨fun _ _ => ⟨rfl, rfl, rfl⟩, trivial⟩)))
  exact Leads.choose (sees_blind t fun _ _ => ⟨rfl, rfl, rfl⟩) (sees_streamFrame t h)

/-- The background loop without its condition. -/
structure Passed (b : Bool) (r : Int8) (n : Nat) (v : Seeing) : Prop where
  streamState : v.streamState = b
  recognitionEnabled : v.recognitionEnabled = r
  faces : v.faces = n

theorem sees_loop {b : Bool} (h : ¬ (b = false ∧ r = 1)) :
    Sees n .loop (Passed b r n) loop (Passed b r n) := by
  have hpassed : ∀ v, Passed b r n v → v.faces = n := fun _ h => h.faces
  have hdone : Sees n .loop (Passed b r n) .skip (Passed b r n) := Leads.done hpassed
  refine .seq (Leads.known (b := false) hpassed (fun _ s hs => ?_) hdone) (.seq (Leads.choose
    (Leads.step hpassed fun _ _ hs _ => ⟨trivial, hs.streamState, hs.recognitionEnabled, hs.faces⟩) hdone)
    hdone)
  rw [show s.streamState = b from hs.streamState, show s.recognitionEnabled = r from hs.recognitionEnabled]
  cases b with
  | true => rfl
  | false => simpa using h

end

/-- A call that answers well and finds a face. -/
def seen (fb : Frame) : Env := { fb := some fb, netBoxes := true }

section

variable {fb : Frame} {s : State}

theorem performs_loop : Performs .loop loop fb s ↔ s.streamState = false ∧ s.recognitionEnabled = 1 := by
  constructor
  · rintro ⟨xs, l, u, -, ha, hu⟩
    by_contra hn
    have h := Spec.Leads.advance (Firmware.Beside.view_react _)
      ((sees_loop (n := (s.seeing .loop).faces) hn).post fun _ h => h.faces) (fun _ h => h) ⟨rfl, rfl, rfl⟩ ha
    omega
  · rintro ⟨hb, hr⟩
    refine ⟨List.replicate 24 (.run (seen fb)), ?_⟩
    simp [advance, loop, faceRecognition, fbGet, allocImage, alloc, allocWhen, fmt2rgb888, fbReturn,
      runFaceRecognition, Code.step, Code.when, Code.set, Code.block, List.replicate, State.emit, put, hb, hr,
      seen, State.seeing, Event.asksFace]

theorem performs_captureHandler (hw : fb.width ≤ 400) : Performs .camera (captureHandler .camera) fb s ↔
    s.detectionEnabled ≠ 0 ∧ s.recognitionEnabled ≠ 0 := by
  constructor
  · rintro ⟨xs, l, u, -, ha, hu⟩
    by_contra hn
    have h := Spec.Leads.advance (Firmware.Beside.view_react _)
      ((sees_captureHandler (d := s.detectionEnabled) (r := s.recognitionEnabled)
        (n := (s.seeing .camera).faces) .camera (by tauto)).post fun _ h => h.faces) (fun _ h => h)
      ⟨rfl, rfl, rfl⟩ ha
    omega
  · rintro ⟨hd, hr⟩
    refine ⟨List.replicate 24 (.run (seen fb)), ?_⟩
    simp [advance, captureHandler, fbGet, fbRead, allocImage, alloc, allocWhen, fmt2rgb888, fbReturn,
      runFaceRecognition, Code.step, Code.when, Code.set, Code.block, List.replicate, State.emit, put, hd, hr,
      seen, State.seeing, Event.asksFace, State.plain, not_lt.2 hw]

theorem performs_streamHandler (hw : fb.width ≤ 400) : Performs .stream (streamHandler .stream) fb s ↔
    s.detectionEnabled ≠ 0 ∧ s.recognitionEnabled ≠ 0 := by
  constructor
  · rintro ⟨xs, l, u, -, ha, hu⟩
    by_contra hn
    have h := Spec.Leads.advance (Firmware.Beside.view_react _)
      ((sees_streamHandler (d := s.detectionEnabled) (r := s.recognitionEnabled)
        (n := (s.seeing .stream).faces) .stream (by tauto)).post fun _ h => h.faces) (fun _ h => h)
      ⟨rfl, rfl, rfl⟩ ha
    omega
  · rintro ⟨hd, hr⟩
    refine ⟨List.replicate 37 (.run (seen fb)), ?_⟩
    simp [advance, streamHandler, streamFrame, streamImage, fbGet, fbRead, allocImage, alloc, allocWhen,
      fmt2rgb888, runFaceRecognition, Code.step, Code.when, Code.set, Code.block, List.replicate,
      State.emit, put, hd, hr, seen, State.seeing, Event.asksFace, State.plain, not_lt.2 hw]

end

/-- Recognition needs detection, and the three users of `run_face_recognition` run it in the same
mode as long as nobody watches the stream. -/
structure Agrees (s : State) : Prop where
  detection : s.recognitionEnabled ≠ 0 → s.detectionEnabled ≠ 0
  capture : ∀ fb : Frame, fb.width ≤ 400 → s.streamState = false →
    (Performs .loop loop fb s ↔ Performs .camera (captureHandler .camera) fb s)
  stream : ∀ fb : Frame, fb.width ≤ 400 → s.streamState = false →
    (Performs .loop loop fb s ↔ Performs .stream (streamHandler .stream) fb s)

/-- The setting is off or 1. -/
def Plain (r : Int8) : Prop := r = 0 ∨ r = 1

theorem agrees_of_plain {s : State} (hd : s.recognitionEnabled ≠ 0 → s.detectionEnabled ≠ 0)
    (hr : Plain s.recognitionEnabled) : Agrees s := by
  have hmode : s.recognitionEnabled = 1 ↔ s.detectionEnabled ≠ 0 ∧ s.recognitionEnabled ≠ 0 := by
    rcases hr with hr | hr
    · simp [hr]
    · simpa [hr] using hd (by simp [hr])
  refine ⟨hd, fun fb hw hs => ?_, fun fb hw hs => ?_⟩
  · rw [performs_loop, performs_captureHandler hw, ← hmode, and_iff_right hs]
  · rw [performs_loop, performs_streamHandler hw, ← hmode, and_iff_right hs]

theorem Agrees.plain {s : State} (h : Agrees s) (hs : s.streamState = false) : Plain s.recognitionEnabled := by
  by_cases hr : s.recognitionEnabled = 0
  · exact .inl hr
  · have hc := h.capture ⟨400, 296, true⟩ (by simp) hs
    rw [performs_loop, performs_captureHandler (by simp)] at hc
    exact .inr (hc.2 ⟨h.detection hr, hr⟩).2

theorem zero_ofInt (val : Int) : Int8.ofInt val = 0 ↔ val % 256 = 0 := by
  have h : Int8.ofInt val = 0 ↔ val.bmod 256 = 0 := by
    rw [← Int8.toInt_inj, Int8.toInt_ofInt]
    rfl
  rw [h, Int.bmod_def]
  omega

theorem plain_ofInt (val : Int) : Plain (Int8.ofInt val) ↔ val % 256 = 0 ∨ val % 256 = 1 := by
  have h : ∀ n : Int8, Int8.ofInt val = n ↔ val.bmod 256 = n.toInt := by
    intro n
    rw [← Int8.toInt_inj, Int8.toInt_ofInt]
  rw [Plain, h, h, Int.bmod_def, show (0 : Int8).toInt = 0 from rfl, show (1 : Int8).toInt = 1 from rfl]
  omega

namespace Settings

/-- The settings that keep the three users in agreement. -/
structure Sound (v : Settings) : Prop where
  detection : v.recognitionEnabled ≠ 0 → v.detectionEnabled ≠ 0
  plain : Plain v.recognitionEnabled

/-- At these settings the request leaves recognition off wherever detection is off, also between its two
assignments, and sets recognition to 0 or 1. -/
def Keeps (v : Settings) : Control → Prop
  | .faceDetect val => val % 256 = 0 → v.recognitionEnabled = 0
  | .faceRecognize val => val % 256 = 0 ∨ val % 256 = 1 ∧ v.detectionEnabled ≠ 0
  | _ => True

instance (v : Settings) (c : Control) : Decidable (v.Keeps c) := by
  unfold Keeps
  split <;> infer_instance

theorem Keeps.half {v : Settings} {c : Control} (h : v.Sound) (hc : v.Keeps c) : (v.half c).Sound := by
  cases c with
  | faceDetect val =>
    refine ⟨fun hr hd => hr (hc ((zero_ofInt val).1 hd)), h.plain⟩
  | faceRecognize val =>
    refine ⟨fun hr => ?_, (plain_ofInt val).2 (hc.imp_right And.left)⟩
    rcases hc with hc | ⟨-, hd⟩
    · exact absurd ((zero_ofInt val).2 hc) hr
    · exact hd
  | _ => exact ⟨h.detection, h.plain⟩

theorem Keeps.request {v : Settings} {c : Control} (h : v.Sound) (hc : v.Keeps c) : (v.request c).Sound := by
  have hh := Keeps.half h hc
  cases c with
  | faceDetect val =>
    by_cases hz : Int8.ofInt val = 0
    · exact ⟨by simp [Settings.request, hz], .inl (by simp [Settings.request, hz])⟩
    · simpa [Settings.request, Settings.half, hz] using hh
  | faceRecognize val =>
    refine ⟨fun hr => ?_, hh.plain⟩
    have hr : Int8.ofInt val ≠ 0 := hr
    simp [Settings.request, hr]
  | _ => exact ⟨h.detection, h.plain⟩

theorem Sound.requests {cs : List Control} {v : Settings} (hv : v.Sound)
    (h : Along (fun c (v : Settings) => v.request c) (fun c v _ => v.Keeps c) cs v) : (v.requests cs).Sound := by
  induction cs generalizing v with
  | nil => exact hv
  | cons c cs ih => exact ih (h.1.request hv) h.2

/-- Each request of a sequence after power-on does. -/
def Kept (cs : List Control) : Prop :=
  Along (fun c (v : Settings) => v.request c) (fun c v _ => v.Keeps c) cs (powerOn fun _ => {}).settings

end Settings

/-- Every state on the way through the requests, from power-on. -/
def Throughout (cs : List Control) (p : State → Prop) : Prop :=
  ∀ card (xs : List (Choice Env (Firmware.Beside State.settings))) (l : List Sketch) (u : State),
    advance (Firmware.Beside.react _) xs [requests cs] (powerOn card) = some (l, u) → p u

/-- Requests throughout which the users agree do. -/
theorem along_of_agrees {cs : List Control} {s : State} (hs : s.streamState = false)
    (h : ∀ (xs : List (Choice Env (Firmware.Beside State.settings))) (l : List Sketch) (u : State),
      advance (Firmware.Beside.react _) xs [requests cs] s = some (l, u) → Agrees u) :
    Along (fun c (v : Settings) => v.request c) (fun c v _ => v.Keeps c) cs s.settings := by
  induction cs generalizing s with
  | nil => trivial
  | cons c cs ih =>
    refine ⟨?_, ?_⟩
    · cases c with
      | faceDetect val =>
        -- in front of the second assignment
        have hu := h [.run {}, .run {}, .run {}] _ _ rfl
        intro hv
        by_contra hr
        exact hu.detection hr ((zero_ofInt val).2 hv)
      | faceRecognize val =>
        have hu := h [.run {}, .run {}, .run {}] _ _ rfl
        rcases (plain_ofInt val).1 (hu.plain hs) with hv | hv
        · exact .inl hv
        · refine .inr ⟨hv, hu.detection fun hz => ?_⟩
          have hz := (zero_ofInt val).1 hz
          omega
      | _ => trivial
    · obtain ⟨xs, u, ha, hv, hst⟩ := advance_cmdHandler c [requests cs] s
      show Along _ _ cs (s.settings.request c)
      rw [← hv]
      refine ih (hst.trans hs) fun ys l w hw => h (.run {} :: (xs ++ ys)) l w ?_
      exact (advance_append ha).trans hw

/-- Recognition mode means the same everywhere, in every state on the way, exactly when each request keeps
recognition off wherever detection is off, and sets it to 0 or 1. -/
theorem recognition_mode (cs : List Control) : Throughout cs Agrees ↔ Settings.Kept cs := by
  constructor
  · exact fun h => along_of_agrees (s := powerOn fun _ => {}) rfl (h _)
  · intro h card xs l u ha
    have hv : (powerOn card).settings.Sound := ⟨fun _ => by simp [State.settings, powerOn], .inr rfl⟩
    have hsets : Sets Settings.Sound Settings.Sound (· = (powerOn card).settings) (requests cs) Settings.Sound :=
      (sets_requests (fun c v hv hc => ⟨hc.half hv, hc.request hv⟩) hv h).post fun _ => at_settings (hv.requests h) _
    have hu := (Spec.Leads.advance (Firmware.Beside.view_react _) hsets (fun _ h => h) rfl ha).1
    exact agrees_of_plain hu.detection hu.plain

/-- `face_recognize` with 2 switches the background recognition off and the web page's on. -/
theorem recognition_two : ¬ ∀ cs : List Control, Throughout cs Agrees := by
  intro h
  exact absurd (along_of_agrees (s := powerOn fun _ => {}) rfl (h [.faceRecognize 2] _)) (by decide)

end Cam
