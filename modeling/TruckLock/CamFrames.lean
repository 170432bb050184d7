import TruckLock.Buffers
import TruckLock.Calls
import TruckLock.Cam

/-!
# The camera's frames

Each frame that a function takes is given back once and not read afterwards,
whatever the library calls answer and whatever the other tasks do meanwhile;
`_jpg_buf` is freed when it is a buffer of its own and not when it is the
frame's.
-/
namespace Cam

open Firmware Spec Buffers

namespace Event

/-- What a task does with `fb`. -/
def frameUse (t : Task) : Event → Option Use
  | .boot => some .restart
  | .fbGet u fb => if u = t then some (.alloc fb.isSome) else none
  | .fbRead u => if u = t then some .read else none
  | .fbReturn u => if u = t then some .free else none
  | _ => none

/-- What a task does with the buffers of `_jpg_buf`'s own. -/
def jpgUse (t : Task) : Event → Option Use
  | .boot => some .restart
  | .alloc u b ok => if u = t ∧ b = .jpg then some (.alloc ok) else none
  | .free u b => if u = t ∧ b = .jpg then some .free else none
  | _ => none

end Event

/-- What a task holds; `_jpg_buf` is a variable of the stream's. -/
structure Holding where
  fb : Bool
  frame : Option Pointer
  jpg : Option Pointer
  jpgBuf : JpgBuf

def State.holding (t : Task) (s : State) : Holding where
  fb := (s.fb t).isSome
  frame := pointer (Event.frameUse t) s.log
  jpg := pointer (Event.jpgUse t) s.log
  jpgBuf := if t = .stream then s.jpgBuf else .null

/-- Nothing has gone wrong, and a buffer of its own is the one that `_jpg_buf` points at: it is freed through the
variable, and nothing else is. -/
structure Holding.Sound (v : Holding) : Prop where
  frame : v.frame ≠ none
  jpg : v.jpg ≠ none
  jpgBuf : v.jpg = some .live → v.jpgBuf = .heap

/-- The task holds nothing. -/
structure Holding.Idle (v : Holding) : Prop where
  frame : Rests v.frame
  jpg : Rests v.jpg
  jpgBuf : v.jpgBuf = .null

/-- The task holds its frame. -/
structure Holding.Held (v : Holding) : Prop where
  fb : v.fb = true
  frame : v.frame = some .live
  jpg : Rests v.jpg
  jpgBuf : v.jpgBuf = .null

/-- A frame if the task has got one. -/
structure Holding.Got (v : Holding) : Prop where
  frame : v.frame = some (if v.fb then .live else .null)
  jpg : Rests v.jpg
  jpgBuf : v.jpgBuf = .null

theorem Holding.sound_of_rests {v : Holding} (hf : v.frame ≠ none) (hj : Rests v.jpg) : v.Sound :=
  ⟨hf, hj.sound, fun h => absurd h hj.not_live⟩

theorem Holding.Idle.sound {v : Holding} (h : v.Idle) : v.Sound := sound_of_rests h.frame.sound h.jpg

theorem Holding.Held.sound {v : Holding} (h : v.Held) : v.Sound := sound_of_rests (by simp [h.frame]) h.jpg

theorem Holding.Got.sound {v : Holding} (h : v.Got) : v.Sound := sound_of_rests (by simp [h.frame]) h.jpg

/-- A piece of code as the frame and `_jpg_buf` see it. -/
abbrev Handles (t : Task) (A : Holding → Prop) (c : Sketch) (B : Holding → Prop) : Prop :=
  (within Holding.Sound Holding.Idle).Leads (State.holding t) A c B

abbrev Away (t : Task) (c : Sketch) : Prop :=
  Made (fun s s' : State => s'.holding t = s.holding t) (fun _ => False) c

section

variable (t : Task)

theorem holding_emit {e : Event} (hf : e.frameUse t = none) (hj : e.jpgUse t = none)
    (s : State) : (s.emit e).holding t = s.holding t := by
  simp only [State.holding, State.emit, pointer_other hf, pointer_other hj]

theorem away_alloc {b : Buffer} (hb : b ≠ .jpg) : Away t (alloc t b) :=
  fun i s => holding_emit t rfl (by simp [Event.jpgUse, hb]) { s with ok := put s.ok t i.ok }

theorem away_free {b : Buffer} (hb : b ≠ .jpg) : Away t (free t b) :=
  fun _ s => holding_emit t rfl (by simp [Event.jpgUse, hb]) s

theorem away_rgbPrintf (str : State → Text) : Away t (rgbPrintf t str) := by
  have hp : Away t (rgbPrintf.printed t) := ⟨fun _ _ => rfl, away_free t (by decide), trivial⟩
  exact ⟨fun _ _ => rfl, ⟨⟨away_alloc t (by decide), hp, trivial⟩, hp⟩, trivial⟩

theorem away_runFaceRecognition : Away t (runFaceRecognition t) := by
  refine ⟨fun _ _ => rfl, away_alloc t (by decide), ⟨⟨⟨⟨?_, ?_⟩, ?_⟩, ?_, trivial⟩, trivial⟩, trivial⟩
  · exact ⟨fun _ _ => rfl, fun _ => away_rgbPrintf t _, ⟨fun _ _ => rfl, trivial⟩, trivial⟩
  · exact ⟨fun _ _ => rfl, ⟨⟨fun _ _ => rfl, ⟨fun _ _ => rfl, trivial⟩⟩, away_rgbPrintf t _, trivial⟩,
      fun _ _ => rfl, fun _ _ => rfl, fun _ _ => rfl, trivial⟩
  · exact ⟨fun _ _ => rfl, fun _ _ => rfl⟩
  · exact away_free t (by decide)

theorem handles_away {A : Holding → Prop} (hA : ∀ v, A v → v.Sound) {c : Sketch} (hc : Away t c) :
    Handles t A c A :=
  Leads.idle hA (fun _ h => h.elim) hc

theorem handles_fbGet : Handles t Holding.Idle (fbGet t) Holding.Got := by
  refine Leads.step (fun _ h => h.sound) fun i s hs _ => ⟨trivial, ?_, hs.jpg, hs.jpgBuf⟩
  simp only [State.holding, State.emit, put, Function.update_self]
  exact pointer_alloc (by simp [Event.frameUse]) hs.frame

theorem held_fbRead {s : State} (hs : (s.holding t).Held) : ((s.emit (.fbRead t)).holding t).Held where
  fb := hs.fb
  frame := pointer_read (by simp [Event.frameUse]) hs.frame
  jpg := hs.jpg
  jpgBuf := hs.jpgBuf

theorem handles_fbRead : Handles t Holding.Held (fbRead t) Holding.Held :=
  Leads.step (fun _ h => h.sound) fun _ _ hs _ => ⟨trivial, held_fbRead t hs⟩

theorem handles_fbReturn : Handles t Holding.Held (fbReturn t) Holding.Idle := by
  refine Leads.step (fun _ h => h.sound) fun _ s hs _ => ⟨trivial, .inr ?_, hs.jpg, hs.jpgBuf⟩
  exact pointer_free (by simp [Event.frameUse]) hs.frame

theorem handles_allocImage : Handles t Holding.Held (allocImage t) Holding.Held :=
  .seq (Leads.step (fun _ h => h.sound) fun _ s hs _ =>
      ⟨trivial, held_fbRead t (s := { s with width := put s.width t ((s.fb t).elim 0 Frame.width) }) hs⟩)
    (handles_away t (fun _ h => h.sound) (away_alloc t (by decide)))

theorem handles_fmt2rgb888 : Handles t Holding.Held (fmt2rgb888 t) Holding.Held :=
  Leads.step (fun _ h => h.sound) fun i s hs _ =>
    ⟨trivial, held_fbRead t (s := { s with ok := put s.ok t i.ok }) hs⟩

/-- After the frame has been taken: with and without one. -/
theorem handles_got {A : Holding → Prop} {a b : Sketch} (ha : Handles t Holding.Idle a A)
    (hb : Handles t Holding.Held b A) :
    Handles t Holding.Got (.ite (fun _ s => (s.fb t).isNone) a b) A := by
  refine Leads.ite (fun _ h => h.sound) (fun _ s hs hc => ?_) (fun _ s hs hc => ?_) ha hb
  · have hfb : (s.holding t).fb = false := by simpa [State.holding] using hc
    exact ⟨.inl (by simp [hs.frame, hfb]), hs.jpg, hs.jpgBuf⟩
  · have hfb : (s.holding t).fb = true := by simpa [State.holding, Option.isSome_iff_ne_none] using hc
    exact ⟨hfb, by simp [hs.frame, hfb], hs.jpg, hs.jpgBuf⟩

theorem handles_faceRecognition : Handles t Holding.Idle (faceRecognition t) Holding.Idle := by
  have hidle : ∀ v : Holding, v.Idle → v.Sound := fun _ h => h.sound
  have hdone : Handles t Holding.Idle .skip Holding.Idle := Leads.done hidle
  refine .seq (handles_fbGet t) (.seq (handles_got t (.reset (stable hidle)) (Leads.done fun _ h => h.sound))
    (.seq (handles_allocImage t) (.seq (Leads.choose (handles_fbReturn t) ?_) hdone)))
  refine .seq (handles_fmt2rgb888 t) (.seq (handles_fbReturn t) (handles_away t hidle ?_))
  exact ⟨⟨⟨away_runFaceRecognition t, trivial⟩, trivial⟩, away_free t (by decide), trivial⟩

theorem handles_captureHandler : Handles t Holding.Idle (captureHandler t) Holding.Idle := by
  have hidle : ∀ v : Holding, v.Idle → v.Sound := fun _ h => h.sound
  have hread := handles_fbRead t
  refine .seq (handles_fbGet t) (handles_got t (Leads.done hidle) (.seq hread (Leads.choose
    (.seq hread (handles_fbReturn t)) (.seq (handles_allocImage t) (Leads.choose (handles_fbReturn t) ?_)))))
  refine .seq (handles_fmt2rgb888 t) (.seq (handles_fbReturn t) (handles_away t hidle ?_))
  exact ⟨⟨⟨⟨away_runFaceRecognition t, trivial⟩, trivial⟩, trivial⟩, away_free t (by decide), trivial⟩

/-- `_jpg_buf` is null or has a buffer of its own. -/
def Holding.Own (v : Holding) : Prop :=
  v.jpgBuf = .heap ∧ v.jpg = some .live ∨ v.jpgBuf = .null ∧ Rests v.jpg

/-- The frame is still held after the conversion. -/
structure Holding.Converted (v : Holding) : Prop where
  frame : v.frame = some .live
  jpg : v.Own

/-- The frame is given back after the conversion. -/
structure Holding.Returned (v : Holding) : Prop where
  frame : Rests v.frame
  jpg : v.Own

/-- After the frame of one round: whether it is held tells whose buffer `_jpg_buf` is. -/
structure Holding.Taken (v : Holding) : Prop where
  held : v.fb = true → v.frame = some .live ∧ Rests v.jpg ∧ v.jpgBuf ≠ .heap
  gone : v.fb = false → v.Returned

theorem Holding.Own.sound {v : Holding} (hf : v.frame ≠ none) (h : v.Own) : v.Sound := by
  rcases h with ⟨hb, hj⟩ | ⟨-, hj⟩
  · exact ⟨hf, by simp [hj], fun _ => hb⟩
  · exact sound_of_rests hf hj

theorem Holding.Converted.sound {v : Holding} (h : v.Converted) : v.Sound := h.jpg.sound (by simp [h.frame])

theorem Holding.Returned.sound {v : Holding} (h : v.Returned) : v.Sound := h.jpg.sound h.frame.sound

theorem Holding.Taken.sound {v : Holding} (h : v.Taken) : v.Sound := by
  cases hfb : v.fb with
  | true =>
    obtain ⟨hf, hj, -⟩ := h.held hfb
    exact sound_of_rests (by simp [hf]) hj
  | false => exact (h.gone hfb).sound

theorem Holding.Held.taken {v : Holding} (h : v.Held) : v.Taken where
  held _ := ⟨h.frame, h.jpg, by simp [h.jpgBuf]⟩
  gone hfb := by simp [h.fb] at hfb

end

theorem taken_of_got {A : Holding → Prop} {a b : Sketch}
    (ha : Handles .stream (fun v => v.Idle ∧ v.fb = false) a A) (hb : Handles .stream Holding.Held b A) :
    Handles .stream Holding.Got (.ite (fun _ s => (s.fb .stream).isNone) a b) A := by
  refine Leads.ite (fun _ h => h.sound) (fun _ s hs hc => ?_) (fun _ s hs hc => ?_) ha hb
  · have hfb : (s.holding .stream).fb = false := by simpa [State.holding] using hc
    exact ⟨⟨.inl (by simp [hs.frame, hfb]), hs.jpg, hs.jpgBuf⟩, hfb⟩
  · have hfb : (s.holding .stream).fb = true := by
      simpa [State.holding, Option.isSome_iff_ne_none] using hc
    exact ⟨hfb, by simp [hs.frame, hfb], hs.jpg, hs.jpgBuf⟩

theorem handles_fail {A : Holding → Prop} (hA : ∀ v, A v → v.Sound) : Handles .stream A fail A :=
  handles_away .stream hA fun _ _ => rfl

theorem handles_toJpg : Handles .stream Holding.Held (toJpg .stream) Holding.Converted := by
  refine .seq (handles_fbRead .stream) (Leads.step (fun _ h => h.sound) fun i s hs _ =>
    ⟨trivial, hs.frame, ?_⟩)
  have hj : pointer (Event.jpgUse .stream) (.alloc .stream .jpg i.ok :: s.log) =
      some (if i.ok then .live else .null) :=
    pointer_alloc (by simp [Event.jpgUse]) hs.jpg
  cases hok : i.ok with
  | true => exact .inl ⟨by simp [State.holding, State.emit], by simpa [hok, State.holding, State.emit] using hj⟩
  | false =>
    have hb : s.jpgBuf = .null := by simpa [State.holding] using hs.jpgBuf
    exact .inr ⟨by simp [State.holding, State.emit, hb],
      .inl (by simpa [hok, State.holding, State.emit] using hj)⟩

theorem handles_giveBack :
    Handles .stream Holding.Converted (giveBack .stream) Holding.Taken := by
  refine .seq (R := fun s => (s.holding .stream).Returned)
    (Leads.step (fun _ h => h.sound) fun _ s hs _ => ⟨trivial, .inr ?_, hs.jpg⟩)
    (Leads.step (A := Holding.Returned) (fun _ h => h.sound) fun _ s hs _ =>
      ⟨trivial, fun h => ?_, fun _ => ⟨hs.frame, hs.jpg⟩⟩)
  · exact pointer_free (e := .fbReturn .stream) (by simp [Event.frameUse]) hs.frame
  · simp [State.holding, put] at h

theorem handles_borrow : Handles .stream Holding.Held (borrow .stream) Holding.Taken := by
  refine Leads.step (fun _ h => h.sound) fun _ s hs _ => ⟨trivial, fun _ => ⟨?_, hs.jpg, ?_⟩, fun h => ?_⟩
  · exact pointer_read (e := .fbRead .stream) (by simp [Event.frameUse]) hs.frame
  · simp [State.holding, State.emit]
  · exact absurd (hs.fb.symm.trans h) (by simp)

theorem handles_streamImage (netBoxes : Int) :
    Handles .stream Holding.Held (streamImage .stream netBoxes) Holding.Taken := by
  have hheld : ∀ v : Holding, v.Held → v.Sound := fun _ h => h.sound
  refine .seq (handles_fbRead _) (Leads.choose (.seq ?_ (.seq handles_toJpg (.seq ?_ (.seq handles_giveBack
    (Leads.done fun _ h => h.sound))))) handles_borrow)
  · exact handles_away _ hheld ⟨⟨away_runFaceRecognition _, trivial⟩, trivial⟩
  · exact handles_away _ (fun _ h => h.sound) ⟨fun _ _ => rfl, trivial⟩

theorem handles_streamFrame : Handles .stream Holding.Held (streamFrame .stream) Holding.Taken := by
  have hheld : ∀ v : Holding, v.Held → v.Sound := fun _ h => h.sound
  have htaken : ∀ v : Holding, v.Taken → v.Sound := fun _ h => h.sound
  have hread := handles_fbRead .stream
  have hfail : Handles .stream Holding.Held fail Holding.Taken :=
    (handles_fail hheld).post fun _ h => h.taken
  refine .seq hread (Leads.choose (.seq hread (Leads.choose (.seq handles_toJpg (.seq handles_giveBack
    (handles_away _ htaken ⟨⟨fun _ _ => rfl, trivial⟩, trivial⟩))) handles_borrow)) (.seq
    (handles_allocImage _) (Leads.choose hfail (.seq (.seq (handles_fmt2rgb888 _) (Leads.choose hfail
    (Leads.choose (Leads.get hheld handles_streamImage) (handles_streamImage 0))))
    (handles_away _ htaken (away_free _ (by decide)))))))

/-- Neither the frame nor a buffer of `_jpg_buf`'s own is held. -/
structure Holding.Clear (v : Holding) : Prop where
  frame : Rests v.frame
  jpg : Rests v.jpg

theorem Holding.Clear.sound {v : Holding} (h : v.Clear) : v.Sound := sound_of_rests h.frame.sound h.jpg

theorem handles_null : Handles .stream Holding.Clear
    (.set fun s => { s with jpgBuf := .null }) Holding.Idle :=
  Leads.step (fun _ h => h.sound) fun _ _ hs _ => ⟨trivial, hs.frame, hs.jpg, by simp [State.holding]⟩

theorem handles_sendJpg : Handles .stream Holding.Taken (sendJpg .stream) Holding.Taken := by
  have htaken : ∀ v : Holding, v.Taken → v.Sound := fun _ h => h.sound
  refine Leads.choose (.seq (Leads.when (T := fun v => v.Taken ∧ v.fb = true) htaken (fun _ s hs hc => ⟨hs, ?_⟩)
    (fun _ _ hs _ => hs) (Leads.step (fun _ h => h.1.sound) fun _ s hs _ => ⟨trivial, ?_, ?_⟩))
    (handles_away _ htaken fun _ _ => rfl)) (Leads.done htaken)
  · have hj : (s.holding .stream).jpgBuf = .frame := by simpa [State.holding] using hc
    by_contra hfb
    rcases (hs.gone (by simpa using hfb)).jpg with ⟨h, -⟩ | ⟨h, -⟩
    · simp [hj] at h
    · simp [hj] at h
  · obtain ⟨hf, hj, hb⟩ := hs.1.held hs.2
    refine fun _ => ⟨?_, hj, hb⟩
    exact pointer_read (e := .fbRead .stream) (by simp [Event.frameUse]) hf
  · exact fun h => absurd (hs.2.symm.trans h) (by simp)

theorem handles_giveBack_held :
    Handles .stream (fun v => v.Taken ∧ v.fb = true) (giveBack .stream) Holding.Clear := by
  have hreturn : Handles .stream (fun v => v.Taken ∧ v.fb = true) (fbReturn .stream) Holding.Clear := by
    refine Leads.step (fun _ h => h.1.sound) fun _ s hs _ => ⟨trivial, .inr ?_, (hs.1.held hs.2).2.1⟩
    exact pointer_free (e := .fbReturn .stream) (by simp [Event.frameUse]) (hs.1.held hs.2).1
  have hnone : Handles .stream Holding.Clear
      (.set fun s => { s with fb := put s.fb .stream none }) Holding.Clear :=
    Leads.step (fun _ h => h.sound) fun _ _ hs _ => ⟨trivial, hs.frame, hs.jpg⟩
  exact .seq hreturn hnone

theorem handles_freeJpg :
    Handles .stream (fun v => v.Returned ∧ v.jpg = some .live) (free .stream .jpg) Holding.Clear := by
  refine Leads.step (fun _ h => h.1.sound) fun _ s hs _ => ⟨trivial, hs.1.frame, .inr ?_⟩
  exact pointer_free (e := .free .stream .jpg) (by simp [Event.jpgUse]) hs.2

/-- The end of a round. -/
theorem handles_round : Handles .stream Holding.Taken
    (.ite (fun _ s => (s.fb .stream).isSome)
      (.seq (giveBack .stream) (.set fun s => { s with jpgBuf := .null }))
      (.when (fun _ s => s.jpgBuf ≠ .null) <|
        .seq (free .stream .jpg) (.set fun s => { s with jpgBuf := .null }))) Holding.Idle := by
  refine Leads.ite (T := fun v => v.Taken ∧ v.fb = true) (F := Holding.Returned) (fun _ h => h.sound)
    (fun _ s hs hc => ⟨hs, hc⟩) (fun _ s hs hc => hs.gone hc) (.seq handles_giveBack_held handles_null)
    (Leads.when (T := fun v => v.Returned ∧ v.jpg = some .live) (fun _ h => h.sound)
      (fun _ s hs hc => ⟨hs, ?_⟩) (fun _ s hs hc => ?_) (.seq handles_freeJpg handles_null))
  · rcases hs.jpg with ⟨-, h⟩ | ⟨h, -⟩
    · exact h
    · have hb : s.jpgBuf = .null := by simpa [State.holding] using h
      simp [hb] at hc
  · have hb : (s.holding .stream).jpgBuf = .null := by simpa [State.holding] using hc
    rcases hs.jpg with ⟨h, -⟩ | ⟨-, h⟩
    · simp [hb] at h
    · exact ⟨hs.frame, h, hb⟩

theorem handles_streamHandler : Handles .stream Holding.Idle (streamHandler .stream) Holding.Idle := by
  have hidle : ∀ v : Holding, v.Idle → v.Sound := fun _ h => h.sound
  have htaken : ∀ v : Holding, v.Taken → v.Sound := fun _ h => h.sound
  have hsend : Handles .stream Holding.Taken sendChunk Holding.Taken :=
    handles_away _ htaken ⟨fun _ _ => rfl, trivial⟩
  refine .seq (Leads.step hidle fun _ s hs _ => ⟨trivial, hs.frame, hs.jpg, rfl⟩) (.seq
    (handles_away _ hidle fun _ _ => rfl) (.seq (Amid.whilst ?_) (.seq
    (handles_away _ hidle fun _ _ => rfl) (Leads.done hidle))))
  refine .seq (handles_fbGet _) (.seq (taken_of_got ?_ handles_streamFrame) (.seq hsend (.seq handles_sendJpg
    (.seq hsend (.seq handles_round (.seq (handles_away _ hidle ⟨fun _ _ => rfl, trivial⟩)
    (Leads.done hidle)))))))
  refine (handles_fail (A := fun v => v.Idle ∧ v.fb = false) fun _ h => h.1.sound).post fun s hs =>
    ⟨fun h => ?_, fun _ => ⟨hs.1.frame, ?_⟩⟩
  · exact absurd (hs.2.symm.trans h) (by simp)
  · exact .inr ⟨hs.1.jpgBuf, hs.1.jpg⟩

/-- The functions that take frames. -/
def TakesFrames (t : Task) (f : Sketch) : Prop :=
  f = faceRecognition t ∨ f = captureHandler t ∨ t = .stream ∧ f = streamHandler t

/-- At every point of a call the frames and `_jpg_buf` are in order, and at its end none is held. -/
theorem frames_returned (t : Task) (f : Sketch) (hf : TakesFrames t f)
    (xs : List (Choice Env (Firmware.Beside (State.holding t)))) (l : List Sketch) (s u : State)
    (hs : (s.holding t).Idle) (h : advance (Firmware.Beside.react _) xs [f] s = some (l, u)) :
    (u.holding t).Sound ∧ (l = [] → (u.holding t).Idle) := by
  have hc : Handles t Holding.Idle f Holding.Idle := by
    rcases hf with rfl | rfl | ⟨rfl, rfl⟩
    · exact handles_faceRecognition t
    · exact handles_captureHandler t
    · exact handles_streamHandler
  exact Spec.Leads.advance (Firmware.Beside.view_react _) hc (fun _ hv => hv.sound) hs h

/-- A stream of frames until the calls fail. -/
def streamed : List (Choice Env (Firmware.Beside (State.holding .stream))) :=
  List.replicate 60 (.run {}) ++ List.replicate 30 (.run { ok := false })

theorem frames_returned_stream : ∃ u, advance (Firmware.Beside.react (State.holding .stream)) streamed
      [streamHandler .stream] (powerOn fun _ => {}) = some ([], u) ∧ (u.holding .stream).Idle :=
  ⟨_, rfl, (frames_returned .stream _ (.inr (.inr ⟨rfl, rfl⟩)) streamed [] (powerOn fun _ => {}) _
    ⟨by decide, by decide, rfl⟩ rfl).2 rfl⟩

end Cam
