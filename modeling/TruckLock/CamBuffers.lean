import TruckLock.Buffers
import TruckLock.Calls
import TruckLock.Cam

/-!
# The camera's working buffers

The matrices of `dl_matrix3du_alloc` and the text buffer of `rgb_printf`: which
of them are freed by the end of the function that takes them.
-/
namespace Cam

open Firmware Spec Buffers

/-- What a task does with the pointer to a buffer; the matrices' may be null when it is freed. -/
def Event.bufferUse (t : Task) (b : Buffer) : Event → Option Use
  | .boot => some .restart
  | .alloc u c ok => if u = t ∧ c = b then some (.alloc ok) else none
  | .free u c => if u = t ∧ c = b then some (if b = .temp then .free else .release) else none
  | _ => none

/-- The matrices of a task, and whether its last call succeeded. -/
structure Matrices where
  ok : Bool
  image : Option Pointer
  face : Option Pointer

def State.matrices (t : Task) (s : State) : Matrices where
  ok := s.ok t
  image := pointer (Event.bufferUse t .imageMatrix) s.log
  face := pointer (Event.bufferUse t .alignedFace) s.log

namespace Matrices

structure Sound (v : Matrices) : Prop where
  image : v.image ≠ none
  face : v.face ≠ none

/-- No matrix is held. -/
structure Idle (v : Matrices) : Prop where
  image : Rests v.image
  face : Rests v.face

/-- The image of a frame. -/
structure Has (p : Pointer) (v : Matrices) : Prop where
  image : v.image = some p
  face : Rests v.face

/-- The image of a frame and the face in it. -/
structure HasBoth (p : Pointer) (v : Matrices) : Prop where
  image : v.image = some p
  face : v.face = some .live

/-- An image has been asked for. -/
structure AskedImage (v : Matrices) : Prop where
  image : v.image = some (if v.ok then .live else .null)
  face : Rests v.face

/-- A face has been asked for. -/
structure AskedFace (p : Pointer) (v : Matrices) : Prop where
  image : v.image = some p
  face : v.face = some (if v.ok then .live else .null)

variable {v : Matrices} {p : Pointer}

theorem Idle.sound (h : v.Idle) : v.Sound := ⟨h.image.sound, h.face.sound⟩

theorem Has.sound (h : v.Has p) : v.Sound := ⟨by simp [h.image], h.face.sound⟩

theorem HasBoth.sound (h : v.HasBoth p) : v.Sound := ⟨by simp [h.image], by simp [h.face]⟩

theorem AskedImage.sound (h : v.AskedImage) : v.Sound := ⟨by simp [h.image], h.face.sound⟩

theorem AskedFace.sound (h : v.AskedFace p) : v.Sound := ⟨by simp [h.image], by simp [h.face]⟩

end Matrices

/-- A piece of code as the matrices see it. -/
abbrev Works (t : Task) (A : Matrices → Prop) (c : Sketch) (B : Matrices → Prop) : Prop :=
  (within Matrices.Sound Matrices.Idle).Leads (State.matrices t) A c B

/-- The matrices of the task stay as they are. -/
abbrev Apart (t : Task) (c : Sketch) : Prop :=
  Made (fun s s' : State => (s'.matrices t).image = (s.matrices t).image ∧
    (s'.matrices t).face = (s.matrices t).face) (fun _ => False) c

section

variable (t : Task)

theorem image_emit {e : Event} (he : e.bufferUse t .imageMatrix = none) (s : State) :
    ((s.emit e).matrices t).image = (s.matrices t).image :=
  pointer_other he

theorem face_emit {e : Event} (he : e.bufferUse t .alignedFace = none) (s : State) :
    ((s.emit e).matrices t).face = (s.matrices t).face :=
  pointer_other he

theorem apart_alloc {b : Buffer} (hi : b ≠ .imageMatrix) (hf : b ≠ .alignedFace) : Apart t (alloc t b) :=
  fun _ s => ⟨image_emit t (by simp [Event.bufferUse, hi]) _, face_emit t (by simp [Event.bufferUse, hf]) _⟩

theorem apart_free {b : Buffer} (hi : b ≠ .imageMatrix) (hf : b ≠ .alignedFace) : Apart t (free t b) :=
  fun _ s => ⟨image_emit t (by simp [Event.bufferUse, hi]) _, face_emit t (by simp [Event.bufferUse, hf]) _⟩

theorem apart_rgbPrintf (str : State → Text) : Apart t (rgbPrintf t str) := by
  have hp : Apart t (rgbPrintf.printed t) :=
    ⟨fun _ _ => ⟨rfl, rfl⟩, apart_free t (by decide) (by decide), trivial⟩
  exact ⟨fun _ _ => ⟨rfl, rfl⟩, ⟨⟨apart_alloc t (by decide) (by decide), hp, trivial⟩, hp⟩, trivial⟩

theorem apart_enroll : Apart t (enroll t) :=
  ⟨fun _ _ => ⟨rfl, rfl⟩, fun _ => apart_rgbPrintf t _, ⟨fun _ _ => ⟨rfl, rfl⟩, trivial⟩, trivial⟩

theorem apart_recognise : Apart t (recognise t) :=
  ⟨fun _ _ => ⟨rfl, rfl⟩, ⟨⟨fun _ _ => ⟨rfl, rfl⟩, ⟨fun _ _ => ⟨rfl, rfl⟩, trivial⟩⟩, apart_rgbPrintf t _,
    trivial⟩, fun _ _ => ⟨rfl, rfl⟩, fun _ _ => ⟨rfl, rfl⟩, fun _ _ => ⟨rfl, rfl⟩, trivial⟩

/-- Code apart from the matrices keeps what is known of them. -/
theorem works_apart {A : Matrices → Prop} (hA : ∀ v, A v → v.Sound)
    (hk : ∀ v w : Matrices, w.image = v.image → w.face = v.face → A v → A w) {c : Sketch}
    (hc : Apart t c) : Works t A c A := by
  refine Leads.made (m := fun _ v w => w.image = v.image ∧ w.face = v.face) hA (fun _ _ _ h => h)
    (fun v hv => ⟨hA v hv, fun _ w hw _ => ⟨trivial, hk v w hw.1 hw.2 hv⟩⟩) (fun _ h => h.elim) hc

theorem idle_apart {c : Sketch} (hc : Apart t c) : Works t Matrices.Idle c Matrices.Idle :=
  works_apart t (fun _ h => h.sound) (fun _ _ hi hf h => ⟨hi ▸ h.image, hf ▸ h.face⟩) hc

theorem has_apart {p : Pointer} {c : Sketch} (hc : Apart t c) :
    Works t (Matrices.Has p) c (Matrices.Has p) :=
  works_apart t (fun _ h => h.sound) (fun _ _ hi hf h => ⟨hi.trans h.image, hf ▸ h.face⟩) hc

theorem works_allocFace (ok : Env → State → Bool) (p : Pointer) :
    Works t (Matrices.Has p) (allocWhen t .alignedFace ok) (Matrices.AskedFace p) := by
  refine Leads.step (fun _ h => h.sound) fun i s hs _ => ⟨trivial, ?_, ?_⟩
  · exact (image_emit t (by simp [Event.bufferUse]) { s with ok := put s.ok t (ok i s) }).trans hs.image
  · simp only [State.matrices, State.emit, put, Function.update_self]
    exact pointer_alloc (by simp [Event.bufferUse]) hs.face

theorem works_freeFace (p : Pointer) :
    Works t (Matrices.HasBoth p) (free t .alignedFace) (Matrices.Has p) := by
  refine Leads.step (fun _ h => h.sound) fun _ s hs _ => ⟨trivial, ?_, .inr ?_⟩
  · exact (image_emit t (by simp [Event.bufferUse]) s).trans hs.image
  · exact pointer_release (e := .free t .alignedFace) (by simp [Event.bufferUse]) hs.face

theorem works_allocWhen (ok : Env → State → Bool) :
    Works t Matrices.Idle (allocWhen t .imageMatrix ok) Matrices.AskedImage := by
  refine Leads.step (fun _ h => h.sound) fun i s hs _ => ⟨trivial, ?_, ?_⟩
  · simp only [State.matrices, State.emit, put, Function.update_self]
    exact pointer_alloc (by simp [Event.bufferUse]) hs.image
  · rw [face_emit t (by simp [Event.bufferUse]) { s with ok := put s.ok t (ok i s) }]
    exact hs.face

theorem works_freeImage :
    Works t (Matrices.Has .live) (free t .imageMatrix) Matrices.Idle := by
  refine Leads.step (fun _ h => h.sound) fun _ s hs _ => ⟨trivial, .inr ?_, ?_⟩
  · exact pointer_release (e := .free t .imageMatrix) (by simp [Event.bufferUse]) hs.image
  · rw [face_emit t (by simp [Event.bufferUse]) s]
    exact hs.face

/-- The face of a task that has an image. -/
theorem works_runFaceRecognition (p : Pointer) :
    Works t (Matrices.Has p) (runFaceRecognition t) (Matrices.Has p) := by
  have hboth : Works t (Matrices.HasBoth p)
      (.ite (fun i _ => i.ok) (.ite (fun _ s => s.isEnrolling = 1) (enroll t) (recognise t))
        (.seq (.set fun s => { s with str := put s.str t "Human Detected".toList }) (rgbPrint t)))
      (Matrices.HasBoth p) :=
    works_apart t (fun _ h => h.sound) (fun _ _ hi hf h => ⟨hi.trans h.image, hf.trans h.face⟩)
      ⟨⟨apart_enroll t, apart_recognise t⟩, fun _ _ => ⟨rfl, rfl⟩, fun _ _ => ⟨rfl, rfl⟩⟩
  refine .seq (has_apart t fun _ _ => ⟨rfl, rfl⟩) (.seq (works_allocFace t _ p) (.seq
    (Leads.when (fun _ h => h.sound) (fun _ s hs hc => ⟨hs.image, ?_⟩) (fun _ s hs hc => ⟨hs.image, .inl ?_⟩)
    (.seq hboth (.seq (works_freeFace t p) (Leads.done fun _ h => h.sound))))
    (Leads.done fun _ h => h.sound)))
  · rw [hs.face]
    simp [State.matrices, hc]
  · rw [hs.face]
    simp [State.matrices, show s.ok t = false from hc]

/-- What follows the allocation of an image. -/
theorem works_image {a b : Sketch} (ha : Works t Matrices.Idle a Matrices.Idle)
    (hb : Works t (Matrices.Has .live) b Matrices.Idle) :
    Works t Matrices.AskedImage (.ite (fun _ s => !s.ok t) a b) Matrices.Idle := by
  refine Leads.ite (fun _ h => h.sound) (fun _ s hs hc => ⟨.inl ?_, hs.face⟩) (fun _ s hs hc => ⟨?_, hs.face⟩)
    ha hb
  · rw [hs.image]
    simp [State.matrices, show s.ok t = false by simpa using hc]
  · rw [hs.image]
    simp [State.matrices, show s.ok t = true by simpa using hc]

theorem works_allocImage : Works t Matrices.Idle (allocImage t) Matrices.AskedImage :=
  .seq (idle_apart t fun _ _ => ⟨rfl, rfl⟩) (works_allocWhen t _)

theorem works_faceRecognition : Works t Matrices.Idle (faceRecognition t) Matrices.Idle := by
  have hidle : ∀ v : Matrices, v.Idle → v.Sound := fun _ h => h.sound
  have hhas : ∀ v : Matrices, v.Has .live → v.Sound := fun _ h => h.sound
  refine .seq (idle_apart t fun _ _ => ⟨rfl, rfl⟩) (.seq (idle_apart t ⟨trivial, trivial⟩) (.seq
    (works_allocImage t) (.seq (works_image t (idle_apart t fun _ _ => ⟨rfl, rfl⟩) ?_) (Leads.done hidle))))
  refine .seq (has_apart t fun _ _ => ⟨rfl, rfl⟩) (.seq (has_apart t fun _ _ => ⟨rfl, rfl⟩) (.seq ?_ (.seq
    (works_freeImage t) (Leads.done hidle))))
  exact Leads.choose (Leads.choose (works_runFaceRecognition t .live) (Leads.done hhas)) (Leads.done hhas)

theorem works_captureHandler : Works t Matrices.Idle (captureHandler t) Matrices.Idle := by
  have hidle : ∀ v : Matrices, v.Idle → v.Sound := fun _ h => h.sound
  have hhas : ∀ v : Matrices, v.Has .live → v.Sound := fun _ h => h.sound
  refine .seq (idle_apart t fun _ _ => ⟨rfl, rfl⟩) (Leads.choose (Leads.done hidle) (.seq
    (idle_apart t fun _ _ => ⟨rfl, rfl⟩) (Leads.choose
    (idle_apart t ⟨fun _ _ => ⟨rfl, rfl⟩, fun _ _ => ⟨rfl, rfl⟩⟩) (.seq (works_allocImage t)
    (works_image t (idle_apart t fun _ _ => ⟨rfl, rfl⟩) ?_)))))
  refine .seq (has_apart t fun _ _ => ⟨rfl, rfl⟩) (.seq (has_apart t fun _ _ => ⟨rfl, rfl⟩) (.seq ?_ (.seq
    (works_freeImage t) (Leads.done hidle))))
  exact Leads.choose (Leads.choose (Leads.choose (works_runFaceRecognition t .live) (Leads.done hhas))
    (Leads.done hhas)) (Leads.done hhas)

end

/-- The matrices of the enrolment, with what it knows of the card. -/
structure Shelf extends Matrices where
  card : Nat → Image
  mounted : Bool

def State.shelf (t : Task) (s : State) : Shelf where
  toMatrices := s.matrices t
  card := s.card
  mounted := s.mounted

namespace Shelf

variable (card : Nat → Image) (mounted : Bool)

/-- Between two files. -/
structure Between (v : Shelf) : Prop where
  card : v.card = card
  mounted : v.mounted = mounted
  image : Rests v.image
  face : Rests v.face

/-- After the allocation of the image. -/
structure TriedImage (o : Bool) (v : Shelf) : Prop where
  card : v.card = card
  mounted : v.mounted = mounted
  ok : v.ok = o
  image : v.image = some (if o then .live else .null)
  face : Rests v.face

structure HasImage (v : Shelf) : Prop where
  card : v.card = card
  mounted : v.mounted = mounted
  image : v.image = some .live
  face : Rests v.face

/-- After the allocation of the face. -/
structure TriedFace (o : Bool) (v : Shelf) : Prop where
  card : v.card = card
  mounted : v.mounted = mounted
  ok : v.ok = o
  image : v.image = some .live
  face : v.face = some (if o then .live else .null)

/-- A face is left over, or was overwritten by the next one. -/
def Leaked (v : Shelf) : Prop := v.face = some .live ∨ v.face = none

def Lost (v : Shelf) : Prop := v.face = none

end Shelf

/-- There is a face in the image but it is not aligned, and memory for both. -/
def Image.leaks (m : Image) : Bool := m.imageMatrix && m.found && m.alignedFace && !m.aligned

section

open Cam.Shelf

variable (t : Task) {card : Nat → Image} {mounted : Bool} {I Q : Shelf → Prop}

/-- A piece of code as the enrolment's matrices see it. -/
abbrev Shelves (I Q : Shelf → Prop) (t : Task) (A : Shelf → Prop) (c : Sketch) (B : Shelf → Prop) : Prop :=
  (within I Q).Leads (State.shelf t) A c B

theorem shelf_image {e : Event} (he : e.bufferUse t .imageMatrix = none) (s : State) :
    ((s.emit e).shelf t).image = (s.shelf t).image :=
  pointer_other he

theorem shelf_face {e : Event} (he : e.bufferUse t .alignedFace = none) (s : State) :
    ((s.emit e).shelf t).face = (s.shelf t).face :=
  pointer_other he

section

variable (hI : ∀ v : Shelf, v.Sound → I v)
include hI

theorem shelves_allocImage (file : Nat) :
    Shelves I Q t (Between card mounted) (allocWhen t .imageMatrix fun _ s => (s.card file).imageMatrix)
      (TriedImage card mounted (card file).imageMatrix) := by
  refine Leads.step (fun v h => hI v ⟨h.image.sound, h.face.sound⟩) fun i s hs _ =>
    ⟨trivial, hs.card, hs.mounted, ?_, ?_, ?_⟩
  · simp [State.shelf, State.matrices, State.emit, put, show s.card = card from hs.card]
  · rw [← show s.card = card from hs.card]
    refine pointer_alloc (e := .alloc t .imageMatrix (s.card file).imageMatrix) ?_ hs.image
    simp [Event.bufferUse]
  · rw [shelf_face t (by simp [Event.bufferUse])]
    exact hs.face

theorem shelves_allocFace (file : Nat) :
    Shelves I Q t (HasImage card mounted) (allocWhen t .alignedFace fun _ s => (s.card file).alignedFace)
      (TriedFace card mounted (card file).alignedFace) := by
  refine Leads.step (fun v h => hI v ⟨by simp [h.image], h.face.sound⟩) fun i s hs _ =>
    ⟨trivial, hs.card, hs.mounted, ?_, ?_, ?_⟩
  · simp [State.shelf, State.matrices, State.emit, put, show s.card = card from hs.card]
  · rw [shelf_image t (by simp [Event.bufferUse])]
    exact hs.image
  · rw [← show s.card = card from hs.card]
    refine pointer_alloc (e := .alloc t .alignedFace (s.card file).alignedFace) ?_ hs.face
    simp [Event.bufferUse]

theorem shelves_freeImage :
    Shelves I Q t (HasImage card mounted) (free t .imageMatrix) (Between card mounted) := by
  refine Leads.step (fun v h => hI v ⟨by simp [h.image], h.face.sound⟩) fun _ s hs _ =>
    ⟨trivial, hs.card, hs.mounted, .inr ?_, ?_⟩
  · exact pointer_release (e := .free t .imageMatrix) (by simp [Event.bufferUse]) hs.image
  · rw [shelf_face t (by simp [Event.bufferUse])]
    exact hs.face

theorem shelves_freeFace (o : Bool) :
    Shelves I Q t (TriedFace card mounted o) (free t .alignedFace) (HasImage card mounted) := by
  refine Leads.step (fun v h => hI v ⟨by simp [h.image], by simp [h.face]⟩) fun _ s hs _ =>
    ⟨trivial, hs.card, hs.mounted, ?_, ?_⟩
  · rw [shelf_image t (by simp [Event.bufferUse])]
    exact hs.image
  · have he : (Event.free t .alignedFace).bufferUse t .alignedFace = some .release := by simp [Event.bufferUse]
    cases o with
    | true => exact .inr (pointer_release he hs.face)
    | false => exact .inl (pointer_release_null he hs.face)

/-- The face in an image: what is left of it. -/
theorem shelves_face (file : Nat) (hleak : ((card file).found && (card file).alignedFace &&
      !(card file).aligned) = false) :
    Shelves I Q t (HasImage card mounted)
      (.when (fun _ s => (s.card file).found) <|
        .seq (allocWhen t .alignedFace fun _ s => (s.card file).alignedFace) <|
        .when (fun _ s => (s.card file).aligned) <| .seq
          (.when (fun _ s => s.ok t) <|
            .act fun i s => { s with leftSampleFace := put s.leftSampleFace t i.leftSampleFace }.emit
              (.sample t (some file) i.leftSampleFace))
          (free t .alignedFace))
      (HasImage card mounted) := by
  have hhas : ∀ v, HasImage card mounted v → I v := fun v h => hI v ⟨by simp [h.image], h.face.sound⟩
  have htried : ∀ o v, TriedFace card mounted o v → I v :=
    fun o v h => hI v ⟨by simp [h.image], by simp [h.face]⟩
  refine Leads.known (b := (card file).found) hhas (fun _ s hs => ?_) ?_
  · rw [show s.card = card from hs.card]
  cases hfound : (card file).found with
  | false => exact Leads.done hhas
  | true =>
    refine .seq (shelves_allocFace t hI file) (Leads.known (b := (card file).aligned) (htried _)
      (fun _ s hs => by rw [show s.card = card from hs.card]) ?_)
    cases haligned : (card file).aligned with
    | false =>
      have ho : (card file).alignedFace = false := by simpa [hfound, haligned] using hleak
      rw [ho]
      exact Leads.skip (htried _) fun _ h => ⟨h.card, h.mounted, h.image, .inl h.face⟩
    | true =>
      refine .seq (Leads.choose (Leads.step (htried _) fun _ s hs _ => ⟨trivial, ?_⟩) (Leads.done (htried _)))
        (shelves_freeFace t hI _)
      exact ⟨hs.card, hs.mounted, hs.ok, hs.image, hs.face⟩

/-- A file without a leak. -/
theorem shelves_enrollFile (file : Nat) (hleak : (mounted && (card file).present && (card file).leaks) = false) :
    Shelves I Q t (Between card mounted) (enrollFile t file)
      (Between card (mounted && (card file).present)) := by
  have hbetween : ∀ m v, Between card m v → I v := fun m v h => hI v ⟨h.image.sound, h.face.sound⟩
  refine Leads.known (b := mounted && (card file).present) (hbetween _) (fun _ s hs => ?_) ?_
  · rw [show s.mounted = mounted from hs.mounted, show s.card = card from hs.card]
  cases hopen : mounted && (card file).present with
  | false => exact Leads.step (hbetween _) fun _ _ hs _ => ⟨trivial, hs.card, rfl, hs.image, hs.face⟩
  | true =>
    obtain ⟨rfl, -⟩ := Bool.and_eq_true_iff.1 hopen
    have htried : ∀ o v, TriedImage card true o v → I v :=
      fun o v h => hI v ⟨by simp [h.image], h.face.sound⟩
    refine .seq (shelves_allocImage t hI file) (Leads.known (b := (card file).imageMatrix) (htried _)
      (fun _ s hs => hs.ok) ?_)
    cases hm : (card file).imageMatrix with
    | false =>
      exact Leads.skip (htried false) fun _ h => ⟨h.card, h.mounted, .inl h.image, h.face⟩
    | true =>
      have hl : ((card file).found && (card file).alignedFace && !(card file).aligned) = false := by
        simpa [hopen, Image.leaks, hm] using hleak
      exact Triple.pre (.seq (shelves_face t hI file hl) (shelves_freeImage t hI))
        (Spec.stable (htried true)) fun _ h => ⟨h.card, h.mounted, h.image, h.face⟩

end

/-- A face that is left over. -/
theorem shelves_leak (file : Nat) (hopen : (mounted && (card file).present) = true)
    (hleak : (card file).leaks = true) :
    Shelves (fun _ => True) Q t (Between card mounted) (enrollFile t file) Leaked := by
  have htrue : ∀ {A : Shelf → Prop} v, A v → True := fun _ _ => trivial
  have hI : ∀ v : Shelf, v.Sound → True := fun _ _ => trivial
  obtain ⟨⟨⟨hm, hfound⟩, hface⟩, haligned⟩ : (((card file).imageMatrix = true ∧ (card file).found = true) ∧
      (card file).alignedFace = true) ∧ (card file).aligned = false := by
    simpa [Image.leaks, and_assoc] using hleak
  have hlive : ∀ c : Sketch, Shelves (fun _ => True) Q t (TriedFace card mounted true) c Leaked →
      Shelves (fun _ => True) Q t (HasImage card mounted)
        (.seq (allocWhen t .alignedFace fun _ s => (s.card file).alignedFace) c) Leaked := by
    intro c hc
    have hf : Shelves (fun _ => True) Q t (HasImage card mounted) _
        (TriedFace card mounted (card file).alignedFace) := shelves_allocFace t hI file
    rw [hface] at hf
    exact .seq hf hc
  refine Leads.known (b := mounted && (card file).present) htrue (fun _ s hs => ?_) ?_
  · rw [show s.mounted = mounted from hs.mounted, show s.card = card from hs.card]
  rw [hopen]
  refine .seq (shelves_allocImage t hI file) (Leads.known (b := (card file).imageMatrix) htrue
    (fun _ s hs => hs.ok) ?_)
  rw [hm]
  refine .seq (Triple.pre (P := fun s => HasImage card mounted (s.shelf t)) ?_ (Spec.stable htrue) fun _ h =>
      ⟨h.card, h.mounted, h.image, h.face⟩)
    (Leads.step (A := Leaked) htrue fun _ s hs _ => ⟨trivial, ?_⟩)
  · refine Leads.known (b := (card file).found) htrue (fun _ s hs => ?_) ?_
    · rw [show s.card = card from hs.card]
    rw [hfound]
    refine hlive _ (Leads.known (b := (card file).aligned) htrue (fun _ s hs => ?_) ?_)
    · rw [show s.card = card from hs.card]
    rw [haligned]
    exact Leads.skip htrue fun _ h => .inl h.face
  · rw [Leaked, shelf_face t (by simp [Event.bufferUse])]
    exact hs

/-- Nothing frees a face that was left over. -/
theorem shelves_leaked (file : Nat) :
    Shelves (fun _ => True) Q t Leaked (enrollFile t file) Leaked := by
  have htrue : ∀ {A : Shelf → Prop} v, A v → True := fun _ _ => trivial
  have hkeeps : ∀ (f : Env → State → State), (∀ i s, ((f i s).shelf t).face = (s.shelf t).face) →
      Shelves (fun _ => True) Q t Leaked (.act f) Leaked := fun f hf =>
    Leads.step htrue fun i s hs _ => ⟨trivial, by rw [Leaked, hf]; exact hs⟩
  have hlost : ∀ (f : Env → State → State), (∀ i s, (s.shelf t).face = none → ((f i s).shelf t).face = none) →
      Shelves (fun _ => True) Q t Lost (.act f) Lost := fun f hf =>
    Leads.step htrue fun i s hs _ => ⟨trivial, hf i s hs⟩
  have hface : Shelves (fun _ => True) Q t Leaked
      (allocWhen t .alignedFace fun _ s => (s.card file).alignedFace) Lost := by
    refine Leads.step htrue fun _ s hs _ => ⟨trivial, ?_⟩
    have he : (Event.alloc t .alignedFace (s.card file).alignedFace).bufferUse t .alignedFace =
        some (.alloc (s.card file).alignedFace) := by simp [Event.bufferUse]
    exact pointer_lost he hs
  have hdone : Shelves (fun _ => True) Q t Leaked .skip Leaked := Leads.done htrue
  refine Leads.choose (.seq (hkeeps _ fun i s => shelf_face t (by simp [Event.bufferUse]) _)
    (Leads.choose (.seq (Leads.choose (.seq hface ?_) hdone)
    (hkeeps _ fun i s => shelf_face t (by simp [Event.bufferUse]) _)) hdone)) (hkeeps _ fun _ _ => rfl)
  have hsample := hlost (fun i s => { s with leftSampleFace := put s.leftSampleFace t i.leftSampleFace }.emit
    (.sample t (some file) i.leftSampleFace)) fun _ _ h => h
  have hfree := hlost (fun _ s => s.emit (.free t .alignedFace)) fun _ _ h =>
    pointer_none (e := Event.free t .alignedFace) h
  exact (Leads.choose (.seq (Leads.choose hsample (Leads.done htrue)) hfree) (Leads.done htrue)).post
    fun _ h => .inr h

/-- Some file of the list leaves a face over. -/
def leaky (card : Nat → Image) : Bool → List Nat → Bool
  | _, [] => false
  | mounted, file :: fs =>
    mounted && (card file).present && (card file).leaks || leaky card (mounted && (card file).present) fs

theorem shelves_files (hI : ∀ v : Shelf, v.Sound → I v) (fs : List Nat) (h : leaky card mounted fs = false) :
    Shelves I Q t (Between card mounted) (.block (fs.map (enrollFile t))) fun v => v.Idle := by
  induction fs generalizing mounted with
  | nil => exact Leads.skip (fun v h => hI v ⟨h.image.sound, h.face.sound⟩) fun _ h => ⟨h.image, h.face⟩
  | cons file fs ih =>
    obtain ⟨hfile, hfs⟩ := Bool.or_eq_false_iff.1 h
    exact .seq (shelves_enrollFile t hI file hfile) (ih hfs)

theorem shelves_files_leaked (fs : List Nat) :
    Shelves (fun _ => True) Q t Leaked (.block (fs.map (enrollFile t))) Leaked := by
  induction fs with
  | nil => exact Leads.done fun _ _ => trivial
  | cons file fs ih => exact .seq (shelves_leaked t file) ih

theorem shelves_files_leak (fs : List Nat) (h : leaky card mounted fs = true) :
    Shelves (fun _ => True) Q t (Between card mounted) (.block (fs.map (enrollFile t))) Leaked := by
  induction fs generalizing mounted with
  | nil => simp [leaky] at h
  | cons file fs ih =>
    cases hfile : mounted && (card file).present && (card file).leaks with
    | true =>
      obtain ⟨hopen, hleak⟩ := Bool.and_eq_true_iff.1 hfile
      exact .seq (shelves_leak t file hopen hleak) (shelves_files_leaked t fs)
    | false =>
      have hfs : leaky card (mounted && (card file).present) fs = true := by
        simpa [leaky, hfile] using h
      exact .seq (shelves_enrollFile t (fun _ _ => trivial) file hfile) (ih hfs)

/-- The card before the enrolment. -/
structure Inserted (card : Nat → Image) (v : Shelf) : Prop where
  card : v.card = card
  idle : v.Idle

theorem shelves_encrollImageSD (hI : ∀ v : Shelf, v.Sound → I v) {B : Shelf → Prop} (hB : ∀ v, B v → I v)
    (hm : ∀ v w : Shelf, w.toMatrices = v.toMatrices → B v → B w)
    (h : Shelves I Q t (Between card true) (.block (files.map (enrollFile t))) B) :
    Shelves I Q t (Inserted card) (encrollImageSD t) B := by
  have hinserted : ∀ v : Shelf, Inserted card v → I v := fun v h => hI v h.idle.sound
  have hmounted : Shelves I Q t (Inserted card) (.set fun s => { s with mounted := true })
      (Between card true) :=
    Leads.step hinserted fun _ _ hs _ => ⟨trivial, hs.card, rfl, hs.idle.image, hs.idle.face⟩
  refine .seq (Leads.choose hmounted (.reset (Spec.stable hinserted))) (.seq h (.seq
    (Leads.step hB fun _ s hs _ => ⟨trivial, hm (s.shelf t) _ rfl hs⟩) (Leads.done hB)))

/-- In words: among the files before the first missing one, none leaves a face over. -/
theorem leaky_eq_false_iff (fs : List Nat) (hfs : fs.Pairwise (· < ·)) :
    leaky card mounted fs = false ↔ ∀ j ∈ fs, mounted = true →
      (∀ i ∈ fs, i ≤ j → (card i).present = true) → (card j).leaks = false := by
  induction fs generalizing mounted with
  | nil => simp [leaky]
  | cons file fs ih =>
    obtain ⟨hlt, hfs⟩ := List.pairwise_cons.1 hfs
    have hrest : ∀ j ∈ fs, ((∀ i ∈ file :: fs, i ≤ j → (card i).present = true) ↔
        (card file).present = true ∧ ∀ i ∈ fs, i ≤ j → (card i).present = true) := by
      intro j hj
      simp [(hlt j hj).le]
    have hfirst : (∀ i ∈ file :: fs, i ≤ file → (card i).present = true) ↔ (card file).present = true := by
      simp only [List.forall_mem_cons, le_refl, true_implies, and_iff_left_iff_imp]
      intro _ i hi hif
      exact absurd (hlt i hi) (by omega)
    rw [leaky, Bool.or_eq_false_iff, ih hfs, List.forall_mem_cons, hfirst]
    refine and_congr ?_ (forall₂_congr fun j hj => ?_)
    · cases mounted <;> cases (card file).present <;> simp
    · rw [hrest j hj, Bool.and_eq_true]
      tauto

end

/-- The text buffer of a task. -/
structure Texting where
  ok : Bool
  str : Text
  temp : Option Pointer

def State.texting (t : Task) (s : State) : Texting where
  ok := s.ok t
  str := s.str t
  temp := pointer (Event.bufferUse t .temp) s.log

namespace Texting

def Sound (v : Texting) : Prop := v.temp ≠ none

def Idle (v : Texting) : Prop := Rests v.temp

structure Writes (str : Text) (v : Texting) : Prop where
  str : v.str = str
  temp : Rests v.temp

structure Asked (str : Text) (v : Texting) : Prop where
  str : v.str = str
  temp : v.temp = some (if v.ok then .live else .null)

structure Long (str : Text) (v : Texting) : Prop where
  str : v.str = str
  temp : v.temp = some .live

end Texting

section

open Texting

variable (t : Task)

abbrev Formats (t : Task) (A : Texting → Prop) (c : Sketch) (B : Texting → Prop) : Prop :=
  (within Sound Texting.Idle).Leads (State.texting t) A c B

/-- The end of `rgb_printf`. -/
theorem formats_printed {A : Texting → Prop} {str : Text} (hA : ∀ v, A v → v.Sound)
    (hstr : ∀ v, A v → v.str = str) (b : Bool) (hb : decide (64 < str.length) = b)
    (h : Formats t A (if b then free t .temp else .skip) Texting.Idle) :
    Formats t A (rgbPrintf.printed t) Texting.Idle := by
  refine .seq (Leads.step (B := A) hA fun _ _ hs _ => ⟨trivial, hs⟩) (Leads.known hA (fun _ s hs => ?_) h)
  rw [show s.str t = str from hstr _ hs, hb]

theorem formats_alloc {str : Text} : Formats t (Writes str) (alloc t .temp) (Asked str) := by
  refine Leads.step (fun _ h => h.temp.sound) fun i s hs _ => ⟨trivial, hs.str, ?_⟩
  simp only [State.texting, State.emit, put, Function.update_self]
  exact pointer_alloc (by simp [Event.bufferUse]) hs.temp

/-- A text of any other length leaves nothing behind. -/
theorem formats_rgbPrintf (str : Text) (hstr : str.length ≠ 64) :
    Formats t Texting.Idle (rgbPrintf t fun _ => str) Texting.Idle := by
  have hwrites : ∀ v, Writes str v → v.Sound := fun _ h => h.temp.sound
  have hasked : ∀ v, Asked str v → v.Sound := fun v h => by simp [Sound, h.temp]
  have hlong : ∀ v, Long str v → v.Sound := fun v h => by simp [Sound, h.temp]
  have hset : Formats t Texting.Idle (.set fun s => { s with str := put s.str t str }) (Writes str) :=
    Leads.step (fun _ h => h.sound) fun _ s hs _ => ⟨trivial, by simp [State.texting, put], hs⟩
  refine .seq hset (.seq (Leads.known (b := decide (64 ≤ str.length)) hwrites (fun _ s hs => ?_) ?_)
    (Leads.done fun _ h => h.sound))
  · rw [show s.str t = str from hs.str]
  cases hl : decide (64 ≤ str.length) with
  | false =>
    have hshort : ¬ 64 ≤ str.length := of_decide_eq_false hl
    exact formats_printed t hwrites (fun _ h => h.str) false (by simp; omega)
      (Leads.skip hwrites fun _ h => h.temp)
  | true =>
    have hlong64 : 64 ≤ str.length := of_decide_eq_true hl
    have hfree : Formats t (Long str) (free t .temp) Texting.Idle :=
      Leads.step hlong fun _ _ hs _ => ⟨trivial, .inr (pointer_free (by simp [Event.bufferUse]) hs.temp)⟩
    refine .seq (formats_alloc t) (Leads.when hasked (fun _ s hs hc => ⟨hs.str, ?long⟩)
      (fun _ s hs hc => .inl ?none) (formats_printed t hlong (fun _ h => h.str) true (by simp; omega) hfree))
    case long =>
      rw [hs.temp]
      simp [State.texting, show s.ok t = true from hc]
    case none =>
      rw [hs.temp]
      simp [State.texting, show s.ok t = false from hc]

/-- Twelve statements with memory for a text of 64 characters. -/
theorem advance_rgbPrintf (str : Text) (hstr : str.length = 64) (s : State) :
    ∃ u, advance (Firmware.Beside.react (State.texting t)) (List.replicate 12 (.run {}))
        [rgbPrintf t fun _ => str] s = some ([], u) ∧
      u.log = .print t (printX (s.width t) str) str :: .alloc t .temp true :: s.log := by
  simp [advance, rgbPrintf, rgbPrintf.printed, rgbPrint, alloc, allocWhen, Code.step, Code.when, Code.set,
    Code.block, List.replicate, State.emit, put, hstr]

end

/-- The functions that free every matrix they take. -/
def TakesMatrices (t : Task) (f : Sketch) : Prop :=
  f = runFaceRecognition t ∨ f = faceRecognition t ∨ f = captureHandler t

/-- At every point of a call the task's matrices are in order, and at its end none is held. -/
def FreesMatrices (t : Task) (f : Sketch) : Prop :=
  ∀ (xs : List (Choice Env (Firmware.Beside (State.matrices t)))) (l : List Sketch) (s u : State),
    (s.matrices t).Idle → advance (Firmware.Beside.react _) xs [f] s = some (l, u) →
      (u.matrices t).Sound ∧ (l = [] → (u.matrices t).Idle)

/-- The same of the buffer of `rgb_printf` with a text. -/
def FreesText (t : Task) (str : Text) : Prop :=
  ∀ (xs : List (Choice Env (Firmware.Beside (State.texting t)))) (l : List Sketch) (s u : State),
    (s.texting t).Idle → advance (Firmware.Beside.react _) xs [rgbPrintf t fun _ => str] s = some (l, u) →
      (u.texting t).Sound ∧ (l = [] → (u.texting t).Idle)

theorem frees_of_works {t : Task} {f : Sketch} (h : Works t Matrices.Idle f Matrices.Idle) :
    FreesMatrices t f := fun _ _ _ _ hs ha =>
  Spec.Leads.advance (Firmware.Beside.view_react _) h (fun _ hv => hv.sound) hs ha

theorem frees_takes (t : Task) (f : Sketch) (hf : TakesMatrices t f) : FreesMatrices t f := by
  rcases hf with rfl | rfl | rfl
  · intro xs l s u hs ha
    obtain ⟨p, hp, hr⟩ : ∃ p, (s.matrices t).image = some p ∧ Rests (some p) := by
      rcases hs.image with h | h
      · exact ⟨_, h, .inl rfl⟩
      · exact ⟨_, h, .inr rfl⟩
    have h : Works t (Matrices.Has p) (runFaceRecognition t) Matrices.Idle :=
      (works_runFaceRecognition t p).post fun _ h => ⟨h.image ▸ hr, h.face⟩
    exact Spec.Leads.advance (Firmware.Beside.view_react _) h (fun _ hv => hv.sound) ⟨hp, hs.face⟩ ha
  · exact frees_of_works (works_faceRecognition t)
  · exact frees_of_works (works_captureHandler t)

/-- After a complete enrolment. -/
theorem idle_encrollImageSD_iff (t : Task) (xs : List (Choice Env (Firmware.Beside (State.shelf t)))) (s u : State)
    (hs : (s.matrices t).Idle) (h : advance (Firmware.Beside.react _) xs [encrollImageSD t] s = some ([], u)) :
    (u.matrices t).Idle ↔ leaky s.card true files = false := by
  cases hl : leaky s.card true files with
  | false =>
    have hc : Shelves (fun v => v.Sound) (fun v => v.Idle) t (Inserted s.card) (encrollImageSD t)
        fun v => v.Idle :=
      shelves_encrollImageSD t (fun _ h => h) (fun _ h => h.sound) (fun _ _ he h => he ▸ h)
        (shelves_files t (fun _ h => h) files hl)
    have hidle := (Spec.Leads.advance (Firmware.Beside.view_react _) hc (fun _ hv => hv.sound) ⟨rfl, hs⟩ h).2 rfl
    exact iff_of_true hidle rfl
  | true =>
    have hc : Shelves (fun _ => True) Shelf.Leaked t (Inserted s.card) (encrollImageSD t) Shelf.Leaked :=
      shelves_encrollImageSD t (fun _ _ => trivial) (fun _ _ => trivial)
        (fun v w he h => by rw [Shelf.Leaked, he]; exact h) (shelves_files_leak t files hl)
    have hu := (Spec.Leads.advance (Firmware.Beside.view_react _) hc (fun _ _ => trivial) ⟨rfl, hs⟩ h).2 rfl
    simp only [Bool.true_eq_false, iff_false]
    intro hi
    have hface : (u.shelf t).face = some .null ∨ (u.shelf t).face = some .freed := hi.face
    rcases hu with hu | hu <;> rcases hface with hf | hf <;> simp [hu] at hf

theorem freesText_iff (t : Task) (str : Text) : FreesText t str ↔ str.length ≠ 64 := by
  constructor
  · intro h hstr
    obtain ⟨u, ha, hu⟩ := advance_rgbPrintf t str hstr (powerOn fun _ => {})
    have hrest := (h _ [] _ u (.inl rfl) ha).2 rfl
    rw [Texting.Idle, show (u.texting t).temp = pointer (Event.bufferUse t .temp) u.log from rfl, hu] at hrest
    rcases hrest with hrest | hrest <;>
      simp [pointer, Event.bufferUse, Pointer.next, powerOn] at hrest
  · exact fun hstr _ _ _ _ hs ha =>
      Spec.Leads.advance (Firmware.Beside.view_react _) (formats_rgbPrintf t str hstr) (fun _ hv => hv.sound) hs ha

/-- The working buffers are freed, but for a face that the enrolment could not align and for a text
of exactly 64 characters. -/
theorem buffers_freed (t : Task) :
    (∀ f, TakesMatrices t f → FreesMatrices t f) ∧
    (∀ (xs : List (Choice Env (Firmware.Beside (State.shelf t)))) s u, (s.matrices t).Idle →
      advance (Firmware.Beside.react _) xs [encrollImageSD t] s = some ([], u) →
      ((u.matrices t).Idle ↔ ∀ j ∈ files, (∀ i ∈ files, i ≤ j → (s.card i).present = true) →
        (s.card j).leaks = false)) ∧
    ∀ str, FreesText t str ↔ str.length ≠ 64 := by
  refine ⟨frees_takes t, fun xs s u hs h => ?_, freesText_iff t⟩
  rw [idle_encrollImageSD_iff t xs s u hs h, leaky_eq_false_iff files (by decide)]
  simp

set_option maxRecDepth 10000 in
/-- A look at an unknown face, and an enrolment from a card with all ten images. -/
theorem buffers_freed_full :
    (∃ u, advance (Firmware.Beside.react (State.matrices .loop)) (List.replicate 45 (.run { netBoxes := true }))
        [faceRecognition .loop] (powerOn fun _ => {}) = some ([], u) ∧ (u.matrices .loop).Idle) ∧
    ∃ u, advance (Firmware.Beside.react (State.shelf .loop)) (List.replicate 158 (.run {}))
        [encrollImageSD .loop] (powerOn fun _ => {}) = some ([], u) ∧ (u.matrices .loop).Idle := by
  have hidle : ((powerOn fun _ => {}).matrices .loop).Idle := ⟨by decide, by decide⟩
  constructor
  · have hends : (advance (Firmware.Beside.react (State.matrices .loop))
        (List.replicate 45 (.run { netBoxes := true })) [faceRecognition .loop]
        (powerOn fun _ => {})).any (fun p => p.1.isEmpty) = true := by decide +kernel
    obtain ⟨⟨l, u⟩, h, hl⟩ := (Option.any_eq_true _ _).1 hends
    obtain rfl := List.isEmpty_iff.1 hl
    exact ⟨u, h, ((buffers_freed .loop).1 _ (.inr (.inl rfl)) _ _ _ u hidle h).2 rfl⟩
  · have hends : (advance (Firmware.Beside.react (State.shelf .loop)) (List.replicate 158 (.run {}))
        [encrollImageSD .loop] (powerOn fun _ => {})).any (fun p => p.1.isEmpty) = true := by decide +kernel
    obtain ⟨⟨l, u⟩, h, hl⟩ := (Option.any_eq_true _ _).1 hends
    obtain rfl := List.isEmpty_iff.1 hl
    exact ⟨u, h, ((buffers_freed .loop).2.1 _ _ u hidle h).2 (by decide)⟩

/-- A card with one image, in which the face is not aligned. -/
def crooked : Nat → Image := fun j => { present := j = 1, aligned := false }

/-- The face of that image is left over, and so is the buffer of a text of 64 characters. -/
theorem buffers_leaked :
    (¬ ∀ t (xs : List (Choice Env (Firmware.Beside (State.shelf t)))) s u, (s.matrices t).Idle →
      advance (Firmware.Beside.react _) xs [encrollImageSD t] s = some ([], u) → (u.matrices t).Idle) ∧
    ¬ ∀ t str, FreesText t str := by
  constructor
  · intro h
    obtain ⟨hi, hf⟩ := h .loop (List.replicate 47 (.run {})) (powerOn crooked) _ ⟨by decide, by decide⟩ rfl
    revert hf
    decide
  · intro h
    exact (freesText_iff .loop (List.replicate 64 'A')).1 (h _ _) (by simp)

end Cam
