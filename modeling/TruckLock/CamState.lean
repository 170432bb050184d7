import TruckLock.Code
import Mathlib.Algebra.Group.Int.Defs
import Mathlib.Logic.Function.Basic

/-!
# The state of the ESP32-CAM sketch

The globals of the sketch under their own names, the local variables of its
three tasks, the line to Center and the one from it, and a log of the calls
that take, read or give back a frame or a buffer, recognise a face or drive the
line. What the libraries answer is the input of the statement that calls them.
-/
namespace Cam

open Firmware

/-- `loop` and the two HTTP servers; each server handles one request at a time. -/
inductive Task where
  | loop | camera | stream
  deriving DecidableEq, Repr

instance decidableTask (p : Task → Prop) [DecidablePred p] : Decidable (∀ t, p t) :=
  decidable_of_iff (p .loop ∧ p .camera ∧ p .stream)
    ⟨fun ⟨hl, hc, hs⟩ t => by cases t <;> assumption, fun h => ⟨h _, h _, h _⟩⟩

/-- A C string. -/
abbrev Text := List Char

structure Frame where
  width : Int
  height : Int
  jpeg : Bool
  deriving DecidableEq, Repr

inductive Buffer where
  | imageMatrix | alignedFace | jpg | temp
  deriving DecidableEq, Repr

/-- What `_jpg_buf` points to. -/
inductive JpgBuf where
  | null | frame | heap
  deriving DecidableEq, Repr

/-- A request to `/control`, with the number that its text stands for. -/
inductive Control where
  | faceDetect (val : Int)
  | faceEnroll (val : Int)
  | faceRecognize (val : Int)
  | flash (val : Int)
  | sensor
  | facename (index : Int) (name : Text)
  | clearface
  | undefined
  deriving DecidableEq, Repr

inductive Request where
  | index | status | capture | stream
  | control (c : Control)
  deriving DecidableEq, Repr

inductive Event where
  | boot
  | fell
  | fbGet (t : Task) (fb : Option Frame)
  | fbRead (t : Task)
  | fbReturn (t : Task)
  | alloc (t : Task) (b : Buffer) (ok : Bool)
  | free (t : Task) (b : Buffer)
  | sample (t : Task) (file : Option Nat) (leftSampleFace : Int8)
  | recognised (t : Task) (matchedId : Int)
  | asked (t : Task) (level : Bool)
  | answered (t : Task)
  | print (t : Task) (x : Int) (str : Text)
  | named (index : Int)
  | cleared
  deriving DecidableEq, Repr

/-- What becomes of one file of the SD card: whether it can be opened, whether there is memory for
its image and for its face, and whether `face_detect` and `align_face` succeed on it. -/
structure Image where
  present : Bool := true
  imageMatrix : Bool := true
  found : Bool := true
  aligned : Bool := true
  alignedFace : Bool := true
  deriving DecidableEq, Repr

/-- What `status_handler` shows of the sensor. -/
structure Sensor where
  framesize : Nat := 5
  quality : Nat := 10
  brightness : Int := 0
  contrast : Int := 0
  deriving DecidableEq, Repr

/-- What one statement may find outside: the frame, whether a call succeeds, the answers of the
face library, the sensor, and a request to a server. -/
structure Env where
  fb : Option Frame := some ⟨400, 296, true⟩
  ok : Bool := true
  netBoxes : Bool := false
  leftSampleFace : Int8 := 0
  tail : Nat := 0
  recognizeFace : Int := -1
  sensor : Sensor := {}
  request : Option Request := none

/-- What happens beside the program: Center sets the level of the request line. -/
inductive Outside where
  | line (level : Bool)
  deriving DecidableEq, Repr

structure State where
  camTXPin : Bool := true
  camRXPin : Bool := true
  started : Task → Bool := fun _ => false
  streamState : Bool := false
  detectionEnabled : Int8 := 1
  recognitionEnabled : Int8 := 1
  isEnrolling : Int8 := 0
  flashValue : Int8 := 0
  recognizeFaceMatchedName : Fin 7 → Text := fun j => ("Name" ++ toString j.val).toList
  ok : Task → Bool := fun _ => true
  fb : Task → Option Frame := fun _ => none
  width : Task → Int := fun _ => 0
  matchedId : Task → Int := fun _ => 0
  leftSampleFace : Task → Int8 := fun _ => 0
  level : Task → Bool := fun _ => true
  str : Task → Text := fun _ => []
  res : Bool := true
  jsonResponse : Text := []
  jpgBuf : JpgBuf := .null
  mounted : Bool := false
  card : Nat → Image
  log : List Event := []

namespace State

def emit (s : State) (e : Event) : State := { s with log := e :: s.log }

/-- The frame that the task holds is not a JPEG. -/
def raw (s : State) (t : Task) : Bool := (s.fb t).any fun fb => !fb.jpeg

/-- `!detection_enabled || fb->width > 400`. -/
def plain (s : State) (t : Task) : Bool :=
  s.detectionEnabled = 0 || (s.fb t).any fun fb => 400 < fb.width

end State

abbrev Sketch := Code State Env

def put {α : Type} (f : Task → α) (t : Task) (a : α) : Task → α := Function.update f t a

def fbGet (t : Task) : Sketch := .act fun i s => { s with fb := put s.fb t i.fb }.emit (.fbGet t i.fb)

/-- A look at the frame behind `fb`. -/
def fbRead (t : Task) : Sketch := .set fun s => s.emit (.fbRead t)

def fbReturn (t : Task) : Sketch := .set fun s => s.emit (.fbReturn t)

/-- `fmt2rgb888(fb->buf, fb->len, fb->format, out_buf)`. -/
def fmt2rgb888 (t : Task) : Sketch := .act fun i s => { s with ok := put s.ok t i.ok }.emit (.fbRead t)

def allocWhen (t : Task) (b : Buffer) (ok : Env → State → Bool) : Sketch :=
  .act fun i s => { s with ok := put s.ok t (ok i s) }.emit (.alloc t b (ok i s))

def alloc (t : Task) (b : Buffer) : Sketch := allocWhen t b fun i _ => i.ok

/-- `dl_matrix3du_alloc(1, fb->width, fb->height, 3)`. -/
def allocImage (t : Task) : Sketch :=
  .seq (.set fun s => { s with width := put s.width t ((s.fb t).elim 0 Frame.width) }.emit (.fbRead t))
    (alloc t .imageMatrix)

def free (t : Task) (b : Buffer) : Sketch := .set fun s => s.emit (.free t b)

/-- The `uint32_t` of an `int`. -/
def unsigned (n : Int) : Nat := (n % 2 ^ 32).toNat

/-- `(fb.width - (strlen(str) * 14)) / 2`, unsigned. -/
def printX (width : Int) (str : Text) : Int := unsigned (width - str.length * 14) / 2

/-- `rgb_print` of the task's text. -/
def rgbPrint (t : Task) : Sketch :=
  .set fun s => s.emit (.print t (printX (s.width t) (s.str t)) (s.str t))

/-- `rgb_printf`: texts of 64 characters and more do not fit in `loc_buf`. -/
def rgbPrintf (t : Task) (str : State → Text) : Sketch :=
  .block [
    .set fun s => { s with str := put s.str t (str s) },
    .ite (fun _ s => 64 ≤ (s.str t).length)
      (.seq (alloc t .temp) (.when (fun _ s => s.ok t) (printed t)))
      (printed t)]
where
  printed (t : Task) : Sketch :=
    .seq (rgbPrint t) (.when (fun _ s => 64 < (s.str t).length) (free t .temp))

end Cam
