import TruckLock.CamFace
import TruckLock.Tasks

/-!
# ESP32-CAM_FaceRecognition_SD_EnrollFace.c

`setup` and `loop`, the handlers of the two HTTP servers, and the device that
the three tasks make. Nothing depends on the time, so pauses are left out.
-/
namespace Cam

open Firmware

/-- `/capture`. -/
def captureHandler (t : Task) : Sketch :=
  .seq (fbGet t) <|
  .ite (fun _ s => (s.fb t).isNone) .skip <|
  .seq (fbRead t) <|
  .ite (fun _ s => s.plain t) (.seq (fbRead t) (fbReturn t)) <|
  .seq (allocImage t) <|
  .ite (fun _ s => !s.ok t) (fbReturn t) <|
  .block [
    fmt2rgb888 t,
    fbReturn t,
    .when (fun _ s => s.ok t) <| .when (fun i _ => i.netBoxes) <|
      .when (fun _ s => s.recognitionEnabled ≠ 0) (runFaceRecognition t),
    free t .imageMatrix]

def fail : Sketch := .set fun s => { s with res := false }

/-- `frame2jpg` or `fmt2jpg` into a new buffer; both look at the frame. -/
def toJpg (t : Task) : Sketch :=
  .seq (fbRead t) <| .act fun i s => { s with
    ok := put s.ok t i.ok, jpgBuf := if i.ok then .heap else s.jpgBuf
  }.emit (.alloc t .jpg i.ok)

/-- `_jpg_buf = fb->buf`. -/
def borrow (t : Task) : Sketch := .set fun s => { s with jpgBuf := .frame }.emit (.fbRead t)

def giveBack (t : Task) : Sketch :=
  .seq (fbReturn t) (.set fun s => { s with fb := put s.fb t none })

/-- The image of a frame after `face_detect`. -/
def streamImage (t : Task) (netBoxes : Int) : Sketch :=
  .seq (fbRead t) <|
  .ite (fun _ s => netBoxes ≠ 0 || s.raw t)
    (.block [
      .when (fun _ _ => netBoxes ≠ 0) <|
        .when (fun _ s => s.recognitionEnabled ≠ 0) (runFaceRecognition t),
      toJpg t,
      .when (fun _ s => !s.ok t) fail,
      giveBack t])
    (borrow t)

def streamFrame (t : Task) : Sketch :=
  .seq (fbRead t) <|
  .ite (fun _ s => s.plain t)
    (.seq (fbRead t) <|
      .ite (fun _ s => s.raw t)
        (.block [toJpg t, giveBack t, .when (fun _ s => !s.ok t) fail])
        (borrow t))
    (.seq (allocImage t) <| .ite (fun _ s => !s.ok t) fail <|
      .seq
        (.seq (fmt2rgb888 t) <| .ite (fun _ s => !s.ok t) fail <|
          .ite (fun _ s => s.detectionEnabled ≠ 0)
            (.get (fun i _ => if i.netBoxes then 1 else 0) (streamImage t))
            (streamImage t 0))
        (free t .imageMatrix))

def sendChunk : Sketch := .when (fun _ s => s.res) (.act fun i s => { s with res := i.ok })

/-- The chunk with `_jpg_buf`, which may be the frame's own buffer. -/
def sendJpg (t : Task) : Sketch :=
  .when (fun _ s => s.res) <|
    .seq (.when (fun _ s => s.jpgBuf = .frame) (fbRead t)) (.act fun i s => { s with res := i.ok })

/-- `/stream`: frames until a call fails. -/
def streamHandler (t : Task) : Sketch :=
  .block [
    .set fun s => { s with streamState := true, jpgBuf := .null },
    .act fun i s => { s with res := i.ok },
    .whilst (fun _ s => s.res) <| .block [
      fbGet t,
      .ite (fun _ s => (s.fb t).isNone) fail (streamFrame t),
      sendChunk, sendJpg t, sendChunk,
      .ite (fun _ s => (s.fb t).isSome)
        (.seq (giveBack t) (.set fun s => { s with jpgBuf := .null }))
        (.when (fun _ s => s.jpgBuf ≠ .null) <|
          .seq (free t .jpg) (.set fun s => { s with jpgBuf := .null })),
      .when (fun _ s => !s.res) (.set fun s => { s with streamState := false })],
    .set fun s => { s with streamState := false }]

/-- The effect of a request to `/control`. -/
def cmdHandler : Control → Sketch
  | .faceDetect val =>
    .seq (.set fun s => { s with detectionEnabled := Int8.ofInt val })
      (.when (fun _ s => s.detectionEnabled = 0) (.set fun s => { s with recognitionEnabled := 0 }))
  | .faceEnroll val => .set fun s => { s with isEnrolling := Int8.ofInt val }
  | .faceRecognize val =>
    .seq (.set fun s => { s with recognitionEnabled := Int8.ofInt val })
      (.when (fun _ s => s.recognitionEnabled ≠ 0)
        (.set fun s => { s with detectionEnabled := Int8.ofInt val }))
  | .flash val => .set fun s => { s with flashValue := Int8.ofInt val }
  | .sensor => .skip
  | .facename index name =>
    .set fun s => { s with recognizeFaceMatchedName := fun j =>
      if (j.val : Int) = index then name else s.recognizeFaceMatchedName j }.emit (.named index)
  | .clearface => .set fun s => s.emit .cleared
  | .undefined => .skip

/-- One `sprintf` of a number at the end of `json_response`. -/
def sprintf (name : String) (number : Env → State → Text) (rest : Text) : Sketch :=
  .act fun i s => { s with
    jsonResponse := s.jsonResponse ++ '"' :: (name.toList ++ '"' :: ':' :: number i s) ++ rest }

/-- `%u` of an `int`, and of what is promoted to one. -/
def asUnsigned (n : Int) : Text := (toString (unsigned n)).toList

/-- `/status`. -/
def statusHandler : Sketch :=
  .block [
    .set fun s => { s with jsonResponse := ['{'] },
    sprintf "framesize" (fun i _ => (toString i.sensor.framesize).toList) [','],
    sprintf "quality" (fun i _ => (toString i.sensor.quality).toList) [','],
    sprintf "brightness" (fun i _ => (toString i.sensor.brightness).toList) [','],
    sprintf "contrast" (fun i _ => (toString i.sensor.contrast).toList) [','],
    sprintf "face_detect" (fun _ s => asUnsigned s.detectionEnabled.toInt) [','],
    sprintf "face_enroll" (fun _ s => asUnsigned s.isEnrolling.toInt) [','],
    sprintf "face_recognize" (fun _ s => asUnsigned s.recognitionEnabled.toInt) [','],
    sprintf "flash" (fun _ s => asUnsigned s.flashValue.toInt) [],
    .set fun s => { s with jsonResponse := s.jsonResponse ++ ['}'] }]

/-- The handlers of the server on port 80. -/
def cameraHandle : Option Request → Sketch
  | some .status => statusHandler
  | some .capture => captureHandler .camera
  | some (.control c) => cmdHandler c
  | _ => .skip

def streamHandle : Option Request → Sketch
  | some .stream => streamHandler .stream
  | _ => .skip

/-- The task of a server, from `httpd_start` on. -/
def serve (t : Task) (handle : Option Request → Sketch) : Sketch :=
  .seq (.whilst (fun _ s => !s.started t) .skip)
    (.forever (.poll (fun i => i.request.isSome) fun i => handle i.request))

def httpdStart (t : Task) : Sketch :=
  .when (fun i _ => i.ok) (.set fun s => { s with started := put s.started t true })

/-- One file of the SD card: a sample of the first face in it. Without the file the card is
unmounted. -/
def enrollFile (t : Task) (file : Nat) : Sketch :=
  .ite (fun _ s => s.mounted && (s.card file).present)
    (.seq (allocWhen t .imageMatrix fun _ s => (s.card file).imageMatrix) <|
      .when (fun _ s => s.ok t) <| .seq
        (.when (fun _ s => (s.card file).found) <|
          .seq (allocWhen t .alignedFace fun _ s => (s.card file).alignedFace) <|
          .when (fun _ s => (s.card file).aligned) <| .seq
            (.when (fun _ s => s.ok t) <|
              .act fun i s => { s with leftSampleFace := put s.leftSampleFace t i.leftSampleFace }.emit
                (.sample t (some file) i.leftSampleFace))
            (free t .alignedFace))
        (free t .imageMatrix))
    (.set fun s => { s with mounted := false })

/-- The files `/1.jpg` to `/10.jpg`. -/
def files : List Nat := [1, 2, 3, 4, 5, 6, 7, 8, 9, 10]

def encrollImageSD (t : Task) : Sketch :=
  .block [
    .ite (fun i _ => i.ok) (.set fun s => { s with mounted := true }) .reset,
    .block (files.map (enrollFile t)),
    .set fun s => { s with mounted := false }]

def setup : Sketch :=
  .block [
    .when (fun i _ => !i.ok) .reset,
    encrollImageSD .loop,
    httpdStart .camera,
    httpdStart .stream,
    .set fun s => { s with camTXPin := true }]

def loop : Sketch :=
  .block [
    .when (fun _ s => !s.streamState && s.recognitionEnabled = 1) (faceRecognition .loop),
    .when (fun _ s => s.camRXPin) (.set fun s => { s with camTXPin := true })]

/-- The request line as Center drives it. -/
def react : Outside → State → State
  | .line level, s =>
    { s with
      camRXPin := level
      log := if s.camRXPin = true ∧ level = false then .fell :: s.log else s.log }

/-- A reset releases the answer line; the request line, the card and the log are not the device's. -/
def restart (s : State) : State := { camRXPin := s.camRXPin, card := s.card, log := .boot :: s.log }

def device : Team Task State Env Outside where
  boot
    | .loop => .seq setup (.forever loop)
    | .camera => serve .camera cameraHandle
    | .stream => serve .stream streamHandle
  react := react
  restart := restart

def powerOn (card : Nat → Image) : State := { card := card, log := [.boot] }

end Cam
