import TruckLock.CamState

/-!
# Face recognition on the ESP32-CAM

`run_face_recognition`, which any task may run, and `faceRecognition`, which
`loop` runs on frames of its own. The drawing of boxes is left out.
-/
namespace Cam

open Firmware

def enrollConfirmTimes : Int := 5

def idText (n : Int) : Text := (toString (unsigned n)).toList

def enroll (t : Task) : Sketch :=
  .block [
    .act fun i s => { s with leftSampleFace := put s.leftSampleFace t i.leftSampleFace }.emit
      (.sample t none i.leftSampleFace),
    .get (fun i _ => i.tail) fun tail =>
      rgbPrintf t fun s => "ID[".toList ++ idText tail ++ "] Sample[".toList ++
        idText (enrollConfirmTimes - (s.leftSampleFace t).toInt) ++ "]".toList,
    .when (fun _ s => s.leftSampleFace t = 0) (.set fun s => { s with isEnrolling := 0 })]

/-- The answer to Center while its request line is low. -/
def answer (t : Task) : Sketch :=
  .seq (.set fun s => { s with level := put s.level t s.camRXPin }.emit (.asked t s.camRXPin))
    (.when (fun _ s => !s.level t) (.set fun s => { s with camTXPin := false }.emit (.answered t)))

/-- The name of a face, of which the sketch has seven. -/
def State.name (s : State) (id : Int) : Option Text :=
  if h : 0 ≤ id ∧ id < 7 then some (s.recognizeFaceMatchedName ⟨id.toNat, by omega⟩) else none

def recognise (t : Task) : Sketch :=
  .seq
    (.act fun i s => { s with matchedId := put s.matchedId t i.recognizeFace }.emit
      (.recognised t i.recognizeFace))
    (.ite (fun _ s => 0 ≤ s.matchedId t)
      (.block [
        answer t,
        rgbPrintf t fun s => "[".toList ++ idText (s.matchedId t) ++ "] ".toList ++
          (s.name (s.matchedId t)).getD "No Name".toList])
      (.block [
        .set fun s => { s with str := put s.str t "Intruder Alert!".toList },
        rgbPrint t,
        .set fun s => { s with matchedId := put s.matchedId t (-1) }]))

def runFaceRecognition (t : Task) : Sketch :=
  .block [
    .set fun s => { s with matchedId := put s.matchedId t 0 },
    alloc t .alignedFace,
    .when (fun _ s => s.ok t) <| .block [
      .ite (fun i _ => i.ok)
        (.ite (fun _ s => s.isEnrolling = 1) (enroll t) (recognise t))
        (.seq (.set fun s => { s with str := put s.str t "Human Detected".toList }) (rgbPrint t)),
      free t .alignedFace]]

def faceRecognition (t : Task) : Sketch :=
  .block [
    fbGet t,
    .when (fun _ s => (s.fb t).isNone) .reset,
    allocImage t,
    .ite (fun _ s => !s.ok t) (fbReturn t) <| .block [
      fmt2rgb888 t,
      fbReturn t,
      .when (fun _ s => s.ok t) <| .when (fun i _ => i.netBoxes) (runFaceRecognition t),
      free t .imageMatrix]]

end Cam
