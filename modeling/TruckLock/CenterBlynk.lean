import TruckLock.CenterState

/-!
# offBlynk.h

The handlers of the app's writes, and the calls of the Blynk library that may
start them. `sendCmd` of the library runs the handlers of whatever has arrived
before it sends, but not from inside a handler: a handler's own virtual writes
are `reply`.
-/
namespace Center

open Firmware

variable (P : Platform)

/-- `Blynk.virtualWrite` inside a handler. -/
def reply (pin : Nat) (values : List Value) : Sketch :=
  .act fun i s => if i.link then s.emit (.reply pin values) else s

def blynkWriteV1 : Sketch :=
  .ite (fun _ s => s.BLOCK)
    (.block [
      delay 10,
      reply 1 [.int 0],
      delay 20,
      reply 4 [.text "Kiểm tra nồng độ cồn sau: 6 giờ 0 phút"],
      delay 20,
      .set fun s => { s with unblockNowState := true }.emit (.appUnblock s.BLOCK)])
    (.block [
      delay 10,
      reply 1 [.int 1],
      delay 20,
      reply 4 [.text "   Đã khoá"],
      delay 20,
      .set fun s => { s with blockNowState := true }.emit (.appBlock s.BLOCK)])

/-- The row counter goes back to 1; the cell written is 105, and nothing commits it. -/
def blynkWriteV11 (param : Param) : Sketch :=
  .when (fun _ _ => param.asFloat = 1) <| .block [
    .set fun s => { s with rowIndex := 1 },
    .set fun s => s.write 105 (byte s.rowIndex),
    delay 10,
    reply 10 [.text "clr"],
    delay 20]

def blynkWriteV21 (param : Param) : Sketch :=
  .block [delay 10, .set fun s => { s with temperatureValue := trunc param.asFloat }, delay 10]

def blynkWriteV22 (param : Param) : Sketch :=
  .block [delay 10, .set fun s => { s with humidityValue := trunc param.asFloat }, delay 10]

/-- A two-byte setting: the high byte through `asFloat`, the low one through `asInt`. -/
def writeWord (high low : Nat) (param : Param) : Sketch :=
  .block [
    delay 10,
    .set fun s => s.write high (P.floatToByte (param.asFloat / 256)),
    .set fun s => s.write low (byte (param.asInt.tmod 256)),
    .set State.commit]

def blynkWriteV30 (param : Param) : Sketch :=
  .block [writeWord P 100 101 param, delay 10]

def blynkWriteV32 (param : Param) : Sketch :=
  .block [
    delay 10,
    .set fun s => s.write 102 (P.floatToByte param.asFloat),
    .set State.commit,
    delay 10,
    .set fun s => { s with downLimit := s.read 102 },
    delay 10]

def blynkWriteV33 (param : Param) : Sketch :=
  .block [
    delay 10,
    .set fun s => s.write 103 (P.floatToByte param.asFloat),
    .set State.commit,
    delay 10,
    .set fun s => { s with upLimit := s.read 103 },
    delay 10]

def blynkWriteV34 (param : Param) : Sketch :=
  .block [
    writeWord P 104 105 param,
    delay 10,
    .set fun s => { s with threshold := s.read 104 * 256 + s.read 105 },
    delay 10]

/-- `BLYNK_WRITE`: the handler of a virtual pin. -/
def blynkWrite (w : AppWrite) : Sketch :=
  match w.pin with
  | .V1 => blynkWriteV1
  | .V11 => blynkWriteV11 w.param
  | .V21 => blynkWriteV21 w.param
  | .V22 => blynkWriteV22 w.param
  | .V30 => blynkWriteV30 P w.param
  | .V32 => blynkWriteV32 P w.param
  | .V33 => blynkWriteV33 P w.param
  | .V34 => blynkWriteV34 P w.param

def handleApp : Option AppWrite → Sketch
  | some w => .seq (.set fun s => s.emit (.app w)) (blynkWrite P w)
  | none => .skip

/-- `Blynk.run()`: the handlers of any number of app writes that have arrived. -/
def blynkRun : Sketch := .poll (fun i => i.app.isSome) fun i => handleApp P i.app

/-- A call of the library that sends: handlers first, then the message if the link is up. -/
def send (e : State → Event) : Sketch :=
  .seq (blynkRun P) (.act fun i s => if i.link then s.emit (e s) else s)

def virtualWrite (pin : Nat) (values : State → List Value) : Sketch :=
  send P fun s => .virtualWrite pin (values s)

def updateToTable : Sketch :=
  .block [
    .when (fun _ s => 21 ≤ s.rowIndex) (.set fun s => { s with rowIndex := 1 }),
    delay 10,
    .get (fun _ s => s.rowIndex) fun row =>
      virtualWrite P 10 fun s =>
        [.text "add", .int row, .text s.currentDateTime, .text "Tài xế say"],
    delay 20,
    .get (fun _ s => s.rowIndex) fun row => virtualWrite P 10 fun _ => [.text "pick", .int row],
    delay 20,
    .set fun s => { s with rowIndex := s.rowIndex + 1 },
    .set fun s => s.write 106 (byte s.rowIndex),
    .set State.commit]

def clockCurrent : Sketch := .act fun i s => { s with currentDateTime := i.clockText }

def blinkLedConnect : Sketch :=
  .ite (fun _ s => s.ledConnect)
    (.block [.set fun s => { s with ledConnect := false }, virtualWrite P 0 fun _ => [.int 0],
      delay 20])
    (.block [.set fun s => { s with ledConnect := true }, virtualWrite P 0 fun _ => [.int 255],
      delay 20])

def handleTimer : Option TimerCall → Sketch
  | some .blinkLedConnect => blinkLedConnect P
  | some .clockCurrent => clockCurrent
  | none => .skip

/-- `timer.run()`; the two timers are set only after the Wi-Fi has connected. -/
def timerRun : Sketch :=
  .when (fun _ s => s.wifiFlash) (.poll (fun i => i.timer.isSome) fun i => handleTimer P i.timer)

end Center
