import TruckLock.CenterWebsocket

/-!
# Center.v7.c and offWebserver.h

`setup`, `loop` and the device they make. The two copies of the body of
`loop` differ in what they tell the app about the countdown.
-/
namespace Center

open Firmware

variable (P : Platform)

/-- The bytes of a C string. -/
def cString (l : List UInt8) : List UInt8 := l.takeWhile (· ≠ 0)

def tenWifi (s : State) : List UInt8 := (List.range 32).map s.rom

def mkWifi (s : State) : List UInt8 := (List.range 64).map fun i => s.rom (32 + i)

def writeBytes (a : Nat) (l : List UInt8) (s : State) : State :=
  (l.zipIdx).foldl (fun s p => s.write (a + p.2) p.1) s

theorem writeBytes_spec (a : Nat) (l : List UInt8) (s : State) :
    ∃ m, writeBytes a l s = { s with rom := m } := by
  have h : ∀ (ps : List (UInt8 × Nat)) (s : State),
      ∃ m, ps.foldl (fun s p => s.write (a + p.2) p.1) s = { s with rom := m } := by
    intro ps
    induction ps with
    | nil => exact fun s => ⟨s.rom, rfl⟩
    | cons p ps ih => exact fun s => ih (s.write (a + p.2) p.1)
  exact h _ s

/-- Store the credentials of the form and restart; the loops copy the whole texts. -/
def caiDat (tenWiFi matkhau : List UInt8) : Sketch :=
  .block [
    .when (fun _ _ => 0 < tenWiFi.length && 0 < matkhau.length) <| .block [
      .set (writeBytes 0 (List.replicate 96 0)),
      delay 400,
      .set (writeBytes 0 tenWiFi),
      .set (writeBytes 32 matkhau),
      delay 400,
      .set State.commit,
      delay 200],
    .reset]

def handleRequest : Option WebRequest → Sketch
  | some (.caidat tenWiFi matkhau) => caiDat tenWiFi matkhau
  | _ => .skip

/-- `server.handleClient()`. -/
def handleClient : Sketch := .poll (fun i => i.web.isSome) fun i => handleRequest i.web

/-- `testWiFi`: at most `n` looks at the Wi-Fi, half a second apart. -/
def testWiFi (yes no : Sketch) : Nat → Sketch
  | 0 => no
  | n + 1 => .ite (fun i _ => i.wifi) yes (.seq (delay 500) (testWiFi yes no n))

def setLed (b : Bool) : Sketch := .set fun s => { s with led := b }

def setupOnline : Sketch :=
  .block [
    setLed true,
    delay 500,
    .set fun s => { s with wifiFlash := true },
    delay 500,
    .times 7 (.block [setLed false, delay 20, setLed true, delay 20]),
    blynkRun P,
    delay 20,
    setLed true,
    delay 500]

def setupOffline : Sketch :=
  .block [setLed false, .set fun s => { s with wifiFlash := false }, delay 500]

def setup : Sketch :=
  .block [
    .set fun s => { s with rom := s.flash },
    .set fun s => { s with attached := true },
    .set fun s => { s with camTXPin := true },
    .set fun s => { s with downLimit := s.read 102 },
    .set fun s => { s with upLimit := s.read 103 },
    .set fun s => { s with threshold := s.read 104 * 256 + s.read 105 },
    .ite (fun i _ => i.oled) .skip (.whilst (fun _ _ => true) .skip),
    delay 200,
    .set fun s => s.emit (.wifi (cString (tenWifi s)) (cString (mkWifi s))),
    delay 10,
    testWiFi (setupOnline P) setupOffline 20,
    delay 1,
    .set fun s => { s with rowIndex := s.read 106 },
    .set fun s => { s with BLOCK := true },
    delay 10,
    virtualWrite P 1 fun _ => [.int 1],
    delay 20,
    virtualWrite P 6 fun _ => [.text "   Lỗi kết nối với Relay"],
    delay 20,
    .set fun s => { s with previousOneMinuteCounter := s.millis },
    .set fun s => { s with alcoholFlash := false },
    .set fun s => s.emit .started]

/-- `if (millis() - previousMillis > 1000) updateWebsocket();` -/
def updateGate : Sketch :=
  .when (fun _ s => 1000 < elapsed s.millis s.previousMillis) <| .block [
    .set fun s => { s with previousMillis := s.millis },
    updateWebsocket P]

/-- The countdown on V4; the copy without Wi-Fi writes to the OLED only. -/
def statusGate (online : Bool) : Sketch :=
  .when (fun _ s => 1000 < elapsed s.millis s.previousUpdateStatusOnBlynk) <| .block [
    .set fun s => { s with previousUpdateStatusOnBlynk := s.millis },
    .get (fun _ s => s.timedownMinute) fun m =>
      .when (fun _ _ => online) <|
        .ite (fun _ s => !s.BLOCK)
          (.block [
            delay 10,
            virtualWrite P 4 fun _ => [.text "Khoá sau: ", .int (m.tdiv 60), .text " giờ ",
              .int (m.tmod 60), .text " phút"],
            delay 20])
          (.block [delay 10, virtualWrite P 4 fun _ => [.text "   Đã khoá"], delay 20]),
    delay 10]

/-- The end of the countdown. -/
def expire : Sketch :=
  .block [
    .set fun s => { s with blockNowState := true }.emit .expired,
    setLed false,
    .set fun s => { s with BLOCK := true }]

def minuteGate : Sketch :=
  .when (fun _ s => 59953 < elapsed s.millis s.previousOneMinuteCounter && s.timedownMinute ≠ 0) <|
    .block [
      .set fun s => { s with previousOneMinuteCounter := s.millis },
      .set fun s => { s with timedownMinute := s.timedownMinute - 1 },
      .when (fun _ s => s.timedownMinute = 0) expire]

def alcoholGate : Sketch :=
  .when (fun _ s => s.alcoholFlash) <| .block [
    delay 200,
    .get (fun _ s => s.downLimit) fun downLimit => .get (fun _ s => s.upLimit) fun upLimit =>
      .get (fun _ s => s.threshold) fun threshold => readIsAlcohol P downLimit upLimit threshold,
    delay 20]

def loopBody (online : Bool) : Sketch :=
  .block [
    handleClient,
    webSocketLoop P,
    updateGate P,
    statusGate P online,
    minuteGate,
    alcoholGate P,
    blynkRun P,
    timerRun P,
    delay 10]

def loop : Sketch :=
  .ite (fun _ s => !s.wifiFlash) (loopBody P false)
    (.ite (fun i _ => i.wifi) (loopBody P true) (.block [setLed false, delay 100, .reset]))

def react : Outside → State → State
  | .wait ms, s => s.wait ms
  | .button spin, s => if s.attached then measureAlcoholConcentration spin s else s

/-- Power-on with the given flash. -/
def powerOn (flash : Nat → UInt8) : State := { rom := flash, flash := flash, log := [.boot] }

/-- A reset keeps the flash; the log is not the device's and goes on. -/
def restart (s : State) : State := { powerOn s.flash with log := .boot :: s.log }

def device : Machine State Env Outside where
  boot := .seq (setup P) (.forever (loop P))
  react := react
  restart := restart

abbrev Run := List (Choice Env Outside)

/-- The device after a run from power-on. -/
def after (flash : Nat → UInt8) (xs : Run) : Config State Env :=
  (device P).exec xs ((device P).start (powerOn flash))

/-- A platform for runs by hand. -/
def bench : Platform where
  milligrams _ := 0
  outOfRange _ := 0

/-- A flash with a stored duration of `n` minutes and the other cells 0. -/
def flashOf (n : UInt8) : Nat → UInt8 := fun a => if a = 101 then n else 0

def idle (n : Nat) : Run := List.replicate n (.run {})

/-- The app writes `n` on V1. -/
def tap (n : Int) : Run := [.run { app := some ⟨.V1, .ofInt n⟩ }]

def pause (ms : Nat) : Run := [.outside (.wait ms)]

/-- The first tap of the app reaches Center at the end of the first round of `loop`, and is
answered a second later. -/
def tapped : Run := idle 223 ++ tap 0 ++ idle 40 ++ pause 1000 ++ idle 92

def rounds (i : Env) (n : Nat) : Run := List.replicate n (.run i)

/-- A press that ends 110 ms later. -/
def press : Run := [.outside (.button [(0, 50), (0, 60)])]

/-- A press, one sample `i`, and the call of `readIsAlcohol` that closes the test. -/
def tested (i : Env) : Run :=
  idle 164 ++ press ++ rounds i 140 ++ pause 7000 ++ rounds i 141

/-- A recognised driver with something on the sensor. -/
def drunk : Env := { adc := 5, camRX := false }

end Center
