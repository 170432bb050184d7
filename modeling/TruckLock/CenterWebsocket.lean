import TruckLock.CenterMeasure

/-!
# offWebsocket.h
-/
namespace Center

open Firmware

variable (P : Platform)

/-- `webSocket.broadcastTXT`; `r` is the request it answers, if it answers one. -/
def broadcastTXT (c : Command) (r : Option Request) : Sketch :=
  .set fun s => s.emit (.broadcast c r)

/-- The event of a new connection carries its URL, which is `/` for the relay. -/
def webSocketEvent (payload : String) : Sketch :=
  if payload = "relayClosing" then
    .block [
      .set fun s => { s with led := false },
      .set fun s => { s with previousCheckConnectOfCenterVsRelay := s.millis }]
  else if payload = "relayOpening" then
    .block [
      .set fun s => { s with led := true },
      .set fun s => { s with previousCheckConnectOfCenterVsRelay := s.millis }]
  else if payload = "/" then
    .block [
      .ite (fun _ s => s.timedownMinute = 0) (broadcastTXT .blockNow none)
        (broadcastTXT .unblockNow none),
      .set fun s => { s with previousCheckConnectOfCenterVsRelay := s.millis },
      .set fun s => { s with relayConnection := true },
      delay 10,
      virtualWrite P 6 fun _ => [.text " "],
      delay 20,
      .set fun s => { s with k := true }]
  else .skip

def handleFrame : Option String → Sketch
  | some payload => .seq (.set fun s => s.emit (.frame payload)) (webSocketEvent P payload)
  | none => .skip

/-- `webSocket.loop()`: any number of connections and text frames, from any clients. -/
def webSocketLoop : Sketch := .poll (fun i => i.frame.isSome) fun i => handleFrame P i.frame

/-- The two cells of the countdown, added up once. -/
def readCountdown : Sketch :=
  .set fun s => { s with timedownMinute := s.read 100 * 256 + s.read 101 }

/-- The reports of a detected concentration to the app. -/
def reportAlcohol : Sketch :=
  .block [
    updateToTable P,
    delay 10,
    virtualWrite P 1 fun _ => [.int 1],
    delay 20,
    .ite (fun _ s => s.milligramsPerLiter ≤ 2)
      (virtualWrite P 3 fun s =>
        [.text "Nồng độ cồn: ", .real s.milligramsPerLiter 3, .text " mg/L"])
      (virtualWrite P 3 fun _ => [.text "Nồng độ cồn: > 2 mg/L"]),
    delay 20,
    send P fun _ => .notify "Tài xế đang có nồng độ cồn!",
    delay 20,
    send P fun _ => .email "Nồng độ cồn" "Tài xế đang có nồng độ cồn",
    delay 20]

def answerIsAlcohol : Sketch :=
  .when (fun _ s => s.isAlcoholState) <| .block [
    broadcastTXT .detectAlcohol (some .isAlcohol),
    .set fun s => { s with timedownMinute := 0 },
    .set fun s => { s with BLOCK := true },
    .set fun s => { s with isAlcoholState := false },
    .when (fun _ s => s.wifiFlash) (reportAlcohol P),
    delay 2000]

def reportNotAlcohol : Sketch :=
  .block [
    delay 10,
    virtualWrite P 1 fun _ => [.int 0],
    delay 20,
    virtualWrite P 3 fun _ => [.text "Không phát hiện nồng độ cồn"],
    delay 20]

def answerNotAlcohol : Sketch :=
  .when (fun _ s => s.notAlcoholState) <| .block [
    broadcastTXT .notDetectAlcohol (some .notAlcohol),
    readCountdown,
    .set fun s => { s with BLOCK := false },
    .set fun s => { s with notAlcoholState := false },
    .when (fun _ s => s.wifiFlash) (reportNotAlcohol P),
    delay 2000,
    .set fun s => { s with previousOneMinuteCounter := s.millis }]

def answerBlockNow : Sketch :=
  .when (fun _ s => s.blockNowState) <| .block [
    broadcastTXT .blockNow (some .blockNow),
    .set fun s => { s with timedownMinute := 0 },
    .set fun s => { s with BLOCK := true },
    .set fun s => { s with blockNowState := false }]

def answerUnblockNow : Sketch :=
  .when (fun _ s => s.unblockNowState) <| .block [
    broadcastTXT .unblockNow (some .unblockNow),
    readCountdown,
    .set fun s => { s with BLOCK := false },
    .set fun s => { s with unblockNowState := false },
    .set fun s => { s with previousOneMinuteCounter := s.millis }]

/-- The watchdog of the relay's connection. -/
def checkRelay : Sketch :=
  .when (fun _ s => 25000 < elapsed s.millis s.previousCheckConnectOfCenterVsRelay && s.k) <|
    .block [
      .set fun s => s.emit .relayLost,
      delay 50,
      virtualWrite P 6 fun _ => [.text "   Lỗi kết nối với Relay"],
      .get (fun _ s => s.millis) fun t =>
        .whilst (fun _ s => elapsed s.millis t.toNat < 1000) .reset]

def updateWebsocket : Sketch :=
  .block [answerIsAlcohol P, answerNotAlcohol P, answerBlockNow, answerUnblockNow, checkRelay P]

end Center
