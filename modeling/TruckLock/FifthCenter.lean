import TruckLock.FirstRelay

/-!
# Center.v5.c

The controller of the fifth version, in which Center itself counts down to the
opening of the lock. The OLED, the temperature and the humidity that it shows
and the blinking LED of the app are left out.
-/
namespace FifthCenter

open Firmware Spec TwoBytes
open Center (elapsed byte Value WebRequest)

inductive Command where
  | detectAlcohol | clearEEPROM | blockNow
  deriving DecidableEq, Repr

inductive Event where
  | boot
  | minute
  | expired
  | raised (c : Command)
  | broadcast (c : Command)
  | frame (payload : String)
  | virtualWrite (pin : Nat) (values : List Value)
  | form (tenWiFi matkhau : List UInt8)
  deriving DecidableEq, Repr

/-- What one statement may find outside; `app` is a tap of the button on V1. -/
structure Env where
  adc : Int := 0
  camRX : Bool := true
  wifi : Bool := true
  link : Bool := true
  web : Option WebRequest := none
  frame : Option String := none
  app : Bool := false
  deriving DecidableEq, Repr

inductive Outside where
  | wait (ms : Nat)
  | button (spin : List (Nat × Nat))
  deriving Repr

structure State where
  clock : Nat := 0
  camTXPin : Bool := true
  led : Bool := false
  wifiFlash : Bool := false
  relayConnection : Bool := true
  alcoholFlash : Bool := false
  BLOCK : Bool := true
  previousMillis : Nat := 0
  previousOneMinuteCounter : Nat := 0
  previousUpdateStatusOnBlynk : Nat := 0
  previousCheckConnectOfCenterVsRelay : Nat := 0
  timedownMinute : Int := 0
  k1_timedown : Int := 0
  k2_timedown : Int := 0
  isAlcoholState : Bool := false
  clearEEPROMState : Bool := false
  blockNowState : Bool := false
  isMatchFaceID : Bool := false
  t1 : Nat := 0
  tLaymau : Nat := 0
  MAX : Int := 0
  MIN : Int := 0
  rom : Nat → UInt8 := fun _ => 0
  flash : Nat → UInt8
  log : List Event := []

namespace State

def emit (s : State) (e : Event) : State := { s with log := e :: s.log }

def millis (s : State) : Nat := s.clock % 2 ^ 32

def wait (s : State) (ms : Nat) : State := { s with clock := s.clock + ms }

def read (s : State) (a : Nat) : Int := (s.rom a).toNat

def write (s : State) (a : Nat) (v : UInt8) : State :=
  { s with rom := fun j => if j = a ∧ a < 512 then v else s.rom j }

def commit (s : State) : State := { s with flash := s.rom }

end State

abbrev Sketch := Code State Env

/-- The pause ends on time, however long an interrupt takes. -/
def delay (ms : Nat) : Sketch :=
  .get (fun _ s => s.clock) fun t => .set fun s => { s with clock := max s.clock (t.toNat + ms) }

def broadcastTXT (c : Command) : Sketch := .set fun s => s.emit (.broadcast c)

def reply (pin : Nat) (values : List Value) : Sketch :=
  .act fun i s => if i.link then s.emit (.virtualWrite pin values) else s

/-- The button of the app asks for the opposite of what is. -/
def blynkWriteV1 : Sketch :=
  .ite (fun _ s => !s.BLOCK)
    (.block [
      reply 1 [.int 1],
      reply 4 [.text "Mở khoá sau: 8 giờ 0 phút"],
      .set fun s => { s with blockNowState := true }.emit (.raised .blockNow)])
    (.block [
      reply 1 [.int 0],
      reply 4 [.text "Khoá đã mở"],
      .set fun s => { s with clearEEPROMState := true }.emit (.raised .clearEEPROM)])

def blynkRun : Sketch := .poll (fun i => i.app) fun _ => blynkWriteV1

def virtualWrite (pin : Nat) (values : State → List Value) : Sketch :=
  .seq blynkRun (.act fun i s => if i.link then s.emit (.virtualWrite pin (values s)) else s)

def writeBytes (a : Nat) (l : List UInt8) (s : State) : State :=
  (l.zipIdx).foldl (fun s p => s.write (a + p.2) p.1) s

/-- Store the credentials of the form and restart; the loops copy the whole texts. -/
def caiDat (tenWiFi matkhau : List UInt8) : Sketch :=
  .block [
    .when (fun _ _ => 0 < tenWiFi.length && 0 < matkhau.length) <| .block [
      .set fun s => (writeBytes 0 (List.replicate 96 0) s).emit (.form tenWiFi matkhau),
      delay 400,
      .set (writeBytes 0 tenWiFi),
      .set (writeBytes 32 matkhau),
      delay 400,
      .set State.commit,
      delay 200],
    .reset]

def handleRequest : Option WebRequest → Sketch
  | some (.caidat tenWiFi matkhau) => caiDat tenWiFi matkhau
  | _ => .skip

/-- `server.handleClient()`. -/
def handleClient : Sketch := .poll (fun i => i.web.isSome) fun i => handleRequest i.web

def webSocketEvent (payloadString : String) : Sketch :=
  if payloadString = "relayClosing" then
    .block [
      .set fun s => { s with led := false },
      .set fun s => { s with previousCheckConnectOfCenterVsRelay := s.millis }]
  else if payloadString = "relayOpening" then
    .block [
      .set fun s => { s with led := true },
      .set fun s => { s with previousCheckConnectOfCenterVsRelay := s.millis }]
  else if payloadString = "/" then
    .block [
      .ite (fun _ s => s.rom 100 = 0 && s.rom 101 = 0) (broadcastTXT .clearEEPROM) (broadcastTXT .blockNow),
      .set fun s => { s with previousCheckConnectOfCenterVsRelay := s.millis },
      .set fun s => { s with relayConnection := true },
      virtualWrite 6 fun _ => [.text " "]]
  else .skip

def handleFrame : Option String → Sketch
  | some payload => .seq (.set fun s => s.emit (.frame payload)) (webSocketEvent payload)
  | none => .skip

def webSocketLoop : Sketch := .poll (fun i => i.frame.isSome) fun i => handleFrame i.frame

/-- The eight hours that a locking command starts. -/
def eightHours : Sketch :=
  .block [
    .set fun s => { s with BLOCK := true },
    .set fun s => s.write 100 1,
    .set fun s => s.write 101 224,
    .set State.commit]

def answerIsAlcohol : Sketch :=
  .when (fun _ s => s.isAlcoholState) <| .block [
    broadcastTXT .detectAlcohol,
    eightHours,
    virtualWrite 1 fun _ => [.int 1],
    virtualWrite 3 fun _ => [.text "Phát hiện nồng độ cồn"],
    virtualWrite 4 fun _ => [.text "Mở khoá sau: 8 giờ 0 phút"],
    .set fun s => { s with isAlcoholState := false },
    delay 2000,
    .set fun s => { s with previousOneMinuteCounter := s.millis }]

def answerClearEEPROM : Sketch :=
  .when (fun _ s => s.clearEEPROMState) <| .block [
    broadcastTXT .clearEEPROM,
    .set fun s => { s with BLOCK := false },
    .set fun s => s.write 100 0,
    .set fun s => s.write 101 0,
    .set State.commit,
    virtualWrite 1 fun _ => [.int 0],
    virtualWrite 3 fun _ => [.text "Không phát hiện nồng độ cồn"],
    virtualWrite 4 fun _ => [.text "Khoá đã mở"],
    .set fun s => { s with clearEEPROMState := false },
    delay 2000]

def answerBlockNow : Sketch :=
  .when (fun _ s => s.blockNowState) <| .block [
    broadcastTXT .blockNow,
    eightHours,
    .set fun s => { s with blockNowState := false },
    .set fun s => { s with previousOneMinuteCounter := s.millis }]

def checkRelay : Sketch :=
  .when (fun _ s => 25000 < elapsed s.millis s.previousCheckConnectOfCenterVsRelay) <| .block [
    virtualWrite 6 fun _ => [.text "Lỗi kết nối"],
    .set fun s => { s with relayConnection := false },
    .set fun s => { s with previousCheckConnectOfCenterVsRelay := s.millis }]

def updateWebsocket : Sketch :=
  .block [answerIsAlcohol, answerClearEEPROM, answerBlockNow, checkRelay]

def updateGate : Sketch :=
  .when (fun _ s => 1000 < elapsed s.millis s.previousMillis) <| .block [
    .set fun s => { s with previousMillis := s.millis },
    updateWebsocket]

/-- The countdown on V4; `pause` is the delay that only the copy without Wi-Fi has. -/
def statusGate (pause : Sketch) : Sketch :=
  .when (fun _ s => 1000 < elapsed s.millis s.previousUpdateStatusOnBlynk) <| .block [
    .set fun s => { s with previousUpdateStatusOnBlynk := s.millis },
    .set fun s => { s with timedownMinute := s.k1_timedown * 256 + s.k2_timedown },
    .ite (fun _ s => s.BLOCK)
      (virtualWrite 4 fun s => [.text "Mở khoá sau: ", .int (s.timedownMinute.tdiv 60), .text " giờ ",
        .int (s.timedownMinute.tmod 60), .text " phút"])
      (virtualWrite 4 fun _ => [.text "Khoá đã mở"]),
    pause]

/-- One minute of the countdown. -/
def minuteGate : Sketch :=
  .when (fun _ s => 59604 < elapsed s.millis s.previousOneMinuteCounter && (s.rom 100 ≠ 0 || s.rom 101 ≠ 0)) <|
    .block [
      .set fun s => { s with previousOneMinuteCounter := s.millis },
      .set fun s => { s with k2_timedown := s.k2_timedown - 1 },
      .set fun s => s.write 101 (byte s.k2_timedown),
      .set fun s => s.commit.emit .minute,
      .ite (fun _ s => s.k2_timedown = 0 && s.k1_timedown ≠ 0)
        (.block [
          .set fun s => { s with k2_timedown := 255 },
          .set fun s => { s with k1_timedown := s.k1_timedown - 1 },
          .set fun s => s.write 101 (byte s.k2_timedown),
          .set fun s => s.write 100 (byte s.k1_timedown),
          .set State.commit])
        (.when (fun _ s => s.k2_timedown = 0 && s.k1_timedown = 0) <| .block [
          .set fun s => { s with clearEEPROMState := true }.emit .expired,
          .set fun s => { s with led := true },
          .set fun s => { s with BLOCK := false }])]

/-- What the samples say, once the time is up. -/
def judge : Sketch :=
  .ite (fun _ s => s.isMatchFaceID)
    (.ite (fun _ s => 100 < s.MAX - 480)
      (.set fun s => { s with isAlcoholState := true }.emit (.raised .detectAlcohol))
      (.ite (fun _ s => 480 - s.MIN < 50) (delay 2000)
        (.set fun s => { s with clearEEPROMState := true }.emit (.raised .clearEEPROM))))
    (delay 2000)

def readIsAlcohol : Sketch :=
  .ite (fun _ s => elapsed s.millis s.t1 < 7000)
    (.when (fun _ s => 500 < elapsed s.millis s.tLaymau) <| .block [
      .set fun s => { s with tLaymau := s.millis },
      .act fun i s => { s with MAX := max s.MAX i.adc, MIN := min s.MIN i.adc },
      .act fun i s => if i.camRX then s else { s with isMatchFaceID := true }])
    (.block [
      .set fun s => { s with alcoholFlash := false },
      judge,
      .set fun s => { s with camTXPin := true },
      .set fun s => { s with isMatchFaceID := false }])

def alcoholGate : Sketch :=
  .when (fun _ s => s.alcoholFlash) <| .block [delay 200, readIsAlcohol, delay 20]

def readCountdown : Sketch :=
  .block [
    .set fun s => { s with k1_timedown := s.read 100 },
    .set fun s => { s with k2_timedown := s.read 101 }]

def loopBody (pause : Sketch) : Sketch :=
  .block [handleClient, webSocketLoop, readCountdown, updateGate, statusGate pause, minuteGate, alcoholGate,
    blynkRun, delay 100]

def loop : Sketch :=
  .ite (fun _ s => !s.wifiFlash) (loopBody (delay 10))
    (.ite (fun i _ => i.wifi) (loopBody .skip)
      (.block [.set fun s => { s with led := false }, delay 100, .reset]))

def setupOnline : Sketch :=
  .block [
    .set fun s => { s with led := true },
    delay 500,
    .set fun s => { s with wifiFlash := true },
    delay 500,
    .times 7 (.block [.set fun s => { s with led := false }, delay 50, .set fun s => { s with led := true }, delay 50]),
    blynkRun,
    .set fun s => { s with led := true },
    delay 500]

def setupOffline : Sketch :=
  .block [.set fun s => { s with led := false }, .set fun s => { s with wifiFlash := false }, delay 500]

/-- `testWiFi` in the condition of `setup`, with `n` of its 20 rounds left. -/
def testWiFi : Nat → Sketch
  | 0 => setupOffline
  | n + 1 => .ite (fun i _ => i.wifi) setupOnline (.seq (delay 500) (testWiFi n))

def setup : Sketch :=
  .block [
    delay 200,
    .set fun s => { s with camTXPin := true },
    .set fun s => { s with rom := s.flash },
    delay 10,
    testWiFi 20,
    .set fun s => s.write 100 1,
    .set fun s => s.write 101 224,
    .set State.commit,
    delay 1,
    .set fun s => { s with BLOCK := true },
    virtualWrite 1 fun _ => [.int 1],
    .set fun s => { s with previousOneMinuteCounter := s.millis },
    .set fun s => { s with alcoholFlash := false }]

/-- `while (millis()-t<100) t1 = millis();` -/
def spin (t : Nat) : List (Nat × Nat) → State → State
  | [], s => s.wait (100 - elapsed s.millis t)
  | (a, b) :: rounds, s =>
    if elapsed (s.wait a).millis t < 100 then
      spin t rounds { s.wait (a + b) with t1 := (s.wait (a + b)).millis }
    else s.wait a

def measureAlcoholConcentration (rounds : List (Nat × Nat)) (s : State) : State :=
  let s := spin s.millis rounds s
  { s with tLaymau := s.millis, camTXPin := false, MAX := 0, MIN := 1024, alcoholFlash := true }

def react : Outside → State → State
  | .wait ms, s => s.wait ms
  | .button spin, s => measureAlcoholConcentration spin s

def device : Machine State Env Outside where
  boot := .seq setup (.forever loop)
  react := react
  restart s := { flash := s.flash, log := .boot :: s.log }

/-- Commands and a restart set the countdown anew, and so do texts that reach its cells. -/
def Event.disturbs : Event → Bool
  | .boot | .raised _ => true
  | .form tenWiFi matkhau => 100 < tenWiFi.length || 68 < matkhau.length
  | _ => false

def minutes (l : List Event) : Nat := l.count .minute

def expiries (l : List Event) : Nat := l.count .expired

/-- Nothing but the time has changed the countdown. -/
def Quiet (l : List Event) : Prop := ∀ e ∈ l, e.disturbs = false

instance (l : List Event) : Decidable (Quiet l) := inferInstanceAs (Decidable (∀ e ∈ l, _))

theorem quiet_of_append {l m : List Event} (h : Quiet (l ++ m)) : Quiet m :=
  fun e he => h e (List.mem_append_right l he)

/-- What the countdown consists of. -/
structure Tally where
  hi : UInt8
  lo : UInt8
  storedHi : UInt8
  storedLo : UInt8
  k1 : Int
  k2 : Int
  isAlcoholState : Bool
  clearEEPROMState : Bool
  blockNowState : Bool
  log : List Event

def State.tally (s : State) : Tally where
  hi := s.rom 100
  lo := s.rom 101
  storedHi := s.flash 100
  storedLo := s.flash 101
  k1 := s.k1_timedown
  k2 := s.k2_timedown
  isAlcoholState := s.isAlcoholState
  clearEEPROMState := s.clearEEPROMState
  blockNowState := s.blockNowState
  log := s.log

theorem tally_wait (s : State) (ms : Nat) : (s.wait ms).tally = s.tally := rfl

theorem tally_spun (s : State) (ms t1 : Nat) : ({ s.wait ms with t1 := t1 } : State).tally = s.tally := rfl

theorem tally_pressed (s : State) (now : Nat) : ({ s with
    tLaymau := now, camTXPin := false, MAX := 0, MIN := 1024, alcoholFlash := true } : State).tally = s.tally := rfl

theorem tally_spin (t : Nat) (rounds : List (Nat × Nat)) (s : State) : (spin t rounds s).tally = s.tally := by
  induction rounds generalizing s with
  | nil => exact tally_wait s _
  | cons p rounds ih =>
    rw [spin]
    split
    · exact (ih _).trans (tally_spun s _ _)
    · exact tally_wait s _

theorem tally_react (r : Outside) (s : State) : (react r s).tally = s.tally := by
  cases r with
  | wait ms => exact tally_wait s ms
  | button rounds => exact (tally_pressed _ _).trans (tally_spin s.millis rounds s)

/-- What is stored, while nothing has disturbed the countdown. -/
structure Stored (N : Nat) (v : Tally) : Prop where
  storedHi : v.storedHi = 0
  count : v.storedLo.toNat + minutes v.log = N
  isAlcoholState : v.isAlcoholState = false
  blockNowState : v.blockNowState = false
  clearEEPROMState : v.clearEEPROMState = true → v.storedLo = 0

/-- The image in RAM is the same, and the end has been noticed. -/
structure Loaded (N : Nat) (v : Tally) : Prop extends Stored N v where
  hi : v.hi = 0
  lo : v.lo = v.storedLo
  expiries : expiries v.log = if minutes v.log = N then 1 else 0

structure Read (N : Nat) (v : Tally) : Prop extends Loaded N v where
  k1 : v.k1 = 0
  k2 : v.k2 = v.lo.toNat

/-- The assertion, while nothing has disturbed the countdown. -/
def Unless (A : Tally → Prop) (v : Tally) : Prop := Quiet v.log → A v

def spec (N : Nat) : Spec Env Tally where
  ok _ _ _ := True
  good _ _ := True
  good_refl _ := trivial
  inv := Unless (Stored N)
  top := Unless (Loaded N)
  fin _ := True

abbrev Turns (N : Nat) (A : Tally → Prop) (c : Sketch) (B : Tally → Prop) : Prop :=
  (spec N).Leads State.tally (Unless A) c (Unless B)

section

variable {N : Nat} {A B : Tally → Prop}

theorem turns_set (hA : ∀ v, A v → Stored N v) {f : State → State} (hl : ∀ s, (f s).log = s.log)
    (h : ∀ s, A s.tally → B (f s).tally) : Turns N A (.set f) B := by
  refine Leads.step (fun v hv hq => hA v (hv hq)) fun _ s hs _ => ⟨trivial, fun hq => h s (hs ?_)⟩
  rwa [show (f s).tally.log = s.tally.log from hl s] at hq

/-- A statement that neither counts nor changes the cells; what disturbs the countdown ends what is
known of it. -/
inductive Aside (s t : State) : Prop where
  | idle (h : t.tally = s.tally)
  | tells (e : Event) (h : t.tally = { s.tally with log := e :: s.log }) (hm : e ≠ .minute) (he : e ≠ .expired)
  | raises (c : Command) (h : t.log = .raised c :: s.log)

theorem turns_aside (ht : ∀ v, A v → Loaded N v)
    (hsay : ∀ v e, e ≠ .minute → e ≠ .expired → A v → A { v with log := e :: v.log }) {c : Sketch}
    (hc : Code.Every (fun _ => Aside) c) : Turns N A c A := by
  refine Triple.every (C := (spec N).on State.tally) (I := fun s => Unless A s.tally) (E := fun _ => Aside)
    (stable fun v hv hq => (ht v (hv hq)).toStored) (fun s hs hq => ht _ (hs hq)) (fun i f k s _ he hs => ?_) hc
  refine ⟨trivial, fun hq => ?_⟩
  cases he with
  | idle h =>
    rw [h] at hq ⊢
    exact hs hq
  | tells e h hm he =>
    rw [h] at hq ⊢
    exact hsay s.tally e hm he (hs (quiet_of_append (l := [e]) hq))
  | raises c h =>
    exact absurd (hq (.raised c) (by rw [show (f i s).tally.log = _ from h]; simp)) (by simp [Event.disturbs])

/-- Nothing leaves the log. -/
abbrev Grows (c : Sketch) : Prop := c.Every fun _ (s t : State) => ∃ l, t.log = l ++ s.log

/-- Any code, once the countdown has been disturbed. -/
theorem turns_lost {c : Sketch} (hc : Grows c) :
    Turns N (fun _ => False) c B := by
  have h : Turns N (fun _ => False) c fun _ => False := by
    refine Triple.every (C := (spec N).on State.tally) (I := fun s => Unless (fun _ => False) s.tally)
      (E := fun _ s t => ∃ l, t.log = l ++ s.log) (stable fun v hv hq => (hv hq).elim)
      (fun s hs hq => (hs hq).elim) (fun i f k s _ he hs => ⟨trivial, fun hq => hs ?_⟩) hc
    obtain ⟨l, hl⟩ := he
    rw [show (f i s).tally.log = l ++ s.log from hl] at hq
    exact quiet_of_append hq
  exact h.post fun _ hv hq => (hv hq).elim

theorem minutes_other {e : Event} (he : e ≠ .minute) (l : List Event) : minutes (e :: l) = minutes l :=
  List.count_cons_of_ne he

theorem expiries_other {e : Event} (he : e ≠ .expired) (l : List Event) : expiries (e :: l) = expiries l :=
  List.count_cons_of_ne he

theorem Loaded.other {v : Tally} (h : Loaded N v) {e : Event} (hm : e ≠ .minute) (he : e ≠ .expired) :
    Loaded N { v with log := e :: v.log } :=
  ⟨⟨h.storedHi, (congrArg _ (minutes_other hm _)).trans h.count, h.isAlcoholState, h.blockNowState,
    h.clearEEPROMState⟩, h.hi, h.lo, by rw [expiries_other he, minutes_other hm]; exact h.expiries⟩

theorem turns_loaded {c : Sketch} (hc : Code.Every (fun _ => Aside) c) : Turns N (Loaded N) c (Loaded N) :=
  turns_aside (fun _ hv => hv) (fun _ _ hm he hv => hv.other hm he) hc

theorem turns_read {c : Sketch} (hc : Code.Every (fun _ => Aside) c) : Turns N (Read N) c (Read N) :=
  turns_aside (fun _ hv => hv.toLoaded) (fun _ _ hm he hv => ⟨hv.toLoaded.other hm he, hv.k1, hv.k2⟩) hc

/-- A plain event. -/
theorem Aside.emit (s : State) {e : Event} (hm : e ≠ .minute) (he : e ≠ .expired) : Aside s (s.emit e) :=
  .tells e rfl hm he

theorem aside_iff {s t : State} : Aside s t ↔ t.tally = s.tally ∨
    (∃ e, t.tally = { s.tally with log := e :: s.log } ∧ e ≠ .minute ∧ e ≠ .expired) ∨
    ∃ c, t.log = .raised c :: s.log := by
  constructor
  · rintro (h | ⟨e, h, hm, he⟩ | ⟨c, h⟩)
    · exact .inl h
    · exact .inr (.inl ⟨e, h, hm, he⟩)
    · exact .inr (.inr ⟨c, h⟩)
  · rintro (h | ⟨e, h, hm, he⟩ | ⟨c, h⟩)
    · exact .idle h
    · exact .tells e h hm he
    · exact .raises c h

theorem aside_broadcastTXT (c : Command) : Code.Every (fun _ => Aside) (broadcastTXT c) :=
  fun _ s => .emit s (by simp) (by simp)

theorem aside_delay (ms : Nat) : Code.Every (fun _ => Aside) (delay ms) := fun _ _ _ => .idle rfl

theorem aside_reply (pin : Nat) (values : List Value) : Code.Every (fun _ => Aside) (reply pin values) := by
  intro i s
  dsimp only
  split
  · exact .emit s (by simp) (by simp)
  · exact .idle rfl

theorem aside_blynkRun : Code.Every (fun _ => Aside) blynkRun := by
  simp [blynkRun, blynkWriteV1, Code.set, Code.Every, aside_reply, aside_iff, State.emit]

theorem aside_virtualWrite (pin : Nat) (values : State → List Value) :
    Code.Every (fun _ => Aside) (virtualWrite pin values) := by
  refine ⟨aside_blynkRun, fun i s => ?_⟩
  dsimp only
  split
  · exact .emit s (by simp) (by simp)
  · exact .idle rfl

theorem aside_webSocketEvent (payload : String) : Code.Every (fun _ => Aside) (webSocketEvent payload) := by
  unfold webSocketEvent
  split_ifs <;> simp [Code.set, Code.Every, aside_broadcastTXT, aside_virtualWrite, aside_iff, State.tally]

theorem aside_webSocketLoop : Code.Every (fun _ => Aside) webSocketLoop := by
  intro i
  show Code.Every _ (handleFrame i.frame)
  cases i.frame with
  | none => trivial
  | some payload => exact ⟨fun _ s => .emit s (by simp) (by simp), aside_webSocketEvent payload⟩

theorem aside_checkRelay : Code.Every (fun _ => Aside) checkRelay := by
  simp [checkRelay, Code.set, Code.when, Code.Every, aside_virtualWrite, aside_iff, State.tally]

theorem aside_statusGate {pause : Sketch} (hp : Code.Every (fun _ => Aside) pause) :
    Code.Every (fun _ => Aside) (statusGate pause) := by
  simp [statusGate, Code.set, Code.when, Code.Every, aside_virtualWrite, aside_iff, State.tally, hp]

theorem aside_readIsAlcohol : Code.Every (fun _ => Aside) readIsAlcohol := by
  have hface : ∀ (i : Env) (s : State), Aside s (if i.camRX then s else { s with isMatchFaceID := true }) := by
    intro i s
    split <;> exact .idle rfl
  simp [readIsAlcohol, judge, Code.set, Code.when, Code.Every, aside_delay, hface, aside_iff, State.tally, State.emit]

theorem aside_alcoholGate : Code.Every (fun _ => Aside) alcoholGate := by
  simp [alcoholGate, Code.when, Code.Every, aside_delay, aside_readIsAlcohol]

theorem Aside.grows {s t : State} (h : Aside s t) : ∃ l, t.log = l ++ s.log := by
  cases h with
  | idle h => exact ⟨[], congrArg Tally.log h⟩
  | tells e h => exact ⟨[e], congrArg Tally.log h⟩
  | raises c h => exact ⟨[.raised c], h⟩

theorem grows_of_aside {c : Sketch} (hc : Code.Every (fun _ => Aside) c) : Grows c := hc.mono fun _ _ _ h => h.grows

theorem grows_delay (ms : Nat) : Grows (delay ms) := grows_of_aside (aside_delay ms)

theorem grows_broadcastTXT (c : Command) : Grows (broadcastTXT c) := grows_of_aside (aside_broadcastTXT c)

theorem grows_virtualWrite (pin : Nat) (values : State → List Value) : Grows (virtualWrite pin values) :=
  grows_of_aside (aside_virtualWrite pin values)

theorem grows_eightHours : Grows eightHours := by
  simp [eightHours, Code.set, Code.Every, State.write, State.commit]

theorem log_writeBytes (a : Nat) (l : List UInt8) (s : State) : (writeBytes a l s).log = s.log := by
  have hlog : ∀ (ps : List (UInt8 × Nat)) (s : State),
      (ps.foldl (fun s p => s.write (a + p.2) p.1) s).log = s.log := by
    intro ps
    induction ps with
    | nil => exact fun _ => rfl
    | cons p ps ih => exact fun s => ih (s.write (a + p.2) p.1)
  exact hlog _ s

/-- A text that ends in front of the cells of the countdown. -/
theorem tally_writeBytes {a : Nat} {l : List UInt8} (h : a + l.length ≤ 100) (s : State) :
    (writeBytes a l s).tally = s.tally := by
  have hcells : ∀ (l : List UInt8) (n : Nat) (s : State), a + n + l.length ≤ 100 →
      ((l.zipIdx n).foldl (fun s p => s.write (a + p.2) p.1) s).tally = s.tally := by
    intro l
    induction l with
    | nil => exact fun _ _ _ => rfl
    | cons b l ih =>
      intro n s hn
      rw [List.length_cons] at hn
      rw [List.zipIdx_cons, List.foldl_cons, ih _ _ (by omega)]
      have h100 : ¬ (100 = a + n ∧ a + n < 512) := by omega
      have h101 : ¬ (101 = a + n ∧ a + n < 512) := by omega
      simp only [State.tally, State.write, if_neg h100, if_neg h101]
  exact hcells l 0 s h

/-- Texts that reach the cells disturb the countdown; the others leave it as it is. -/
theorem turns_caiDat (tenWiFi matkhau : List UInt8) :
    Turns N (Loaded N) (caiDat tenWiFi matkhau) (Loaded N) := by
  have hdone : Turns N (Loaded N) .skip (Loaded N) := Leads.done fun v hv hq => (hv hq).toStored
  have hreset : Turns N (Loaded N) (.block [.reset]) (Loaded N) := turns_loaded ⟨trivial, trivial⟩
  refine .seq (Leads.choose ?_ hdone) hreset
  by_cases hfit : tenWiFi.length ≤ 100 ∧ matkhau.length ≤ 68
  · have hcopy : ∀ a l, a + l.length ≤ 100 → Turns N (Loaded N) (.set (writeBytes a l)) (Loaded N) :=
      fun a l hl => turns_loaded fun _ s => .idle (tally_writeBytes hl s)
    have hform : Turns N (Loaded N)
        (.set fun s => (writeBytes 0 (List.replicate 96 0) s).emit (.form tenWiFi matkhau)) (Loaded N) := by
      refine turns_loaded fun _ s => .tells (.form tenWiFi matkhau) ?_ (by simp) (by simp)
      have ht : (writeBytes 0 (List.replicate 96 0) s).tally = s.tally := tally_writeBytes (by simp) s
      rw [← ht, ← log_writeBytes 0 (List.replicate 96 0) s]
      rfl
    have hcommit : Turns N (Loaded N) (.set State.commit) (Loaded N) := by
      refine turns_set (fun _ hv => hv.toStored) (fun _ => rfl) fun s hv => ?_
      have hcount : s.tally.lo.toNat + minutes s.log = N := by
        rw [hv.lo]
        exact hv.count
      exact ⟨⟨hv.hi, hcount, hv.isAlcoholState, hv.blockNowState, fun h => hv.lo.trans (hv.clearEEPROMState h)⟩,
        hv.hi, rfl, hv.expiries⟩
    exact .seq hform (.seq (turns_loaded (aside_delay _)) (.seq (hcopy 0 _ (by omega)) (.seq (hcopy 32 _ (by omega))
      (.seq (turns_loaded (aside_delay _)) (.seq hcommit (.seq (turns_loaded (aside_delay _)) hdone))))))
  · have hform : Turns N (Loaded N)
        (.set fun s => (writeBytes 0 (List.replicate 96 0) s).emit (.form tenWiFi matkhau)) fun _ => False := by
      refine Leads.step (fun v hv hq => (hv hq).toStored) fun _ s _ _ => ⟨trivial, fun hq => ?_⟩
      have hd : (Event.form tenWiFi matkhau).disturbs = false := hq _ List.mem_cons_self
      simp only [Event.disturbs, Bool.or_eq_false_iff, decide_eq_false_iff_not, not_lt] at hd
      exact hfit hd
    refine .seq hform (turns_lost ?_)
    simp [Code.set, Code.Every, grows_delay, log_writeBytes, State.commit]

theorem turns_handleClient : Turns N (Loaded N) handleClient (Loaded N) := by
  have hst : ∀ v, Unless (Loaded N) v → Unless (Stored N) v := fun v hv hq => (hv hq).toStored
  refine Leads.poll hst fun i => ?_
  cases i.web with
  | none => exact Leads.done hst
  | some w =>
    cases w with
    | root => exact Leads.done hst
    | caidat tenWiFi matkhau => exact turns_caiDat tenWiFi matkhau

theorem turns_readCountdown : Turns N (Loaded N) readCountdown (Read N) := by
  have hk1 : Turns N (Loaded N) (.set fun s => { s with k1_timedown := s.read 100 })
      fun v => Loaded N v ∧ v.k1 = 0 := by
    refine turns_set (fun _ hv => hv.toStored) (fun _ => rfl) fun s hv =>
      ⟨⟨⟨hv.storedHi, hv.count, hv.isAlcoholState, hv.blockNowState, hv.clearEEPROMState⟩, hv.hi, hv.lo,
        hv.expiries⟩, ?_⟩
    exact congrArg (fun b : UInt8 => (b.toNat : Int)) hv.hi
  have hk2 : Turns N (fun v => Loaded N v ∧ v.k1 = 0) (.set fun s => { s with k2_timedown := s.read 101 })
      (Read N) :=
    turns_set (fun _ hv => hv.1.toStored) (fun _ => rfl) fun s hv =>
      ⟨⟨⟨hv.1.storedHi, hv.1.count, hv.1.isAlcoholState, hv.1.blockNowState, hv.1.clearEEPROMState⟩, hv.1.hi,
        hv.1.lo, hv.1.expiries⟩, hv.2, rfl⟩
  exact .seq hk1 (.seq hk2 (Leads.done fun v hv hq => (hv hq).toStored))

/-- A request that only a disturbance can have raised. -/
theorem turns_unasked {p : Env → State → Bool} {c : Sketch}
    (hp : ∀ i s, Read N s.tally → p i s = false)
    (hc : Grows c) : Turns N (Read N) (.when p c) (Read N) := by
  refine Leads.when (T := Unless fun _ => False) (fun v hv hq => (hv hq).toStored) (fun i s hs h hq => ?_)
    (fun _ _ hs _ => hs) (turns_lost hc)
  exact absurd h (by simp [hp i s (hs hq)])

/-- The end of the countdown finds the cells cleared. -/
theorem turns_answerClearEEPROM : Turns N (Read N) answerClearEEPROM (Read N) := by
  let Clear : Tally → Prop := fun v => Read N v ∧ v.storedLo = 0
  have hclear : ∀ {f : State → State}, (∀ s, (f s).log = s.log) → (∀ s, Clear s.tally → Clear (f s).tally) →
      Turns N Clear (.set f) Clear := fun hl h => turns_set (fun _ hv => hv.1.toStored) hl h
  have haside : ∀ {c : Sketch}, Code.Every (fun _ => Aside) c → Turns N Clear c Clear := fun hc =>
    turns_aside (fun _ hv => hv.1.toLoaded) (fun _ _ hm he hv =>
      ⟨⟨hv.1.toLoaded.other hm he, hv.1.k1, hv.1.k2⟩, hv.2⟩) hc
  have hhi : Turns N Clear (.set fun s => s.write 100 0) Clear := hclear (fun _ => rfl) fun s hv =>
    ⟨⟨⟨⟨hv.1.storedHi, hv.1.count, hv.1.isAlcoholState, hv.1.blockNowState, hv.1.clearEEPROMState⟩, rfl,
      hv.1.lo, hv.1.expiries⟩, hv.1.k1, hv.1.k2⟩, hv.2⟩
  have hlo : Turns N Clear (.set fun s => s.write 101 0) Clear := hclear (fun _ => rfl) fun s hv => by
    have hz : s.tally.lo = 0 := hv.1.lo.trans hv.2
    have hk : s.tally.k2 = (0 : UInt8).toNat := hv.1.k2.trans (by rw [hz])
    exact ⟨⟨⟨⟨hv.1.storedHi, hv.1.count, hv.1.isAlcoholState, hv.1.blockNowState, hv.1.clearEEPROMState⟩,
      hv.1.hi, hv.2.symm, hv.1.expiries⟩, hv.1.k1, hk⟩, hv.2⟩
  have hcommit : Turns N Clear (.set State.commit) Clear := hclear (fun _ => rfl) fun s hv => by
    have hz : s.tally.lo = 0 := hv.1.lo.trans hv.2
    have hc : s.tally.lo.toNat + minutes s.log = N := by
      rw [hv.1.lo]
      exact hv.1.count
    exact ⟨⟨⟨⟨hv.1.hi, hc, hv.1.isAlcoholState, hv.1.blockNowState, fun _ => hz⟩, hv.1.hi, rfl,
      hv.1.expiries⟩, hv.1.k1, hv.1.k2⟩, hz⟩
  have hflag : Turns N Clear (.set fun s => { s with clearEEPROMState := false }) Clear :=
    hclear (fun _ => rfl) fun s hv => ⟨⟨⟨⟨hv.1.storedHi, hv.1.count, hv.1.isAlcoholState, hv.1.blockNowState,
      fun h => absurd h (by simp [State.tally])⟩, hv.1.hi, hv.1.lo, hv.1.expiries⟩, hv.1.k1, hv.1.k2⟩, hv.2⟩
  have hread : Turns N Clear .skip (Read N) :=
    Leads.skip (fun v hv hq => (hv hq).1.toStored) fun _ hv hq => (hv hq).1
  refine Leads.when (T := Unless Clear) (fun v hv hq => (hv hq).toStored)
    (fun _ s hs h hq => ⟨hs hq, (hs hq).clearEEPROMState h⟩) (fun _ _ hs _ => hs) ?_
  exact .seq (haside fun _ s => .emit s (by simp) (by simp)) (.seq (haside fun _ _ => .idle rfl) (.seq hhi
    (.seq hlo (.seq hcommit (.seq (haside (aside_virtualWrite _ _)) (.seq (haside (aside_virtualWrite _ _))
    (.seq (haside (aside_virtualWrite _ _)) (.seq hflag (.seq (haside (aside_delay _)) hread)))))))))

theorem turns_updateGate : Turns N (Read N) updateGate (Read N) := by
  have hdone : Turns N (Read N) .skip (Read N) := Leads.done fun v hv hq => (hv hq).toStored
  have halcohol : Turns N (Read N) answerIsAlcohol (Read N) :=
    turns_unasked (fun _ s hs => hs.isAlcoholState) (by
      simp [Code.set, Code.Every, grows_broadcastTXT, grows_eightHours, grows_virtualWrite, grows_delay])
  have hblock : Turns N (Read N) answerBlockNow (Read N) :=
    turns_unasked (fun _ s hs => hs.blockNowState) (by
      simp [Code.set, Code.Every, grows_broadcastTXT, grows_eightHours])
  have hset : Turns N (Read N) (.set fun s => { s with previousMillis := s.millis }) (Read N) :=
    turns_read fun _ _ => .idle rfl
  exact Leads.choose (.seq hset (.seq (.seq halcohol (.seq turns_answerClearEEPROM (.seq hblock
    (.seq (turns_read aside_checkRelay) hdone)))) hdone)) hdone

/-- Below the borrow a minute takes one off the low byte, and the last one raises the request. -/
theorem turns_minuteGate : Turns N (Read N) minuteGate (Loaded N) := by
  let Due : Tally → Prop := fun v => Read N v ∧ v.lo ≠ 0
  let Down : Tally → Prop := fun v => Loaded N v ∧ v.k1 = 0 ∧ v.k2 = v.lo.toNat - 1 ∧ v.lo ≠ 0
  let Written : Tally → Prop := fun v => Stored N v ∧ v.hi = 0 ∧ v.k1 = 0 ∧ v.k2 = v.lo.toNat ∧
    v.lo.toNat + 1 = v.storedLo.toNat ∧ expiries v.log = 0
  let Counted : Tally → Prop := fun v => Stored N v ∧ v.hi = 0 ∧ v.lo = v.storedLo ∧ v.k1 = 0 ∧
    v.k2 = v.lo.toNat ∧ expiries v.log = 0
  have hgate : Turns N Due (.set fun s => { s with previousOneMinuteCounter := s.millis }) Due :=
    turns_aside (fun _ hv => hv.1.toLoaded) (fun _ _ hm he hv => ⟨⟨hv.1.toLoaded.other hm he, hv.1.k1, hv.1.k2⟩,
      hv.2⟩) fun _ _ => .idle rfl
  have hdown : Turns N Due (.set fun s => { s with k2_timedown := s.k2_timedown - 1 }) Down :=
    turns_set (fun _ hv => hv.1.toStored) (fun _ => rfl) fun s hv =>
      ⟨⟨⟨hv.1.storedHi, hv.1.count, hv.1.isAlcoholState, hv.1.blockNowState, hv.1.clearEEPROMState⟩, hv.1.hi,
        hv.1.lo, hv.1.expiries⟩, hv.1.k1, congrArg (· - 1) hv.1.k2, hv.2⟩
  have hwrite : Turns N Down (.set fun s => s.write 101 (byte s.k2_timedown)) Written := by
    refine turns_set (fun _ hv => hv.1.toStored) (fun _ => rfl) fun s hv => ?_
    obtain ⟨hl, hk1, hk, hn⟩ := hv
    have h0 : s.tally.lo.toNat ≠ 0 := fun hz => hn (UInt8.toNat_inj.1 hz)
    have hb : (byte s.tally.k2).toNat = s.tally.lo.toNat - 1 := by rw [hk, FirstRelay.byte_pred hn]
    have hs : s.tally.lo.toNat = s.tally.storedLo.toNat := congrArg UInt8.toNat hl.lo
    have hc := hl.count
    refine ⟨⟨hl.storedHi, hl.count, hl.isAlcoholState, hl.blockNowState, hl.clearEEPROMState⟩, hl.hi, hk1, ?_, ?_,
      hl.expiries.trans (if_neg (by omega))⟩
    · show s.tally.k2 = ((byte s.tally.k2).toNat : Int)
      rw [hb, hk]
      omega
    · show (byte s.tally.k2).toNat + 1 = s.tally.storedLo.toNat
      omega
  have hcommit : Turns N Written (.set fun s => s.commit.emit .minute) Counted := by
    refine Leads.step (fun v hv hq => (hv hq).1) fun _ s hs _ => ⟨trivial, fun hq => ?_⟩
    obtain ⟨hst, hh, hk1, hk2, hl, he⟩ := hs (quiet_of_append (l := [.minute]) hq)
    have hc : s.tally.storedLo.toNat + minutes s.log = N := hst.count
    refine ⟨⟨hh, ?_, hst.isAlcoholState, hst.blockNowState, fun h => ?_⟩, hh, rfl, hk1, hk2,
      (expiries_other (by simp) _).trans he⟩
    · show s.tally.lo.toNat + minutes (.minute :: s.log) = N
      rw [minutes, List.count_cons_self]
      change s.tally.storedLo.toNat + s.log.count .minute = N at hc
      omega
    · have hz : s.tally.storedLo.toNat = 0 := congrArg UInt8.toNat (hst.clearEEPROMState h)
      omega
  have hcount : ∀ v, Counted v → v.k2 ≠ 0 → Loaded N v := by
    rintro v ⟨hst, hh, hl, hk1, hk2, he⟩ hne
    have hc := hst.count
    refine ⟨hst, hh, hl, he.trans (if_neg fun hm => hne ?_).symm⟩
    rw [hk2, hl]
    omega
  let Ended : Tally → Prop := fun v => Counted v ∧ v.k2 = 0
  have hexpire : Turns N Ended (.set fun s => { s with clearEEPROMState := true }.emit .expired) (Loaded N) := by
    refine Leads.step (fun v hv hq => (hv hq).1.1) fun _ s hs _ => ⟨trivial, fun hq => ?_⟩
    obtain ⟨⟨hst, hh, hl, hk1, hk2, he⟩, hz⟩ := hs (quiet_of_append (l := [.expired]) hq)
    have hc : s.tally.storedLo.toNat + minutes s.log = N := hst.count
    have h0 : s.tally.storedLo.toNat = 0 := by
      rw [← hl]
      omega
    refine ⟨⟨hst.storedHi, (congrArg _ (minutes_other (by simp) _)).trans hst.count, hst.isAlcoholState,
      hst.blockNowState, fun _ => UInt8.toNat_inj.1 h0⟩, hh, hl, ?_⟩
    show List.count Event.expired (.expired :: s.log) = if minutes (.expired :: s.log) = N then 1 else 0
    rw [List.count_cons_self, minutes_other (by simp), if_pos (by omega), show List.count _ s.log = 0 from he]
  have hdone : Turns N (Loaded N) .skip (Loaded N) := Leads.done fun v hv hq => (hv hq).toStored
  have hend : Turns N Counted (.when (fun _ s => s.k2_timedown = 0 && s.k1_timedown = 0) <| .block [
      .set fun s => { s with clearEEPROMState := true }.emit .expired,
      .set fun s => { s with led := true },
      .set fun s => { s with BLOCK := false }]) (Loaded N) := by
    refine Leads.when (T := Unless Ended) (fun v hv hq => (hv hq).1) (fun _ s hs hc hq => ⟨hs hq, ?_⟩)
      (fun _ s hs hc hq => hcount _ (hs hq) fun hz => ?_)
      (.seq hexpire (.seq (turns_loaded fun _ _ => .idle rfl) (.seq (turns_loaded fun _ _ => .idle rfl) hdone)))
    · simp only [Bool.and_eq_true, decide_eq_true_eq] at hc
      exact hc.1
    · have hk1 : s.k1_timedown = 0 := (hs hq).2.2.2.1
      have hk2 : s.k2_timedown = 0 := hz
      simp [hk1, hk2] at hc
  have hborrow : ∀ {c d : Sketch}, Grows c → Turns N Counted d (Loaded N) →
      Turns N Counted (.ite (fun _ s => s.k2_timedown = 0 && s.k1_timedown ≠ 0) c d) (Loaded N) := by
    refine fun hc hd => Leads.ite (T := Unless fun _ => False) (fun v hv hq => (hv hq).1)
      (fun _ s hs hk hq => ?_) (fun _ _ hs _ => hs) (turns_lost hc) hd
    simp only [Bool.and_eq_true, decide_eq_true_eq] at hk
    exact hk.2 (hs hq).2.2.2.1
  refine Leads.when (T := Unless Due) (fun v hv hq => (hv hq).toStored) (fun _ s hs hc hq => ⟨hs hq, ?_⟩)
    (fun _ _ hs _ hq => (hs hq).toLoaded) ?_
  · simp only [Bool.and_eq_true, Bool.or_eq_true, decide_eq_true_eq] at hc
    exact hc.2.resolve_left fun hne => hne (hs hq).hi
  · exact .seq hgate (.seq hdown (.seq hwrite (.seq hcommit (.seq (hborrow (by
      simp [Code.set, Code.Every, State.write, State.commit]) hend) hdone))))

theorem turns_loop : Turns N (Loaded N) loop (Loaded N) := by
  have hdone : Turns N (Loaded N) .skip (Loaded N) := Leads.done fun v hv hq => (hv hq).toStored
  have hbody : ∀ {pause : Sketch}, Code.Every (fun _ => Aside) pause →
      Turns N (Loaded N) (loopBody pause) (Loaded N) := fun hp =>
    .seq turns_handleClient (.seq (turns_loaded aside_webSocketLoop) (.seq turns_readCountdown
    (.seq turns_updateGate (.seq (turns_read (aside_statusGate hp)) (.seq turns_minuteGate
    (.seq (turns_loaded aside_alcoholGate) (.seq (turns_loaded aside_blynkRun)
    (.seq (turns_loaded (aside_delay _)) hdone))))))))
  exact Leads.choose (hbody (aside_delay _)) (Leads.choose (hbody trivial)
    (turns_loaded ⟨fun _ _ => .idle rfl, aside_delay _, trivial, trivial⟩))

theorem turns_forever : Triple ((spec N).on State.tally) (fun s => Unless (Loaded N) s.tally) (.forever loop)
    fun _ => False :=
  .forever (fun _ hs => hs) turns_loop

theorem grows_testWiFi (n : Nat) : Grows (testWiFi n) := by
  have hled : ∀ b, Grows (.set fun s => { s with led := b }) := fun _ _ _ => ⟨[], rfl⟩
  have hflash : ∀ b, Grows (.set fun s => { s with wifiFlash := b }) := fun _ _ _ => ⟨[], rfl⟩
  have hblink : Grows (.block [.set fun s => { s with led := false }, delay 50, .set fun s => { s with led := true },
      delay 50]) := ⟨hled false, grows_delay _, hled true, grows_delay _, trivial⟩
  induction n with
  | zero => exact ⟨hled false, hflash false, grows_delay _, trivial⟩
  | succ n ih =>
    exact ⟨⟨hled true, grows_delay _, hflash true, grows_delay _, Code.every_times hblink 7,
      grows_of_aside aside_blynkRun, hled true, grows_delay _, trivial⟩, grows_delay _, ih⟩

/-- After a restart the countdown is no longer the same. -/
theorem turns_sketch : Triple ((spec N).on State.tally) (fun s => Unless (fun _ => False) s.tally) device.boot
    fun _ => False := by
  refine .seq (turns_lost ?_) turns_forever
  simp [setup, Code.set, Code.Every, grows_delay, grows_virtualWrite, grows_testWiFi, State.write, State.commit]

end

/-- At the head of the loop with the given cells, and nothing asked for. -/
structure Fresh (f : Nat → UInt8) (s : State) : Prop where
  rom : s.rom = f
  flash : s.flash = f
  isAlcoholState : s.isAlcoholState = false
  clearEEPROMState : s.clearEEPROMState = false
  blockNowState : s.blockNowState = false
  log : s.log = []

/-- The stored value is what the minutes have left, and the request to open is raised at the last one. -/
structure Counts (N : Nat) (c : Config State Env) : Prop where
  stored : value c.state.flash + minutes c.state.log = N
  raised : c.code = [.forever loop] → expiries c.state.log = if minutes c.state.log = N then 1 else 0

def run (xs : List (Choice Env Outside)) (s : State) : Config State Env := device.exec xs ⟨[.forever loop], s⟩

theorem counts_of_short {f : Nat → UInt8} (h : f 100 = 0) (h0 : 0 < value f) {s : State} (hs : Fresh f s)
    (xs : List (Choice Env Outside)) (hq : Quiet (run xs s).state.log) : Counts (value f) (run xs s) := by
  let C := (spec (value f)).on State.tally
  have hloaded : Loaded (value f) s.tally := by
    refine ⟨⟨(congrFun hs.flash 100).trans h, ?_, hs.isAlcoholState, hs.blockNowState, fun hc => ?_⟩,
      (congrFun hs.rom 100).trans h, congrFun (hs.rom.trans hs.flash.symm) 101, ?_⟩
    · show (s.flash 101).toNat + minutes s.log = value f
      rw [hs.log, hs.flash, value, h]
      simp [minutes]
    · exact absurd (hs.clearEEPROMState.symm.trans hc) (by simp)
    · show expiries s.log = if minutes s.log = value f then 1 else 0
      rw [hs.log, if_neg (show minutes [] ≠ value f by simp [minutes]; omega)]
      rfl
  have hstart : Machine.Always C ⟨[.forever loop], s⟩ := fun n =>
    turns_forever.safe n [] (fun _ hf => hf.elim) s fun _ => hloaded
  have hreset : ∀ s, C.inv s → Unless (fun _ => False) (device.restart s).tally := fun s _ hq =>
    absurd (hq .boot (by simp [device, State.tally])) (by simp [Event.disturbs])
  have hmeet : device.Along (fun x c _ => device.Meet C x c) xs ⟨[.forever loop], s⟩ := by
    refine (along_iff xs _).2 fun _ x _ _ => ?_
    cases x with
    | run i => exact fun _ _ _ => trivial
    | outside r => exact tally_react r _
    | reset => trivial
  have hend := Machine.always_exec turns_sketch hreset xs _ hstart hmeet
  have hst := hend.inv hq
  refine ⟨?_, fun hc => (hend.top hc hq).expiries⟩
  have hc := hst.count
  have hh : ((run xs s).state.flash 100).toNat = 0 := congrArg UInt8.toNat hst.storedHi
  change ((run xs s).state.flash 101).toNat + minutes (run xs s).state.log = value f at hc
  rw [value, hh]
  omega

/-- What the round up to the minute leaves alone, when nothing is asked for. -/
structure Calm (s t : State) : Prop where
  clock : t.clock = s.clock
  wifiFlash : t.wifiFlash = s.wifiFlash
  alcoholFlash : t.alcoholFlash = s.alcoholFlash
  previousOneMinuteCounter : t.previousOneMinuteCounter = s.previousOneMinuteCounter
  k1 : t.k1_timedown = s.k1_timedown
  k2 : t.k2_timedown = s.k2_timedown
  isAlcoholState : t.isAlcoholState = s.isAlcoholState
  clearEEPROMState : t.clearEEPROMState = s.clearEEPROMState
  blockNowState : t.blockNowState = s.blockNowState
  rom : t.rom = s.rom
  flash : t.flash = s.flash
  log : ∃ l, t.log = l ++ s.log ∧ minutes l = 0 ∧ Quiet l

theorem Calm.refl (s : State) : Calm s s :=
  ⟨rfl, rfl, rfl, rfl, rfl, rfl, rfl, rfl, rfl, rfl, rfl, [], rfl, rfl, by simp [Quiet]⟩

theorem Calm.trans {s t u : State} (h : Calm s t) (h' : Calm t u) : Calm s u := by
  obtain ⟨l, hl, hm, hq⟩ := h.log
  obtain ⟨l', hl', hm', hq'⟩ := h'.log
  refine ⟨h'.clock.trans h.clock, h'.wifiFlash.trans h.wifiFlash, h'.alcoholFlash.trans h.alcoholFlash,
    h'.previousOneMinuteCounter.trans h.previousOneMinuteCounter, h'.k1.trans h.k1, h'.k2.trans h.k2,
    h'.isAlcoholState.trans h.isAlcoholState, h'.clearEEPROMState.trans h.clearEEPROMState,
    h'.blockNowState.trans h.blockNowState, h'.rom.trans h.rom, h'.flash.trans h.flash, l' ++ l, ?_, ?_, ?_⟩
  · rw [hl', hl, List.append_assoc]
  · rw [minutes, List.count_append]
    exact Nat.add_eq_zero_iff.2 ⟨hm', hm⟩
  · exact List.forall_mem_append.2 ⟨hq', hq⟩

theorem Calm.emit (s : State) {e : Event} (hm : e ≠ .minute) (hd : e.disturbs = false) : Calm s (s.emit e) :=
  ⟨rfl, rfl, rfl, rfl, rfl, rfl, rfl, rfl, rfl, rfl, rfl, [e], rfl, minutes_other hm [], by simp [Quiet, hd]⟩

/-- What `checkRelay` and the gates set, apart from what they log. -/
theorem Calm.put (s : State) (k : Bool) (checked called shown : Nat) (m : Int) :
    Calm s { s with
      relayConnection := k, previousCheckConnectOfCenterVsRelay := checked, previousMillis := called
      previousUpdateStatusOnBlynk := shown, timedownMinute := m } :=
  ⟨rfl, rfl, rfl, rfl, rfl, rfl, rfl, rfl, rfl, rfl, rfl, (Calm.refl s).log⟩

/-- Code of calm statements; no handler is started. -/
abbrev Calms (c : Sketch) : Prop := Made Calm (fun _ => True) c

theorem calms_virtualWrite (pin : Nat) (values : State → List Value) : Calms (virtualWrite pin values) := by
  refine ⟨trivial, fun i s => ?_⟩
  dsimp only
  split
  · exact .emit s (by simp) rfl
  · exact .refl s

theorem Calms.result {c : Sketch} (hc : Calms c) (i : Env) (s : State) : Calm s (c.result i s) :=
  Code.made_result .refl (fun _ _ _ => .trans) hc i s

theorem calms_checkRelay : Calms checkRelay :=
  ⟨⟨calms_virtualWrite _ _, fun _ s => .put s _ _ _ _ _, fun _ s => .put s _ _ _ _ _, trivial⟩, trivial⟩

theorem direct_virtualWrite (pin : Nat) (values : State → List Value) (s : State) :
    (virtualWrite pin values).Direct {} s := ⟨rfl, trivial⟩

/-- With no request, a call of `updateWebsocket` only looks after the relay. -/
theorem result_updateWebsocket {s : State} (ha : s.isAlcoholState = false) (hc : s.clearEEPROMState = false)
    (hb : s.blockNowState = false) : Calm s (updateWebsocket.result {} s) ∧ updateWebsocket.Direct {} s := by
  have hra : answerIsAlcohol.result {} s = s := Code.result_not ha
  have hrc : answerClearEEPROM.result {} s = s := Code.result_not hc
  have hrb : answerBlockNow.result {} s = s := Code.result_not hb
  have hr : updateWebsocket.result {} s = checkRelay.result {} s := by
    show checkRelay.result {} (answerBlockNow.result {} (answerClearEEPROM.result {} (answerIsAlcohol.result {} s))) = _
    rw [hra, hrc, hrb]
  have hd : checkRelay.Direct {} s := .when ⟨direct_virtualWrite _ _ _, trivial, trivial, trivial⟩
  refine ⟨hr ▸ calms_checkRelay.result {} s, Code.Direct.not ha, ?_, ?_, ?_, trivial⟩
  · exact hra.symm ▸ Code.Direct.not hc
  · rw [hra, hrc]
    exact Code.Direct.not hb
  · rw [hra, hrc, hrb]
    exact hd

theorem calm_updateGate {s : State} (ha : s.isAlcoholState = false) (hc : s.clearEEPROMState = false)
    (hb : s.blockNowState = false) : Calm s (updateGate.result {} s) ∧ updateGate.Direct {} s := by
  have hst : Calm s { s with previousMillis := s.millis } := .put s _ _ _ _ _
  obtain ⟨hr, hd⟩ := result_updateWebsocket (s := { s with previousMillis := s.millis }) ha hc hb
  refine ⟨?_, .when ⟨trivial, hd, trivial⟩⟩
  rw [updateGate]
  by_cases hg : 1000 < elapsed s.millis s.previousMillis
  · rw [Code.result_when, Code.result_cons, Code.result_single]
    · exact hst.trans hr
    · exact decide_eq_true hg
  · rw [Code.result_not]
    · exact .refl s
    · exact decide_eq_false hg

theorem calm_statusGate (s : State) :
    Calm s ((statusGate .skip).result {} s) ∧ (statusGate .skip).Direct {} s := by
  have hc : Calms (statusGate .skip) := ⟨⟨fun _ u => .put u _ _ _ _ _, fun _ u => .put u _ _ _ _ _,
    ⟨calms_virtualWrite _ _, calms_virtualWrite _ _⟩, trivial, trivial⟩, trivial⟩
  exact ⟨hc.result {} s, .when ⟨trivial, trivial, .ite (direct_virtualWrite _ _ _) (direct_virtualWrite _ _ _),
    trivial, trivial⟩⟩

/-- The round of `loop` up to the minute, with Wi-Fi. -/
def upToMinute (s : State) : State :=
  (statusGate .skip).result {} (updateGate.result {} (readCountdown.result {} s))

theorem upToMinute_spec {s : State} (ha : s.isAlcoholState = false) (hc : s.clearEEPROMState = false)
    (hb : s.blockNowState = false) :
    Calm { s with k1_timedown := s.read 100, k2_timedown := s.read 101 } (upToMinute s) :=
  (calm_updateGate (s := readCountdown.result {} s) ha hc hb).1.trans (calm_statusGate _).1

/-- The state after a minute has been counted; `k1_timedown` is not 0. -/
def counted (s : State) : State :=
  let s := { s with previousOneMinuteCounter := s.millis, k2_timedown := s.k2_timedown - 1 }
  let s := ((s.write 101 (byte s.k2_timedown)).commit).emit .minute
  if s.k2_timedown = 0 then
    let s := { s with k2_timedown := 255, k1_timedown := s.k1_timedown - 1 }
    ((s.write 101 (byte s.k2_timedown)).write 100 (byte s.k1_timedown)).commit
  else s

theorem result_minuteGate {s : State} (h : 59604 < elapsed s.millis s.previousOneMinuteCounter)
    (hn : s.rom 100 ≠ 0) (hk : s.k1_timedown ≠ 0) :
    minuteGate.result {} s = counted s ∧ minuteGate.Direct {} s := by
  have hc : (59604 < elapsed s.millis s.previousOneMinuteCounter && (s.rom 100 ≠ 0 || s.rom 101 ≠ 0)) = true := by
    simp [h, hn]
  refine ⟨(if_pos hc).trans ?_, .when ⟨trivial, trivial, trivial, trivial, .ite ⟨trivial, trivial, trivial, trivial,
    trivial, trivial⟩ (.when ⟨trivial, trivial, trivial, trivial⟩), trivial⟩⟩
  by_cases hz : s.k2_timedown - 1 = 0
  · simp [counted, Code.result, Code.set, Code.block, State.write, State.commit, State.emit, hk, hz]
  · simp [counted, Code.result, Code.set, Code.block, Code.when, State.write, State.commit, State.emit, hz]

/-- What such a minute leaves in the cells. -/
structure Counted (s t : State) : Prop where
  flash : t.flash = t.rom
  previousOneMinuteCounter : t.previousOneMinuteCounter = s.millis
  wifiFlash : t.wifiFlash = s.wifiFlash
  alcoholFlash : t.alcoholFlash = s.alcoholFlash
  isAlcoholState : t.isAlcoholState = s.isAlcoholState
  clearEEPROMState : t.clearEEPROMState = s.clearEEPROMState
  blockNowState : t.blockNowState = s.blockNowState
  log : t.log = .minute :: s.log
  lo : t.rom 101 = if s.k2_timedown - 1 = 0 then 255 else byte (s.k2_timedown - 1)
  hi : t.rom 100 = if s.k2_timedown - 1 = 0 then byte (s.k1_timedown - 1) else s.rom 100

theorem counted_spec (s : State) : Counted s (counted s) := by
  unfold counted
  by_cases h : s.k2_timedown - 1 = 0
  · constructor <;> simp [State.write, State.commit, State.emit, State.millis, h]
    rfl
  · simp only [State.write, State.commit, State.emit, if_neg h]
    constructor <;> simp [h, State.millis]

/-- Between two rounds, with Wi-Fi and with nothing asked for. -/
structure Between (s : State) : Prop where
  previousOneMinuteCounter : s.previousOneMinuteCounter < 2 ^ 32
  wifiFlash : s.wifiFlash = true
  alcoholFlash : s.alcoholFlash = false
  isAlcoholState : s.isAlcoholState = false
  clearEEPROMState : s.clearEEPROMState = false
  blockNowState : s.blockNowState = false
  hi : s.rom 100 = s.flash 100
  lo : s.rom 101 = s.flash 101

def storedHi (s : State) : Nat := (s.flash 100).toNat

def storedLo (s : State) : Nat := (s.flash 101).toNat

def counts (s : State) : Nat := minutes s.log

/-- The rest of the round takes time only. -/
theorem result_rest {s : State} (h : s.alcoholFlash = false) :
    (∃ c, (Code.block [alcoholGate, blynkRun, delay 100]).result {} s = { s with clock := c }) ∧
      (Code.block [alcoholGate, blynkRun, delay 100]).Direct {} s := by
  have hr : alcoholGate.result {} s = s := Code.result_not h
  refine ⟨⟨max s.clock ((s.clock : Int).toNat + 100), ?_⟩, Code.Direct.not h, rfl, trivial, trivial⟩
  show (delay 100).result {} (alcoholGate.result {} s) = _
  rw [hr]
  rfl

/-- The round of `loop` with Wi-Fi, piece by piece. -/
theorem result_body {s u : State} (hu : upToMinute s = u) :
    (loopBody .skip).result {} s =
      (Code.block [alcoholGate, blynkRun, delay 100]).result {} (minuteGate.result {} u) := by
  rw [loopBody, Code.result_cons, Code.result_cons, Code.result_cons, Code.result_cons, Code.result_cons,
    Code.result_cons, handleClient, webSocketLoop, Code.result_poll, Code.result_poll, ← hu, upToMinute]

theorem direct_body {s u : State} (hs : Between s) (hu : upToMinute s = u) (hm : minuteGate.Direct {} u)
    (hr : (Code.block [alcoholGate, blynkRun, delay 100]).Direct {} (minuteGate.result {} u)) :
    (loopBody .skip).Direct {} s := by
  subst hu
  exact ⟨rfl, rfl, ⟨trivial, trivial, trivial⟩, (calm_updateGate (s := readCountdown.result {} s) hs.isAlcoholState
    hs.clearEEPROMState hs.blockNowState).2, (calm_statusGate _).2, hm, hr⟩

theorem result_loop {s : State} (h : s.wifiFlash = true) : loop.result {} s = (loopBody .skip).result {} s := by
  rw [loop, Code.result, h]
  rfl

theorem direct_loop {s : State} (h : s.wifiFlash = true) (hd : (loopBody .skip).Direct {} s) :
    loop.Direct {} s := by
  rw [loop, Code.Direct, h]
  exact hd

/-- A round of `loop` in which a minute is due. -/
theorem exec_minute {s : State} (hs : Between s) (h : 59604 < elapsed s.millis s.previousOneMinuteCounter)
    (hn : s.rom 100 ≠ 0) : ∃ xs u t c, device.exec xs ⟨[.forever loop], s⟩ =
      ⟨[.forever loop], { t with clock := c }⟩ ∧
      Calm { s with k1_timedown := s.read 100, k2_timedown := s.read 101 } u ∧ Counted u t := by
  obtain ⟨u, hu⟩ : ∃ u, upToMinute s = u := ⟨_, rfl⟩
  have hc : Calm { s with k1_timedown := s.read 100, k2_timedown := s.read 101 } u :=
    hu ▸ upToMinute_spec hs.isAlcoholState hs.clearEEPROMState hs.blockNowState
  have hk : u.k1_timedown ≠ 0 := by
    rw [hc.k1]
    exact fun hz => hn (UInt8.toNat_inj.1 (Int.ofNat.inj hz))
  have hm : 59604 < elapsed u.millis u.previousOneMinuteCounter := by
    rw [State.millis, hc.clock, hc.previousOneMinuteCounter]
    exact h
  obtain ⟨hg, hgd⟩ := result_minuteGate hm (by rw [hc.rom]; exact hn) hk
  have ht := counted_spec u
  generalize counted u = t at hg ht
  obtain ⟨⟨c, hr⟩, hrd⟩ := result_rest (s := t) (ht.alcoholFlash.trans (hc.alcoholFlash.trans hs.alcoholFlash))
  have hd : loop.Direct {} s := direct_loop hs.wifiFlash (direct_body hs hu hgd (by rw [hg]; exact hrd))
  obtain ⟨xs, hx⟩ := device.exec_round hd
  refine ⟨xs, u, t, c, hx.trans ?_, hc, ht⟩
  rw [result_loop hs.wifiFlash, result_body hu, hg, hr]

theorem ticks_of {s t : State} (hcount : counts t = counts s + 1)
    (hlo : t.flash 101 = if (storedLo s : Int) - 1 = 0 then 255 else byte (storedLo s - 1))
    (hhi : t.flash 100 = if (storedLo s : Int) - 1 = 0 then byte (storedHi s - 1) else s.flash 100) :
    Ticks storedHi storedLo counts s t := by
  have hb : storedHi s < 256 := (s.flash 100).toNat_lt
  have hb' : storedLo s < 256 := (s.flash 101).toNat_lt
  have hbyte : ∀ n : Int, (byte n).toNat = (n % 256).toNat % 256 := fun n => by rw [byte, UInt8.toNat_ofNat']
  by_cases h1 : (storedLo s : Int) - 1 = 0
  · rw [if_pos h1] at hlo hhi
    have hh : storedHi t = (((storedHi s : Int) - 1) % 256).toNat % 256 := by rw [storedHi, hhi, hbyte]
    have hl : storedLo t = 255 := congrArg UInt8.toNat hlo
    exact ⟨hcount, fun h2 => by omega, fun h2 => by omega⟩
  · rw [if_neg h1] at hlo hhi
    have hh : storedHi t = storedHi s := congrArg UInt8.toNat hhi
    have hl : storedLo t = (((storedLo s : Int) - 1) % 256).toNat % 256 := by rw [storedLo, hlo, hbyte]
    exact ⟨hcount, fun h2 => by omega, fun h2 => by omega⟩

theorem ticks_of_counted {s u t : State} (hs : Between s) (c : Nat)
    (hu : Calm { s with k1_timedown := s.read 100, k2_timedown := s.read 101 } u) (ht : Counted u t) :
    (Between { t with clock := c } ∧ (Quiet s.log → Quiet t.log)) ∧
      Ticks storedHi storedLo counts s { t with clock := c } := by
  have h1 : s.read 100 = storedHi s := congrArg (fun b : UInt8 => (b.toNat : Int)) hs.hi
  have h2 : s.read 101 = storedLo s := congrArg (fun b : UInt8 => (b.toNat : Int)) hs.lo
  have hk1 : u.k1_timedown = storedHi s := hu.k1.trans h1
  have hk2 : u.k2_timedown = storedLo s := hu.k2.trans h2
  have hrom : u.rom 100 = s.flash 100 := (congrFun hu.rom 100).trans hs.hi
  obtain ⟨l, hl, hm, hq⟩ := hu.log
  have hlo := ht.lo
  have hhi := ht.hi
  rw [hk2, ← ht.flash] at hlo
  rw [hk1, hk2, hrom, ← ht.flash] at hhi
  refine ⟨⟨⟨?_, ht.wifiFlash.trans (hu.wifiFlash.trans hs.wifiFlash),
    ht.alcoholFlash.trans (hu.alcoholFlash.trans hs.alcoholFlash),
    ht.isAlcoholState.trans (hu.isAlcoholState.trans hs.isAlcoholState),
    ht.clearEEPROMState.trans (hu.clearEEPROMState.trans hs.clearEEPROMState),
    ht.blockNowState.trans (hu.blockNowState.trans hs.blockNowState), (congrFun ht.flash 100).symm,
    (congrFun ht.flash 101).symm⟩, fun hqs => ?_⟩, ticks_of ?_ hlo hhi⟩
  · show t.previousOneMinuteCounter < 2 ^ 32
    rw [ht.previousOneMinuteCounter]
    exact Nat.mod_lt _ (by decide)
  · rw [ht.log, hl]
    exact List.forall_mem_cons.2 ⟨rfl, List.forall_mem_append.2 ⟨hq, hqs⟩⟩
  · show minutes t.log = minutes s.log + 1
    rw [ht.log, hl, minutes, List.count_cons_self, List.count_append]
    change List.count Event.minute l = 0 at hm
    rw [hm, Nat.zero_add]
    rfl

/-- The wait that makes the minute due. -/
def untilMinute (s : State) : Nat := s.previousOneMinuteCounter + 59605 + (2 ^ 32 - s.millis)

theorem due_untilMinute {s : State} (h : s.previousOneMinuteCounter < 2 ^ 32) :
    59604 < elapsed (s.wait (untilMinute s)).millis s.previousOneMinuteCounter := by
  simp only [untilMinute, State.wait, State.millis, elapsed]
  omega

def Later (s t : State) : Prop := ∃ xs, run xs s = ⟨[.forever loop], t⟩

theorem ticks_minute {s : State} (h : Between s) (hn : 0 < storedHi s) :
    ∃ t, Later s t ∧ (Between t ∧ (Quiet s.log → Quiet t.log)) ∧ Ticks storedHi storedLo counts s t := by
  have hr : (s.wait (untilMinute s)).rom 100 ≠ 0 := by
    show s.rom 100 ≠ 0
    rw [h.hi]
    exact fun hz => by simp [storedHi, hz] at hn
  have hw : Between (s.wait (untilMinute s)) := ⟨h.previousOneMinuteCounter, h.wifiFlash, h.alcoholFlash,
    h.isAlcoholState, h.clearEEPROMState, h.blockNowState, h.hi, h.lo⟩
  obtain ⟨xs, u, t, c, hx, hu, ht⟩ := exec_minute hw (due_untilMinute h.previousOneMinuteCounter) hr
  have htick := ticks_of_counted (s := s.wait (untilMinute s)) hw c hu ht
  exact ⟨{ t with clock := c }, ⟨.outside (.wait (untilMinute s)) :: xs, hx⟩, htick.1,
    ⟨htick.2.count, htick.2.down, htick.2.borrow⟩⟩

theorem Later.trans {s t u : State} (h : Later s t) (h' : Later t u) : Later s u := by
  obtain ⟨xs, hx⟩ := h
  obtain ⟨ys, hy⟩ := h'
  refine ⟨xs ++ ys, ?_⟩
  rw [run, Machine.exec_append]
  exact (congrArg (device.exec ys) hx).trans hy

theorem later_of_reflTransGen {s t : State} (h : Relation.ReflTransGen Later s t) : Later s t := by
  induction h with
  | refl => exact ⟨[], rfl⟩
  | tail _ hst ih => exact ih.trans hst

/-- At the head of the loop, with Wi-Fi. -/
def online (f : Nat → UInt8) : State := { rom := f, flash := f, wifiFlash := true }

/-- From 256 on some run counts wrong. -/
theorem wrong_of_long {f : Nat → UInt8} (h : f 100 ≠ 0) : ∃ xs, Quiet (run xs (online f)).state.log ∧
    value (run xs (online f)).state.flash + minutes (run xs (online f)).state.log ≠ value f := by
  have hpos : 0 < storedHi (online f) := Nat.pos_of_ne_zero fun hz => h (UInt8.toNat_inj.1 hz)
  have honline : Between (online f) ∧ Quiet (online f).log :=
    ⟨⟨show 0 < 2 ^ 32 by decide, rfl, rfl, rfl, rfl, rfl, rfl, rfl⟩, by simp [Quiet, online]⟩
  obtain ⟨t, hrun, ⟨-, hq⟩, hw⟩ := exists_wrong (p := fun s => Between s ∧ Quiet s.log) (fun s hs hn => by
    obtain ⟨t, hst, ⟨hb, hq⟩, ht⟩ := ticks_minute hs.1 hn
    exact ⟨t, hst, ⟨hb, hq hs.2⟩, ht⟩) (online f) honline hpos
  obtain ⟨xs, hx⟩ := later_of_reflTransGen hrun
  exact ⟨xs, by rw [hx]; exact hq, by rw [hx]; exact hw⟩

/-- Center's countdown is a plain counter with its request at the end exactly up to 255. -/
theorem counts_iff (f : Nat → UInt8) (h0 : 0 < value f) :
    (∀ s, Fresh f s → ∀ xs, Quiet (run xs s).state.log → Counts (value f) (run xs s)) ↔ value f < 256 := by
  rw [← FirstRelay.zero_iff_short]
  constructor
  · intro h
    by_contra hn
    obtain ⟨xs, hq, hw⟩ := wrong_of_long hn
    exact hw (h (online f) ⟨rfl, rfl, rfl, rfl, rfl, rfl⟩ xs hq).stored
  · exact fun h s hs xs hq => counts_of_short h h0 hs xs hq

/-- Both countdowns refine a plain counter exactly up to 255. -/
theorem countdowns_iff (f : Nat → UInt8) (h0 : 0 < value f) :
    ((∀ xs, FirstRelay.Quiet (FirstRelay.after f xs).state.log →
        value (FirstRelay.after f xs).state.flash + FirstRelay.minutes (FirstRelay.after f xs).state.log =
          value f) ↔ value f < 256) ∧
    ((∀ s, Fresh f s → ∀ xs, Quiet (run xs s).state.log → Counts (value f) (run xs s)) ↔ value f < 256) :=
  ⟨FirstRelay.countdown_iff f, counts_iff f h0⟩

/-- The cells 100 and 101. -/
def cells (hi lo : UInt8) : Nat → UInt8 := fun a => if a = 100 then hi else if a = 101 then lo else 0

/-- Center, up to the end of its first minute. -/
def oneMinute : List (Choice Env Outside) := .outside (.wait 60001) :: List.replicate 70 (.run {})

set_option maxRecDepth 10000 in
theorem countdowns_three : minutes (run oneMinute (online (cells 0 3))).state.log = 1 ∧
    Counts 3 (run oneMinute (online (cells 0 3))) :=
  ⟨by decide +kernel, (countdowns_iff (cells 0 3) (by decide)).2.2 (by decide) (online (cells 0 3))
    ⟨rfl, rfl, rfl, rfl, rfl, rfl⟩ oneMinute (by decide +kernel)⟩

/-- The relay, up to the end of its first minute. -/
def firstMinute : List (Choice FirstRelay.Env Nat) :=
  List.replicate 16 (.run {}) ++ .outside 60001 :: List.replicate 44 (.run {})

set_option maxRecDepth 10000 in
/-- The relay goes from 257 to 0 in its first minute. -/
theorem countdowns_borrow : ¬ ∀ f, 0 < value f →
    (∀ xs, FirstRelay.Quiet (FirstRelay.after f xs).state.log →
      value (FirstRelay.after f xs).state.flash + FirstRelay.minutes (FirstRelay.after f xs).state.log =
        value f) ∧
    ∀ s, Fresh f s → ∀ xs, Quiet (run xs s).state.log → Counts (value f) (run xs s) := by
  intro h
  have hr := (h (cells 1 1) (by decide)).1 firstMinute (by decide +kernel)
  have hv : value (FirstRelay.after (cells 1 1) firstMinute).state.flash = 0 := by decide +kernel
  have hm : FirstRelay.minutes (FirstRelay.after (cells 1 1) firstMinute).state.log = 1 := by decide +kernel
  rw [hv, hm] at hr
  exact absurd hr (by decide)

end FifthCenter
