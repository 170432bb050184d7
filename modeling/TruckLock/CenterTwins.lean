import TruckLock.CenterTime
import TruckLock.Lockstep

/-!
# The two copies of the loop

The body of `loop` is written out twice, and `updateWebsocket` asks for the
Wi-Fi as well. Two instances of Center run side by side: what is for the app
only runs apart, everything else in both at once.
-/
namespace Center

open Firmware

/-- What the lock, the test and the gates go by. The row counter and its cell belong to the app. -/
structure Control where
  attached : Bool
  camTXPin : Bool
  alcoholFlash : Bool
  BLOCK : Bool
  previousMillis : Nat
  previousOneMinuteCounter : Nat
  previousUpdateStatusOnBlynk : Nat
  previousCheckConnectOfCenterVsRelay : Nat
  timedownMinute : Int
  isAlcoholState : Bool
  notAlcoholState : Bool
  blockNowState : Bool
  unblockNowState : Bool
  downLimit : Int
  upLimit : Int
  threshold : Int
  k : Bool
  isMatchFaceID : Bool
  t1 : Nat
  tLaymau : Nat
  MAX : Int
  MIN : Int
  now : Nat
  current : Int
  camLevel : Bool
  cells : Nat → UInt8

def State.control (s : State) : Control where
  attached := s.attached
  camTXPin := s.camTXPin
  alcoholFlash := s.alcoholFlash
  BLOCK := s.BLOCK
  previousMillis := s.previousMillis
  previousOneMinuteCounter := s.previousOneMinuteCounter
  previousUpdateStatusOnBlynk := s.previousUpdateStatusOnBlynk
  previousCheckConnectOfCenterVsRelay := s.previousCheckConnectOfCenterVsRelay
  timedownMinute := s.timedownMinute
  isAlcoholState := s.isAlcoholState
  notAlcoholState := s.notAlcoholState
  blockNowState := s.blockNowState
  unblockNowState := s.unblockNowState
  downLimit := s.downLimit
  upLimit := s.upLimit
  threshold := s.threshold
  k := s.k
  isMatchFaceID := s.isMatchFaceID
  t1 := s.t1
  tLaymau := s.tLaymau
  MAX := s.MAX
  MIN := s.MIN
  now := s.now
  current := s.current
  camLevel := s.camLevel
  cells a := if a = 106 then 0 else s.rom a

def Control.read (v : Control) (a : Nat) : Int := if a < 512 then (v.cells a).toNat else 0

theorem read_control (s : State) {a : Nat} (h : a ≠ 106) : s.read a = s.control.read a := by
  simp [State.read, Control.read, State.control, h]

/-- The flash holds what the image in RAM holds, but for the row counter. -/
def Committed (s : State) : Prop := ∀ a, a ≠ 106 → s.flash a = s.rom a

def Event.sent : Event → Option Command
  | .broadcast c _ => some c
  | _ => none

def State.broadcasts (s : State) : List Command := s.log.filterMap Event.sent

/-- What both instances are fed with, beside the clock. -/
structure Feed where
  adc : Int
  camRX : Bool
  frame : Option String

/-- Nothing arrives from the app, and no form. -/
structure Unasked (i : Env) : Prop where
  app : i.app = none
  web : ∀ tenWiFi matkhau, i.web ≠ some (.caidat tenWiFi matkhau)

def copies (P : Platform) : Pairing State Env Control Feed Command where
  ok := Unasked
  input i := ⟨i.adc, i.camRX, i.frame⟩
  clock := State.millis
  view := State.control
  said := State.broadcasts
  inv := Committed
  piece c := c = loop P

section

variable (P : Platform)

theorem apart_delay (ms : Nat) : (copies P).Apart (delay ms) := fun _ _ _ _ => ⟨rfl, rfl, id⟩

theorem apart_blynkRun : (copies P).Apart (blynkRun P) := by
  intro i hi hr
  have hu : Unasked i := hi
  simp [hu.app] at hr

theorem apart_send {e : State → Event} (he : ∀ s, (e s).sent = none) : (copies P).Apart (send P e) := by
  refine ⟨apart_blynkRun P, fun i s _ => ?_⟩
  dsimp only
  split
  · exact ⟨rfl, by simp [copies, State.broadcasts, State.emit, he], id⟩
  · exact .refl s

theorem apart_virtualWrite (pin : Nat) (l : State → List Value) : (copies P).Apart (virtualWrite P pin l) :=
  apart_send P fun _ => rfl

theorem apart_updateToTable : (copies P).Apart (updateToTable P) := by
  refine ⟨⟨fun _ _ _ => ⟨rfl, rfl, id⟩, trivial⟩, apart_delay P _, fun _ => apart_virtualWrite P _ _,
    apart_delay P _, fun _ => apart_virtualWrite P _ _, apart_delay P _, fun _ _ _ => ⟨rfl, rfl, id⟩,
    fun _ s _ => ⟨?_, rfl, fun h a ha => ?_⟩, fun _ s _ => ⟨rfl, rfl, fun _ _ _ => rfl⟩, trivial⟩
  · show (s.write 106 _).control = s.control
    have hcells : (s.write 106 (byte s.rowIndex)).control.cells = s.control.cells := by
      funext a
      by_cases ha : a = 106 <;> simp [State.control, State.write, ha]
    exact congrArg (fun c => { s.control with cells := c }) hcells
  · show s.flash a = if a = 106 ∧ _ then _ else s.rom a
    rw [if_neg fun h => ha h.1]
    exact h a ha

theorem apart_reportAlcohol : (copies P).Apart (reportAlcohol P) :=
  ⟨apart_updateToTable P, apart_delay P _, apart_virtualWrite P _ _, apart_delay P _,
    ⟨apart_virtualWrite P _ _, apart_virtualWrite P _ _⟩, apart_delay P _, apart_send P fun _ => rfl,
    apart_delay P _, apart_send P fun _ => rfl, apart_delay P _, trivial⟩

theorem apart_reportNotAlcohol : (copies P).Apart (reportNotAlcohol P) :=
  ⟨apart_delay P _, apart_virtualWrite P _ _, apart_delay P _, apart_virtualWrite P _ _, apart_delay P _, trivial⟩

theorem apart_handleClient : (copies P).Apart handleClient := by
  intro i hi hr
  have hu : Unasked i := hi
  show (copies P).Apart (handleRequest i.web)
  cases hw : i.web with
  | none => trivial
  | some w =>
    cases w with
    | root => trivial
    | caidat tenWiFi matkhau => exact absurd hw (hu.web _ _)

theorem apart_timerRun : (copies P).Apart (timerRun P) := by
  refine ⟨fun i _ _ => ?_, trivial⟩
  show (copies P).Apart (handleTimer P i.timer)
  cases i.timer with
  | none => trivial
  | some t =>
    cases t with
    | clockCurrent => exact fun _ _ _ => ⟨rfl, rfl, id⟩
    | blinkLedConnect =>
      exact ⟨⟨fun _ _ _ => ⟨rfl, rfl, id⟩, apart_virtualWrite P _ _, apart_delay P _, trivial⟩,
        fun _ _ _ => ⟨rfl, rfl, id⟩, apart_virtualWrite P _ _, apart_delay P _, trivial⟩

theorem apart_setLed (b : Bool) : (copies P).Apart (setLed b) := fun _ _ _ => ⟨rfl, rfl, id⟩

theorem apart_testWiFi (n : Nat) : (copies P).Apart (testWiFi (setupOnline P) setupOffline n) := by
  induction n with
  | zero => exact ⟨apart_setLed P _, fun _ _ _ => ⟨rfl, rfl, id⟩, apart_delay P _, trivial⟩
  | succ n ih =>
    have hblink : (copies P).Apart (.block [setLed false, delay 20, setLed true, delay 20]) :=
      ⟨apart_setLed P _, apart_delay P _, apart_setLed P _, apart_delay P _, trivial⟩
    exact ⟨⟨apart_setLed P _, apart_delay P _, fun _ _ _ => ⟨rfl, rfl, id⟩, apart_delay P _,
      Pairing.apart_times hblink 7, apart_blynkRun P, apart_delay P _, apart_setLed P _, apart_delay P _, trivial⟩,
      apart_delay P _, ih⟩

variable (R : Prop)

/-- Code that stands in both copies. -/
abbrev Shared (c : Sketch) : Prop := (copies P).Paired R c c

variable {P R}

/-- An assignment to the control state. -/
theorem shared_set {f : State → State} (g : Nat → Control → Control)
    (h : ∀ s, (f s).control = g s.millis s.control ∧ (f s).broadcasts = s.broadcasts ∧
      (Committed s → Committed (f s))) : Shared P R (.set f) :=
  .act (fun _ => g) (fun _ _ _ => []) fun _ s hi => ⟨(h s).1, (h s).2.1, fun hR => (h s).2.2 (hi hR)⟩

theorem shared_broadcastTXT (c : Command) (r : Option Request) : Shared P R (broadcastTXT c r) :=
  .act (fun _ _ v => v) (fun _ _ _ => [c]) fun _ _ hi => ⟨rfl, rfl, hi⟩

theorem shared_readCountdown : Shared P R readCountdown := by
  refine shared_set (fun _ v => { v with timedownMinute := v.read 100 * 256 + v.read 101 }) fun s => ⟨?_, rfl, id⟩
  show { s.control with timedownMinute := s.read 100 * 256 + s.read 101 } = _
  rw [read_control s (by decide), read_control s (by decide)]

theorem shared_answerIsAlcohol : Shared P R (answerIsAlcohol P) :=
  .when (fun _ _ v => v.isAlcoholState) (fun _ _ => rfl) (.seq (shared_broadcastTXT _ _)
    (.seq (shared_set (fun _ v => { v with timedownMinute := 0 }) fun _ => ⟨rfl, rfl, id⟩)
    (.seq (shared_set (fun _ v => { v with BLOCK := true }) fun _ => ⟨rfl, rfl, id⟩)
    (.seq (shared_set (fun _ v => { v with isAlcoholState := false }) fun _ => ⟨rfl, rfl, id⟩)
    (.seq (.own (apart_reportAlcohol P).when) (.seq (.own (apart_delay P _)) .done))))))

theorem shared_answerNotAlcohol : Shared P R (answerNotAlcohol P) :=
  .when (fun _ _ v => v.notAlcoholState) (fun _ _ => rfl) (.seq (shared_broadcastTXT _ _)
    (.seq shared_readCountdown
    (.seq (shared_set (fun _ v => { v with BLOCK := false }) fun _ => ⟨rfl, rfl, id⟩)
    (.seq (shared_set (fun _ v => { v with notAlcoholState := false }) fun _ => ⟨rfl, rfl, id⟩)
    (.seq (.own (apart_reportNotAlcohol P).when) (.seq (.own (apart_delay P _))
    (.seq (shared_set (fun now v => { v with previousOneMinuteCounter := now }) fun _ => ⟨rfl, rfl, id⟩)
    .done)))))))

theorem shared_answerBlockNow : Shared P R answerBlockNow :=
  .when (fun _ _ v => v.blockNowState) (fun _ _ => rfl) (.seq (shared_broadcastTXT _ _)
    (.seq (shared_set (fun _ v => { v with timedownMinute := 0 }) fun _ => ⟨rfl, rfl, id⟩)
    (.seq (shared_set (fun _ v => { v with BLOCK := true }) fun _ => ⟨rfl, rfl, id⟩)
    (.seq (shared_set (fun _ v => { v with blockNowState := false }) fun _ => ⟨rfl, rfl, id⟩)
    .done))))

theorem shared_answerUnblockNow : Shared P R answerUnblockNow :=
  .when (fun _ _ v => v.unblockNowState) (fun _ _ => rfl) (.seq (shared_broadcastTXT _ _) (.seq shared_readCountdown
    (.seq (shared_set (fun _ v => { v with BLOCK := false }) fun _ => ⟨rfl, rfl, id⟩)
    (.seq (shared_set (fun _ v => { v with unblockNowState := false }) fun _ => ⟨rfl, rfl, id⟩)
    (.seq (shared_set (fun now v => { v with previousOneMinuteCounter := now }) fun _ => ⟨rfl, rfl, id⟩)
    .done)))))

theorem shared_checkRelay : Shared P R (checkRelay P) :=
  .when (fun _ now v => 25000 < elapsed now v.previousCheckConnectOfCenterVsRelay && v.k) (fun _ _ => rfl)
    (.seq (.own fun _ _ _ => ⟨rfl, rfl, id⟩) (.seq (.own (apart_delay P _)) (.seq (.own (apart_virtualWrite P _ _))
    (.seq (.get (fun _ now _ => now) (fun _ _ => rfl) fun t =>
      .whilst (fun _ now _ => elapsed now t.toNat < 1000) (fun _ _ => rfl) .reset) .done))))

theorem shared_updateWebsocket : Shared P R (updateWebsocket P) :=
  .seq shared_answerIsAlcohol (.seq shared_answerNotAlcohol (.seq shared_answerBlockNow
    (.seq shared_answerUnblockNow (.seq shared_checkRelay .done))))

theorem shared_webSocketEvent (payload : String) : Shared P R (webSocketEvent P payload) := by
  have hhear : Shared P R (.set fun s => { s with previousCheckConnectOfCenterVsRelay := s.millis }) :=
    shared_set (fun now v => { v with previousCheckConnectOfCenterVsRelay := now }) fun _ => ⟨rfl, rfl, id⟩
  unfold webSocketEvent
  split
  · exact .seq (.own (apart_setLed P _)) (.seq hhear .done)
  split
  · exact .seq (.own (apart_setLed P _)) (.seq hhear .done)
  split
  · refine .seq (.ite (fun _ _ v => v.timedownMinute = 0) (fun _ _ => rfl) (shared_broadcastTXT _ _)
      (shared_broadcastTXT _ _)) (.seq hhear (.seq (.own fun _ _ _ => ⟨rfl, rfl, id⟩) (.seq (.own (apart_delay P _))
      (.seq (.own (apart_virtualWrite P _ _)) (.seq (.own (apart_delay P _)) (.seq ?_ .done))))))
    exact shared_set (fun _ v => { v with k := true }) fun _ => ⟨rfl, rfl, id⟩
  · exact .done

theorem shared_webSocketLoop : Shared P R (webSocketLoop P) := by
  refine .poll (fun i j hij => ?_) fun i j hij => ?_
  · have hframe : i.frame = j.frame := congrArg Feed.frame hij
    rw [hframe]
  · have hframe : i.frame = j.frame := congrArg Feed.frame hij
    rw [hframe]
    cases j.frame with
    | none => exact .done
    | some payload => exact .seq (.own fun _ _ _ => ⟨rfl, rfl, id⟩) (shared_webSocketEvent payload)

theorem shared_sample : Shared P R (sample P) := by
  refine .seq (shared_set (fun now v => { v with tLaymau := now }) fun _ => ⟨rfl, rfl, id⟩)
    (.seq ?_ (.seq (.get (fun _ _ v => v.current) (fun _ _ => rfl) fun current =>
    .seq (.when (fun _ _ v => v.MAX < current) (fun _ _ => rfl) (shared_set (fun _ v => { v with MAX := current })
      fun _ => ⟨rfl, rfl, id⟩))
    (.seq (.when (fun _ _ v => current < v.MIN) (fun _ _ => rfl) (shared_set (fun _ v => { v with MIN := current })
      fun _ => ⟨rfl, rfl, id⟩)) .done))
    (.seq ?_ (.seq ?_ (.seq (.own fun _ _ _ => ⟨rfl, rfl, id⟩) .done)))))
  · exact .act (fun feed _ v => { v with current := feed.adc }) (fun _ _ _ => []) fun _ _ hi => ⟨rfl, rfl, hi⟩
  · exact .act (fun feed _ v => { v with camLevel := feed.camRX }) (fun _ _ _ => []) fun _ _ hi => ⟨rfl, rfl, hi⟩
  · exact .when (fun _ _ v => !v.camLevel) (fun _ _ => rfl) (shared_set (fun _ v => { v with isMatchFaceID := true })
      fun _ => ⟨rfl, rfl, id⟩)

theorem shared_judge (downLimit upLimit threshold : Int) : Shared P R (judge downLimit upLimit threshold) := by
  refine .get (fun _ _ v => v.MAX) (fun _ _ => rfl) fun MAX => .ite (fun _ _ _ => upLimit < MAX - threshold)
    (fun _ _ => rfl) ?_ (.get (fun _ _ v => v.MIN) (fun _ _ => rfl) fun MIN =>
    .ite (fun _ _ _ => threshold - MIN < downLimit) (fun _ _ => rfl) (.seq (.own fun _ _ _ => ⟨rfl, rfl, id⟩)
    (.own (apart_delay P _))) ?_)
  · exact shared_set (fun _ v => { v with isAlcoholState := true }) fun _ => ⟨rfl, rfl, id⟩
  · exact shared_set (fun _ v => { v with notAlcoholState := true }) fun _ => ⟨rfl, rfl, id⟩

theorem shared_close (downLimit upLimit threshold : Int) : Shared P R (close P downLimit upLimit threshold) :=
  .seq (shared_set (fun _ v => { v with alcoholFlash := false }) fun _ => ⟨rfl, rfl, id⟩)
    (.seq (.own fun _ _ => ⟨apart_delay P _, apart_virtualWrite P _ _, apart_delay P _, trivial⟩)
    (.seq (.ite (fun _ _ v => v.isMatchFaceID) (fun _ _ => rfl) (shared_judge _ _ _)
      (.own ⟨fun _ _ _ => ⟨rfl, rfl, id⟩, apart_delay P _⟩))
    (.seq (shared_set (fun _ v => { v with camTXPin := true }) fun _ => ⟨rfl, rfl, id⟩)
    (.seq (shared_set (fun _ v => { v with isMatchFaceID := false }) fun _ => ⟨rfl, rfl, id⟩)
    .done))))

theorem shared_readIsAlcohol (downLimit upLimit threshold : Int) :
    Shared P R (readIsAlcohol P downLimit upLimit threshold) :=
  .seq (shared_set (fun now v => { v with now := now }) fun _ => ⟨rfl, rfl, id⟩)
    (.seq (.ite (fun _ _ v => elapsed v.now v.t1 < 7000) (fun _ _ => rfl) (.seq (.own fun _ _ _ => ⟨rfl, rfl, id⟩)
      (.get (fun _ now _ => now) (fun _ _ => rfl) fun now => .when (fun _ _ v => 200 < elapsed now.toNat v.tLaymau)
        (fun _ _ => rfl) shared_sample)) (shared_close _ _ _))
    (.seq (.own fun _ _ _ => ⟨rfl, rfl, id⟩) .done))

theorem shared_alcoholGate : Shared P R (alcoholGate P) :=
  .when (fun _ _ v => v.alcoholFlash) (fun _ _ => rfl) (.seq (.own (apart_delay P _))
    (.seq (.get (fun _ _ v => v.downLimit) (fun _ _ => rfl) fun _ => .get (fun _ _ v => v.upLimit) (fun _ _ => rfl)
      fun _ => .get (fun _ _ v => v.threshold) (fun _ _ => rfl) fun _ => shared_readIsAlcohol _ _ _)
    (.seq (.own (apart_delay P _)) .done)))

theorem shared_minuteGate : Shared P R minuteGate :=
  .when (fun _ now v => 59953 < elapsed now v.previousOneMinuteCounter && v.timedownMinute ≠ 0) (fun _ _ => rfl)
    (.seq (shared_set (fun now v => { v with previousOneMinuteCounter := now }) fun _ => ⟨rfl, rfl, id⟩)
    (.seq (shared_set (fun _ v => { v with timedownMinute := v.timedownMinute - 1 }) fun _ => ⟨rfl, rfl, id⟩)
    (.seq (.when (fun _ _ v => v.timedownMinute = 0) (fun _ _ => rfl)
      (.seq (shared_set (fun _ v => { v with blockNowState := true }) fun _ => ⟨rfl, rfl, id⟩)
      (.seq (.own (apart_setLed P _))
      (.seq (shared_set (fun _ v => { v with BLOCK := true }) fun _ => ⟨rfl, rfl, id⟩) .done)))) .done)))

/-- The two copies of the report of the countdown. -/
theorem paired_statusGate (online online' : Bool) :
    (copies P).Paired R (statusGate P online) (statusGate P online') := by
  have htell : ∀ online, (copies P).Apart (.seq (.get (fun _ s => s.timedownMinute) fun m =>
      .when (fun _ _ => online) (.ite (fun _ s => !s.BLOCK)
        (.block [delay 10, virtualWrite P 4 fun _ => [.text "Khoá sau: ", .int (m.tdiv 60), .text " giờ ",
          .int (m.tmod 60), .text " phút"], delay 20])
        (.block [delay 10, virtualWrite P 4 fun _ => [.text "   Đã khoá"], delay 20])))
      (.seq (delay 10) .skip) : Sketch) := fun online =>
    ⟨fun _ => ⟨⟨⟨apart_delay P _, apart_virtualWrite P _ _, apart_delay P _, trivial⟩, apart_delay P _,
      apart_virtualWrite P _ _, apart_delay P _, trivial⟩, trivial⟩, apart_delay P _, trivial⟩
  exact .when (fun _ now v => 1000 < elapsed now v.previousUpdateStatusOnBlynk) (fun _ _ => rfl)
    (.seq (shared_set (fun now v => { v with previousUpdateStatusOnBlynk := now }) fun _ => ⟨rfl, rfl, id⟩)
    (.apart (htell online) (htell online')))

theorem shared_updateGate : Shared P R (updateGate P) :=
  .when (fun _ now v => 1000 < elapsed now v.previousMillis) (fun _ _ => rfl)
    (.seq (shared_set (fun now v => { v with previousMillis := now }) fun _ => ⟨rfl, rfl, id⟩)
    (.seq shared_updateWebsocket .done))

theorem paired_loopBody (online online' : Bool) :
    (copies P).Paired R (loopBody P online) (loopBody P online') :=
  .seq (.own (apart_handleClient P)) (.seq shared_webSocketLoop (.seq shared_updateGate
    (.seq (paired_statusGate online online') (.seq shared_minuteGate (.seq shared_alcoholGate
    (.own ⟨apart_blynkRun P, apart_timerRun P, apart_delay P _, trivial⟩))))))

/-- `setup` loads the image from the flash, which holds the same cells. -/
theorem shared_setup (hR : R) : Shared P R (setup P) := by
  refine .seq (.act (fun _ _ v => v) (fun _ _ _ => []) fun _ s hi => ⟨?_, rfl, fun _ _ _ => rfl⟩) ?_
  · have hcells : ({ s with rom := s.flash } : State).control.cells = s.control.cells := by
      funext a
      by_cases ha : a = 106
      · simp [State.control, ha]
      · simp [State.control, ha, hi hR a ha]
    exact congrArg (fun c => { s.control with cells := c }) hcells
  have hread : ∀ {f : State → State} (a : Nat) (g : Int → Control → Control), a ≠ 106 →
      (∀ s, (f s).control = g (s.read a) s.control ∧ (f s).broadcasts = s.broadcasts ∧
        (Committed s → Committed (f s))) → Shared P R (.set f) := fun a g ha h =>
    shared_set (fun _ v => g (v.read a) v) fun s => ⟨by rw [(h s).1, read_control s ha], (h s).2⟩
  refine .seq (shared_set (fun _ v => { v with attached := true }) fun _ => ⟨rfl, rfl, id⟩)
    (.seq (shared_set (fun _ v => { v with camTXPin := true }) fun _ => ⟨rfl, rfl, id⟩)
    (.seq (hread 102 (fun n v => { v with downLimit := n }) (by decide) fun _ => ⟨rfl, rfl, id⟩)
    (.seq (hread 103 (fun n v => { v with upLimit := n }) (by decide) fun _ => ⟨rfl, rfl, id⟩)
    (.seq ?_ ?_))))
  · refine shared_set (fun _ v => { v with threshold := v.read 104 * 256 + v.read 105 }) fun s => ⟨?_, rfl, id⟩
    show { s.control with threshold := s.read 104 * 256 + s.read 105 } = _
    rw [read_control s (by decide), read_control s (by decide)]
  · refine .seq (.own ⟨trivial, trivial⟩) (.seq (.own (apart_delay P _)) (.seq (.own fun _ _ _ => ⟨rfl, rfl, id⟩)
      (.seq (.own (apart_delay P _)) (.seq (.own (apart_testWiFi P 20)) (.seq (.own (apart_delay P _))
      (.seq (.own fun _ _ _ => ⟨rfl, rfl, id⟩) (.seq ?_ (.seq (.own (apart_delay P _))
      (.seq (.own (apart_virtualWrite P _ _)) (.seq (.own (apart_delay P _)) (.seq (.own (apart_virtualWrite P _ _))
      (.seq (.own (apart_delay P _)) (.seq ?_ (.seq ?_ (.seq (.own fun _ _ _ => ⟨rfl, rfl, id⟩) .done)))))))))))))))
    · exact shared_set (fun _ v => { v with BLOCK := true }) fun _ => ⟨rfl, rfl, id⟩
    · exact shared_set (fun now v => { v with previousOneMinuteCounter := now }) fun _ => ⟨rfl, rfl, id⟩
    · exact shared_set (fun _ v => { v with alcoholFlash := false }) fun _ => ⟨rfl, rfl, id⟩

theorem shared_boot (hR : R) : Shared P R (device P).boot := .seq (shared_setup hR) (.forever (.piece rfl))

end

/-- The second test of `loop`, with the body that it guards. -/
def check (P : Platform) : Sketch :=
  .ite (fun i _ => i.wifi) (loopBody P true) (.block [setLed false, delay 100, .reset])

theorem loop_eq (P : Platform) : loop P = .ite (fun _ s => !s.wifiFlash) (loopBody P false) (check P) := rfl

/-- What runs apart: statements for the app, and the test of the connection. -/
def Own (P : Platform) (k : List Sketch) : Prop := ∃ c l, k = c :: l ∧ ((copies P).Apart c ∨ c = check P)

/-- Two instances. In `both` each runs a statement; `first` and `second` are statements of one of them. A press
falls into both, time passes in each by itself. -/
inductive Joint where
  | both (i j : Env)
  | first (i : Env)
  | second (j : Env)
  | press (spin : List (Nat × Nat))
  | firstWait (ms : Nat)
  | secondWait (ms : Nat)

abbrev Pair := Config State Env × Config State Env

def Joint.step (P : Platform) : Joint → Pair → Pair
  | .both i j, n => ((device P).step (.run i) n.1, (device P).step (.run j) n.2)
  | .first i, n => ((device P).step (.run i) n.1, n.2)
  | .second j, n => (n.1, (device P).step (.run j) n.2)
  | .press spin, n =>
    ((device P).step (.outside (.button spin)) n.1, (device P).step (.outside (.button spin)) n.2)
  | .firstWait ms, n => ((device P).step (.outside (.wait ms)) n.1, n.2)
  | .secondWait ms, n => (n.1, (device P).step (.outside (.wait ms)) n.2)

/-- The input of an instance: the app is silent, and the Wi-Fi stays connected once it is. -/
structure Fed (i : Env) (c : Config State Env) : Prop extends Unasked i where
  wifi : c.state.wifiFlash = true → i.wifi = true

/-- Both instances are fed with the same: what is not for the app only is run by both at once, with the same
inputs and the same reading of the clock, if it reads the clock. -/
def Alike (P : Platform) : Joint → Pair → Prop
  | .both i j, n => Fed i n.1 ∧ Fed j n.2 ∧ (copies P).input i = (copies P).input j ∧ ¬ Own P n.1.code ∧
      ¬ Own P n.2.code ∧ (n.1.state.millis = n.2.state.millis ∨ ∀ c k, n.1.code = c :: k → (copies P).Timeless c)
  | .first i, n => Fed i n.1 ∧ Own P n.1.code
  | .second j, n => Fed j n.2 ∧ Own P n.2.code
  | .press _, n => n.1.state.millis = n.2.state.millis
  | .firstWait _, _ => True
  | .secondWait _, _ => True

section

variable {P : Platform} {R : Prop} {a b : List Command} {c d : Config State Env}

theorem not_apart_check : ¬ (copies P).Apart (check P) := fun h => h.2.2.2.1

theorem not_apart_loopBody (online : Bool) : ¬ (copies P).Apart (loopBody P online) := by
  intro h
  have hset := h.2.2.1.1.1 {} { clock := 1, rom := fun _ => 0, flash := fun _ => 0 } ⟨rfl, by simp⟩
  have hread : 1 % 2 ^ 32 = 0 := congrArg Control.previousMillis hset.view
  exact absurd hread (by decide)

theorem not_own_loopBody (online : Bool) (k : List Sketch) : ¬ Own P (loopBody P online :: k) := by
  rintro ⟨c, l, hc, h⟩
  obtain rfl := (List.cons.inj hc).1
  rcases h with h | h
  · exact not_apart_loopBody online h
  · simp [loopBody, check] at h

theorem ne_check_of_paired {x y : Sketch} (h : (copies P).Paired R x y) : x ≠ check P := by
  rintro rfl
  generalize hx : check P = x at h
  cases h with
  | apart ha _ => exact not_apart_check (hx ▸ ha)
  | @piece y hp =>
    obtain rfl : y = loop P := hp
    rw [loop_eq] at hx
    have htest : true = !true := congrFun (congrFun (Code.ite.inj hx).1 { wifi := true })
      { wifiFlash := true, rom := fun _ => 0, flash := fun _ => 0 }
    exact absurd htest (by decide)
  | ite q h _ _ =>
    obtain ⟨rfl, -, -⟩ := Code.ite.inj hx
    have h1 := h { wifi := true } { rom := fun _ => 0, flash := fun _ => 0 }
    have h2 := h { wifi := false } { rom := fun _ => 0, flash := fun _ => 0 }
    exact Bool.noConfusion (h1.trans h2.symm)
  | _ => simp [check] at hx

/-- At the start of a round, behind the test of the mode. -/
def Entered (P : Platform) (c : Sketch) (s : State) : Prop :=
  (∃ online, c = loopBody P online) ∨ c = check P ∧ s.wifiFlash = true

def Entering (P : Platform) (R : Prop) (c d : Config State Env) : Prop :=
  ∃ x y k l, c.code = x :: k ∧ d.code = y :: l ∧ Entered P x c.state ∧ Entered P y d.state ∧
    List.Forall₂ ((copies P).Paired R) k l

/-- The relation that the instances keep. -/
structure Twins (P : Platform) (R : Prop) (a b : List Command) (c d : Config State Env) : Prop where
  agree : (copies P).Agree R a b c.state d.state
  code : (copies P).Aligned R c.code d.code ∨ Entering P R c d

theorem Entering.symm (h : Entering P R c d) : Entering P R d c := by
  obtain ⟨x, y, k, l, hc, hd, hx, hy, hkl⟩ := h
  exact ⟨y, x, l, k, hd, hc, hy, hx, (List.Forall₂.flip hkl).imp fun _ _ h => h.symm⟩

theorem Twins.symm (h : Twins P R a b c d) : Twins P R b a d c :=
  ⟨h.agree.symm, h.code.imp Pairing.Aligned.symm Entering.symm⟩

/-- A statement that the first instance has to itself. -/
theorem Twins.first (h : Twins P R a b c d) {i : Env} (hi : Fed i c) (ho : Own P c.code) :
    Twins P R a b ((device P).step (.run i) c) d := by
  obtain ⟨x, k, hc, hx⟩ := ho
  obtain ⟨s, rfl⟩ := Config.of_code hc
  rcases h.code with hcode | ⟨y, z, k', l, hk, hd, hy, hz, hkl⟩
  · rcases hx with hx | rfl
    · obtain ⟨k', u, hs, hu, hcode⟩ := Pairing.Aligned.first (s := s) hcode hx hi.toUnasked
      have hstep : (device P).step (.run i) ⟨x :: k, s⟩ = ⟨k', u⟩ := by simp only [Machine.step, hs]
      rw [hstep]
      exact ⟨h.agree.first hu, .inl hcode⟩
    · obtain ⟨n, m, k', l', hk, -, hn, -, hp⟩ := hcode
      cases n with
      | cons y n =>
        obtain rfl := (List.cons.inj hk).1
        exact absurd (hn _ List.mem_cons_self) not_apart_check
      | nil =>
        obtain rfl : check P :: k = k' := hk
        cases hp with
        | cons hp _ => exact absurd rfl (ne_check_of_paired hp)
  · obtain ⟨rfl, rfl⟩ := List.cons.inj hk
    rcases hy with ⟨online, rfl⟩ | ⟨rfl, hw⟩
    · exact absurd ⟨_, _, rfl, hx⟩ (not_own_loopBody online k)
    · have hstep : (device P).step (.run i) ⟨check P :: k, s⟩ = ⟨loopBody P true :: k, s⟩ := by
        simp only [Machine.step, check, Code.step, hi.wifi hw]
        rfl
      rw [hstep]
      exact ⟨h.agree, .inr ⟨_, _, _, _, rfl, hd, .inl ⟨true, rfl⟩, hz, hkl⟩⟩

/-- The head of `loop` in both. -/
theorem Twins.enter {k l : List Sketch} {s t : State} (h : (copies P).Agree R a b s t)
    (hkl : List.Forall₂ ((copies P).Paired R) k l) (i j : Env) :
    Twins P R a b ((device P).step (.run i) ⟨loop P :: k, s⟩) ((device P).step (.run j) ⟨loop P :: l, t⟩) := by
  have hone : ∀ (i : Env) (k : List Sketch) (s : State), ∃ x, (device P).step (.run i) ⟨loop P :: k, s⟩ = ⟨x :: k, s⟩ ∧
      Entered P x s := by
    intro i k s
    cases hw : s.wifiFlash with
    | false => exact ⟨loopBody P false, by simp [Machine.step, loop_eq, Code.step, hw], .inl ⟨false, rfl⟩⟩
    | true => exact ⟨check P, by simp [Machine.step, loop_eq, Code.step, hw], .inr ⟨rfl, hw⟩⟩
  obtain ⟨x, hx, hxe⟩ := hone i k s
  obtain ⟨y, hy, hye⟩ := hone j l t
  rw [hx, hy]
  exact ⟨h, .inr ⟨x, y, k, l, rfl, rfl, hxe, hye, hkl⟩⟩

/-- Both start anew. -/
theorem Twins.restarted (hR : R) {s t : State} (h : (copies P).Agree R a b s t) :
    Twins P R a b ((device P).start (restart s)) ((device P).start (restart t)) := by
  obtain ⟨n, hn, hn'⟩ := h.said
  refine ⟨⟨?_, ⟨n, hn, hn'⟩, fun _ => ⟨fun _ _ => rfl, fun _ _ => rfl⟩⟩,
    .inl (Pairing.aligned_of_paired (.cons (shared_boot hR) .nil))⟩
  have hcells : (restart s).control.cells = (restart t).control.cells := by
    funext a
    by_cases ha : a = 106
    · simp [State.control, ha]
    · have hsa : s.flash a = s.rom a := (h.inv hR).1 a ha
      have hta : t.flash a = t.rom a := (h.inv hR).2 a ha
      have hst : (if a = 106 then 0 else s.rom a) = if a = 106 then 0 else t.rom a :=
        congrFun (congrArg Control.cells h.view) a
      rw [if_neg ha, if_neg ha] at hst
      simp [State.control, restart, powerOn, ha, hsa, hta, hst]
  exact congrArg (fun cells => { (restart s).control with cells := cells }) hcells

/-- A statement that stands in both copies. -/
theorem Twins.pair {x y : Sketch} {k l : List Sketch} {s t : State} {i j : Env} (h : (copies P).Agree R a b s t)
    (hxy : (copies P).Paired R x y) (hx : ¬ (copies P).Apart x) (hp : x ≠ loop P)
    (hkl : List.Forall₂ ((copies P).Paired R) k l) (hij : (copies P).input i = (copies P).input j)
    (ht : s.millis = t.millis ∨ (copies P).Timeless x)
    (hR : (device P).step (.run i) ⟨x :: k, s⟩ = (device P).start (restart s) → R) :
    Twins P R a b ((device P).step (.run i) ⟨x :: k, s⟩) ((device P).step (.run j) ⟨y :: l, t⟩) := by
  rcases hxy.step (k := k) (l := l) hx hp hij ht h with ⟨rfl, rfl⟩ | ⟨m, n, u, v, hs, hs', hmn, huv⟩
  · exact Twins.restarted (hR rfl) h
  · have hstep : (device P).step (.run i) ⟨x :: k, s⟩ = ⟨m ++ k, u⟩ := by simp only [Machine.step, hs]
    have hstep' : (device P).step (.run j) ⟨y :: l, t⟩ = ⟨n ++ l, v⟩ := by simp only [Machine.step, hs']
    rw [hstep, hstep']
    exact ⟨huv, .inl (Pairing.aligned_of_paired (List.rel_append hmn hkl))⟩

theorem eq_loop_of_paired {y : Sketch} (h : (copies P).Paired R (loop P) y) : y = loop P := by
  generalize hx : loop P = x at h
  cases h with
  | apart ha _ =>
    have hloop : (copies P).Apart (loop P) := hx ▸ ha
    exact absurd hloop.2 not_apart_check
  | piece _ => rfl
  | ite q h _ _ =>
    rw [loop_eq] at hx
    obtain ⟨rfl, -, -⟩ := Code.ite.inj hx
    have h1 := h {} { wifiFlash := true, rom := fun _ => 0, flash := fun _ => 0 }
    have h2 := h {} { wifiFlash := false, rom := fun _ => 0, flash := fun _ => 0 }
    exact Bool.noConfusion (h1.trans h2.symm)
  | _ => simp [loop_eq] at hx

theorem not_apart_of_own {k : List Sketch} (h : ¬ Own P k) (x : Sketch) (l : List Sketch) (hk : k = x :: l) :
    ¬ (copies P).Apart x := fun hx => h ⟨x, l, hk, .inl hx⟩

/-- A statement of both instances. -/
theorem Twins.both (h : Twins P R a b c d) {i j : Env} (hij : (copies P).input i = (copies P).input j)
    (hc : ¬ Own P c.code) (hd : ¬ Own P d.code)
    (ht : c.state.millis = d.state.millis ∨ ∀ x k, c.code = x :: k → (copies P).Timeless x)
    (hR : (device P).step (.run i) c = (device P).start (restart c.state) → R) :
    Twins P R a b ((device P).step (.run i) c) ((device P).step (.run j) d) := by
  obtain ⟨kc, s⟩ := c
  obtain ⟨kd, t⟩ := d
  rcases h.code with hcode | ⟨x, y, k, l, rfl, rfl, hx, hy, hkl⟩
  · have hkl := hcode.both (not_apart_of_own hc) (not_apart_of_own hd)
    cases hkl with
    | nil => exact ⟨h.agree, .inl (Pairing.aligned_of_paired .nil)⟩
    | @cons x y k l hxy hkl =>
      by_cases hp : x = loop P
      · subst hp
        obtain rfl := eq_loop_of_paired hxy
        exact Twins.enter h.agree hkl i j
      · exact Twins.pair h.agree hxy (not_apart_of_own hc x k rfl) hp hkl hij (ht.imp_right fun ht => ht x k rfl) hR
  · have hbody : ∀ {x : Sketch} {k : List Sketch} {s : State}, Entered P x s → ¬ Own P (x :: k) →
        ∃ online, x = loopBody P online := by
      rintro x k s (hx | ⟨rfl, -⟩) hown
      · exact hx
      · exact absurd ⟨_, _, rfl, .inr rfl⟩ hown
    obtain ⟨online, rfl⟩ := hbody hx hc
    obtain ⟨online', rfl⟩ := hbody hy hd
    refine Twins.pair h.agree (paired_loopBody online online') (not_apart_loopBody online) ?_ hkl hij
      (ht.imp_right fun ht => ht _ k rfl) hR
    rw [loop_eq]
    simp [loopBody]

theorem millis_wait {s t : State} (h : s.millis = t.millis) (ms : Nat) : (s.wait ms).millis = (t.wait ms).millis := by
  simp only [State.millis, State.wait] at h ⊢
  omega

theorem millis_t1 (s : State) (n : Nat) : ({ s with t1 := n } : State).millis = s.millis := by
  rw [State.millis, State.millis]

theorem t1_wait (s : State) (n : Nat) : (s.wait n).t1 = s.t1 := rfl

theorem spin_nil (x : Nat) (last : Option Nat) (s : State) :
    (spin x [] last s).1 = s.wait (100 - elapsed s.millis x) := by
  rw [spin]

theorem spin_lt {x ms ms' : Nat} {spins : List (Nat × Nat)} {last : Option Nat} {s : State}
    (h : elapsed (s.wait ms).millis x < 100) :
    spin x ((ms, ms') :: spins) last s = spin x spins (some (s.clock + ms + ms'))
      { s.wait (ms + ms') with t1 := (s.wait (ms + ms')).millis } := by
  rw [spin, if_pos h]

theorem spin_ge {x ms ms' : Nat} {spins : List (Nat × Nat)} {last : Option Nat} {s : State}
    (h : ¬ elapsed (s.wait ms).millis x < 100) : (spin x ((ms, ms') :: spins) last s).1 = s.wait ms := by
  rw [spin, if_neg h]

/-- The waiting loop of the interrupt goes by the readings of the clock. -/
theorem spin_congr (x : Nat) (spins : List (Nat × Nat)) (last last' : Option Nat) {s t : State}
    (hm : s.millis = t.millis) (ht : s.t1 = t.t1) :
    (spin x spins last s).1.millis = (spin x spins last' t).1.millis ∧
      (spin x spins last s).1.t1 = (spin x spins last' t).1.t1 := by
  induction spins generalizing s t last last' with
  | nil =>
    constructor
    · rw [spin_nil, spin_nil, ← hm]
      exact millis_wait hm _
    · rw [spin_nil, spin_nil, t1_wait, t1_wait]
      exact ht
  | cons p spins ih =>
    obtain ⟨ms, ms'⟩ := p
    have hw := millis_wait hm ms
    by_cases h : elapsed (s.wait ms).millis x < 100
    · have h' : elapsed (t.wait ms).millis x < 100 := by rwa [← hw]
      have hw' := millis_wait hm (ms + ms')
      rw [spin_lt h, spin_lt h']
      exact ih _ _ ((millis_t1 _ _).trans (hw'.trans (millis_t1 _ _).symm)) hw'
    · have h' : ¬ elapsed (t.wait ms).millis x < 100 := by rwa [← hw]
      rw [spin_ge h, spin_ge h', t1_wait, t1_wait]
      exact ⟨hw, ht⟩

/-- A press of both buttons. -/
theorem Agree.press {s t : State} (h : (copies P).Agree R a b s t) (hm : s.millis = t.millis) (spins : List (Nat × Nat)) :
    (copies P).Agree R a b (react (.button spins) s) (react (.button spins) t) := by
  have hattached : s.attached = t.attached := congrArg Control.attached h.view
  have ht1 : s.t1 = t.t1 := congrArg Control.t1 h.view
  simp only [react, hattached]
  split
  · obtain ⟨n, hn, hn'⟩ := h.said
    have hone : ∀ s : State, (measureAlcoholConcentration spins s).control = { s.control with
        t1 := (spin s.millis spins none s).1.t1, tLaymau := (spin s.millis spins none s).1.millis, camTXPin := false
        MAX := 0, MIN := 1024, alcoholFlash := true } ∧
        (measureAlcoholConcentration spins s).broadcasts = s.broadcasts ∧
        (measureAlcoholConcentration spins s).rom = s.rom ∧ (measureAlcoholConcentration spins s).flash = s.flash := by
      intro s
      obtain ⟨c, x, hs, -⟩ := spin_spec s.millis spins none s
      simp only [measureAlcoholConcentration, hs]
      exact ⟨rfl, rfl, rfl, rfl⟩
    obtain ⟨hv, hs, hr, hf⟩ := hone s
    obtain ⟨hv', hs', hr', hf'⟩ := hone t
    have hsp := spin_congr s.millis spins none none hm ht1
    refine ⟨?_, ⟨n, hs.trans hn, hs'.trans hn'⟩, fun hR => ⟨fun x hx => ?_, fun x hx => ?_⟩⟩
    · show (measureAlcoholConcentration spins s).control = (measureAlcoholConcentration spins t).control
      have hview : s.control = t.control := h.view
      rw [hv, hv', hview, ← hm, hsp.1, hsp.2]
    · rw [hr, hf]
      exact (h.inv hR).1 x hx
    · rw [hr', hf']
      exact (h.inv hR).2 x hx
  · exact h

/-- Time passes, or both buttons are pressed. -/
theorem Twins.outside (h : Twins P R a b c d) {r r' : Outside}
    (hr : (copies P).Agree R a b (react r c.state) (react r' d.state)) :
    Twins P R a b ((device P).step (.outside r) c) ((device P).step (.outside r') d) := by
  refine ⟨hr, h.code.imp_right ?_⟩
  rintro ⟨x, y, k, l, hc, hd, hx, hy, hkl⟩
  have hwifi : ∀ (r : Outside) (s : State), (react r s).wifiFlash = s.wifiFlash := by
    intro r s
    cases r with
    | wait ms => rfl
    | button spins =>
      obtain ⟨last, c, x, hs, -⟩ := press_spec spins s
      simp only [react]
      split
      · rw [hs]
      · rfl
  exact ⟨x, y, k, l, hc, hd, hx.imp_right fun h => ⟨h.1, (hwifi r _).trans h.2⟩,
    hy.imp_right fun h => ⟨h.1, (hwifi r' _).trans h.2⟩, hkl⟩

theorem same_wait (s : State) (ms : Nat) : (copies P).Same s (react (.wait ms) s) := ⟨rfl, rfl, id⟩

/-- The first instance does not start anew in this step. -/
def Steadfast (P : Platform) : Joint → Pair → Pair → Prop :=
  fun _ n m => m.1 ≠ (device P).start (restart n.1.state)

/-- One move of the two. -/
theorem Twins.move {x : Joint} {n : Pair} (h : Twins P R a b n.1 n.2) (hx : Alike P x n)
    (hR : ¬ Steadfast P x n (Joint.step P x n) → R) :
    Twins P R a b (Joint.step P x n).1 (Joint.step P x n).2 := by
  cases x with
  | both i j =>
    obtain ⟨-, -, hij, hc, hd, ht⟩ := hx
    exact h.both hij hc hd ht fun hs => hR fun hl => hl hs
  | first i => exact h.first hx.1 hx.2
  | second j => exact (h.symm.first hx.1 hx.2).symm
  | press spins => exact h.outside (Agree.press h.agree hx spins)
  | firstWait ms => exact (h.symm.outside (r := .wait 0) (h.symm.agree.second (same_wait _ ms))).symm
  | secondWait ms => exact h.outside (r := .wait 0) (h.agree.second (same_wait _ ms))

/-- At the start of `loop`. -/
abbrev AtLoop (P : Platform) (c : Config State Env) : Prop := c.code = [.forever (loop P)]

/-- One is at the start of `loop`: the other has at most statements of its own left. -/
theorem Twins.behind (h : Twins P R a b c d) (hc : AtLoop P c) :
    ∃ m, d.code = m ++ [.forever (loop P)] ∧ ∀ x ∈ m, (copies P).Apart x := by
  rcases h.code with ⟨n, m, k, l, hk, hd, hn, hm, hkl⟩ | ⟨x, y, k, l, hk, -, hx, -⟩
  · rw [show c.code = [.forever (loop P)] from hc] at hk
    cases n with
    | cons x n =>
      obtain rfl := (List.cons.inj hk).1
      exact absurd (hn _ List.mem_cons_self) id
    | nil =>
      obtain rfl : [.forever (loop P)] = k := hk
      cases hkl with
      | @cons _ y _ l hy hl =>
        cases hl
        cases hy with
        | apart ha _ => exact ha.elim
        | piece hp =>
          have hloop : Code.forever (loop P) = loop P := hp
          simp [loop_eq] at hloop
        | forever ha =>
          rw [eq_loop_of_paired ha] at hd
          exact ⟨m, hd, hm⟩
  · rw [show c.code = [.forever (loop P)] from hc] at hk
    obtain rfl := (List.cons.inj hk).1
    rcases hx with ⟨online, hx⟩ | ⟨hx, -⟩
    · simp [loopBody] at hx
    · simp [check] at hx

/-- The two agree at the start of `loop`. Where an image in RAM is ahead of the flash, no reset may come
between: it would go back to the flash. -/
theorem twins_loop {s t : State} (hst : s.control = t.control) (hR : R → Committed s ∧ Committed t) :
    Twins P R s.broadcasts t.broadcasts ⟨[.forever (loop P)], s⟩ ⟨[.forever (loop P)], t⟩ :=
  ⟨⟨hst, ⟨[], rfl, rfl⟩, hR⟩, .inl (Pairing.aligned_of_paired (.cons (.forever (.piece rfl)) .nil))⟩

/-- Two instances at the start of `loop` in the same control state, whatever their modes, that are fed with the
same: they agree in it at every point of the run and have broadcast the same. -/
theorem copies_agree {s t : State} (hst : s.control = t.control) {xs : List Joint}
    (hx : Along (Joint.step P) (fun x n _ => Alike P x n) xs (⟨[.forever (loop P)], s⟩, ⟨[.forever (loop P)], t⟩))
    (hc : Committed s ∧ Committed t ∨
      Along (Joint.step P) (Steadfast P) xs (⟨[.forever (loop P)], s⟩, ⟨[.forever (loop P)], t⟩)) :
    let n := steps (Joint.step P) xs (⟨[.forever (loop P)], s⟩, ⟨[.forever (loop P)], t⟩)
    n.1.state.control = n.2.state.control ∧
      (∃ l, n.1.state.broadcasts = l ++ s.broadcasts ∧ n.2.state.broadcasts = l ++ t.broadcasts) ∧
      (AtLoop P n.1 → ∃ m, n.2.code = m ++ [.forever (loop P)] ∧ ∀ x ∈ m, (copies P).Apart x) ∧
      (AtLoop P n.2 → ∃ m, n.1.code = m ++ [.forever (loop P)] ∧ ∀ x ∈ m, (copies P).Apart x) := by
  intro n
  obtain ⟨R, h⟩ : ∃ R, Twins P R s.broadcasts t.broadcasts n.1 n.2 := by
    rcases hc with hc | hl
    · exact ⟨True, hx.invariant (I := fun n => Twins P True s.broadcasts t.broadcasts n.1 n.2)
        (twins_loop hst fun _ => hc) fun x n hn hx => hn.move hx fun _ => trivial⟩
    · exact ⟨False, (hx.and hl).invariant (I := fun n => Twins P False s.broadcasts t.broadcasts n.1 n.2)
        (twins_loop hst False.elim) fun x n hn hx => hn.move hx.1 fun h => h hx.2⟩
  exact ⟨h.agree.view, h.agree.said, h.behind, h.symm.behind⟩

/-- Whatever both are fed with next, they can go on: once their clocks agree, one or both run a statement. -/
theorem goes_on (f : Feed) (n : Pair) : ∃ (ms : Nat) (i j : Env), (copies P).input i = f ∧ (copies P).input j = f ∧
    ∃ x ∈ [Joint.both i j, .first i, .second j],
      Along (Joint.step P) (fun x n _ => Alike P x n) [.firstWait ms, x] n := by
  obtain ⟨c, d⟩ := n
  obtain ⟨ms, hms⟩ : ∃ ms, (c.state.wait ms).millis = d.state.millis := by
    refine ⟨d.state.clock + (2 ^ 32 - c.state.clock % 2 ^ 32), ?_⟩
    simp only [State.millis, State.wait]
    omega
  have hfed : ∀ c, Fed { adc := f.adc, camRX := f.camRX, frame := f.frame } c := fun c =>
    ⟨⟨rfl, by simp⟩, fun _ => rfl⟩
  refine ⟨ms, { adc := f.adc, camRX := f.camRX, frame := f.frame }, { adc := f.adc, camRX := f.camRX, frame := f.frame },
    rfl, rfl, ?_⟩
  by_cases hc : Own P c.code
  · exact ⟨.first _, by simp, trivial, ⟨hfed _, hc⟩, trivial⟩
  by_cases hd : Own P d.code
  · exact ⟨.second _, by simp, trivial, ⟨hfed _, hd⟩, trivial⟩
  · exact ⟨.both _ _, by simp, trivial, ⟨hfed _, hfed _, rfl, hc, hd, .inl hms⟩, trivial⟩

end

/-- The copy without Wi-Fi and the copy with it, 30 s after power-on with a stored duration of 5 minutes. -/
def offline : State := { clock := 30000, attached := true, rom := flashOf 5, flash := flashOf 5 }

def online : State := { offline with wifiFlash := true, clock := 30000 + 2 ^ 32 }

/-- A press, and the first statements of a round. -/
def pressedBoth : List Joint := [.press [(0, 60), (0, 60)], .both {} {}, .both {} {}, .second {}, .both {} {}]

theorem own_forever (P : Platform) (k : List Sketch) : ¬ Own P (.forever (loop P) :: k) := by
  rintro ⟨c, l, hc, h⟩
  obtain rfl := (List.cons.inj hc).1
  rcases h with h | h
  · exact h
  · simp [check] at h

theorem own_loop (P : Platform) (k : List Sketch) : ¬ Own P (loop P :: k) := by
  rintro ⟨c, l, hc, h⟩
  obtain rfl := (List.cons.inj hc).1
  rcases h with h | h
  · exact not_apart_check h.2
  · exact ne_check_of_paired (R := True) (.piece rfl) h

theorem copies_agree_pressed :
    let n := steps (Joint.step bench) pressedBoth (⟨[.forever (loop bench)], offline⟩, ⟨[.forever (loop bench)], online⟩)
    n.1.state.control = n.2.state.control ∧ n.1.state.camTXPin = false ∧ n.1.state.wifiFlash = false ∧
      n.2.state.wifiFlash = true := by
  have hfed : ∀ c, Fed {} c := fun c => ⟨⟨rfl, by simp⟩, fun _ => rfl⟩
  have hclock : offline.millis = online.millis := by decide +kernel
  have hst : offline.control = online.control := rfl
  have hx : Along (Joint.step bench) (fun x n _ => Alike bench x n) pressedBoth
      (⟨[.forever (loop bench)], offline⟩, ⟨[.forever (loop bench)], online⟩) :=
    ⟨hclock, ⟨hfed _, hfed _, rfl, own_forever bench _, own_forever bench _, .inl (by decide +kernel)⟩,
      ⟨hfed _, hfed _, rfl, own_loop bench _, own_loop bench _, .inl (by decide +kernel)⟩,
      ⟨hfed _, _, _, rfl, .inr rfl⟩,
      ⟨hfed _, hfed _, rfl, not_own_loopBody false _, not_own_loopBody true _, .inl (by decide +kernel)⟩, trivial⟩
  exact ⟨(copies_agree hst hx (.inl ⟨fun _ _ => rfl, fun _ _ => rfl⟩)).1, by decide +kernel, by decide +kernel,
    by decide +kernel⟩

end Center
