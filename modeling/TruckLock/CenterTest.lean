import TruckLock.Center
import TruckLock.Views

/-!
# The view of the breath test

What a test is about: the flags that the button, the camera and
`readIsAlcohol` share, and the events of the test. The rest of the sketch does
not show in this view, and no statement of it logs two events.
-/
namespace Center

open Firmware Code

def Event.onTest : Event → Bool
  | .boot | .started | .pressed _ _ | .called _ | .sampling | .analog _ | .camera _ | .returned => true
  | .alcohol _ | .blowHarder _ | .notAlcohol _ | .unknownDriver => true
  | _ => false

@[ext] structure Test where
  alcoholFlash : Bool
  camTXPin : Bool
  camLevel : Bool
  isMatchFaceID : Bool
  t1 : Nat
  now : Nat
  hist : List Event

def State.test (s : State) : Test where
  alcoholFlash := s.alcoholFlash
  camTXPin := s.camTXPin
  camLevel := s.camLevel
  isMatchFaceID := s.isMatchFaceID
  t1 := s.t1
  now := s.now
  hist := s.log.filter Event.onTest

namespace Test

def say (v : Test) (e : Event) : Test := { v with hist := e :: v.hist }

/-- After a press that ends at `stop`; `last` is the clock when it set `t1`, if it did. -/
def press (v : Test) (last : Option Nat) (stop : Nat) : Test where
  alcoholFlash := true
  camTXPin := false
  camLevel := v.camLevel
  isMatchFaceID := v.isMatchFaceID
  t1 := last.elim v.t1 (· % 2 ^ 32)
  now := v.now
  hist := .pressed last stop :: v.hist

end Test

theorem test_emit (s : State) (e : Event) (he : e.onTest = true) : (s.emit e).test = s.test.say e := by
  simp only [State.test, State.emit, List.filter_cons, he, if_true, Test.say]

theorem test_emit_idle (s : State) (e : Event) (he : e.onTest = false) :
    (s.emit e).test = s.test := by
  simp only [State.test, State.emit, List.filter_cons, he]
  rfl

/-- What happens beside the program is nothing to the view, or a press. -/
theorem test_react (r : Outside) (s : State) : (react r s).test = s.test ∨
    ∃ last stop, (react r s).test = s.test.press last stop ∧
      (react r s).log = .pressed last stop :: s.log := by
  cases r with
  | wait ms => exact .inl rfl
  | button spin =>
    obtain ⟨last, c, x, hs, -, hx⟩ := press_spec spin s
    simp only [react]
    split
    · rw [hs]
      refine .inr ⟨last, c, ?_, rfl⟩
      rcases hx with ⟨rfl, rfl⟩ | ⟨b, rfl, rfl, -, -⟩ <;> rfl
    · exact .inl rfl

def Grew (s t : State) : Prop := t.log = s.log ∨ ∃ e, t.log = e :: s.log

theorem grew_emit {s t : State} (e : Event) (h : t.log = s.log) : Grew s (t.emit e) :=
  .inr ⟨e, by rw [← h]; rfl⟩

/-- What is logged between two states. -/
def State.during (s t : State) : List Event := t.log.take (t.log.length - s.log.length)

theorem during_of_log {s t : State} {e : Event} (h : t.log = e :: s.log) : s.during t = [e] := by
  simp [State.during, h]

theorem log_of_during {s t : State} (h : Grew s t) {e : Event} (he : e ∈ s.during t) :
    t.log = e :: s.log := by
  rcases h with h | ⟨x, h⟩
  · simp [State.during, h] at he
  · rw [during_of_log h, List.mem_singleton] at he
    rw [he, h]

/-- A step that shows in a part of the log shows in the log. -/
theorem log_of_filter {s t : State} (h : Grew s t) {p : Event → Bool} {e : Event}
    (he : t.log.filter p = e :: s.log.filter p) : t.log = e :: s.log := by
  rcases h with h | ⟨x, h⟩
  · simp [h] at he
  · rw [h] at he ⊢
    cases hx : p x with
    | false =>
      rw [List.filter_cons_of_neg (by simp [hx])] at he
      exact absurd (congrArg List.length he) (by simp)
    | true =>
      rw [List.filter_cons_of_pos hx] at he
      rw [(List.cons.inj he).1]

theorem test_hist {s t : State} {e : Event} (h : t.log = e :: s.log) (he : e.onTest = true) :
    t.test.hist = e :: s.test.hist := by
  show List.filter Event.onTest t.log = _
  rw [h, List.filter_cons_of_pos he]
  rfl

/-- A step that has nothing to do with a test. -/
def Untested (s t : State) : Prop := t.test = s.test ∧ Grew s t

abbrev Aside (c : Sketch) : Prop := c.Every fun _ => Untested

/-- A step that does not touch what a test has measured either. -/
def Apart (s t : State) : Prop :=
  Untested s t ∧ t.MAX = s.MAX ∧ t.MIN = s.MIN ∧ t.current = s.current

abbrev Remote (c : Sketch) : Prop := c.Every fun _ => Apart

theorem Remote.aside {c : Sketch} (h : Remote c) : Aside c := h.mono fun _ _ _ hs => hs.1

section

variable (P : Platform)

theorem aside_emit {s t : State} (e : Event) (he : e.onTest = false) (h : t.test = s.test)
    (hl : t.log = s.log) : Untested s (t.emit e) :=
  ⟨(test_emit_idle t e he).trans h, grew_emit e hl⟩

theorem apart_emit {s t : State} (e : Event) (he : e.onTest = false) (h : t.test = s.test)
    (hl : t.log = s.log) (hM : t.MAX = s.MAX) (hm : t.MIN = s.MIN) (hc : t.current = s.current) :
    Apart s (t.emit e) :=
  ⟨aside_emit e he h hl, hM, hm, hc⟩

theorem apart_iff {s t : State} : Apart s t ↔ (t.test = s.test ∧ (t.log = s.log ∨ ∃ e, t.log = e :: s.log)) ∧
    t.MAX = s.MAX ∧ t.MIN = s.MIN ∧ t.current = s.current := Iff.rfl

theorem remote_delay (ms : Nat) : Remote (delay ms) := fun _ _ _ => ⟨⟨rfl, .inl rfl⟩, rfl, rfl, rfl⟩

theorem remote_setLed (b : Bool) : Remote (setLed b) := fun _ _ => ⟨⟨rfl, .inl rfl⟩, rfl, rfl, rfl⟩

theorem remote_reply (pin : Nat) (l : List Value) : Remote (reply pin l) := by
  intro i s
  dsimp only
  split
  · exact apart_emit _ rfl rfl rfl rfl rfl rfl
  · exact ⟨⟨rfl, .inl rfl⟩, rfl, rfl, rfl⟩

theorem remote_blynkWrite (w : AppWrite) : Remote (blynkWrite P w) := by
  obtain ⟨pin, param⟩ := w
  cases pin <;> simp [blynkWrite, blynkWriteV1, blynkWriteV11, blynkWriteV21, blynkWriteV22, blynkWriteV30,
    blynkWriteV32, blynkWriteV33, blynkWriteV34, writeWord, Code.when, Code.Every, remote_delay, remote_reply,
    Code.set, apart_iff, State.test, State.emit, State.write, State.commit, Event.onTest]

theorem remote_handleApp (w : Option AppWrite) : Remote (handleApp P w) := by
  cases w with
  | none => trivial
  | some w => exact ⟨fun _ _ => apart_emit _ rfl rfl rfl rfl rfl rfl, remote_blynkWrite P w⟩

theorem remote_blynkRun : Remote (blynkRun P) := fun i => remote_handleApp P i.app

theorem remote_send {e : State → Event} (he : ∀ s, (e s).onTest = false) : Remote (send P e) := by
  refine ⟨remote_blynkRun P, fun i s => ?_⟩
  dsimp only
  split
  · exact apart_emit _ (he s) rfl rfl rfl rfl rfl
  · exact ⟨⟨rfl, .inl rfl⟩, rfl, rfl, rfl⟩

theorem remote_virtualWrite (pin : Nat) (l : State → List Value) : Remote (virtualWrite P pin l) :=
  remote_send P fun _ => rfl

theorem remote_handleTimer (t : Option TimerCall) : Remote (handleTimer P t) := by
  cases t with
  | none => trivial
  | some t =>
    cases t <;> simp [handleTimer, clockCurrent, blinkLedConnect, Code.Every, remote_delay, remote_virtualWrite,
      Code.set, apart_iff, State.test]

theorem remote_reportAlcohol : Remote (reportAlcohol P) := by
  have hnotify : ∀ text, Remote (send P fun _ => .notify text) := fun _ => remote_send P fun _ => rfl
  have hemail : ∀ subject text, Remote (send P fun _ => .email subject text) := fun _ _ => remote_send P fun _ => rfl
  simp [reportAlcohol, updateToTable, Code.when, Code.Every, remote_delay, remote_virtualWrite, hnotify, hemail,
    Code.set, apart_iff, State.test, State.write, State.commit]

theorem remote_broadcastTXT (c : Command) (r : Option Request) : Remote (broadcastTXT c r) :=
  fun _ _ => apart_emit _ rfl rfl rfl rfl rfl rfl

theorem remote_updateWebsocket : Remote (updateWebsocket P) := by
  simp [updateWebsocket, answerIsAlcohol, answerNotAlcohol, answerBlockNow, answerUnblockNow, checkRelay,
    reportNotAlcohol, readCountdown, Code.when, Code.Every, remote_delay, remote_virtualWrite, remote_reportAlcohol,
    remote_broadcastTXT, Code.set, apart_iff, State.test, State.emit, Event.onTest]

theorem remote_webSocketEvent (payload : String) : Remote (webSocketEvent P payload) := by
  unfold webSocketEvent
  split_ifs <;> simp [Code.Every, remote_delay, remote_virtualWrite, remote_broadcastTXT, Code.set,
    apart_iff, State.test]

theorem remote_webSocketLoop : Remote (webSocketLoop P) := by
  intro i
  show Remote (handleFrame P i.frame)
  cases i.frame with
  | none => trivial
  | some payload => exact ⟨fun _ _ => apart_emit _ rfl rfl rfl rfl rfl rfl, remote_webSocketEvent P payload⟩

theorem remote_writeBytes (a : Nat) (l : List UInt8) : Remote (.set (writeBytes a l)) := by
  intro _ s
  obtain ⟨m, hm⟩ := writeBytes_spec a l s
  dsimp only
  rw [hm]
  exact ⟨⟨rfl, .inl rfl⟩, rfl, rfl, rfl⟩

theorem remote_handleClient : Remote handleClient := by
  intro i
  show Remote (handleRequest i.web)
  cases i.web with
  | none => trivial
  | some w =>
    cases w with
    | root => trivial
    | caidat tenWiFi matkhau =>
      have hcommit : Remote (.set State.commit) := fun _ _ => ⟨⟨rfl, .inl rfl⟩, rfl, rfl, rfl⟩
      simp [handleRequest, caiDat, Code.when, Code.Every, remote_delay, remote_writeBytes, hcommit,
        -List.reduceReplicate]

theorem remote_statusGate (online : Bool) : Remote (statusGate P online) := by
  simp [statusGate, Code.when, Code.Every, remote_delay, remote_virtualWrite, Code.set, apart_iff, State.test]

theorem remote_minuteGate : Remote minuteGate := by
  simp [minuteGate, expire, Code.when, Code.Every, remote_setLed, Code.set, apart_iff, State.test, State.emit,
    Event.onTest]

theorem remote_updateGate : Remote (updateGate P) := by
  simp [updateGate, Code.when, Code.Every, remote_updateWebsocket, Code.set, apart_iff, State.test]

theorem remote_timerRun : Remote (timerRun P) := ⟨fun i => remote_handleTimer P i.timer, trivial⟩

theorem remote_testWiFi (n : Nat) : Remote (testWiFi (setupOnline P) setupOffline n) := by
  have hblink : Remote (.times 7 (.block [setLed false, delay 20, setLed true, delay 20])) :=
    every_times (by simp [Code.Every, remote_setLed, remote_delay]) 7
  have hflash : ∀ b, Remote (.set fun s => { s with wifiFlash := b }) :=
    fun _ _ _ => ⟨⟨rfl, .inl rfl⟩, rfl, rfl, rfl⟩
  induction n with
  | zero => exact ⟨remote_setLed _, hflash false, remote_delay _, trivial⟩
  | succ n ih =>
    exact ⟨⟨remote_setLed _, remote_delay _, hflash true, remote_delay _, hblink, remote_blynkRun P, remote_delay _,
      remote_setLed _, remote_delay _, trivial⟩, remote_delay _, ih⟩

/-- An assertion that `readIsAlcohol` keeps, and whatever has nothing to do with a test. -/
theorem amid_loop {V : Type} {S : Spec Env V} {rel : V → V → Prop} {view : State → V}
    {A : V → Prop} (hA : S.Steady rel A) (hrest : ∀ {c : Sketch}, Remote c → S.Amid rel view A c A)
    (hread : ∀ d u t, S.Amid rel view A (readIsAlcohol P d u t) A) : S.Amid rel view A (loop P) A := by
  have hbody : ∀ online, S.Amid rel view A (loopBody P online) A := by
    intro online
    refine .seq (hrest remote_handleClient) (.seq (hrest (remote_webSocketLoop P)) (.seq
      (hrest (remote_updateGate P)) (.seq (hrest (remote_statusGate P online)) (.seq
      (hrest remote_minuteGate) (.seq (Spec.Amid.choose (.seq (hrest (remote_delay _)) (.seq ?_
      (hrest ⟨remote_delay _, trivial⟩))) (Spec.Amid.done hA))
      (hrest ⟨remote_blynkRun P, remote_timerRun P, remote_delay _, trivial⟩))))))
    exact Spec.Amid.get hA fun _ => Spec.Amid.get hA fun _ => Spec.Amid.get hA fun _ => hread _ _ _
  exact Spec.Amid.choose (hbody false) (Spec.Amid.choose (hbody true)
    (hrest ⟨remote_setLed _, remote_delay _, trivial, trivial⟩))

end

end Center
