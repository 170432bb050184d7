import TruckLock.CenterLog
import TruckLock.Excluding

/-!
# Statements that only take time

Most of the sketch has no part in the countdown or in the watchdog of the
relay's connection: what those two go by stays as it is while the clock goes
on. The rest of `loop` are the answers, the watchdog, the frames and the gate
of the countdown.
-/
namespace Center

open Firmware Code

/-- Readings less than a turn of the counter apart. -/
theorem elapsed_mod {a b : Nat} (h : a ≤ b) (hb : b < a + 2 ^ 32) :
    elapsed (b % 2 ^ 32) (a % 2 ^ 32) = b - a := by
  rw [elapsed]
  omega

theorem elapsed_add {a b ms : Nat} (hb : b < 2 ^ 32) (h : elapsed (a % 2 ^ 32) b + ms < 2 ^ 32) :
    elapsed ((a + ms) % 2 ^ 32) b = elapsed (a % 2 ^ 32) b + ms := by
  rw [elapsed] at h ⊢
  rw [elapsed]
  omega

/-- What the countdown and the watchdog go by, beside the clock. -/
structure Gates where
  BLOCK : Bool
  previousOneMinuteCounter : Nat
  timedownMinute : Int
  previousCheckConnectOfCenterVsRelay : Nat
  k : Bool

def State.gates (s : State) : Gates where
  BLOCK := s.BLOCK
  previousOneMinuteCounter := s.previousOneMinuteCounter
  timedownMinute := s.timedownMinute
  previousCheckConnectOfCenterVsRelay := s.previousCheckConnectOfCenterVsRelay
  k := s.k

namespace Event

/-- The events of the countdown, the commands and the connection. -/
def timed : Event → Bool
  | .boot | .expired | .broadcast _ _ | .frame _ | .relayLost => true
  | _ => false

/-- The app has asked for a lock. -/
def blocks : Event → Bool
  | .appBlock _ => true
  | _ => false

end Event

/-- A step that is no part of them. -/
structure Apace (s t : State) : Prop where
  gates : t.gates = s.gates
  clock : s.clock ≤ t.clock
  log : t.log = s.log ∧ t.blockNowState = s.blockNowState ∨ ∃ e, t.log = e :: s.log ∧
    e.timed = false ∧ t.blockNowState = (s.blockNowState || e.blocks)

theorem Apace.refl (s : State) : Apace s s := ⟨rfl, le_rfl, .inl ⟨rfl, rfl⟩⟩

/-- An update of other variables. -/
theorem Apace.put {s t : State} (hg : t.gates = s.gates) (hc : t.clock = s.clock) (hl : t.log = s.log)
    (hb : t.blockNowState = s.blockNowState) : Apace s t :=
  ⟨hg, hc.ge, .inl ⟨hl, hb⟩⟩

theorem Apace.emit {s t : State} (e : Event) (he : e.timed = false) (hg : t.gates = s.gates)
    (hc : t.clock = s.clock) (hl : t.log = s.log)
    (hb : t.blockNowState = (s.blockNowState || e.blocks)) : Apace s (t.emit e) :=
  ⟨hg, hc.ge, .inr ⟨e, congrArg (e :: ·) hl, he, hb⟩⟩

theorem Apace.say (s : State) (e : Event) (he : e.timed = false) (hb : e.blocks = false) :
    Apace s (s.emit e) :=
  .emit e he rfl rfl rfl (by rw [hb, Bool.or_false])

theorem apace_iff {s t : State} : Apace s t ↔ t.gates = s.gates ∧ s.clock ≤ t.clock ∧
    (t.log = s.log ∧ t.blockNowState = s.blockNowState ∨ ∃ e, t.log = e :: s.log ∧
      e.timed = false ∧ t.blockNowState = (s.blockNowState || e.blocks)) :=
  ⟨fun ⟨hg, hc, hl⟩ => ⟨hg, hc, hl⟩, fun ⟨hg, hc, hl⟩ => ⟨hg, hc, hl⟩⟩

abbrev Passing (c : Sketch) : Prop := c.Every fun _ => Apace

section

variable (P : Platform)

theorem passing_delay (ms : Nat) : Passing (delay ms) :=
  fun _ _ _ => ⟨rfl, le_max_left _ _, .inl ⟨rfl, rfl⟩⟩

theorem passing_reply (pin : Nat) (l : List Value) : Passing (reply pin l) := by
  intro i s
  dsimp only
  split
  · exact .say s _ rfl rfl
  · exact .refl s

theorem passing_blynkWrite (w : AppWrite) : Passing (blynkWrite P w) := by
  obtain ⟨pin, param⟩ := w
  cases pin <;> simp [blynkWrite, blynkWriteV1, blynkWriteV11, blynkWriteV21, blynkWriteV22, blynkWriteV30,
    blynkWriteV32, blynkWriteV33, blynkWriteV34, writeWord, Code.set, Code.when, Code.Every, passing_delay,
    passing_reply, apace_iff, State.gates, State.emit, State.write, State.commit, Event.timed, Event.blocks]

theorem passing_handleApp (w : Option AppWrite) : Passing (handleApp P w) := by
  cases w with
  | none => trivial
  | some w => exact ⟨fun _ s => .say s _ rfl rfl, passing_blynkWrite P w⟩

theorem passing_blynkRun : Passing (blynkRun P) := fun i => passing_handleApp P i.app

theorem passing_send {e : State → Event} (he : ∀ s, (e s).timed = false)
    (hb : ∀ s, (e s).blocks = false) : Passing (send P e) := by
  refine ⟨passing_blynkRun P, fun i s => ?_⟩
  dsimp only
  split
  · exact .say s _ (he s) (hb s)
  · exact .refl s

theorem passing_virtualWrite (pin : Nat) (l : State → List Value) : Passing (virtualWrite P pin l) :=
  passing_send P (fun _ => rfl) fun _ => rfl

theorem passing_timerRun : Passing (timerRun P) := by
  refine ⟨fun i => ?_, trivial⟩
  show Passing (handleTimer P i.timer)
  cases i.timer with
  | none => trivial
  | some t =>
    cases t <;> simp [handleTimer, clockCurrent, blinkLedConnect, Code.set, Code.Every, passing_delay,
      passing_virtualWrite, apace_iff, State.gates]

theorem passing_updateToTable : Passing (updateToTable P) := by
  simp [updateToTable, Code.set, Code.when, Code.Every, passing_delay, passing_virtualWrite, apace_iff, State.gates,
    State.write, State.commit]

theorem passing_reportAlcohol : Passing (reportAlcohol P) := by
  have hnotify : ∀ text, Passing (send P fun _ => .notify text) :=
    fun _ => passing_send P (fun _ => rfl) fun _ => rfl
  have hemail : ∀ subject text, Passing (send P fun _ => .email subject text) :=
    fun _ _ => passing_send P (fun _ => rfl) fun _ => rfl
  simp [reportAlcohol, Code.Every, passing_delay, passing_virtualWrite, passing_updateToTable, hnotify, hemail]

theorem passing_reportNotAlcohol : Passing (reportNotAlcohol P) := by
  simp [reportNotAlcohol, Code.Every, passing_delay, passing_virtualWrite]

theorem passing_writeBytes (a : Nat) (l : List UInt8) : Passing (.set (writeBytes a l)) := by
  intro _ s
  obtain ⟨m, hm⟩ := writeBytes_spec a l s
  dsimp only
  rw [hm]
  exact .put rfl rfl rfl rfl

theorem passing_handleClient : Passing handleClient := by
  intro i
  show Passing (handleRequest i.web)
  cases i.web with
  | none => trivial
  | some w =>
    cases w with
    | root => trivial
    | caidat tenWiFi matkhau =>
      have hcommit : Passing (.set State.commit) := fun _ _ => .put rfl rfl rfl rfl
      simp [handleRequest, caiDat, Code.when, Code.Every, passing_delay, passing_writeBytes, hcommit,
        -List.reduceReplicate]

theorem passing_statusGate (online : Bool) : Passing (statusGate P online) := by
  simp [statusGate, Code.set, Code.when, Code.Every, passing_delay, passing_virtualWrite, apace_iff, State.gates]

theorem passing_readIsAlcohol (downLimit upLimit threshold : Int) :
    Passing (readIsAlcohol P downLimit upLimit threshold) := by
  simp [readIsAlcohol, sample, close, judge, Code.set, Code.when, Code.Every, passing_delay, passing_virtualWrite,
    apace_iff, State.gates, State.emit, Event.timed, Event.blocks]

theorem passing_alcoholGate : Passing (alcoholGate P) := by
  simp [alcoholGate, Code.when, Code.Every, passing_delay, passing_readIsAlcohol]

/-- A press and a pause take time only. -/
theorem apace_react (r : Outside) (s : State) : Apace s (react r s) := by
  cases r with
  | wait ms => exact ⟨rfl, Nat.le_add_right _ _, .inl ⟨rfl, rfl⟩⟩
  | button spin =>
    obtain ⟨last, c, x, hs, hc, -⟩ := press_spec spin s
    simp only [react]
    split
    · rw [hs]
      exact ⟨rfl, hc, .inr ⟨_, rfl, rfl, (Bool.or_false _).symm⟩⟩
    · exact .refl s

theorem until_webSocketLoop {E X : Env → State → State → Prop} {K : Sketch → Prop}
    (h : ∀ payload, Until E X K (handleFrame P (some payload))) : Until E X K (webSocketLoop P) := by
  refine .poll fun i => ?_
  cases i.frame with
  | none => exact .skip
  | some payload => exact h payload

/-- The parts of `loop` that do more than take time. -/
structure Parts (E X : Env → State → State → Prop) (K : Sketch → Prop) : Prop where
  apace : ∀ i s t, Apace s t → E i s t
  webSocketLoop : Until E X K (webSocketLoop P)
  isAlcohol : Until E X K (answerIsAlcohol P)
  notAlcohol : Until E X K (answerNotAlcohol P)
  blockNow : Until E X K answerBlockNow
  unblockNow : Until E X K answerUnblockNow
  relay : Until E X K (checkRelay P)
  minute : Until E X K minuteGate

namespace Parts

variable {E X : Env → State → State → Prop} {K : Sketch → Prop} {P}

theorem passing (h : Parts P E X K) {c : Sketch} (hc : Passing c) : Until E X K c :=
  .of_every (hc.mono fun i s t => h.apace i s t)

theorem updateWebsocket (h : Parts P E X K) : Until E X K (updateWebsocket P) :=
  .seq h.isAlcohol (.seq h.notAlcohol (.seq h.blockNow (.seq h.unblockNow (.seq h.relay .skip))))

theorem updateGate (h : Parts P E X K) : Until E X K (updateGate P) :=
  .when (.seq (h.passing fun _ _ => .put rfl rfl rfl rfl) (.seq h.updateWebsocket .skip))

/-- The body of `loop` behind `updateWebsocket`. -/
theorem rest (h : Parts P E X K) (online : Bool) : Until E X K (.block [statusGate P online,
    minuteGate, alcoholGate P, blynkRun P, timerRun P, delay 10]) :=
  .seq (h.passing (passing_statusGate P online)) (.seq h.minute (.seq (h.passing (passing_alcoholGate P))
    (h.passing ⟨passing_blynkRun P, passing_timerRun P, passing_delay _, trivial⟩)))

theorem loop (h : Parts P E X K) : Until E X K (loop P) := by
  have hbody : ∀ online, Until E X K (loopBody P online) := fun online =>
    .seq (h.passing passing_handleClient) (.seq h.webSocketLoop (.seq h.updateGate (h.rest online)))
  exact .ite (hbody false) (.ite (hbody true) (h.passing ⟨fun _ _ => .put rfl rfl rfl rfl,
    passing_delay _, trivial, trivial⟩))

end Parts

end

end Center
