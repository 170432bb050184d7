import TruckLock.CenterTest

/-!
# The log grows by one event at a time

No statement of the sketch logs two events, so the newest event of a log is
the one that the last step logged. The camera's answer that it logs is the one
that it reads.
-/
namespace Center

open Firmware Code

/-- The answer in the event is the one on the camera's line. -/
def Event.reads (x : Choice Env Outside) : Event → Prop
  | .camera level => ∃ i, x = .run i ∧ i.camRX = level
  | _ => True

/-- What a step of the device logs. -/
def Logs (x : Choice Env Outside) (s t : State) : Prop :=
  t.log = s.log ∨ ∃ e, t.log = e :: s.log ∧ e.reads x

theorem Logs.grew {x : Choice Env Outside} {s t : State} (h : Logs x s t) : Grew s t :=
  h.imp_right fun ⟨e, he, _⟩ => ⟨e, he⟩

abbrev Grows (c : Sketch) : Prop := c.Every fun i => Logs (.run i)

section

variable (P : Platform)

theorem Untested.logs {s t : State} (h : Untested s t) (x : Choice Env Outside) : Logs x s t := by
  rcases h.2 with hl | ⟨e, hl⟩
  · exact .inl hl
  · refine .inr ⟨e, hl, ?_⟩
    cases e with
    | camera level =>
      have hh := (test_hist hl rfl).symm.trans (congrArg Test.hist h.1)
      exact absurd (congrArg List.length hh) (by simp)
    | _ => trivial

theorem Aside.grows {c : Sketch} (h : Aside c) : Grows c := h.mono fun _ _ _ hs => hs.logs _

theorem grows_handleApp (w : Option AppWrite) : Grows (handleApp P w) := (remote_handleApp P w).aside.grows

theorem grows_updateWebsocket : Grows (updateWebsocket P) := (remote_updateWebsocket P).aside.grows

theorem grows_delay (ms : Nat) : Grows (delay ms) := (remote_delay ms).aside.grows

theorem grows_send {e : State → Event} (he : ∀ s, (e s).onTest = false) : Grows (send P e) :=
  (remote_send P he).aside.grows

theorem grows_virtualWrite (pin : Nat) (l : State → List Value) : Grows (virtualWrite P pin l) :=
  grows_send P fun _ => rfl

theorem grows_close (downLimit upLimit threshold : Int) : Grows (close P downLimit upLimit threshold) := by
  simp [close, judge, Code.set, Code.Every, grows_delay, grows_virtualWrite, Logs, State.emit, Event.reads]

theorem grows_readIsAlcohol (downLimit upLimit threshold : Int) :
    Grows (readIsAlcohol P downLimit upLimit threshold) := by
  simp [readIsAlcohol, sample, Code.set, Code.when, Code.Every, grows_close, Logs, State.emit, Event.reads]

theorem grows_loopBody (online : Bool) : Grows (loopBody P online) := by
  refine ⟨remote_handleClient.aside.grows, (remote_webSocketLoop P).aside.grows, (remote_updateGate P).aside.grows,
    (remote_statusGate P online).aside.grows, remote_minuteGate.aside.grows, ?_, (remote_blynkRun P).aside.grows,
    (remote_timerRun P).aside.grows, grows_delay _, trivial⟩
  exact ⟨⟨grows_delay _, fun _ _ _ => grows_readIsAlcohol P _ _ _, grows_delay _, trivial⟩, trivial⟩

theorem grows_setup : Grows (setup P) := by
  have htest : Grows (testWiFi (setupOnline P) setupOffline 20) := (remote_testWiFi P 20).aside.grows
  simp [setup, Code.set, Code.Every, grows_delay, grows_virtualWrite, htest, Logs, State.emit, Event.reads]

theorem grows_device : Grows (device P).boot :=
  ⟨grows_setup P, grows_loopBody P false, grows_loopBody P true, fun _ _ => .inl rfl, grows_delay _,
    trivial, trivial⟩

theorem logs_react (r : Outside) (s : State) : Logs (.outside r) s (react r s) := by
  cases r with
  | wait ms => exact .inl rfl
  | button spin =>
    obtain ⟨last, c, x, hs, -, -⟩ := press_spec spin s
    simp only [react]
    split
    · rw [hs]
      exact .inr ⟨_, rfl, trivial⟩
    · exact .inl rfl

theorem Grew.suffix {s t : State} (h : Grew s t) : s.log <:+ t.log := by
  rcases h with h | ⟨e, h⟩
  · simp [h]
  · rw [h]
    exact List.suffix_cons e s.log

/-- A call that ends has only added to the log. -/
theorem suffix_of_finish {c : Sketch} (hc : Grows c) {xs : Run} {s t : State}
    (h : finish react xs [c] s = some t) : s.log <:+ t.log := by
  refine every_finish (E := fun s t : State => s.log <:+ t.log) (fun s => List.suffix_refl s.log)
    (fun _ _ _ h₁ h₂ => h₁.trans h₂) (fun r s => (logs_react r s).grew.suffix) ?_ h
  intro a ha
  obtain rfl := List.mem_singleton.1 ha
  exact hc.mono fun _ _ _ hg => hg.grew.suffix

theorem logs_step (x : Choice Env Outside) (c : Config State Env) (hc : ∀ a ∈ c.code, Grows a) :
    Logs x c.state ((device P).step x c).state ∧ ∀ a ∈ ((device P).step x c).code, Grows a :=
  Machine.every_step (fun _ _ => .inl rfl) (grows_device P) logs_react
    (fun _ _ => .inr ⟨.boot, rfl, trivial⟩) x c hc

/-- Every step of a run logs one event at most. -/
theorem along_grew (flash : Nat → UInt8) (xs : Run) :
    (device P).Along (fun _ c d => Grew c.state d.state) xs ((device P).start (powerOn flash)) := by
  refine Along.imp (Machine.along_every (fun _ _ => .inl rfl) (grows_device P) logs_react
    (fun _ _ => .inr ⟨.boot, rfl, trivial⟩) xs _ fun a ha => ?_) fun _ _ h => Logs.grew h
  obtain rfl : a = (device P).boot := List.mem_singleton.1 ha
  exact grows_device P

end

end Center
