import TruckLock.CenterLock
import TruckLock.CenterLost
import TruckLock.Homing

/-!
# Coming home

What the sketch does as long as each call of a library that runs its handlers
returns, and the display answers: from every state it comes back to the top of
`loop`, and there each request that is pending is answered as soon as
`updateWebsocket` is due.
-/
namespace Center

open Firmware

/-- What the calls that run handlers ask for: a request of the form, a frame, a write of the app, a timer. -/
inductive Asks : (Env → Bool) → Prop
  | web : Asks fun i => i.web.isSome
  | frame : Asks fun i => i.frame.isSome
  | app : Asks fun i => i.app.isSome
  | timer : Asks fun i => i.timer.isSome

/-- The display answers; without it the sketch stops for good in `setup`. -/
def Shown (i : Env) : Prop := i.oled = true

/-- Each of these calls returns: from `c` on, none is given something for ever. -/
def Returning (P : Platform) (c : Config State Env) (f : Schedule Env Outside) : Prop := (device P).Settles f c Asks

namespace Home

variable {P : Platform}

abbrev Rests (c : Sketch) : Prop := c.Rests Shown Asks

theorem rests_set (f : State → State) : Rests (.set f) := trivial

theorem rests_delay (ms : Nat) : Rests (delay ms) := fun _ => trivial

theorem rests_setLed (b : Bool) : Rests (setLed b) := trivial

theorem rests_reply (pin : Nat) (l : List Value) : Rests (reply pin l) := trivial

theorem rests_writeWord (high low : Nat) (param : Param) : Rests (writeWord P high low param) := by
  simp [writeWord, Code.Rests, rests_set, rests_delay]

theorem rests_blynkWrite (w : AppWrite) : Rests (blynkWrite P w) := by
  obtain ⟨pin, param⟩ := w
  cases pin <;> simp [blynkWrite, blynkWriteV1, blynkWriteV11, blynkWriteV21, blynkWriteV22, blynkWriteV30,
    blynkWriteV32, blynkWriteV33, blynkWriteV34, Code.when, Code.Rests, rests_set, rests_delay, rests_reply,
    rests_writeWord]

theorem rests_handleApp (w : Option AppWrite) : Rests (handleApp P w) := by
  cases w with
  | none => trivial
  | some w => exact ⟨rests_set _, rests_blynkWrite w⟩

theorem rests_blynkRun : Rests (blynkRun P) := ⟨.app, fun j _ => rests_handleApp j.app⟩

theorem rests_send (e : State → Event) : Rests (send P e) := ⟨rests_blynkRun, trivial⟩

theorem rests_virtualWrite (pin : Nat) (l : State → List Value) : Rests (virtualWrite P pin l) := rests_send _

theorem rests_handleRequest (w : Option WebRequest) : Rests (handleRequest w) := by
  cases w with
  | none => trivial
  | some w =>
    cases w <;> simp [handleRequest, caiDat, Code.when, Code.Rests, rests_set, rests_delay, -List.reduceReplicate]

theorem rests_handleClient : Rests handleClient := ⟨.web, fun j _ => rests_handleRequest j.web⟩

theorem rests_webSocketEvent (payload : String) : Rests (webSocketEvent P payload) := by
  unfold webSocketEvent
  split_ifs <;> simp [Code.Rests, broadcastTXT, rests_set, rests_delay, rests_virtualWrite]

theorem rests_handleFrame (payload : Option String) : Rests (handleFrame P payload) := by
  cases payload with
  | none => trivial
  | some payload => exact ⟨rests_set _, rests_webSocketEvent payload⟩

theorem rests_webSocketLoop : Rests (webSocketLoop P) := ⟨.frame, fun j _ => rests_handleFrame j.frame⟩

theorem rests_answer (q : Request) : Rests (answer P q) := by
  cases q <;> simp [answer, answerIsAlcohol, answerNotAlcohol, answerBlockNow, answerUnblockNow, reportAlcohol,
    reportNotAlcohol, updateToTable, readCountdown, broadcastTXT, Code.when, Code.Rests, rests_set, rests_delay,
    rests_send, rests_virtualWrite]

theorem rests_checkRelay : Rests (checkRelay P) := by
  simp [checkRelay, Code.when, Code.Rests, rests_set, rests_delay, rests_virtualWrite]

theorem rests_updateWebsocket : Rests (updateWebsocket P) :=
  have ha : ∀ q, Rests (answer P q) := rests_answer
  ⟨ha .isAlcohol, ha .notAlcohol, ha .blockNow, ha .unblockNow, rests_checkRelay, trivial⟩

theorem rests_statusGate (online : Bool) : Rests (statusGate P online) := by
  simp [statusGate, Code.when, Code.Rests, rests_set, rests_delay, rests_virtualWrite]

theorem rests_minuteGate : Rests minuteGate := by
  simp [minuteGate, expire, Code.when, Code.Rests, rests_set, rests_setLed]

theorem rests_readIsAlcohol (downLimit upLimit threshold : Int) :
    Rests (readIsAlcohol P downLimit upLimit threshold) := by
  simp [readIsAlcohol, sample, close, judge, Code.when, Code.Rests, rests_set, rests_delay, rests_virtualWrite]

theorem rests_handleTimer (t : Option TimerCall) : Rests (handleTimer P t) := by
  cases t with
  | none => trivial
  | some t =>
    cases t <;> simp [handleTimer, clockCurrent, blinkLedConnect, Code.Rests, rests_set, rests_delay,
      rests_virtualWrite]

theorem rests_timerRun : Rests (timerRun P) := ⟨⟨.timer, fun j _ => rests_handleTimer j.timer⟩, .inl trivial⟩

theorem rests_loopBody (online : Bool) : Rests (loopBody P online) := by
  simp [loopBody, updateGate, alcoholGate, Code.when, Code.Rests, rests_set, rests_delay, rests_handleClient,
    rests_webSocketLoop, rests_updateWebsocket, rests_statusGate, rests_minuteGate, rests_readIsAlcohol,
    rests_blynkRun, rests_timerRun]

theorem rests_loop : Rests (loop P) := by
  simp [loop, Code.Rests, rests_setLed, rests_delay, rests_loopBody]

theorem rests_setupOnline : Rests (setupOnline P) := by
  have hblink : Rests (.times 7 (.block [setLed false, delay 20, setLed true, delay 20])) :=
    Code.Rests.times (by simp [Code.Rests, rests_setLed, rests_delay]) 7
  exact ⟨rests_setLed _, rests_delay _, rests_set _, rests_delay _, hblink, rests_blynkRun, rests_delay _,
    rests_setLed _, rests_delay _, trivial⟩

theorem rests_testWiFi (n : Nat) : Rests (testWiFi (setupOnline P) setupOffline n) := by
  induction n with
  | zero => simp [testWiFi, setupOffline, Code.Rests, rests_setLed, rests_set, rests_delay]
  | succ n ih => exact .ite rests_setupOnline ⟨rests_delay _, ih⟩

theorem rests_setup : Rests (setup P) := by
  simp [setup, Shown, Code.Rests, rests_set, rests_delay, rests_virtualWrite, rests_testWiFi]

theorem lasts_setup : (setup P).Lasts := by
  have hled : ∀ b, (setLed b).Lasts := fun _ => trivial
  have hblink : ∀ n, (Code.times n (.block [setLed false, delay 20, setLed true, delay 20])).Lasts := by
    intro n
    induction n with
    | zero => trivial
    | succ n ih => exact ⟨by simp [Code.Lasts, hled, lasts_delay], ih⟩
  have hwifi : ∀ n, (testWiFi (setupOnline P) setupOffline n).Lasts := by
    intro n
    induction n with
    | zero => simp [testWiFi, setupOffline, Code.Lasts, hled, lasts_set, lasts_delay]
    | succ n ih =>
      exact ⟨⟨hled _, lasts_delay _, lasts_set _, lasts_delay _, hblink 7, lasts_blynkRun, lasts_delay _, hled _,
        lasts_delay _, trivial⟩, lasts_delay _, ih⟩
  simp [setup, Code.Lasts, lasts_set, lasts_delay, lasts_virtualWrite, hwifi]

end Home

/-- After any run with a display that answers: whatever arrives then, and whatever the sensor, the camera, the links,
the clock and the button do, Center is at the top of `loop` again and again. -/
theorem comes_home (P : Platform) (flash : Nat → UInt8) (xs : Run) (f : Schedule Env Outside)
    (hx : ∀ j, .run j ∈ xs → Shown j) (hf : f.Goes Shown) (hr : Returning P (after P flash xs) f) (n : Nat) :
    ∃ n', n ≤ n' ∧ ((device P).nth f (after P flash xs) n').code = [.forever (loop P)] := by
  have hhome : Machine.Homed Shown Asks (device P) (loop P) (after P flash xs).code :=
    Machine.homed_exec rfl Home.rests_setup Home.rests_loop hx (.inl rfl)
  exact Machine.comes_back hf hr (fun _ => id) rfl Home.rests_setup Home.rests_loop Home.lasts_setup hhome n

/-- Nothing happens any more, and the Wi-Fi is up. -/
def unattended : Schedule Env Outside := fun _ => .run {}

theorem not_asked {r : Env → Bool} (hr : Asks r) : r {} = false := by
  cases hr <;> rfl

theorem returning_unattended (P : Platform) (c : Config State Env) : Returning P c unattended := by
  intro r h k hr hp n
  obtain ⟨n', hle, hc, j, hj⟩ := hp n
  obtain rfl : ({} : Env) = j := Choice.run.inj hj
  exact ⟨n', hle, hc, {}, rfl, not_asked hr⟩

theorem unattended_goes : unattended.Goes Shown where
  fair n := ⟨n, le_rfl, {}, rfl⟩
  quiet n j h := by
    obtain rfl : ({} : Env) = j := Choice.run.inj h
    rfl
  on n := by simp [unattended]

/-- The switch is turned off in the first round of `loop`, and on again in the middle of the next. -/
theorem comes_home_tapped : ∃ n', 5 ≤ n' ∧
    ((device bench).nth unattended (after bench (flashOf 5) (idle 223 ++ tap 0 ++ idle 40)) n').code =
      [.forever (loop bench)] := by
  refine comes_home bench (flashOf 5) (idle 223 ++ tap 0 ++ idle 40) unattended (fun j hj => ?_) unattended_goes
    (returning_unattended _ _) 5
  simp only [idle, tap, List.mem_append, List.mem_replicate, List.mem_singleton, Choice.run.injEq] at hj
  rcases hj with (⟨-, rfl⟩ | rfl) | ⟨-, rfl⟩ <;> rfl

/-- The Wi-Fi is up, and nobody sends the form. -/
structure Env.Online (i : Env) : Prop where
  shown : Shown i
  wifi : i.wifi = true
  form : ∀ tenWiFi matkhau, i.web ≠ some (.caidat tenWiFi matkhau)

namespace Home

section

variable {P : Platform} {r : Request} {s t : State}

/-- The request stays raised, and `updateWebsocket` is not called. -/
structure Waits (r : Request) (s t : State) : Prop where
  pending : s.pending r = true → t.pending r = true
  previousMillis : t.previousMillis = s.previousMillis

theorem waits_iff : Waits r s t ↔ (s.pending r = true → t.pending r = true) ∧ t.previousMillis = s.previousMillis :=
  ⟨fun h => ⟨h.pending, h.previousMillis⟩, fun h => ⟨h.1, h.2⟩⟩

theorem Waits.refl (s : State) : Waits r s s := ⟨id, rfl⟩

theorem waits_around : (device P).Around (Waits r) where
  refl := .refl
  trans _ _ _ h h' := ⟨fun hp => h'.pending (h.pending hp), h'.previousMillis.trans h.previousMillis⟩
  react x s := by
    cases x with
    | wait ms => exact ⟨id, rfl⟩
    | button spin =>
      show Waits r s (react (.button spin) s)
      obtain ⟨last, c, x, hs, -, -⟩ := press_spec spin s
      simp only [react]
      split
      · rw [hs]
        exact ⟨by cases r <;> exact id, rfl⟩
      · exact .refl s

abbrev Waiting (r : Request) (c : Sketch) : Prop := c.Every fun _ => Waits r

theorem waiting_set {f : State → State} (h : ∀ s, Waits r s (f s)) : Waiting r (.set f) := fun _ => h

theorem waiting_delay (ms : Nat) : Waiting r (delay ms) := fun _ _ _ => ⟨by cases r <;> exact id, rfl⟩

theorem waiting_emit (e : State → Event) : Waiting r (.set fun s => s.emit (e s)) :=
  waiting_set fun _ => ⟨by cases r <;> exact id, rfl⟩

theorem waiting_broadcastTXT (c : Command) (q : Option Request) : Waiting r (broadcastTXT c q) := waiting_emit _

theorem waiting_setLed (b : Bool) : Waiting r (setLed b) := waiting_set fun _ => ⟨by cases r <;> exact id, rfl⟩

/-- Says if the link is up. -/
theorem waiting_say (e : State → Event) : Waiting r (.act fun i s => if i.link then s.emit (e s) else s) := by
  intro i s
  dsimp only
  split
  · exact waiting_emit e i s
  · exact .refl s

theorem waiting_reply (pin : Nat) (l : List Value) : Waiting r (reply pin l) := waiting_say _

/-- The app raises requests and takes none back. -/
theorem waiting_blynkWrite (w : AppWrite) : Waiting r (blynkWrite P w) := by
  obtain ⟨pin, param⟩ := w
  cases pin <;> cases r <;> simp [blynkWrite, blynkWriteV1, blynkWriteV11, blynkWriteV21, blynkWriteV22, blynkWriteV30,
    blynkWriteV32, blynkWriteV33, blynkWriteV34, writeWord, Code.when, Code.Every, waiting_delay, waiting_reply,
    Code.set, waits_iff, State.pending, State.emit, State.write, State.commit]

theorem waiting_handleApp (w : Option AppWrite) : Waiting r (handleApp P w) := by
  cases w with
  | none => trivial
  | some w => exact ⟨waiting_emit _, waiting_blynkWrite w⟩

theorem waiting_blynkRun : Waiting r (blynkRun P) := fun i => waiting_handleApp i.app

theorem waiting_send (e : State → Event) : Waiting r (send P e) := ⟨waiting_blynkRun, waiting_say e⟩

theorem waiting_virtualWrite (pin : Nat) (l : State → List Value) : Waiting r (virtualWrite P pin l) := waiting_send _

theorem handleRequest_root {w : Option WebRequest} (h : ∀ tenWiFi matkhau, w ≠ some (.caidat tenWiFi matkhau)) :
    handleRequest w = .skip := by
  cases w with
  | none => rfl
  | some w =>
    cases w with
    | root => rfl
    | caidat tenWiFi matkhau => exact absurd rfl (h _ _)

theorem waiting_handleFrame (payload : Option String) : Waiting r (handleFrame P payload) := by
  cases payload with
  | none => trivial
  | some payload =>
    refine ⟨waiting_emit _, ?_⟩
    unfold webSocketEvent
    split_ifs <;> cases r <;> simp [Code.Every, waiting_delay, waiting_virtualWrite, waiting_broadcastTXT, Code.set,
      waits_iff, State.pending]

theorem waiting_updateToTable : Waiting r (updateToTable P) := by
  cases r <;> simp [updateToTable, Code.when, Code.Every, waiting_delay, waiting_virtualWrite, Code.set, waits_iff,
    State.pending, State.write, State.commit]

/-- The answer to another request. -/
theorem waiting_answer {q : Request} (hq : q ≠ r) : Waiting r (answer P q) := by
  cases q <;> cases r <;> first
    | exact absurd rfl hq
    | simp [answer, answerIsAlcohol, answerNotAlcohol, answerBlockNow, answerUnblockNow, reportAlcohol,
        reportNotAlcohol, readCountdown, Code.when, Code.Every, waiting_delay, waiting_send, waiting_virtualWrite,
        waiting_broadcastTXT, waiting_updateToTable, Code.set, waits_iff, State.pending]

theorem waiting_statusGate (online : Bool) : Waiting r (statusGate P online) := by
  cases r <;> simp [statusGate, Code.when, Code.Every, waiting_delay, waiting_virtualWrite, Code.set, waits_iff,
    State.pending]

theorem waiting_minuteGate : Waiting r minuteGate := by
  cases r <;> simp [minuteGate, expire, Code.when, Code.Every, waiting_setLed, Code.set, waits_iff, State.pending,
    State.emit]

theorem waiting_readIsAlcohol (downLimit upLimit threshold : Int) :
    Waiting r (readIsAlcohol P downLimit upLimit threshold) := by
  cases r <;> simp [readIsAlcohol, sample, close, judge, Code.when, Code.Every, waiting_delay, waiting_virtualWrite,
    Code.set, waits_iff, State.pending, State.emit]

theorem waiting_alcoholGate : Waiting r (alcoholGate P) := by
  simp [alcoholGate, Code.when, Code.Every, waiting_delay, waiting_readIsAlcohol]

theorem waiting_timerRun : Waiting r (timerRun P) := by
  refine ⟨fun j => ?_, trivial⟩
  show Waiting r (handleTimer P j.timer)
  cases j.timer with
  | none => trivial
  | some t =>
    cases t <;> cases r <;> simp [handleTimer, clockCurrent, blinkLedConnect, Code.Every, waiting_delay,
      waiting_virtualWrite, Code.set, waits_iff, State.pending]

/-- The body of `loop` behind the gate of `updateWebsocket`. -/
def remainder (P : Platform) (online : Bool) : List Sketch :=
  [statusGate P online, minuteGate, alcoholGate P, blynkRun P, timerRun P, delay 10]

theorem remainder_rests (online : Bool) : ∀ c ∈ remainder P online, Rests c ∧ c.Lasts ∧ Waiting r c := by
  have hstatus : (statusGate P online).Lasts := by
    simp [statusGate, Code.when, Code.Lasts, lasts_set, lasts_delay, lasts_virtualWrite]
  have hminute : minuteGate.Lasts := by simp [minuteGate, expire, setLed, Code.when, Code.Lasts, lasts_set]
  have halcohol : (alcoholGate P).Lasts := by
    simp [alcoholGate, readIsAlcohol, sample, close, judge, Code.when, Code.Lasts, lasts_set, lasts_delay,
      lasts_virtualWrite]
  have htimer : (timerRun P).Lasts := by
    refine ⟨fun j => ?_, trivial⟩
    show (handleTimer P j.timer).Lasts
    cases j.timer with
    | none => trivial
    | some t =>
      cases t <;> simp [handleTimer, clockCurrent, blinkLedConnect, Code.Lasts, lasts_set, lasts_delay,
        lasts_virtualWrite]
  have hgate : Rests (alcoholGate P) := by
    simp [alcoholGate, Code.when, Code.Rests, rests_delay, rests_readIsAlcohol]
  simp only [remainder, List.forall_mem_cons, List.not_mem_nil, false_implies, implies_true, and_true]
  exact ⟨⟨rests_statusGate online, hstatus, waiting_statusGate online⟩, ⟨rests_minuteGate, hminute, waiting_minuteGate⟩,
    ⟨hgate, halcohol, waiting_alcoholGate⟩, ⟨rests_blynkRun, lasts_blynkRun, waiting_blynkRun⟩,
    ⟨rests_timerRun, htimer, waiting_timerRun⟩, rests_delay _, lasts_delay _, waiting_delay _⟩

theorem lasts_handleFrame (payload : Option String) : (handleFrame P payload).Lasts := by
  cases payload with
  | none => trivial
  | some payload =>
    refine ⟨lasts_set _, ?_⟩
    unfold webSocketEvent
    split_ifs <;> simp [Code.Lasts, lasts_set, lasts_delay, lasts_virtualWrite, broadcastTXT]

theorem answer_eq (P : Platform) (r : Request) : ∃ body,
    answer P r = .when (fun _ s => s.pending r) (.seq (broadcastTXT r.command (some r)) body) := by
  cases r <;> exact ⟨_, rfl⟩

theorem ne_of_ahead {q : Request} (h : q ∈ ahead r) : q ≠ r := by
  rintro rfl
  cases q <;> simp [ahead, Request.rank] at h

section

variable {f : Schedule Env Outside} {o : Config State Env} {n : Nat} {k : List Sketch}

theorem shown_of_online : ∀ j : Env, j.Online → Shown j := fun _ h => h.shown

/-- Requests of the page come to an end, since nobody sends the form. -/
theorem to_webSocketLoop (hf : f.Goes Env.Online) (hr : Returning P o f)
    (hn : ((device P).nth f o n).code = handleClient :: k) :
    ∃ n', n ≤ n' ∧ ((device P).nth f o n').code = k ∧ Machine.Through (device P) f o (Waits r) n n' := by
  have hE : (device P).Around (Waits r) := waits_around
  have hcomes : Machine.Comes (device P) f o (Waits r) .skip k n := by
    refine Machine.comes_poll hE hf hr .web (fun j n' hj hk => ?_) hn
    rw [handleRequest_root hj.form] at hk
    have hrests : Rests .skip := trivial
    have hwaits : Waiting r .skip := trivial
    exact Machine.comes hE hf hr shown_of_online hrests hwaits hk
  obtain ⟨n', hle, h⟩ := hcomes
  exact ⟨n', hle, h.resolve_right fun h => h.1 trivial⟩

/-- A round up to the gate of `updateWebsocket`. -/
theorem to_updateGate (hf : f.Goes Env.Online) (hr : Returning P o f)
    (hn : ((device P).nth f o n).code = [.forever (loop P)]) :
    ∃ n' online, n < n' ∧ ((device P).nth f o n').code = [updateGate P, .block (remainder P online), .forever (loop P)] ∧
      Machine.Through (device P) f o (Waits r) n n' := by
  have hE : (device P).Around (Waits r) := waits_around
  obtain ⟨n₁, -, h₁, -, hs₁, hk₁⟩ := hE.next_move hf hn (l := fun _ _ => [loop P, .forever (loop P)]) fun _ _ => rfl
  obtain ⟨online, n₂, h₂, hs₂, hk₂⟩ : ∃ online n₂, n < n₂ ∧ Machine.Through (device P) f o (Waits r) n n₂ ∧
      ((device P).nth f o n₂).code = loopBody P online :: [.forever (loop P)] := by
    obtain ⟨n₂, j, h₂, -, hs₂, hk₂⟩ := hE.next_move hf hk₁ (l := fun _ s => (if !s.wifiFlash then loopBody P false
      else .ite (fun i _ => i.wifi) (loopBody P true) (.block [setLed false, delay 100, .reset])) ::
        [.forever (loop P)]) fun _ _ => rfl
    have hs := hE.join hs₁ hs₂ (by omega)
    by_cases hw : (!((device P).nth f o n₂).state.wifiFlash) = true
    · rw [if_pos hw] at hk₂
      exact ⟨false, n₂ + 1, by omega, hs, hk₂⟩
    · rw [if_neg hw] at hk₂
      obtain ⟨n₃, j, h₃, hq, hs₃, hk₃⟩ := hE.next_move hf hk₂ (l := fun j _ => (if j.wifi then loopBody P true
        else .block [setLed false, delay 100, .reset]) :: [.forever (loop P)]) fun _ _ => rfl
      rw [if_pos hq.wifi] at hk₃
      exact ⟨true, n₃ + 1, by omega, hE.join hs hs₃ (by omega), hk₃⟩
  obtain ⟨n₃, -, h₃, -, hs₃, hk₃⟩ := hE.next_move hf hk₂ (l := fun _ _ => handleClient :: _) fun _ _ => rfl
  obtain ⟨n₄, h₄, hk₄, hs₄⟩ := to_webSocketLoop (r := r) hf hr hk₃
  obtain ⟨n₅, -, h₅, -, hs₅, hk₅⟩ := hE.next_move hf hk₄ (l := fun _ _ => webSocketLoop P :: _) fun _ _ => rfl
  have hlasts : (webSocketLoop P).Lasts := fun j => lasts_handleFrame j.frame
  have hwaits : Waiting r (webSocketLoop P) := fun j => waiting_handleFrame j.frame
  obtain ⟨n₆, h₆, hc⟩ := Machine.comes hE hf hr shown_of_online rests_webSocketLoop hwaits hk₅
  obtain ⟨hk₆, hs₆⟩ := hc.resolve_right fun h => h.1 hlasts
  obtain ⟨n₇, -, h₇, -, hs₇, hk₇⟩ := hE.next_move hf hk₆ (l := fun _ _ => updateGate P :: _) fun _ _ => rfl
  exact ⟨n₇ + 1, online, by omega, hk₇, hE.join (hE.join (hE.join (hE.join (hE.join hs₂ hs₃ (by omega)) hs₄ (by omega))
    hs₅ (by omega)) hs₆ (by omega)) hs₇ (by omega)⟩

/-- The call of `updateWebsocket`, when it is due. -/
def updateCall (P : Platform) : Sketch :=
  .block [.set fun s => { s with previousMillis := s.millis }, updateWebsocket P]

/-- A round of `loop`: `updateWebsocket` is due when its gate is reached, or the round ends without it. -/
theorem to_round (hf : f.Goes Env.Online) (hr : Returning P o f)
    (hn : ((device P).nth f o n).code = [.forever (loop P)]) : ∃ n', n < n' ∧
      Machine.Through (device P) f o (Waits r) n n' ∧
      ((∃ k, ((device P).nth f o (n' + 1)).code = updateCall P :: k ∧
          ((device P).nth f o (n' + 1)).state = ((device P).nth f o n').state) ∨
        ¬ 1000 < elapsed ((device P).nth f o n').state.millis ((device P).nth f o n').state.previousMillis ∧
          ∃ n'', n' ≤ n'' ∧ ((device P).nth f o n'').code = [.forever (loop P)] ∧
            Machine.Through (device P) f o (Waits r) n n'') := by
  have hE : (device P).Around (Waits r) := waits_around
  obtain ⟨n₁, online, h₁, hk₁, hs₁⟩ := to_updateGate (r := r) hf hr hn
  obtain ⟨n₂, j, h₂, -, hs₂, hst⟩ := hE.next_step hf hk₁ (by simp [updateGate, Code.when])
  have hs := hE.join hs₁ hs₂ (by omega)
  obtain ⟨hk₂, hs₂'⟩ := Prod.mk.inj (Option.some.inj hst)
  refine ⟨n₂, by omega, hs, ?_⟩
  by_cases hdue : 1000 < elapsed ((device P).nth f o n₂).state.millis ((device P).nth f o n₂).state.previousMillis
  · rw [if_pos (decide_eq_true hdue)] at hk₂
    exact .inl ⟨_, hk₂.symm, hs₂'.symm⟩
  · rw [if_neg (by simpa using hdue)] at hk₂
    have hs' := hE.join hs (hE.one (n := n₂) (by rw [← hs₂']; exact .refl _)) (by omega)
    obtain ⟨n₃, -, h₃, -, hs₃, hk₃⟩ := hE.next_move hf hk₂.symm
      (l := fun _ _ => [.block (remainder P online), .forever (loop P)]) fun _ _ => rfl
    have hk₃ : ((device P).nth f o (n₃ + 1)).code = .block (remainder P online ++ []) :: [.forever (loop P)] := by
      rw [hk₃, List.append_nil]
    obtain ⟨n₄, h₄, hk₄, hs₄⟩ := Machine.comes_block hE hf hr shown_of_online (remainder_rests online) hk₃
    obtain ⟨n₅, -, h₅, -, hs₅, hk₅⟩ := hE.next_move hf hk₄ (l := fun _ _ => [.forever (loop P)]) fun _ _ => rfl
    exact .inr ⟨hdue, n₅ + 1, by omega, hk₅, hE.join (hE.join (hE.join hs' hs₃ (by omega)) hs₄ (by omega)) hs₅
      (by omega)⟩

/-- From the call of `updateWebsocket` to the command. -/
theorem to_broadcast (hf : f.Goes Env.Online) (hr : Returning P o f)
    (hn : ((device P).nth f o n).code = updateWebsocket P :: k) (hp : ((device P).nth f o n).state.pending r = true) :
    ∃ n', ((device P).nth f o (n' + 1)).state.log =
      .broadcast r.command (some r) :: ((device P).nth f o n').state.log := by
  have hE : (device P).Around (Waits r) := waits_around
  obtain ⟨l, hu⟩ := updateWebsocket_split P r
  obtain ⟨body, ha⟩ := answer_eq P r
  rw [hu] at hn
  have hahead : ∀ c ∈ (ahead r).map (answer P), Rests c ∧ c.Lasts ∧ Waiting r c := by
    intro c hc
    obtain ⟨q, hqr, rfl⟩ := List.mem_map.1 hc
    exact ⟨rests_answer q, lasts_answer P q, waiting_answer (ne_of_ahead hqr)⟩
  obtain ⟨n₁, h₁, hk₁, hs₁⟩ := Machine.comes_block hE hf hr shown_of_online hahead hn
  obtain ⟨n₂, -, h₂, -, hs₂, hk₂⟩ := hE.next_move hf hk₁ (l := fun _ _ => answer P r :: _) fun _ _ => rfl
  rw [ha] at hk₂
  obtain ⟨n₃, -, h₃, -, hs₃, hk₃⟩ := hE.next_move hf hk₂ (l := fun _ s => (if s.pending r then
    .seq (broadcastTXT r.command (some r)) body else .skip) :: _) fun _ _ => rfl
  have hs := hE.join (hE.join hs₁ hs₂ (by omega)) hs₃ (by omega)
  rw [if_pos ((hs n₃ (by omega) (by omega)).pending hp)] at hk₃
  obtain ⟨n₄, -, h₄, -, hs₄, hk₄⟩ := hE.next_move hf hk₃
    (l := fun _ _ => broadcastTXT r.command (some r) :: body :: _) fun _ _ => rfl
  obtain ⟨n₅, j, h₅, -, hs₅, hst⟩ := hE.next_step hf hk₄ (by simp [broadcastTXT, Code.set])
  obtain ⟨-, hs'⟩ := Prod.mk.inj (Option.some.inj hst)
  exact ⟨n₅, by rw [← hs']; rfl⟩

/-- From the gate to the command. -/
theorem to_answer (hf : f.Goes Env.Online) (hr : Returning P o f)
    (hn : ((device P).nth f o n).code = updateCall P :: k) (hp : ((device P).nth f o n).state.pending r = true) :
    ∃ n', ((device P).nth f o (n' + 1)).state.log =
      .broadcast r.command (some r) :: ((device P).nth f o n').state.log := by
  have hE : (device P).Around (Waits r) := waits_around
  obtain ⟨n₁, -, h₁, -, hs₁, hk₁⟩ := hE.next_move hf hn
    (l := fun _ _ => .set (fun s => { s with previousMillis := s.millis }) :: .seq (updateWebsocket P) .skip :: k)
    fun _ _ => rfl
  obtain ⟨n₂, j, h₂, -, hs₂, hst⟩ := hE.next_step hf hk₁ (by simp [Code.set])
  obtain ⟨hk₂, hs₂'⟩ := Prod.mk.inj (Option.some.inj hst)
  have hp₂ : ((device P).nth f o n₂).state.pending r = true :=
    ((hE.join hs₁ hs₂ (by omega)) n₂ (by omega) le_rfl).pending hp
  have hp₃ : ((device P).nth f o (n₂ + 1)).state.pending r = true := by
    rw [← hs₂']
    cases r <;> exact hp₂
  obtain ⟨n₃, -, h₃, -, hs₃, hk₃⟩ := hE.next_move hf hk₂.symm (l := fun _ _ => updateWebsocket P :: .skip :: k)
    fun _ _ => rfl
  exact to_broadcast hf hr hk₃ ((hs₃ (n₃ + 1) (by omega) le_rfl).pending hp₃)

/-- Rounds without a call of `updateWebsocket` go on until it is due. -/
theorem to_updateCall (hf : f.Goes Env.Online) (hr : Returning P o f) (hn : o.code = [.forever (loop P)]) (N : Nat) :
    (∃ n k, ((device P).nth f o n).code = updateCall P :: k ∧ Waits r o.state ((device P).nth f o n).state) ∨
      ∃ n, N ≤ n ∧ ((device P).nth f o n).code = [.forever (loop P)] ∧
        Machine.Through (device P) f o (Waits r) 0 n := by
  have hE : (device P).Around (Waits r) := waits_around
  induction N with
  | zero => exact .inr ⟨0, le_rfl, hn, hE.stay 0⟩
  | succ N ih =>
    obtain h | ⟨n, hle, hk, hs⟩ := ih
    · exact .inl h
    obtain ⟨n', hlt, hs', ⟨k, hk', hst⟩ | ⟨-, n'', hle'', hk'', hs''⟩⟩ := to_round (r := r) hf hr hk
    · exact .inl ⟨n' + 1, k, hk', hst ▸ hE.join hs hs' (by omega) n' (by omega) le_rfl⟩
    · exact .inr ⟨n'', by omega, hk'', hE.join hs hs'' (by omega)⟩

end

end

end Home

/-- An endless run, step by step. -/
theorem nth_after (P : Platform) (flash : Nat → UInt8) (xs : Run) (f : Schedule Env Outside) (n : Nat) :
    (device P).nth f (after P flash xs) n = after P flash (xs ++ (List.range n).map f) := by
  induction n with
  | zero => simp [Machine.nth]
  | succ n ih =>
    have hnext : after P flash (xs ++ (List.range n).map f ++ [f n]) =
        (device P).step (f n) (after P flash (xs ++ (List.range n).map f)) := Machine.exec_append _ _ _ _
    rw [Machine.nth, ih, List.range_succ, List.map_append, ← List.append_assoc]
    exact hnext.symm

theorem log_grows (P : Platform) (flash : Nat → UInt8) (xs ys : Run) :
    (after P flash xs).state.log <:+ (after P flash (xs ++ ys)).state.log := by
  have hx := along_grew P flash (xs ++ ys)
  rw [Machine.along_append] at hx
  have hend : after P flash (xs ++ ys) = (device P).exec ys (after P flash xs) := Machine.exec_append _ _ _ _
  rw [hend]
  exact hx.2.invariant (I := fun c => (after P flash xs).state.log <:+ c.state.log) (List.suffix_refl _)
    fun _ _ h hg => h.trans hg.suffix

/-- From the top of `loop`, with the Wi-Fi up and nobody sending the form: a pending request is answered, whatever
else is pending or arrives, if from some time on more than a second has passed since `updateWebsocket` was last
called and until it is called again. -/
theorem request_answered (P : Platform) (flash : Nat → UInt8) (xs : Run) (f : Schedule Env Outside) (r : Request)
    (hf : f.Goes Env.Online) (hr : Returning P (after P flash xs) f)
    (h : (after P flash xs).code = [.forever (loop P)]) (hp : (after P flash xs).state.pending r = true)
    (hd : ∃ n₀, ∀ n, n₀ ≤ n → (∀ d ≤ n, ((device P).nth f (after P flash xs) d).state.previousMillis =
        (after P flash xs).state.previousMillis) →
      1000 < elapsed ((device P).nth f (after P flash xs) n).state.millis (after P flash xs).state.previousMillis) :
    ∃ n new, ((device P).nth f (after P flash xs) n).state.log = new ++ (after P flash xs).state.log ∧
      .broadcast r.command (some r) ∈ new := by
  obtain ⟨n₀, hd⟩ := hd
  have hE : (device P).Around (Home.Waits r) := Home.waits_around
  obtain ⟨n, k, hn, hw⟩ : ∃ n k, ((device P).nth f (after P flash xs) n).code = Home.updateCall P :: k ∧
      Home.Waits r (after P flash xs).state ((device P).nth f (after P flash xs) n).state := by
    obtain hcall | ⟨n, hle, hk, hs⟩ := Home.to_updateCall (r := r) hf hr h n₀
    · exact hcall
    obtain ⟨n', hlt, hs', ⟨k, hk', hst⟩ | ⟨hnot, -⟩⟩ := Home.to_round (r := r) hf hr hk
    · exact ⟨n' + 1, k, hk', hst ▸ hE.join hs hs' (by omega) n' (by omega) le_rfl⟩
    · have hthrough := hE.join hs hs' (by omega)
      have hdue := hd n' (by omega) fun d hd => (hthrough d (by omega) hd).previousMillis
      have hprev : ((device P).nth f (after P flash xs) n').state.previousMillis =
          (after P flash xs).state.previousMillis := (hthrough n' (by omega) le_rfl).previousMillis
      rw [hprev] at hnot
      exact absurd hdue hnot
  obtain ⟨n', hn'⟩ := Home.to_answer hf hr hn (hw.pending hp)
  obtain ⟨new, hnew⟩ : (after P flash xs).state.log <:+ ((device P).nth f (after P flash xs) n').state.log := by
    rw [nth_after]
    exact log_grows P flash xs _
  exact ⟨n' + 1, .broadcast r.command (some r) :: new, by rw [hn', ← hnew]; rfl, List.mem_cons_self⟩

/-- Nothing happens, but that after 20 statements a second passes. -/
def dozing : Schedule Env Outside := fun n => if n = 20 then .outside (.wait 1001) else .run {}

theorem dozing_run {n : Nat} {j : Env} (h : dozing n = .run j) : j = {} := by
  rw [dozing] at h
  split at h
  · cases h
  · exact (Choice.run.inj h).symm

theorem dozing_goes : dozing.Goes Env.Online where
  fair n := ⟨n + 21, by omega, {}, if_neg (by omega)⟩
  quiet n j h := by
    obtain rfl := dozing_run h
    exact ⟨rfl, rfl, fun _ _ => by simp⟩
  on n := by
    rw [dozing]
    split <;> simp

theorem returning_dozing (P : Platform) (c : Config State Env) : Returning P c dozing := by
  intro r h k hr hp n
  obtain ⟨n', hle, hc, j, hj⟩ := hp n
  exact ⟨n', hle, hc, j, hj, dozing_run hj ▸ not_asked hr⟩

/-- The app asks for the unlocking in the first round of `loop`. -/
def tapWaiting : Run := idle 223 ++ tap 0 ++ idle 27

set_option maxRecDepth 10000 in
theorem request_answered_tap : ∃ n new,
    ((device bench).nth dozing (after bench (flashOf 5) tapWaiting) n).state.log =
      new ++ (after bench (flashOf 5) tapWaiting).state.log ∧
      .broadcast Request.unblockNow.command (some .unblockNow) ∈ new := by
  have hcode : (after bench (flashOf 5) tapWaiting).code = [.forever (loop bench)] := rfl
  have hdue : ∀ n < 40, 21 ≤ n →
      1000 < elapsed ((device bench).nth dozing (after bench (flashOf 5) tapWaiting) n).state.millis
        (after bench (flashOf 5) tapWaiting).state.previousMillis := by decide +kernel
  have hcall : ((device bench).nth dozing (after bench (flashOf 5) tapWaiting) 40).state.previousMillis ≠
      (after bench (flashOf 5) tapWaiting).state.previousMillis := by decide +kernel
  refine request_answered bench (flashOf 5) tapWaiting dozing .unblockNow dozing_goes (returning_dozing _ _) hcode
    (by decide +kernel) ⟨21, fun n hn hsame => ?_⟩
  by_cases hlt : n < 40
  · exact hdue n hlt hn
  · exact absurd (hsame 40 (by omega)) hcall

end Center
