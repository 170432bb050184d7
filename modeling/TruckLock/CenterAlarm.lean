import TruckLock.Center
import TruckLock.Views

/-!
# The view of an alarm

What the report of a detected concentration is about: the concentration that
the samples compute, the flag that asks for the report, and the row counter of
the alarm table with its cell. Most of the sketch does not show in this view.
-/
namespace Center

open Firmware Spec

/-- The text on V3 after a test without alcohol. -/
def noAlcohol : List Value := [.text "Không phát hiện nồng độ cồn"]

/-- A write of the app that clears the alarm table. -/
def AppWrite.clears (w : AppWrite) : Bool := w.pin = .V11 && w.param.asFloat = 1

def Event.onAlarm : Event → Bool
  | .boot | .camera _ | .alcohol _ => true
  | .broadcast _ (some .isAlcohol) => true
  | .app w => w.clears
  | .virtualWrite 3 values => values ≠ noAlcohol
  | .virtualWrite 10 (.text "add" :: _) => true
  | _ => false

structure Alarm where
  MAX : Int
  milligramsPerLiter : Rat
  isAlcoholState : Bool
  upLimit : Int
  threshold : Int
  rowIndex : Int
  ram : UInt8
  cell : UInt8
  hist : List Event

def State.alarm (s : State) : Alarm where
  MAX := s.MAX
  milligramsPerLiter := s.milligramsPerLiter
  isAlcoholState := s.isAlcoholState
  upLimit := s.upLimit
  threshold := s.threshold
  rowIndex := s.rowIndex
  ram := s.rom 106
  cell := s.flash 106
  hist := s.log.filter Event.onAlarm

namespace Alarm

def say (v : Alarm) (e : Event) : Alarm := { v with hist := e :: v.hist }

/-- What happens beside the program: a press forgets the extremes. -/
def Beside (v w : Alarm) : Prop := w = v ∨ w = { v with MAX := 0 }

/-- A statement of a handler, or one with which `setup` loads a limit. -/
inductive Written (v : Alarm) : Alarm → Prop where
  | same : Written v v
  | upLimit (n : Int) (h : 0 ≤ n) : Written v { v with upLimit := n }
  | threshold (n : Int) (h : 0 ≤ n) : Written v { v with threshold := n }
  | commit : Written v { v with cell := v.ram }

end Alarm

theorem alarm_emit (s : State) (e : Event) (he : e.onAlarm = true) : (s.emit e).alarm = s.alarm.say e := by
  simp only [State.alarm, State.emit, List.filter_cons, he, if_true, Alarm.say]

theorem alarm_emit_idle (s : State) (e : Event) (he : e.onAlarm = false) : (s.emit e).alarm = s.alarm := by
  simp only [State.alarm, State.emit, List.filter_cons, he]
  rfl

theorem alarm_react (r : Outside) (s : State) : Alarm.Beside s.alarm (react r s).alarm := by
  cases r with
  | wait ms => exact .inl rfl
  | button spin =>
    obtain ⟨last, c, x, hs, -, -⟩ := press_spec spin s
    simp only [react]
    split
    · rw [hs]
      exact .inr rfl
    · exact .inl rfl

theorem read_nonneg (s : State) (a : Nat) : 0 ≤ s.read a := by
  unfold State.read
  split
  · exact Int.natCast_nonneg _
  · exact le_rfl

section

variable (P : Platform)

/-- Code that does not show in the view, apart from the handlers that it lets run. -/
abbrev Unseen (c : Sketch) : Prop := Made (fun s t => t.alarm = s.alarm) (· = blynkRun P) c

theorem unseen_delay (ms : Nat) : Unseen P (delay ms) := fun _ _ _ => rfl

theorem unseen_send {e : State → Event} (he : ∀ s, (e s).onAlarm = false) : Unseen P (send P e) := by
  refine ⟨rfl, fun i s => ?_⟩
  dsimp only
  split
  · exact alarm_emit_idle s _ (he s)
  · rfl

theorem unseen_virtualWrite (pin : Nat) (l : State → List Value) (h : pin ≠ 3 ∧ pin ≠ 10) :
    Unseen P (virtualWrite P pin l) := by
  refine unseen_send P fun s => ?_
  unfold Event.onAlarm
  split <;> simp_all

theorem unseen_handleTimer (t : Option TimerCall) : Unseen P (handleTimer P t) := by
  have hblink : ∀ (b : Bool) n, Unseen P (.block [
      .set fun s => { s with ledConnect := b }, virtualWrite P 0 fun _ => [.int n], delay 20]) :=
    fun b n => ⟨fun _ _ => rfl, unseen_virtualWrite P 0 _ (by decide), unseen_delay P _, trivial⟩
  cases t with
  | none => trivial
  | some t =>
    cases t with
    | clockCurrent => exact fun _ _ => rfl
    | blinkLedConnect => exact ⟨hblink false 0, hblink true 255⟩

theorem unseen_handleFrame (payload : Option String) : Unseen P (handleFrame P payload) := by
  have hsay : ∀ c, Unseen P (broadcastTXT c none) := fun _ _ s => alarm_emit_idle s _ rfl
  cases payload with
  | none => trivial
  | some payload =>
    refine ⟨fun _ s => alarm_emit_idle s _ rfl, ?_⟩
    unfold webSocketEvent
    split
    · exact ⟨fun _ _ => rfl, fun _ _ => rfl, trivial⟩
    split
    · exact ⟨fun _ _ => rfl, fun _ _ => rfl, trivial⟩
    split
    · exact ⟨⟨hsay _, hsay _⟩, fun _ _ => rfl, fun _ _ => rfl, unseen_delay P _,
        unseen_virtualWrite P 6 _ (by decide), unseen_delay P _, fun _ _ => rfl, trivial⟩
    · trivial

theorem unseen_statusGate (online : Bool) : Unseen P (statusGate P online) := by
  have htell : ∀ l, Unseen P (.block [delay 10, virtualWrite P 4 l, delay 20]) := fun l =>
    ⟨unseen_delay P _, unseen_virtualWrite P 4 l (by decide), unseen_delay P _, trivial⟩
  exact ⟨⟨fun _ _ => rfl, fun _ => ⟨⟨htell _, htell _⟩, trivial⟩, unseen_delay P _, trivial⟩, trivial⟩

theorem unseen_minuteGate : Unseen P minuteGate :=
  ⟨⟨fun _ _ => rfl, fun _ _ => rfl,
    ⟨⟨fun _ s => alarm_emit_idle { s with blockNowState := true } _ rfl, fun _ _ => rfl, fun _ _ => rfl,
      trivial⟩, trivial⟩, trivial⟩, trivial⟩

theorem unseen_answerNotAlcohol : Unseen P (answerNotAlcohol P) := by
  have hreport : Unseen P (reportNotAlcohol P) :=
    ⟨unseen_delay P _, unseen_virtualWrite P 1 _ (by decide), unseen_delay P _,
      unseen_send P fun _ => by simp [Event.onAlarm, noAlcohol], unseen_delay P _, trivial⟩
  exact ⟨⟨fun _ s => alarm_emit_idle s _ rfl, fun _ _ => rfl, fun _ _ => rfl, fun _ _ => rfl,
    ⟨hreport, trivial⟩, unseen_delay P _, fun _ _ => rfl, trivial⟩, trivial⟩

theorem unseen_answerBlockNow : Unseen P answerBlockNow :=
  ⟨⟨fun _ s => alarm_emit_idle s _ rfl, fun _ _ => rfl, fun _ _ => rfl, fun _ _ => rfl, trivial⟩, trivial⟩

theorem unseen_answerUnblockNow : Unseen P answerUnblockNow :=
  ⟨⟨fun _ s => alarm_emit_idle s _ rfl, fun _ _ => rfl, fun _ _ => rfl, fun _ _ => rfl, fun _ _ => rfl,
    trivial⟩, trivial⟩

theorem unseen_checkRelay : Unseen P (checkRelay P) :=
  ⟨⟨fun _ s => alarm_emit_idle s _ rfl, unseen_delay P _, unseen_virtualWrite P 6 _ (by decide),
    fun _ => trivial, trivial⟩, trivial⟩

theorem unseen_setLed (b : Bool) : Unseen P (setLed b) := fun _ _ => rfl

theorem unseen_testWiFi (n : Nat) : Unseen P (testWiFi (setupOnline P) setupOffline n) := by
  have hblink : Unseen P (.block [setLed false, delay 20, setLed true, delay 20]) :=
    ⟨unseen_setLed P _, unseen_delay P _, unseen_setLed P _, unseen_delay P _, trivial⟩
  have hoff : Unseen P setupOffline := ⟨unseen_setLed P _, fun _ _ => rfl, unseen_delay P _, trivial⟩
  have hon : Unseen P (setupOnline P) :=
    ⟨unseen_setLed P _, unseen_delay P _, fun _ _ => rfl, unseen_delay P _, made_times hblink 7, rfl,
      unseen_delay P _, unseen_setLed P _, unseen_delay P _, trivial⟩
  induction n with
  | zero => exact hoff
  | succ n ih => exact ⟨hon, unseen_delay P _, ih⟩

/-- Code of the handlers. -/
abbrev Writes (c : Sketch) : Prop := Made (fun s t => Alarm.Written s.alarm t.alarm) (fun _ => False) c

theorem writes_delay (ms : Nat) : Writes (delay ms) := fun _ _ _ => .same

theorem writes_reply (pin : Nat) (l : List Value) : Writes (reply pin l) := by
  intro i s
  dsimp only
  split
  · rw [alarm_emit_idle s _ rfl]
    exact .same
  · exact .same

theorem writes_upLimit : Writes (.set fun s => { s with upLimit := s.read 103 }) :=
  fun _ s => .upLimit _ (read_nonneg s 103)

theorem writes_threshold : Writes (.set fun s => { s with threshold := s.read 104 * 256 + s.read 105 }) :=
  fun _ s => .threshold _ (Int.add_nonneg (Int.mul_nonneg (read_nonneg s 104) (by decide)) (read_nonneg s 105))

/-- The handlers of the app's writes, that of V11 apart. -/
theorem writes_blynkWrite (w : AppWrite) (h : w.pin ≠ .V11) : Writes (blynkWrite P w) := by
  have hsay : ∀ (f : State → State) (e : State → Event), (∀ s, (f s).alarm = s.alarm) →
      (∀ s, (e s).onAlarm = false) → Writes (.set fun s => (f s).emit (e s)) := by
    intro f e hf he _ s
    dsimp only
    rw [alarm_emit_idle _ _ (he s), hf s]
    exact .same
  rcases w with ⟨pin, param⟩
  cases pin with
  | V1 =>
    exact ⟨⟨writes_delay _, writes_reply _ _, writes_delay _, writes_reply _ _, writes_delay _,
      hsay _ _ (fun _ => rfl) fun _ => rfl, trivial⟩, writes_delay _, writes_reply _ _, writes_delay _,
      writes_reply _ _, writes_delay _, hsay _ _ (fun _ => rfl) fun _ => rfl, trivial⟩
  | V11 => exact absurd rfl h
  | V21 => exact ⟨writes_delay _, fun _ _ => .same, writes_delay _, trivial⟩
  | V22 => exact ⟨writes_delay _, fun _ _ => .same, writes_delay _, trivial⟩
  | V30 =>
    exact ⟨⟨writes_delay _, fun _ _ => .same, fun _ _ => .same, fun _ _ => .commit, trivial⟩, writes_delay _,
      trivial⟩
  | V32 =>
    exact ⟨writes_delay _, fun _ _ => .same, fun _ _ => .commit, writes_delay _, fun _ _ => .same,
      writes_delay _, trivial⟩
  | V33 =>
    exact ⟨writes_delay _, fun _ _ => .same, fun _ _ => .commit, writes_delay _, writes_upLimit,
      writes_delay _, trivial⟩
  | V34 =>
    exact ⟨⟨writes_delay _, fun _ _ => .same, fun _ _ => .same, fun _ _ => .commit, trivial⟩, writes_delay _,
      writes_threshold, writes_delay _, trivial⟩

end

/-- The handler that clears the table: the counter is set after the write has been logged. -/
theorem amid_clear (P : Platform) {S : Spec Env Alarm} {A B : Alarm → Prop} {param : Param}
    (hA : S.Steady Alarm.Beside A) (hB : S.Steady Alarm.Beside B)
    (happ : param.asFloat = 1 →
      S.Amid Alarm.Beside State.alarm A (.set fun s => s.emit (.app ⟨.V11, param⟩)) B)
    (hrow : S.Amid Alarm.Beside State.alarm B (.set fun s => { s with rowIndex := 1 }) A) :
    S.Amid Alarm.Beside State.alarm A (handleApp P (some ⟨.V11, param⟩)) A := by
  have hidle : ∀ {A : Alarm → Prop} {c : Sketch}, S.Steady Alarm.Beside A →
      Made (fun s t => t.alarm = s.alarm) (fun _ => False) c → S.Amid Alarm.Beside State.alarm A c A :=
    fun hA hc => Amid.idle hA (fun _ hk => hk.elim) hc
  have hreply : Made (fun s t => t.alarm = s.alarm) (fun _ => False) (reply 10 [.text "clr"]) := by
    intro i s
    dsimp only
    split
    · exact alarm_emit_idle s _ rfl
    · rfl
  by_cases hp : param.asFloat = 1
  · exact .seq (happ hp) (Amid.known (b := true) hB (fun _ _ _ => by simpa using hp) (.seq hrow
      (hidle hA ⟨fun _ _ => rfl, fun _ _ _ => rfl, hreply, fun _ _ _ => rfl, trivial⟩)))
  · refine .seq (hidle hA fun _ s => alarm_emit_idle s _ (by simp [Event.onAlarm, AppWrite.clears, hp])) ?_
    exact Amid.known (b := false) hA (fun _ _ _ => by simpa using hp) (Amid.done hA)

/-- An assertion that survives what is not about an alarm. -/
structure Lasting (P : Platform) (S : Spec Env Alarm) (A : Alarm → Prop) : Prop where
  steady : S.Steady Alarm.Beside A
  written : ∀ v w, A v → Alarm.Written v w → S.good v w ∧ A w
  clear : ∀ param, S.Amid Alarm.Beside State.alarm A (handleApp P (some ⟨.V11, param⟩)) A

namespace Lasting

variable {P : Platform} {S : Spec Env Alarm} {A : Alarm → Prop}

theorem writes (h : Lasting P S A) {c : Sketch} (hc : Writes c) :
    S.Amid Alarm.Beside State.alarm A c A := by
  have hst : Stable (S.amid Alarm.Beside State.alarm) fun s => A s.alarm := h.steady.stable
  exact Made.triple hst (fun i f _ s _ hw hs => h.written s.alarm (f i s).alarm hs hw)
    (fun _ hk => hk.elim) hc

theorem app (h : Lasting P S A) : S.Amid Alarm.Beside State.alarm A (blynkRun P) A := by
  refine Amid.poll h.steady fun i => ?_
  cases i.app with
  | none => exact Amid.done h.steady
  | some w =>
    by_cases hw : w.pin = .V11
    · rw [show w = ⟨.V11, w.param⟩ by rw [← hw]]
      exact h.clear w.param
    · refine h.writes ⟨fun _ s => ?_, writes_blynkWrite P w hw⟩
      dsimp only
      rw [alarm_emit_idle s _ (by simp [Event.onAlarm, AppWrite.clears, hw])]
      exact .same

theorem unseen (h : Lasting P S A) {c : Sketch} (hc : Unseen P c) :
    S.Amid Alarm.Beside State.alarm A c A :=
  Amid.idle h.steady (fun _ hk => hk ▸ h.app) hc

/-- Wherever the handlers may run, the message of a call is sent after them. -/
theorem send (h : Lasting P S A) {B : Alarm → Prop} {e : State → Event}
    (he : S.Amid Alarm.Beside State.alarm A (.act fun i s => if i.link then s.emit (e s) else s) B) :
    S.Amid Alarm.Beside State.alarm A (Center.send P e) B :=
  .seq h.app he

theorem updateWebsocket (h : Lasting P S A)
    (ha : S.Amid Alarm.Beside State.alarm A (answerIsAlcohol P) A) :
    S.Amid Alarm.Beside State.alarm A (Center.updateWebsocket P) A :=
  .seq ha (h.unseen ⟨unseen_answerNotAlcohol P, unseen_answerBlockNow P, unseen_answerUnblockNow P,
    unseen_checkRelay P, trivial⟩)

theorem loop (h : Lasting P S A) (hclient : S.Amid Alarm.Beside State.alarm A handleClient A)
    (hanswer : S.Amid Alarm.Beside State.alarm A (answerIsAlcohol P) A)
    (hread : S.Amid Alarm.Beside State.alarm A (alcoholGate P) A) :
    S.Amid Alarm.Beside State.alarm A (Center.loop P) A := by
  have hdone : S.Amid Alarm.Beside State.alarm A .skip A := Amid.done h.steady
  have hframes : S.Amid Alarm.Beside State.alarm A (webSocketLoop P) A :=
    Amid.poll h.steady fun i => h.unseen (unseen_handleFrame P i.frame)
  have htimers : S.Amid Alarm.Beside State.alarm A (timerRun P) A :=
    Amid.choose (Amid.poll h.steady fun i => h.unseen (unseen_handleTimer P i.timer)) hdone
  have hupdate : S.Amid Alarm.Beside State.alarm A (updateGate P) A :=
    Amid.choose (.seq (h.unseen fun _ _ => rfl) (.seq (h.updateWebsocket hanswer) hdone)) hdone
  have hbody : ∀ online, S.Amid Alarm.Beside State.alarm A (loopBody P online) A := fun online =>
    .seq hclient (.seq hframes (.seq hupdate (.seq (h.unseen (unseen_statusGate P online)) (.seq
      (h.unseen (unseen_minuteGate P)) (.seq hread (.seq h.app (.seq htimers
      (h.unseen ⟨unseen_delay P _, trivial⟩))))))))
  exact Amid.choose (hbody false) (Amid.choose (hbody true)
    (h.unseen ⟨unseen_setLed P _, unseen_delay P _, trivial, trivial⟩))

/-- `setup` loads the image from the flash and the counter from the image. -/
theorem setup {A₀ B : Alarm → Prop} (h : Lasting P S A) (hB : Lasting P S B)
    (hload : S.Amid Alarm.Beside State.alarm A₀ (.set fun s => { s with rom := s.flash }) A)
    (hrow : S.Amid Alarm.Beside State.alarm A (.set fun s => { s with rowIndex := s.read 106 }) B) :
    S.Amid Alarm.Beside State.alarm A₀ (Center.setup P) B := by
  have hdelay : ∀ ms, S.Amid Alarm.Beside State.alarm A (delay ms) A := fun ms => h.unseen (unseen_delay P ms)
  refine .seq hload (.seq (h.unseen fun _ _ => rfl) (.seq (h.unseen fun _ _ => rfl) (.seq
    (h.unseen fun _ _ => rfl) (.seq (h.writes writes_upLimit) (.seq (h.writes writes_threshold) ?_)))))
  refine .seq (h.unseen ⟨trivial, trivial⟩) (.seq (hdelay _) (.seq
    (h.unseen fun _ s => alarm_emit_idle s _ rfl) (.seq (hdelay _) (.seq (h.unseen (unseen_testWiFi P 20))
    (.seq (hdelay _) (.seq hrow (hB.unseen ?_)))))))
  exact ⟨fun _ _ => rfl, unseen_delay P _, unseen_virtualWrite P 1 _ (by decide), unseen_delay P _,
    unseen_virtualWrite P 6 _ (by decide), unseen_delay P _, fun _ _ => rfl, fun _ _ => rfl,
    fun _ s => alarm_emit_idle s _ rfl, trivial⟩

end Lasting

end Center
