import TruckLock.Center
import TruckLock.Views

/-!
# The view of the lock

What decides about the lock in Center's state, the moves that the sketch makes
on it, and the statements that do not show in it. The duration in EEPROM and
the face flag are part of the view because an unlocking depends on them.
-/
namespace Center

open Firmware

/-- The events that have to do with the lock and its button in the app. -/
def Event.onLock : Event → Bool
  | .boot | .alcohol _ | .notAlcohol _ | .expired | .appBlock _ | .appUnblock _ => true
  | .broadcast _ _ | .frame _ | .relayLost => true
  | .app w => w.pin = .V1
  | .virtualWrite pin _ | .reply pin _ => pin = 1
  | _ => false

@[ext] structure Lock where
  BLOCK : Bool
  timedownMinute : Int
  pending : Request → Bool
  duration : Int
  wifiFlash : Bool
  isMatchFaceID : Bool
  hist : List Event

namespace State

def pending (s : State) : Request → Bool
  | .isAlcohol => s.isAlcoholState
  | .notAlcohol => s.notAlcoholState
  | .blockNow => s.blockNowState
  | .unblockNow => s.unblockNowState

def put (s : State) (r : Request) (b : Bool) : State :=
  match r with
  | .isAlcohol => { s with isAlcoholState := b }
  | .notAlcohol => { s with notAlcoholState := b }
  | .blockNow => { s with blockNowState := b }
  | .unblockNow => { s with unblockNowState := b }

/-- The stored minutes of an unlocked truck. -/
def duration (s : State) : Int := s.read 100 * 256 + s.read 101

def lock (s : State) : Lock where
  BLOCK := s.BLOCK
  timedownMinute := s.timedownMinute
  pending := s.pending
  duration := s.duration
  wifiFlash := s.wifiFlash
  isMatchFaceID := s.isMatchFaceID
  hist := s.log.filter Event.onLock

end State

namespace Lock

def say (v : Lock) (e : Event) : Lock := { v with hist := e :: v.hist }

def put (v : Lock) (r : Request) (b : Bool) : Lock :=
  { v with pending := fun q => if q = r then b else v.pending q }

section

variable (v : Lock) (e : Event) (r : Request) (b : Bool)

@[simp] theorem say_BLOCK : (v.say e).BLOCK = v.BLOCK := rfl
@[simp] theorem say_timedownMinute : (v.say e).timedownMinute = v.timedownMinute := rfl
@[simp] theorem say_pending : (v.say e).pending = v.pending := rfl
@[simp] theorem say_wifiFlash : (v.say e).wifiFlash = v.wifiFlash := rfl
@[simp] theorem say_hist : (v.say e).hist = e :: v.hist := rfl
@[simp] theorem put_BLOCK : (v.put r b).BLOCK = v.BLOCK := rfl
@[simp] theorem put_timedownMinute : (v.put r b).timedownMinute = v.timedownMinute := rfl
@[simp] theorem put_pending (q : Request) :
    (v.put r b).pending q = if q = r then b else v.pending q := rfl
@[simp] theorem put_wifiFlash : (v.put r b).wifiFlash = v.wifiFlash := rfl
@[simp] theorem put_hist : (v.put r b).hist = v.hist := rfl

end

def saying (e : Event) : Move Env Lock := .to fun v => v.say e

/-- A message to the app, lost without a link. -/
def sending (e : Event) : Move Env Lock := fun i v w => w = if i.link then v.say e else v

def raising (r : Request) (e : Lock → Event) : Move Env Lock := .to fun v => (v.put r true).say (e v)

/-- A statement that stores a setting or looks at the camera. -/
def loosening : Move Env Lock :=
  fun _ v w => ∃ n b, w = { v with duration := n, isMatchFaceID := b }

/-- The statements of `updateWebsocket` that answer a request. -/
def answering (r : Request) : List (Move Env Lock) :=
  [saying (.broadcast r.command (some r)),
    .to fun v => { v with timedownMinute := if r.command.locks then 0 else v.duration },
    .to fun v => { v with BLOCK := r.command.locks },
    .to fun v => v.put r false]

/-- What these statements come to. -/
def answered (r : Request) (v : Lock) : Lock :=
  ({ v with
    BLOCK := r.command.locks
    timedownMinute := if r.command.locks then 0 else v.duration }.put r false).say
    (.broadcast r.command (some r))

section

variable (v : Lock) (r : Request)

@[simp] theorem answered_BLOCK : (v.answered r).BLOCK = r.command.locks := rfl
@[simp] theorem answered_wifiFlash : (v.answered r).wifiFlash = v.wifiFlash := rfl
@[simp] theorem answered_pending (q : Request) :
    (v.answered r).pending q = if q = r then false else v.pending q := rfl
@[simp] theorem answered_hist : (v.answered r).hist = .broadcast r.command (some r) :: v.hist := rfl

end

/-- The statements of the handler of V1, once it has looked at `BLOCK`. -/
def toggling (b : Bool) : List (Move Env Lock) :=
  if b then [sending (.reply 1 [.int 0]), raising .unblockNow fun v => .appUnblock v.BLOCK]
  else [sending (.reply 1 [.int 1]), raising .blockNow fun v => .appBlock v.BLOCK]

def ticking : Move Env Lock := .to fun v => { v with timedownMinute := v.timedownMinute - 1 }

def expiring : List (Move Env Lock) :=
  [raising .blockNow fun _ => .expired, .to fun v => { v with BLOCK := true }]

/-- The command for a client that has connected, chosen from the countdown. -/
def resync (timedownMinute : Int) : Move Env Lock :=
  saying (.broadcast (if timedownMinute = 0 then .blockNow else .unblockNow) none)

/-- The end of a test with a verdict that satisfies `ok`. -/
def judging (r : Request) (e : Verdict → Event) (ok : Verdict → Prop) : Move Env Lock :=
  fun _ v w => ∃ x : Verdict, ok x ∧ x.isMatchFaceID = v.isMatchFaceID ∧ w = (v.put r true).say (e x)

/-- After a reset. -/
def boot (v : Lock) (n : Int) : Lock where
  BLOCK := true
  timedownMinute := 0
  pending := fun _ => false
  duration := n
  wifiFlash := false
  isMatchFaceID := false
  hist := .boot :: v.hist

end Lock

/-- `MAX - threshold > upLimit`. -/
def Verdict.Drunk (w : Verdict) : Prop := w.upLimit < w.MAX - w.threshold

def Verdict.Sober (w : Verdict) : Prop :=
  w.MAX - w.threshold ≤ w.upLimit ∧ w.downLimit ≤ w.threshold - w.MIN

section view

variable (s : State)

@[simp] theorem lock_BLOCK : s.lock.BLOCK = s.BLOCK := rfl
@[simp] theorem lock_timedownMinute : s.lock.timedownMinute = s.timedownMinute := rfl
@[simp] theorem lock_duration : s.lock.duration = s.duration := rfl
@[simp] theorem lock_wifiFlash : s.lock.wifiFlash = s.wifiFlash := rfl
@[simp] theorem lock_isMatchFaceID : s.lock.isMatchFaceID = s.isMatchFaceID := rfl
@[simp] theorem lock_isAlcohol : s.lock.pending .isAlcohol = s.isAlcoholState := rfl
@[simp] theorem lock_notAlcohol : s.lock.pending .notAlcohol = s.notAlcoholState := rfl
@[simp] theorem lock_blockNow : s.lock.pending .blockNow = s.blockNowState := rfl
@[simp] theorem lock_unblockNow : s.lock.pending .unblockNow = s.unblockNowState := rfl

theorem lock_emit (e : Event) (he : e.onLock = true) : (s.emit e).lock = s.lock.say e := by
  simp only [State.lock, State.emit, List.filter_cons, he, if_true, Lock.say]
  rfl

theorem lock_emit_idle (e : Event) (he : e.onLock = false) : (s.emit e).lock = s.lock := by
  simp only [State.lock, State.emit, List.filter_cons, he]
  rfl

theorem lock_put (r : Request) (b : Bool) : (s.put r b).lock = s.lock.put r b := by
  ext q
  all_goals cases r <;> try rfl
  all_goals cases q <;> rfl

theorem lock_sending (e : Event) (he : e.onLock = true) (i : Env) :
    Lock.sending e i s.lock (if i.link then s.emit e else s).lock := by
  unfold Lock.sending
  split
  · exact lock_emit s e he
  · rfl

theorem lock_raising (r : Request) (e : Lock → Event) (he : (e s.lock).onLock = true) (i : Env) :
    Lock.raising r e i s.lock ((s.put r true).emit (e s.lock)).lock := by
  unfold Lock.raising Move.to
  rw [lock_emit _ _ he, lock_put]

/-- Neither the interrupt nor time shows in the view. -/
theorem lock_react (r : Outside) : (react r s).lock = s.lock := by
  cases r with
  | wait ms => rfl
  | button spin =>
    obtain ⟨last, c, x, hs, -, -⟩ := press_spec spin s
    simp only [react]
    split
    · rw [hs]
      rfl
    · rfl

end view

/-- A step that shows in the view as a stored setting or a look at the camera at most. -/
def Loose (s t : State) : Prop :=
  ∃ n b, t.lock = { s.lock with duration := n, isMatchFaceID := b }

section still

variable (P : Platform) {K : Sketch → Prop}

/-- Code that does not move the lock, apart from its polls. -/
abbrev Still (K : Sketch → Prop) (c : Sketch) : Prop := Made Loose K c

theorem loose_emit (s : State) (e : Event) (he : e.onLock = false) : Loose s (s.emit e) :=
  ⟨_, _, lock_emit_idle s e he⟩

theorem still_delay (ms : Nat) : Still K (delay ms) := fun _ _ _ => ⟨_, _, rfl⟩

theorem still_reply (pin : Nat) (l : List Value) (h : pin ≠ 1) : Still K (reply pin l) := by
  intro i s
  dsimp only
  split
  · exact loose_emit s _ (by simpa [Event.onLock] using h)
  · exact ⟨_, _, rfl⟩

theorem still_writeWord (high low : Nat) (param : Param) : Still K (writeWord P high low param) :=
  ⟨still_delay _, fun _ _ => ⟨_, _, rfl⟩, fun _ _ => ⟨_, _, rfl⟩, fun _ _ => ⟨_, _, rfl⟩, trivial⟩

theorem still_blynkWrite (w : AppWrite) (h : w.pin ≠ .V1) : Still K (blynkWrite P w) := by
  rcases w with ⟨pin, param⟩
  cases pin with
  | V1 => exact absurd rfl h
  | V11 =>
    exact ⟨⟨fun _ _ => ⟨_, _, rfl⟩, fun _ _ => ⟨_, _, rfl⟩, still_delay _,
      still_reply 10 _ (by decide), still_delay _, trivial⟩, trivial⟩
  | V21 => exact ⟨still_delay _, fun _ _ => ⟨_, _, rfl⟩, still_delay _, trivial⟩
  | V22 => exact ⟨still_delay _, fun _ _ => ⟨_, _, rfl⟩, still_delay _, trivial⟩
  | V30 => exact ⟨still_writeWord P _ _ _, still_delay _, trivial⟩
  | V32 =>
    exact ⟨still_delay _, fun _ _ => ⟨_, _, rfl⟩, fun _ _ => ⟨_, _, rfl⟩, still_delay _,
      fun _ _ => ⟨_, _, rfl⟩, still_delay _, trivial⟩
  | V33 =>
    exact ⟨still_delay _, fun _ _ => ⟨_, _, rfl⟩, fun _ _ => ⟨_, _, rfl⟩, still_delay _,
      fun _ _ => ⟨_, _, rfl⟩, still_delay _, trivial⟩
  | V34 =>
    exact ⟨still_writeWord P _ _ _, still_delay _, fun _ _ => ⟨_, _, rfl⟩, still_delay _, trivial⟩

/-- Code whose only polls are those of the app. -/
abbrev StillApp (c : Sketch) : Prop := Still (· = blynkRun P) c

theorem still_send (e : State → Event) (he : ∀ s, (e s).onLock = false) : StillApp P (send P e) := by
  refine ⟨rfl, fun i s => ?_⟩
  dsimp only
  split
  · exact loose_emit s _ (he s)
  · exact ⟨_, _, rfl⟩

theorem still_virtualWrite (pin : Nat) (l : State → List Value) (h : pin ≠ 1) :
    StillApp P (virtualWrite P pin l) :=
  still_send P _ fun _ => by simpa [Event.onLock] using h

theorem still_updateToTable : StillApp P (updateToTable P) :=
  ⟨⟨fun _ _ => ⟨_, _, rfl⟩, trivial⟩, still_delay _,
    fun _ => still_virtualWrite P 10 _ (by decide), still_delay _,
    fun _ => still_virtualWrite P 10 _ (by decide), still_delay _,
    fun _ _ => ⟨_, _, rfl⟩, fun _ _ => ⟨_, _, rfl⟩, fun _ _ => ⟨_, _, rfl⟩, trivial⟩

theorem still_handleTimer (t : Option TimerCall) : StillApp P (handleTimer P t) := by
  cases t with
  | none => trivial
  | some t =>
    cases t with
    | clockCurrent => exact fun _ _ => ⟨_, _, rfl⟩
    | blinkLedConnect =>
      exact ⟨⟨fun _ _ => ⟨_, _, rfl⟩, still_virtualWrite P 0 _ (by decide), still_delay _, trivial⟩,
        fun _ _ => ⟨_, _, rfl⟩, still_virtualWrite P 0 _ (by decide), still_delay _, trivial⟩

theorem still_statusGate (online : Bool) : StillApp P (statusGate P online) :=
  ⟨⟨fun _ _ => ⟨_, _, rfl⟩, fun _ => ⟨⟨⟨still_delay _, still_virtualWrite P 4 _ (by decide),
    still_delay _, trivial⟩, still_delay _, still_virtualWrite P 4 _ (by decide),
    still_delay _, trivial⟩, trivial⟩, still_delay _, trivial⟩, trivial⟩

theorem still_sample : Still K (sample P) :=
  ⟨fun _ _ => ⟨_, _, rfl⟩, fun i s => loose_emit { s with current := i.adc } _ rfl,
    fun _ => ⟨⟨fun _ _ => ⟨_, _, rfl⟩, trivial⟩, ⟨fun _ _ => ⟨_, _, rfl⟩, trivial⟩, trivial⟩,
    fun i s => loose_emit { s with camLevel := i.camRX } _ rfl, ⟨fun _ _ => ⟨_, _, rfl⟩, trivial⟩,
    fun _ _ => ⟨_, _, rfl⟩, trivial⟩

theorem still_caiDat (tenWiFi matkhau : List UInt8) : Still K (caiDat tenWiFi matkhau) := by
  have hw : ∀ a l s, Loose s (writeBytes a l s) := fun a l s => by
    obtain ⟨m, hm⟩ := writeBytes_spec a l s
    exact ⟨_, _, by rw [hm]; rfl⟩
  exact ⟨⟨⟨fun _ s => hw _ _ s, still_delay _, fun _ s => hw _ _ s, fun _ s => hw _ _ s,
    still_delay _, fun _ _ => ⟨_, _, rfl⟩, still_delay _, trivial⟩, trivial⟩, trivial, trivial⟩

end still

end Center
