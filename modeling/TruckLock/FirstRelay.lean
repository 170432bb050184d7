import TruckLock.Center
import TruckLock.Direct
import TruckLock.TwoBytes

/-!
# Relay.c

The relay of the first version keeps its own countdown, in two cells. The
hours and minutes that it prints are left out.
-/
namespace FirstRelay

open Firmware Spec TwoBytes
open Center (elapsed byte)

inductive Event where
  | boot
  | frame (payload : String)
  | sendTXT (text : String)
  | minute
  deriving DecidableEq, Repr

structure State where
  clock : Nat := 0
  relayPin : Bool := false
  BLOCK : Bool := false
  k1_timedown : Int := 0
  k2_timedown : Int := 0
  previousMillis : Nat := 0
  previousMillisRelay : Nat := 0
  rom : Nat → UInt8 := fun _ => 0
  flash : Nat → UInt8
  log : List Event := []

namespace State

def emit (s : State) (e : Event) : State := { s with log := e :: s.log }

def millis (s : State) : Nat := s.clock % 2 ^ 32

def wait (s : State) (ms : Nat) : State := { s with clock := s.clock + ms }

def read (s : State) (a : Nat) : Int := (s.rom a).toNat

def write (s : State) (a : Nat) (v : UInt8) : State :=
  { s with rom := fun j => if j = a then v else s.rom j }

def commit (s : State) : State := { s with flash := s.rom }

end State

/-- The frame that one call of `webSocket.loop()` may find. -/
structure Env where
  frame : Option String := none
  deriving DecidableEq, Repr

abbrev Sketch := Code State Env

def delay (ms : Nat) : Sketch := .set fun s => s.wait ms

/-- Both locking commands do the same. -/
def lock : Sketch :=
  .block [
    .set fun s => { s with relayPin := false },
    .set fun s => { s with BLOCK := true },
    .set fun s => s.write 100 1,
    .set fun s => s.write 101 224,
    .set State.commit,
    .set fun s => { s with previousMillisRelay := s.millis }]

def clear : Sketch :=
  .block [
    .set fun s => { s with relayPin := true },
    .set fun s => { s with BLOCK := false },
    .set fun s => s.write 100 0,
    .set fun s => s.write 101 0,
    .set State.commit]

def webSocketEvent (payloadString : String) : Sketch :=
  .block [
    .when (fun _ _ => payloadString = "detectAlcohol") lock,
    .when (fun _ _ => payloadString = "clearEEPROM") clear,
    .when (fun _ _ => payloadString = "blockNow") lock,
    .when (fun _ _ => payloadString = "") (.block [delay 100, delay 50])]

def handleFrame : Option String → Sketch
  | some payload => .seq (.set fun s => s.emit (.frame payload)) (webSocketEvent payload)
  | none => .skip

/-- `webSocket.loop()`: any number of frames. -/
def webSocketLoop : Sketch := .poll (fun i => i.frame.isSome) fun i => handleFrame i.frame

def updateWebsocket : Sketch :=
  .set fun s => s.emit (.sendTXT (if s.relayPin then "relayOpening" else "relayClosing"))

def updateGate : Sketch :=
  .when (fun _ s => 10000 < elapsed s.millis s.previousMillis) <| .block [
    .set fun s => { s with previousMillis := s.millis },
    updateWebsocket]

/-- One minute of the countdown; the 255 of the borrow stays in the variable. -/
def minuteGate : Sketch :=
  .when (fun _ s => 60000 < elapsed s.millis s.previousMillisRelay && (s.rom 100 ≠ 0 || s.rom 101 ≠ 0)) <|
    .block [
      .set fun s => { s with previousMillisRelay := s.millis },
      .set fun s => { s with k2_timedown := s.k2_timedown - 1 },
      .set fun s => s.write 101 (byte s.k2_timedown),
      .set fun s => s.commit.emit .minute,
      .when (fun _ s => s.k2_timedown = 0 && s.k1_timedown ≠ 0) <| .block [
        .set fun s => { s with k2_timedown := 255 },
        .set fun s => { s with k1_timedown := s.k1_timedown - 1 },
        .set fun s => s.write 100 (byte s.k1_timedown),
        .set State.commit]]

def readCountdown : Sketch :=
  .block [
    .set fun s => { s with k1_timedown := s.read 100 },
    .set fun s => { s with k2_timedown := s.read 101 }]

def setup : Sketch :=
  .block [
    .set fun s => { s with relayPin := false },
    .set fun s => { s with rom := s.flash },
    readCountdown,
    delay 10,
    .set fun s => { s with previousMillisRelay := s.millis }]

def loop : Sketch := .block [readCountdown, webSocketLoop, updateGate, minuteGate, delay 100]

/-- Beside the program time passes. -/
def device : Machine State Env Nat where
  boot := .seq setup (.forever loop)
  react ms s := s.wait ms
  restart s := { flash := s.flash, log := .boot :: s.log }

def after (flash : Nat → UInt8) (xs : List (Choice Env Nat)) : Config State Env :=
  device.exec xs (device.start { flash := flash })

/-- A frame with a command sets the countdown anew. -/
def Event.commands : Event → Bool
  | .frame payload => payload = "detectAlcohol" || payload = "clearEEPROM" || payload = "blockNow"
  | _ => false

/-- The minutes that have been counted down. -/
def minutes (l : List Event) : Nat := l.count .minute

/-- No command has come. -/
def Quiet (l : List Event) : Prop := ∀ e ∈ l, e.commands = false

instance (l : List Event) : Decidable (Quiet l) := inferInstanceAs (Decidable (∀ e ∈ l, _))

/-- What the countdown consists of. -/
structure Tally where
  hi : UInt8
  lo : UInt8
  storedHi : UInt8
  storedLo : UInt8
  k1 : Int
  k2 : Int
  log : List Event

def State.tally (s : State) : Tally where
  hi := s.rom 100
  lo := s.rom 101
  storedHi := s.flash 100
  storedLo := s.flash 101
  k1 := s.k1_timedown
  k2 := s.k2_timedown
  log := s.log

theorem tally_react (ms : Nat) (s : State) : (device.react ms s).tally = s.tally := rfl

/-- What is stored, while no command has come. -/
structure Stored (N : Nat) (v : Tally) : Prop where
  storedHi : v.storedHi = 0
  count : v.storedLo.toNat + minutes v.log = N

/-- The image in RAM is the same. -/
structure Loaded (N : Nat) (v : Tally) : Prop extends Stored N v where
  hi : v.hi = 0
  lo : v.lo = v.storedLo

structure Read (N : Nat) (v : Tally) : Prop extends Loaded N v where
  k1 : v.k1 = 0
  k2 : v.k2 = v.lo.toNat

/-- The assertion, while no command has come. -/
def Unless (A : Tally → Prop) (v : Tally) : Prop := Quiet v.log → A v

def spec (N : Nat) : Spec Env Tally where
  ok _ _ _ := True
  good _ _ := True
  good_refl _ := trivial
  inv := Unless (Stored N)
  top _ := True
  fin _ := True

abbrev Turns (N : Nat) (A : Tally → Prop) (c : Sketch) (B : Tally → Prop) : Prop :=
  (spec N).Leads State.tally (Unless A) c (Unless B)

section

variable {N : Nat} {A B : Tally → Prop}

theorem turns_set (hA : ∀ v, A v → Stored N v) {f : State → State} (hl : ∀ s, (f s).log = s.log)
    (h : ∀ s, A s.tally → B (f s).tally) : Turns N A (.set f) B := by
  refine Leads.step (fun v hv hq => hA v (hv hq)) fun _ s hs _ => ⟨trivial, fun hq => h s (hs ?_)⟩
  rwa [show (f s).tally.log = s.tally.log from hl s] at hq

/-- A statement that shows neither in the cells nor in the log. -/
theorem turns_idle (hA : ∀ v, A v → Stored N v) {c : Sketch}
    (hc : Made (fun s t => t.tally = s.tally) (fun _ => False) c) : Turns N A c A :=
  Leads.idle (fun v hv hq => hA v (hv hq)) (fun _ h => h.elim) hc

theorem quiet_of_cons {e : Event} {l : List Event} (h : Quiet (e :: l)) : Quiet l :=
  fun a ha => h a (List.mem_cons_of_mem e ha)

/-- Code that logs nothing, after a command. -/
theorem turns_lost {c : Sketch} (hc : Code.Every (fun _ s t => t.log = s.log) c) :
    Turns N (fun _ => False) c B := by
  have hlost : ∀ v, Unless (fun _ => False) v → (spec N).inv v := fun _ hv hq => (hv hq).elim
  have h : (spec N).Leads State.tally (Unless fun _ => False) c (Unless fun _ => False) := by
    refine Triple.every (E := fun _ s t => t.log = s.log) (stable hlost) (fun _ _ => trivial) ?_ hc
    refine fun i f k s _ hl hs => ⟨trivial, fun hq => hs ?_⟩
    rwa [show (f i s).tally.log = s.tally.log from hl] at hq
  exact h.post fun _ hv hq => (hv hq).elim

theorem turns_command {payload : String} (hp : Event.commands (.frame payload) = true) {c : Sketch}
    (hc : Code.Every (fun _ s t => t.log = s.log) c) (hA : ∀ v, A v → Stored N v) :
    Turns N A (.seq (.set fun s => s.emit (.frame payload)) c) B := by
  have hfirst : Turns N A (.set fun s => s.emit (.frame payload)) fun _ => False := by
    refine Leads.step (fun v hv hq => hA v (hv hq)) fun _ s _ _ => ⟨trivial, fun hq => ?_⟩
    exact absurd (hq (.frame payload) (by simp [State.tally, State.emit])) (by simp [hp])
  exact .seq hfirst (turns_lost hc)

/-- An event that is neither a minute nor a command. -/
theorem turns_emit (hA : ∀ v, A v → Stored N v) {e : State → Event} (he : ∀ s, e s ≠ .minute)
    (h : ∀ v e, e ≠ .minute → A v → A { v with log := e :: v.log }) :
    Turns N A (.set fun s => s.emit (e s)) A :=
  Leads.step (fun v hv hq => hA v (hv hq)) fun _ s hs _ =>
    ⟨trivial, fun hq => h s.tally (e s) (he s) (hs (quiet_of_cons hq))⟩

theorem minutes_other {e : Event} (he : e ≠ .minute) (l : List Event) : minutes (e :: l) = minutes l :=
  List.count_cons_of_ne he

theorem Stored.other {v : Tally} (h : Stored N v) {e : Event} (he : e ≠ .minute) :
    Stored N { v with log := e :: v.log } :=
  ⟨h.storedHi, (congrArg _ (minutes_other he _)).trans h.count⟩

theorem Read.other {v : Tally} (h : Read N v) {e : Event} (he : e ≠ .minute) :
    Read N { v with log := e :: v.log } :=
  ⟨⟨h.toStored.other he, h.hi, h.lo⟩, h.k1, h.k2⟩

theorem logs_webSocketEvent (payload : String) :
    Code.Every (fun _ s t => t.log = s.log) (webSocketEvent payload) := by
  simp [webSocketEvent, lock, clear, delay, Code.set, Code.when, Code.Every, State.write, State.commit, State.wait]

theorem turns_webSocketLoop : Turns N (Read N) webSocketLoop (Read N) := by
  refine Leads.poll (fun v hv hq => (hv hq).toStored) fun i => ?_
  have hdone : Turns N (Read N) .skip (Read N) := Leads.done fun v hv hq => (hv hq).toStored
  cases i.frame with
  | none => exact hdone
  | some payload =>
    cases hp : Event.commands (.frame payload) with
    | true => exact turns_command hp (logs_webSocketEvent payload) fun _ hv => hv.toStored
    | false =>
      simp only [Event.commands, Bool.or_eq_false_iff, decide_eq_false_iff_not] at hp
      have hsay : Turns N (Read N) (.set fun s => s.emit (.frame payload)) (Read N) :=
        turns_emit (fun _ hv => hv.toStored) (fun _ => by simp) fun _ _ he hv => hv.other he
      have hno : ∀ {text : String} {c : Sketch}, payload ≠ text →
          Turns N (Read N) (.when (fun _ _ => payload = text) c) (Read N) := fun hne =>
        Leads.known (b := false) (fun v hv hq => (hv hq).toStored) (fun _ _ _ => by simp [hne]) hdone
      have hpause : Turns N (Read N) (.when (fun _ _ => payload = "") (.block [delay 100, delay 50])) (Read N) :=
        turns_idle (fun _ hv => hv.toStored) ⟨⟨fun _ _ => rfl, fun _ _ => rfl, trivial⟩, trivial⟩
      exact .seq hsay (.seq (hno hp.1.1) (.seq (hno hp.1.2) (.seq (hno hp.2) (.seq hpause hdone))))

theorem turns_updateGate : Turns N (Read N) updateGate (Read N) := by
  have hdone : Turns N (Read N) .skip (Read N) := Leads.done fun v hv hq => (hv hq).toStored
  have hset : Turns N (Read N) (.set fun s => { s with previousMillis := s.millis }) (Read N) :=
    turns_idle (fun _ hv => hv.toStored) fun _ _ => rfl
  have hsay : Turns N (Read N) updateWebsocket (Read N) :=
    turns_emit (fun _ hv => hv.toStored) (fun _ => by simp) fun _ _ he hv => hv.other he
  exact Leads.choose (.seq hset (.seq hsay hdone)) hdone

theorem byte_pred {b : UInt8} (h : b ≠ 0) : (byte ((b.toNat : Int) - 1)).toNat = b.toNat - 1 := by
  have h0 : b.toNat ≠ 0 := fun hz => h (UInt8.toNat_inj.1 hz)
  have hb := b.toNat_lt
  have he : (((b.toNat : Int) - 1) % 256).toNat = b.toNat - 1 := by omega
  rw [byte, he, UInt8.toNat_ofNat', Nat.mod_eq_of_lt (by omega)]

/-- Below the borrow a minute takes one off the low byte. -/
theorem turns_minuteGate : Turns N (Read N) minuteGate (Loaded N) := by
  let Due : Tally → Prop := fun v => Read N v ∧ v.lo ≠ 0
  let Down : Tally → Prop := fun v => Loaded N v ∧ v.k1 = 0 ∧ v.k2 = v.lo.toNat - 1 ∧ v.lo ≠ 0
  let Written : Tally → Prop := fun v => Stored N v ∧ v.hi = 0 ∧ v.k1 = 0 ∧ v.lo.toNat + 1 = v.storedLo.toNat
  let Counted : Tally → Prop := fun v => Loaded N v ∧ v.k1 = 0
  have hgate : Turns N Due (.set fun s => { s with previousMillisRelay := s.millis }) Due :=
    turns_idle (fun _ hv => hv.1.toStored) fun _ _ => rfl
  have hdown : Turns N Due (.set fun s => { s with k2_timedown := s.k2_timedown - 1 }) Down :=
    turns_set (fun _ hv => hv.1.toStored) (fun _ => rfl) fun s hv =>
      ⟨⟨⟨hv.1.storedHi, hv.1.count⟩, hv.1.hi, hv.1.lo⟩, hv.1.k1, congrArg (· - 1) hv.1.k2, hv.2⟩
  have hwrite : Turns N Down (.set fun s => s.write 101 (byte s.k2_timedown)) Written := by
    refine turns_set (fun _ hv => hv.1.toStored) (fun _ => rfl) fun s hv =>
      ⟨⟨hv.1.storedHi, hv.1.count⟩, hv.1.hi, hv.2.1, ?_⟩
    obtain ⟨hl, -, hk, hn⟩ := hv
    have h0 : s.tally.lo.toNat ≠ 0 := fun hz => hn (UInt8.toNat_inj.1 hz)
    show (byte s.tally.k2).toNat + 1 = s.tally.storedLo.toNat
    rw [hk, byte_pred hn, ← hl.lo]
    omega
  have hcommit : Turns N Written (.set fun s => s.commit.emit .minute) Counted := by
    refine Leads.step (fun v hv hq => (hv hq).1) fun _ s hs _ => ⟨trivial, fun hq => ?_⟩
    obtain ⟨hst, hh, hk, hl⟩ := hs (quiet_of_cons hq)
    refine ⟨⟨⟨hh, ?_⟩, hh, rfl⟩, hk⟩
    have hc := hst.count
    show s.tally.lo.toNat + minutes (.minute :: s.log) = N
    rw [minutes, List.count_cons_self]
    change s.tally.storedLo.toNat + s.log.count .minute = N at hc
    omega
  have hdone : Turns N (Loaded N) .skip (Loaded N) := Leads.done fun v hv hq => (hv hq).toStored
  have hborrow : ∀ c : Sketch, Code.Every (fun _ s t => t.log = s.log) c →
      Turns N Counted (.when (fun _ s => s.k2_timedown = 0 && s.k1_timedown ≠ 0) c) (Loaded N) := by
    refine fun c hc => Leads.when (T := Unless fun _ => False) (fun v hv hq => (hv hq).1.toStored)
      (fun _ s hs hk hq => ?_) (fun _ _ hs _ hq => (hs hq).1) (turns_lost hc)
    simp only [Bool.and_eq_true, decide_eq_true_eq] at hk
    exact hk.2 (hs hq).2
  refine Leads.when (T := Unless Due) (fun v hv hq => (hv hq).toStored) (fun _ s hs hc hq => ⟨hs hq, ?_⟩)
    (fun _ _ hs _ hq => (hs hq).toLoaded) ?_
  · simp only [Bool.and_eq_true, Bool.or_eq_true, decide_eq_true_eq] at hc
    exact hc.2.resolve_left fun hne => hne (hs hq).hi
  · exact .seq hgate (.seq hdown (.seq hwrite (.seq hcommit (.seq (hborrow _ (by
      simp [Code.set, Code.Every, State.write, State.commit])) hdone))))

theorem turns_readCountdown : Turns N (Loaded N) readCountdown (Read N) := by
  have hk1 : Turns N (Loaded N) (.set fun s => { s with k1_timedown := s.read 100 })
      fun v => Loaded N v ∧ v.k1 = 0 := by
    refine turns_set (fun _ hv => hv.toStored) (fun _ => rfl) fun s hv =>
      ⟨⟨⟨hv.storedHi, hv.count⟩, hv.hi, hv.lo⟩, ?_⟩
    exact congrArg (fun b : UInt8 => (b.toNat : Int)) hv.hi
  have hk2 : Turns N (fun v => Loaded N v ∧ v.k1 = 0) (.set fun s => { s with k2_timedown := s.read 101 })
      (Read N) :=
    turns_set (fun _ hv => hv.1.toStored) (fun _ => rfl) fun s hv =>
      ⟨⟨⟨hv.1.storedHi, hv.1.count⟩, hv.1.hi, hv.1.lo⟩, hv.2, rfl⟩
  exact .seq hk1 (.seq hk2 (Leads.done fun v hv hq => (hv hq).toStored))

theorem turns_loop : Turns N (Loaded N) loop (Loaded N) := by
  have hpause : Turns N (Loaded N) (delay 100) (Loaded N) :=
    turns_idle (fun _ hv => hv.toStored) fun _ _ => rfl
  exact .seq turns_readCountdown (.seq turns_webSocketLoop (.seq turns_updateGate
    (.seq turns_minuteGate (.seq hpause (Leads.done fun v hv hq => (hv hq).toStored)))))

theorem turns_sketch : Triple ((spec N).on State.tally) (fun s => Unless (Stored N) s.tally) device.boot
    fun _ => False := by
  have hload : Turns N (Stored N) (.set fun s => { s with rom := s.flash }) (Loaded N) :=
    turns_set (fun _ hv => hv) (fun _ => rfl) fun s hv => ⟨⟨hv.storedHi, hv.count⟩, hv.storedHi, rfl⟩
  have hread : Turns N (Loaded N) readCountdown (Loaded N) := turns_readCountdown.post fun _ hv hq => (hv hq).toLoaded
  have hdone : Turns N (Loaded N) .skip (Loaded N) := Leads.done fun v hv hq => (hv hq).toStored
  exact .seq (.seq (turns_idle (fun _ hv => hv) fun _ _ => rfl) (.seq hload (.seq hread
    (.seq (turns_idle (fun _ hv => hv.toStored) fun _ _ => rfl)
    (.seq (turns_idle (fun _ hv => hv.toStored) fun _ _ => rfl) hdone)))))
    (.forever (fun _ _ => trivial) turns_loop)

end

/-- Up to 255 every reached state has counted right. -/
theorem stored_of_short {f : Nat → UInt8} (h : f 100 = 0) (xs : List (Choice Env Nat))
    (hq : Quiet (after f xs).state.log) :
    value (after f xs).state.flash + minutes (after f xs).state.log = value f := by
  let C := (spec (value f)).on State.tally
  have hpower : Unless (Stored (value f)) ({ flash := f } : State).tally :=
    fun _ => ⟨h, by simp [value, h, State.tally, minutes]⟩
  have hrun : device.Along (fun x c _ => device.Meet C x c) xs (device.start { flash := f }) := by
    refine (along_iff xs _).2 fun _ x _ _ => ?_
    cases x with
    | run i => exact fun _ _ _ => trivial
    | outside ms => rfl
    | reset => trivial
  have hend := (Machine.always_exec turns_sketch (fun s hs hq => ?_) xs _
    (Machine.always_start turns_sketch hpower) hrun).inv hq
  · have hc := hend.count
    have hh : ((after f xs).state.flash 100).toNat = 0 := congrArg UInt8.toNat hend.storedHi
    change ((after f xs).state.flash 101).toNat + minutes (after f xs).state.log = value f at hc
    rw [value, hh]
    omega
  · have hs' := hs (quiet_of_cons hq)
    exact ⟨hs'.storedHi, (congrArg _ (minutes_other (by simp) _)).trans hs'.count⟩

/-- The round of `loop` up to the minute. -/
def upToMinute (s : State) : State := updateGate.result {} (readCountdown.result {} s)

theorem upToMinute_spec (s : State) : ∃ p l, upToMinute s =
    { s with k1_timedown := s.read 100, k2_timedown := s.read 101, previousMillis := p, log := l ++ s.log } ∧
    minutes l = 0 ∧ Quiet l := by
  by_cases h : 10000 < elapsed s.millis s.previousMillis
  · refine ⟨s.millis, [.sendTXT (if s.relayPin then "relayOpening" else "relayClosing")], ?_, rfl, ?_⟩
    · exact if_pos (decide_eq_true h)
    · simp [Quiet, Event.commands]
  · exact ⟨s.previousMillis, [], if_neg fun hd => h (of_decide_eq_true hd), rfl, by simp [Quiet]⟩

/-- The state after a minute has been counted. -/
def counted (s : State) : State :=
  let s := { s with previousMillisRelay := s.millis, k2_timedown := s.k2_timedown - 1 }
  let s := ((s.write 101 (byte s.k2_timedown)).commit).emit .minute
  if s.k2_timedown = 0 ∧ s.k1_timedown ≠ 0 then
    let s := { s with k2_timedown := 255, k1_timedown := s.k1_timedown - 1 }
    (s.write 100 (byte s.k1_timedown)).commit
  else s

theorem result_minuteGate {s : State} (h : 60000 < elapsed s.millis s.previousMillisRelay)
    (hn : s.rom 100 ≠ 0) : minuteGate.result {} s = counted s := by
  have hc : (60000 < elapsed s.millis s.previousMillisRelay && (s.rom 100 ≠ 0 || s.rom 101 ≠ 0)) = true := by
    simp [h, hn]
  refine (if_pos hc).trans ?_
  simp only [counted]
  refine if_congr ?_ rfl rfl
  simp [Code.result, Code.set, State.write, State.commit, State.emit]

/-- What a minute leaves in the cells. -/
structure Counted (s t : State) : Prop where
  flash : t.flash = t.rom
  previousMillisRelay : t.previousMillisRelay = s.millis
  log : t.log = .minute :: s.log
  lo : t.rom 101 = byte (s.k2_timedown - 1)
  hi : t.rom 100 =
    if s.k2_timedown - 1 = 0 ∧ s.k1_timedown ≠ 0 then byte (s.k1_timedown - 1) else s.rom 100

theorem counted_spec (s : State) : Counted s (counted s) := by
  unfold counted
  by_cases h : s.k2_timedown - 1 = 0 ∧ s.k1_timedown ≠ 0
  · constructor <;> simp [State.write, State.commit, State.emit, State.millis, h.1, h.2]
  · simp only [State.write, State.commit, State.emit, if_neg h]
    constructor <;> simp [h, State.millis]

/-- A round of `loop` in which a minute is due. -/
theorem exec_minute {s : State} (h : 60000 < elapsed s.millis s.previousMillisRelay) (hn : s.rom 100 ≠ 0) :
    ∃ xs t, device.exec xs ⟨[.forever loop], s⟩ = ⟨[.forever loop], State.wait t 100⟩ ∧
      Counted (upToMinute s) t := by
  obtain ⟨p, l, hu, -, -⟩ := upToMinute_spec s
  have hg := result_minuteGate (s := upToMinute s) (by rw [hu]; exact h) (by rw [hu]; exact hn)
  have hd : loop.Direct {} s :=
    ⟨⟨trivial, trivial, trivial⟩, rfl, .when ⟨trivial, trivial, trivial⟩,
      .when ⟨trivial, trivial, trivial, trivial, .when ⟨trivial, trivial, trivial, trivial, trivial⟩, trivial⟩,
      trivial, trivial⟩
  obtain ⟨xs, hx⟩ := device.exec_round hd
  exact ⟨xs, counted (upToMinute s), hx.trans (congrArg (Config.mk [.forever loop]) (congrArg (State.wait · 100) hg)),
    counted_spec _⟩

/-- The wait that makes the minute due. -/
def untilMinute (s : State) : Nat := s.previousMillisRelay + 60001 + (2 ^ 32 - s.millis)

theorem due_untilMinute {s : State} (h : s.previousMillisRelay < 2 ^ 32) :
    60000 < elapsed (s.wait (untilMinute s)).millis s.previousMillisRelay := by
  simp only [untilMinute, State.wait, State.millis, elapsed]
  omega

/-- Between two rounds. -/
structure Between (s : State) : Prop where
  previousMillisRelay : s.previousMillisRelay < 2 ^ 32
  hi : s.rom 100 = s.flash 100
  lo : s.rom 101 = s.flash 101

def storedHi (s : State) : Nat := (s.flash 100).toNat

def storedLo (s : State) : Nat := (s.flash 101).toNat

def counts (s : State) : Nat := minutes s.log

/-- The borrow is taken a minute too late, and from the wrong byte. -/
theorem ticks_of {s t : State} (hn : 0 < storedHi s) (hcount : counts t = counts s + 1)
    (hlo : t.flash 101 = byte (storedLo s - 1))
    (hhi : t.flash 100 = if (storedLo s : Int) - 1 = 0 ∧ (storedHi s : Int) ≠ 0 then byte (storedHi s - 1)
      else s.flash 100) : Ticks storedHi storedLo counts s t := by
  have hb : storedHi s < 256 := (s.flash 100).toNat_lt
  have hb' : storedLo s < 256 := (s.flash 101).toNat_lt
  have hlo' : storedLo t = (((storedLo s : Int) - 1) % 256).toNat % 256 := by
    rw [storedLo, hlo, byte, UInt8.toNat_ofNat']
  refine ⟨hcount, fun h2 => ⟨?_, by omega⟩, fun h1 => ?_⟩
  · rw [if_neg (by omega)] at hhi
    exact congrArg UInt8.toNat hhi
  · rcases Nat.le_one_iff_eq_zero_or_eq_one.1 h1 with h0 | h1
    · rw [if_neg (by omega)] at hhi
      have hh : storedHi t = storedHi s := congrArg UInt8.toNat hhi
      omega
    · rw [if_pos (by omega)] at hhi
      have hh : storedHi t = (((storedHi s : Int) - 1) % 256).toNat % 256 := by
        rw [storedHi, hhi, byte, UInt8.toNat_ofNat']
      omega

/-- After a round in which a minute has been counted. -/
theorem ticks_of_counted {s u t : State} (h : Between s) (hn : 0 < storedHi s) (ht : Counted u t)
    (hk1 : u.k1_timedown = s.read 100) (hk2 : u.k2_timedown = s.read 101) (hrom : u.rom = s.rom)
    {l : List Event} (hlog : u.log = l ++ s.log) (hm : minutes l = 0) (hl : Quiet l) :
    (Between (t.wait 100) ∧ (Quiet s.log → Quiet (t.wait 100).log)) ∧
      Ticks storedHi storedLo counts s (t.wait 100) := by
  obtain ⟨hflash, hprev, hlt, hlo, hhi⟩ := ht
  have h1 : s.read 100 = storedHi s := congrArg (fun b : UInt8 => (b.toNat : Int)) h.hi
  have h2 : s.read 101 = storedLo s := congrArg (fun b : UInt8 => (b.toNat : Int)) h.lo
  rw [hk2, h2, ← hflash] at hlo
  rw [hk1, hk2, h1, h2, hrom, h.hi, ← hflash] at hhi
  refine ⟨⟨⟨?_, (congrFun hflash 100).symm, (congrFun hflash 101).symm⟩, fun hq => ?_⟩, ticks_of hn ?_ hlo hhi⟩
  · show t.previousMillisRelay < 2 ^ 32
    rw [hprev]
    exact Nat.mod_lt _ (by decide)
  · show Quiet t.log
    rw [hlt, hlog]
    exact List.forall_mem_cons.2 ⟨rfl, List.forall_mem_append.2 ⟨hl, hq⟩⟩
  · show minutes t.log = minutes s.log + 1
    rw [hlt, hlog, minutes, List.count_cons_self, List.count_append]
    change List.count Event.minute l = 0 at hm
    rw [hm, Nat.zero_add]
    rfl

/-- Two rounds apart, a minute later. -/
def Later (s t : State) : Prop :=
  ∃ xs, device.exec xs ⟨[.forever loop], s⟩ = ⟨[.forever loop], t⟩

theorem ticks_minute {s : State} (h : Between s) (hn : 0 < storedHi s) :
    ∃ t, Later s t ∧ (Between t ∧ (Quiet s.log → Quiet t.log)) ∧ Ticks storedHi storedLo counts s t := by
  have hr : (s.wait (untilMinute s)).rom 100 ≠ 0 := by
    show s.rom 100 ≠ 0
    rw [h.hi]
    exact fun hz => by simp [storedHi, hz] at hn
  obtain ⟨xs, t, hx, ht⟩ := exec_minute (due_untilMinute h.previousMillisRelay) hr
  obtain ⟨p, l, hu, hm, hl⟩ := upToMinute_spec (s.wait (untilMinute s))
  refine ⟨t.wait 100, ⟨.outside (untilMinute s) :: xs, hx⟩, ?_⟩
  exact ticks_of_counted h hn ht (by rw [hu]; rfl) (by rw [hu]; rfl) (by rw [hu]; rfl) (by rw [hu]; rfl) hm hl

theorem Later.trans {s t u : State} (h : Later s t) (h' : Later t u) : Later s u := by
  obtain ⟨xs, hx⟩ := h
  obtain ⟨ys, hy⟩ := h'
  exact ⟨xs ++ ys, by rw [Machine.exec_append, hx, hy]⟩

theorem later_of_reflTransGen {s t : State} (h : Relation.ReflTransGen Later s t) : Later s t := by
  induction h with
  | refl => exact ⟨[], rfl⟩
  | tail _ hst ih => exact ih.trans hst

/-- After `setup`. -/
def ready (f : Nat → UInt8) : State :=
  { clock := 10, rom := f, flash := f, k1_timedown := (f 100).toNat, k2_timedown := (f 101).toNat
    previousMillisRelay := 10 }

theorem after_setup (f : Nat → UInt8) :
    after f (List.replicate 16 (.run {})) = ⟨[.forever loop], ready f⟩ := rfl

/-- From 256 on some run counts wrong. -/
theorem wrong_of_long {f : Nat → UInt8} (h : f 100 ≠ 0) : ∃ xs, Quiet (after f xs).state.log ∧
    value (after f xs).state.flash + minutes (after f xs).state.log ≠ value f := by
  have hpos : 0 < storedHi (ready f) := Nat.pos_of_ne_zero fun hz => h (UInt8.toNat_inj.1 hz)
  have hready : Between (ready f) ∧ Quiet (ready f).log :=
    ⟨⟨show 10 < 2 ^ 32 by decide, rfl, rfl⟩, by simp [Quiet, ready]⟩
  obtain ⟨t, hrun, ⟨-, hq⟩, hw⟩ := exists_wrong (p := fun s => Between s ∧ Quiet s.log) (fun s hs hn => by
    obtain ⟨t, hst, ⟨hb, hq⟩, ht⟩ := ticks_minute hs.1 hn
    exact ⟨t, hst, ⟨hb, hq hs.2⟩, ht⟩) (ready f) hready hpos
  obtain ⟨xs, hx⟩ := later_of_reflTransGen hrun
  have hend : after f (List.replicate 16 (.run {}) ++ xs) = ⟨[.forever loop], t⟩ := by
    rw [after, Machine.exec_append]
    exact (congrArg (device.exec xs) (after_setup f)).trans hx
  exact ⟨_, by rw [hend]; exact hq, by rw [hend]; exact hw⟩

theorem zero_iff_short (f : Nat → UInt8) : f 100 = 0 ↔ value f < 256 := by
  have hl := (f 101).toNat_lt
  rw [← UInt8.toNat_inj, value]
  simp only [UInt8.toNat_zero]
  omega

/-- The relay's countdown is a plain counter exactly up to 255. -/
theorem countdown_iff (f : Nat → UInt8) :
    (∀ xs, Quiet (after f xs).state.log →
      value (after f xs).state.flash + minutes (after f xs).state.log = value f) ↔ value f < 256 := by
  rw [← zero_iff_short]
  constructor
  · intro h
    by_contra hn
    obtain ⟨xs, hq, hw⟩ := wrong_of_long hn
    exact hw (h xs hq)
  · exact fun h xs hq => stored_of_short h xs hq

end FirstRelay
