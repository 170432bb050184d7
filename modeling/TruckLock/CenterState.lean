import TruckLock.Code
import Mathlib.Algebra.Group.Int.Defs
import Mathlib.Algebra.Group.Nat.Defs
import Mathlib.Data.Rat.Defs

/-!
# The state of Center.v7

The globals of the sketch and of its four headers under their own names, the
pins it drives, the EEPROM (the image in RAM and the flash behind it), and a
log of what it does to the outside, newest first. Texts on the OLED that no
decision depends on, the web page and the serial output are left out.
-/
namespace Center

open Firmware

/-- The commands of `webSocket.broadcastTXT`. -/
inductive Command where
  | detectAlcohol | notDetectAlcohol | blockNow | unblockNow
  deriving DecidableEq, Repr

namespace Command

def text : Command → String
  | .detectAlcohol => "detectAlcohol"
  | .notDetectAlcohol => "notDetectAlcohol"
  | .blockNow => "blockNow"
  | .unblockNow => "unblockNow"

/-- The relay closes on a locking command and opens on the others. -/
def locks : Command → Bool
  | .detectAlcohol | .blockNow => true
  | .notDetectAlcohol | .unblockNow => false

end Command

/-- The four request flags that `updateWebsocket` answers, each with its command. -/
inductive Request where
  | isAlcohol | notAlcohol | blockNow | unblockNow
  deriving DecidableEq, Repr

def Request.command : Request → Command
  | .isAlcohol => .detectAlcohol
  | .notAlcohol => .notDetectAlcohol
  | .blockNow => .blockNow
  | .unblockNow => .unblockNow

namespace Request

@[simp] theorem isAlcohol_locks : isAlcohol.command.locks = true := rfl
@[simp] theorem notAlcohol_locks : notAlcohol.command.locks = false := rfl
@[simp] theorem blockNow_locks : blockNow.command.locks = true := rfl
@[simp] theorem unblockNow_locks : unblockNow.command.locks = false := rfl

end Request

/-- The place of a request in `updateWebsocket`. -/
def Request.rank : Request → Nat
  | .isAlcohol => 0
  | .notAlcohol => 1
  | .blockNow => 2
  | .unblockNow => 3

/-- One argument of `Blynk.virtualWrite`; a real is printed with a number of digits. -/
inductive Value where
  | int (n : Int)
  | text (s : String)
  | real (q : Rat) (digits : Nat)
  deriving DecidableEq, Repr

/-- A value that the app writes: `param.asInt()` and `param.asFloat()`. -/
structure Param where
  asInt : Int
  asFloat : Rat
  deriving DecidableEq, Repr

/-- A number that arrives as its digits; `atoi` stops at the ends of an `int`. -/
def Param.ofInt (n : Int) : Param := ⟨max (-2 ^ 31) (min n (2 ^ 31 - 1)), n⟩

theorem asInt_ofInt {n : Int} (h0 : 0 ≤ n) (h : n < 2 ^ 31) : (Param.ofInt n).asInt = n := by
  simp only [Param.ofInt]
  omega

inductive VirtualPin where
  | V1 | V11 | V21 | V22 | V30 | V32 | V33 | V34
  deriving DecidableEq, Repr

structure AppWrite where
  pin : VirtualPin
  param : Param
  deriving DecidableEq, Repr

/-- What closed a test: the values that `readIsAlcohol` compared. -/
structure Verdict where
  isMatchFaceID : Bool
  MAX : Int
  MIN : Int
  downLimit : Int
  upLimit : Int
  threshold : Int
  deriving DecidableEq, Repr

inductive Event where
  | boot
  | started
  | pressed (last : Option Nat) (stop : Nat)
  | called (clock : Nat)
  | sampling
  | analog (current : Int)
  | camera (level : Bool)
  | returned
  | alcohol (v : Verdict)
  | blowHarder (v : Verdict)
  | notAlcohol (v : Verdict)
  | unknownDriver
  | expired
  | appBlock (BLOCK : Bool)
  | appUnblock (BLOCK : Bool)
  | broadcast (c : Command) (r : Option Request)
  | frame (payload : String)
  | app (w : AppWrite)
  | virtualWrite (pin : Nat) (values : List Value)
  | reply (pin : Nat) (values : List Value)
  | notify (text : String)
  | email (subject text : String)
  | relayLost
  | wifi (ten_wifi mk_wifi : List UInt8)
  deriving DecidableEq, Repr

/-- A request to the configuration web server. -/
inductive WebRequest where
  | root
  | caidat (tenWiFi matkhau : List UInt8)
  deriving DecidableEq, Repr

inductive TimerCall where
  | blinkLedConnect | clockCurrent
  deriving DecidableEq, Repr

/-- What one statement may find outside: the two analog and digital inputs, the state of
the links, and what has arrived. -/
structure Env where
  adc : Int := 0
  camRX : Bool := true
  wifi : Bool := true
  oled : Bool := true
  link : Bool := true
  clockText : String := ""
  web : Option WebRequest := none
  frame : Option String := none
  app : Option AppWrite := none
  timer : Option TimerCall := none

/-- What happens beside the program: time passes, or the button interrupt runs; `spin` are the
pauses before the two clock readings of each round of its waiting loop. -/
inductive Outside where
  | wait (ms : Nat)
  | button (spin : List (Nat × Nat))
  deriving Repr

/-- The parts of the platform that the sketch only passes values through: the formula of
`milligramsPerLiter` as a function of `MAX`, and the byte that a float outside a byte's range
is converted to. -/
structure Platform where
  milligrams : Int → Rat
  outOfRange : Rat → UInt8

/-- A C conversion to `int`, towards zero. -/
def trunc (q : Rat) : Int := q.num.tdiv q.den

/-- An `int` stored in a byte. -/
def byte (n : Int) : UInt8 := UInt8.ofNat (n % 256).toNat

def Platform.floatToByte (P : Platform) (q : Rat) : UInt8 :=
  if 0 ≤ trunc q ∧ trunc q < 256 then byte (trunc q) else P.outOfRange q

structure State where
  clock : Nat := 0
  camTXPin : Bool := true
  led : Bool := false
  attached : Bool := false
  wifiFlash : Bool := false
  relayConnection : Bool := false
  alcoholFlash : Bool := false
  BLOCK : Bool := true
  previousMillis : Nat := 0
  previousOneMinuteCounter : Nat := 0
  previousUpdateStatusOnBlynk : Nat := 0
  temperatureValue : Int := 0
  humidityValue : Int := 0
  timedownMinute : Int := 0
  isAlcoholState : Bool := false
  notAlcoholState : Bool := false
  blockNowState : Bool := false
  unblockNowState : Bool := false
  downLimit : Int := 0
  upLimit : Int := 0
  threshold : Int := 0
  rowIndex : Int := 0
  previousCheckConnectOfCenterVsRelay : Nat := 0
  k : Bool := false
  isMatchFaceID : Bool := false
  t1 : Nat := 0
  tLaymau : Nat := 0
  MAX : Int := 0
  MIN : Int := 0
  milligramsPerLiter : Rat := 0
  currentDateTime : String := ""
  ledConnect : Bool := false
  now : Nat := 0
  current : Int := 0
  camLevel : Bool := true
  rom : Nat → UInt8
  flash : Nat → UInt8
  log : List Event := []

namespace State

@[grind =] def emit (s : State) (e : Event) : State := { s with log := e :: s.log }

/-- `millis()`: the 32-bit millisecond counter. -/
def millis (s : State) : Nat := s.clock % 2 ^ 32

def wait (s : State) (ms : Nat) : State := { s with clock := s.clock + ms }

/-- `EEPROM.read` and `EEPROM.write` of the image in RAM; there are 512 cells. -/
def read (s : State) (a : Nat) : Int := if a < 512 then (s.rom a).toNat else 0

@[grind =] def write (s : State) (a : Nat) (v : UInt8) : State :=
  { s with rom := fun j => if j = a ∧ a < 512 then v else s.rom j }

@[grind =] def commit (s : State) : State := { s with flash := s.rom }

end State

/-- Unsigned 32-bit `now - since`. -/
def elapsed (now since : Nat) : Nat := (now + 2 ^ 32 - since) % 2 ^ 32

abbrev Sketch := Code State Env

/-- `delay(ms)`: the clock reaches the end of the pause before the next statement runs. -/
def delay (ms : Nat) : Sketch :=
  .get (fun _ s => s.clock) fun t => .set fun s => { s with clock := max s.clock (t.toNat + ms) }

end Center
