import TruckLock.CenterState

/-!
# Relay.v3.c

The relay: it follows the last command that it has received, and tells Center
every 20 seconds how its pin is set.
-/
namespace Relay

structure State where
  clock : Nat := 0
  relayPin : Bool := false
  BLOCK : Bool := true
  previousMillis : Nat := 0
  deriving DecidableEq, Repr

/-- After `setup`. -/
def setup (clock : Nat) : State := { clock := clock }

def drive (relayPin : Bool) (s : State) : State := { s with relayPin := relayPin, BLOCK := !relayPin }

/-- The text of a frame, or of an event of the client library: an empty one blinks pin 2 only. -/
def webSocketEvent (payloadString : String) (s : State) : State :=
  let s := if payloadString = "detectAlcohol" then drive false s else s
  let s := if payloadString = "notDetectAlcohol" then drive true s else s
  let s := if payloadString = "blockNow" then drive false s else s
  if payloadString = "unblockNow" then drive true s else s

def updateWebsocket (s : State) : String := if s.relayPin then "relayOpening" else "relayClosing"

/-- The gate of `loop`; the frames that `webSocket.loop()` has received come before it. -/
def loop (s : State) : State × Option String :=
  if 20000 < Center.elapsed (s.clock % 2 ^ 32) s.previousMillis then
    ({ s with previousMillis := s.clock % 2 ^ 32 }, some (updateWebsocket s))
  else (s, none)

/-- A command of Center sets the pin, whatever it was. -/
theorem webSocketEvent_command (c : Center.Command) (s : State) :
    webSocketEvent c.text s = drive (!c.locks) s := by
  cases c <;> rfl

/-- Any text leaves `BLOCK` and the pin in agreement. -/
theorem webSocketEvent_agrees (payloadString : String) {s : State} (h : s.BLOCK = !s.relayPin) :
    (webSocketEvent payloadString s).BLOCK = !(webSocketEvent payloadString s).relayPin := by
  simp only [webSocketEvent]
  split <;> split <;> split <;> split <;> first | rfl | exact h

/-- The pin after an event depends on the pin before it only. -/
theorem webSocketEvent_congr (payloadString : String) {s t : State} (h : s.relayPin = t.relayPin) :
    (webSocketEvent payloadString s).relayPin = (webSocketEvent payloadString t).relayPin := by
  simp only [webSocketEvent]
  split <;> split <;> split <;> split <;> first | rfl | exact h

/-- The frames of a queue, one after the other. -/
def hearAll (queue : List String) (s : State) : State :=
  queue.foldl (fun s t => webSocketEvent t s) s

theorem hearAll_congr (queue : List String) {s t : State} (h : s.relayPin = t.relayPin) :
    (hearAll queue s).relayPin = (hearAll queue t).relayPin := by
  induction queue generalizing s t with
  | nil => exact h
  | cons f queue ih => exact ih (webSocketEvent_congr f h)

theorem hearAll_command (queue : List String) (c : Center.Command) (s : State) :
    (hearAll (queue ++ [c.text]) s).relayPin = !c.locks := by
  rw [hearAll, List.foldl_append]
  exact congrArg State.relayPin (webSocketEvent_command c _)

theorem loop_keeps (s : State) : (loop s).1.relayPin = s.relayPin ∧ (loop s).1.BLOCK = s.BLOCK := by
  unfold loop
  split <;> exact ⟨rfl, rfl⟩

end Relay
