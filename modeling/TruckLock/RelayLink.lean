import TruckLock.CenterConnect
import TruckLock.CenterCountdown
import TruckLock.Relay

/-!
# Center and the relay over a connection that may be lost

The two devices, the connection between them and the frames in flight to the
relay. Frames in the other direction are inputs of Center, like those of any
other client. A connection is up from its event `/` at Center on.
-/
namespace RelayLink

open Firmware Center

inductive Link where
  | down | up
  deriving DecidableEq, Repr

structure Net where
  center : Config Center.State Env
  relay : Relay.State
  link : Link
  queue : List String

/-- `join` marks the event `/` of the relay's own connection. The client library of the relay
reports a connection and its loss as the texts `/` and the empty one. -/
inductive Move where
  | center (x : Choice Env Outside) (join : Bool)
  | deliver
  | notice (lost : Bool)
  | relayLoop (ms : Nat)
  | drop
  | relayReset (clock : Nat)

/-- What an event at Center does to the connection. -/
def Net.hear (join : Bool) (n : Net) : Event → Net
  | .boot => { n with link := .down, queue := [] }
  | .frame payload =>
    if payload = "/" ∧ join = true ∧ n.link = .down then { n with link := .up, queue := [] } else n
  | .broadcast c _ => if n.link = .up then { n with queue := n.queue ++ [c.text] } else n
  | _ => n

def Net.stepCenter (P : Platform) (x : Choice Env Outside) (join : Bool) (n : Net) : Net :=
  let c := (device P).step x n.center
  let n' := { n with center := c }
  if n.center.state.log.length < c.state.log.length then
    match c.state.log with
    | e :: _ => n'.hear join e
    | [] => n'
  else n'

def Net.step (P : Platform) : Move → Net → Net
  | .center x join, n => n.stepCenter P x join
  | .deliver, n =>
    match n.link, n.queue with
    | .up, t :: q => { n with relay := Relay.webSocketEvent t n.relay, queue := q }
    | _, _ => n
  | .notice lost, n => { n with relay := Relay.webSocketEvent (if lost then "" else "/") n.relay }
  | .relayLoop ms, n => { n with relay := (Relay.loop { n.relay with clock := n.relay.clock + ms }).1 }
  | .drop, n => { n with link := .down, queue := [] }
  | .relayReset clock, n => { n with relay := Relay.setup clock, link := .down, queue := [] }

/-- The frame that a delivery takes. -/
def Net.next (n : Net) : Option String := if n.link = .up then n.queue.head? else none

def Net.start (P : Platform) (flash : Nat → UInt8) : Net where
  center := (device P).start (powerOn flash)
  relay := Relay.setup 0
  link := .down
  queue := []

def Net.after (P : Platform) (flash : Nat → UInt8) (ms : List Move) : Net :=
  ms.foldl (fun n m => n.step P m) (.start P flash)

/-- Center's part of a run. -/
def choices : List Move → Run
  | [] => []
  | .center x _ :: ms => x :: choices ms
  | _ :: ms => choices ms

theorem choices_append (ms ns : List Move) : choices (ms ++ ns) = choices ms ++ choices ns := by
  induction ms with
  | nil => rfl
  | cons m ms ih =>
    cases m with
    | center x join => exact congrArg (x :: ·) ih
    | _ => exact ih

theorem hear_center (join : Bool) (n : Net) (e : Event) : (n.hear join e).center = n.center := by
  cases e with
  | frame payload =>
    simp only [Net.hear]
    split <;> rfl
  | broadcast c r =>
    simp only [Net.hear]
    split <;> rfl
  | _ => rfl

section

variable {P : Platform} {n : Net}

/-- Center has yet to answer the new connection, or the frames in flight take the relay to the last
command. -/
def Due (P : Platform) (n : Net) : Prop :=
  Resyncing P n.center.code ∨ ∃ c, lastCommand n.center.state.log = some c ∧
    (Relay.hearAll n.queue n.relay).relayPin = !c.locks

structure Synced (P : Platform) (n : Net) : Prop where
  agrees : n.relay.BLOCK = !n.relay.relayPin
  receiving : Receiving P n.center.code
  last : n.link = .up → Due P n

theorem synced_start (P : Platform) (flash : Nat → UInt8) : Synced P (.start P flash) :=
  ⟨rfl, receiving_boot P, fun h => by simp [Net.start] at h⟩

/-- Center takes a step that is neither a command nor a reset. -/
theorem due_step (x : Choice Env Outside) (h : Due P n) (hg : Grew n.center.state ((device P).step x n.center).state)
    (hb : ((device P).step x n.center).state.log ≠ .boot :: n.center.state.log)
    (hc : ∀ c r, ((device P).step x n.center).state.log ≠ .broadcast c r :: n.center.state.log) :
    Due P { n with center := (device P).step x n.center } := by
  rcases h with h | ⟨k, hk, hp⟩
  · rcases resyncing_next x h with hs | ⟨hs, -⟩ | ⟨k, hs⟩
    · exact absurd (congrArg (fun c => c.state.log) hs) hb
    · exact .inl hs
    · exact absurd (congrArg State.log hs) (hc _ _)
  · refine .inr ⟨k, ?_, hp⟩
    rcases hg with hg | ⟨e, hg⟩
    · exact (congrArg lastCommand hg).trans hk
    · show lastCommand ((device P).step x n.center).state.log = some k
      rw [hg, lastCommand_cons _ (fun he => hb (he ▸ hg)) fun c r he => hc c r (he ▸ hg), hk]

/-- The connection after an event that Center has just logged. -/
theorem synced_hear (x : Choice Env Outside) (join : Bool) {e : Event} (h : Synced P n)
    (hl : ((device P).step x n.center).state.log = e :: n.center.state.log) :
    Synced P ({ n with center := (device P).step x n.center }.hear join e) := by
  have hf : Receiving P ((device P).step x n.center).code := receiving_device x h.receiving
  have hsame : e ≠ .boot → (∀ c r, e ≠ .broadcast c r) → Synced P { n with center := (device P).step x n.center } := by
    intro hb hc
    refine ⟨h.agrees, hf, fun hu => due_step x (h.last hu) (.inr ⟨e, hl⟩) (fun hb' => ?_) fun c r hc' => ?_⟩
    · exact hb (List.cons.inj (hl.symm.trans hb')).1
    · exact hc c r (List.cons.inj (hl.symm.trans hc')).1
  cases e with
  | boot => exact ⟨h.agrees, hf, fun hu => by simp [Net.hear] at hu⟩
  | frame payload =>
    simp only [Net.hear]
    split
    · rename_i hj
      obtain ⟨rfl, -, -⟩ := hj
      refine ⟨h.agrees, hf, fun _ => .inl ?_⟩
      rcases receiving_next x h.receiving with hs | ⟨-, hs | ⟨payload, m, hs, hk⟩⟩
      · rw [hs] at hl
        exact absurd (List.cons.inj hl).1 (by simp)
      · exact absurd hl (hs "/")
      · rw [hs] at hl
        obtain rfl : payload = "/" := by simpa [State.emit] using hl
        exact ⟨m, .inl hk⟩
    · exact hsame (by simp) (by simp)
  | broadcast c r =>
    simp only [Net.hear]
    split
    · exact ⟨h.agrees, hf, fun _ => .inr ⟨c, by simp [hl, lastCommand], Relay.hearAll_command n.queue c n.relay⟩⟩
    · rename_i hu
      exact ⟨h.agrees, hf, fun hu' => absurd hu' hu⟩
  | _ => exact hsame (by simp) (by simp)

theorem synced_center (x : Choice Env Outside) (join : Bool) (h : Synced P n)
    (hg : Grew n.center.state ((device P).step x n.center).state) :
    Synced P (n.stepCenter P x join) := by
  simp only [Net.stepCenter]
  rcases hg with hg | ⟨e, hg⟩
  · rw [hg, if_neg (lt_irrefl _)]
    refine ⟨h.agrees, receiving_device x h.receiving, fun hu => ?_⟩
    refine due_step x (h.last hu) (.inl hg) (fun hb => ?_) fun c r hc => ?_
    · exact List.cons_ne_self _ _ (hb.symm.trans hg)
    · exact List.cons_ne_self _ _ (hc.symm.trans hg)
  · rw [hg, if_pos (by simp)]
    exact synced_hear x join h hg

theorem synced_relay {r : Relay.State} (h : Synced P n) (hpin : r.relayPin = n.relay.relayPin)
    (hblock : r.BLOCK = n.relay.BLOCK) : Synced P { n with relay := r } := by
  refine ⟨?_, h.receiving, fun hl => ?_⟩
  · rw [hpin, hblock]
    exact h.agrees
  · refine (h.last hl).imp_right fun ⟨c, hc, hp⟩ => ⟨c, hc, ?_⟩
    exact (Relay.hearAll_congr n.queue hpin).trans hp

theorem step_notice (lost : Bool) (n : Net) : n.step P (.notice lost) = n := by
  cases lost <;> rfl

theorem step_relayLoop (ms : Nat) (n : Net) :
    n.step P (.relayLoop ms) = { n with relay := (Relay.loop { n.relay with clock := n.relay.clock + ms }).1 } := by
  rw [Net.step]

theorem pin_relay {r : Relay.State} (h : r.relayPin = n.relay.relayPin) :
    ({ n with relay := r } : Net).relay.relayPin = n.relay.relayPin := h

theorem pin_relayLoop (ms : Nat) (n : Net) : (n.step P (.relayLoop ms)).relay.relayPin = n.relay.relayPin := by
  rw [step_relayLoop]
  exact pin_relay (Relay.loop_keeps { n.relay with clock := n.relay.clock + ms }).1

theorem synced_step (m : Move) (h : Synced P n)
    (hg : ∀ x join, m = .center x join → Grew n.center.state ((device P).step x n.center).state) :
    Synced P (n.step P m) := by
  cases m with
  | center x join => exact synced_center x join h (hg x join rfl)
  | deliver =>
    simp only [Net.step]
    split
    · rename_i t q hl hq
      refine ⟨Relay.webSocketEvent_agrees t h.agrees, h.receiving, fun _ => ?_⟩
      refine (h.last hl).imp_right fun ⟨c, hc, hp⟩ => ⟨c, hc, ?_⟩
      rw [hq] at hp
      exact hp
    · exact h
  | notice lost =>
    rw [step_notice]
    exact h
  | relayLoop ms =>
    rw [step_relayLoop]
    obtain ⟨hpin, hblock⟩ := Relay.loop_keeps { n.relay with clock := n.relay.clock + ms }
    exact synced_relay h hpin hblock
  | drop => exact ⟨h.agrees, h.receiving, fun hl => by simp [Net.step] at hl⟩
  | relayReset clock => exact ⟨rfl, h.receiving, fun hl => by simp [Net.step] at hl⟩

theorem step_center (P : Platform) (m : Move) (n : Net) :
    (n.step P m).center = (device P).exec (choices [m]) n.center := by
  cases m with
  | center x join =>
    simp only [Net.step, Net.stepCenter, choices, Machine.exec_cons, Machine.exec_nil]
    split
    · split
      · exact hear_center _ _ _
      · rfl
    · rfl
  | deliver =>
    simp only [Net.step]
    split <;> rfl
  | _ => rfl

theorem foldl_center (P : Platform) (ms : List Move) (n : Net) :
    (ms.foldl (fun n m => n.step P m) n).center = (device P).exec (choices ms) n.center := by
  induction ms generalizing n with
  | nil => rfl
  | cons m ms ih =>
    have hm : choices (m :: ms) = choices [m] ++ choices ms := by cases m <;> rfl
    rw [List.foldl_cons, ih, step_center, hm, Machine.exec_append]

theorem synced_run (P : Platform) (ms : List Move) (h : Synced P n)
    (hg : (device P).Along (fun _ c d => Grew c.state d.state) (choices ms) n.center) :
    Synced P (ms.foldl (fun n m => n.step P m) n) := by
  induction ms generalizing n with
  | nil => exact h
  | cons m ms ih =>
    have hm : choices (m :: ms) = choices [m] ++ choices ms := by cases m <;> rfl
    rw [hm, Machine.along_append] at hg
    refine ih (synced_step m h ?_) (by rw [step_center]; exact hg.2)
    rintro x join rfl
    exact hg.1.1

end

theorem synced_after (P : Platform) (flash : Nat → UInt8) (ms : List Move) :
    Synced P (.after P flash ms) :=
  synced_run P ms (synced_start P flash) (along_grew P flash (choices ms))

theorem after_center (P : Platform) (flash : Nat → UInt8) (ms : List Move) :
    (Net.after P flash ms).center = Center.after P flash (choices ms) :=
  foldl_center P ms (.start P flash)

/-- While every unlocking finds a stored duration: a connected relay that has no frame on its way
is set as Center wants it, unless a request is pending or the answer to `/` is. -/
theorem relay_agrees (P : Platform) (flash : Nat → UInt8) (ms : List Move)
    (hx : (device P).Along (fun _ c d => Fuelled c.state d.state) (choices ms)
      ((device P).start (powerOn flash)))
    (hl : (Net.after P flash ms).link = .up) (hr : ¬ Resyncing P (Net.after P flash ms).center.code)
    (hq : (Net.after P flash ms).queue = []) (hp : ∀ r, (Net.after P flash ms).center.state.pending r = false) :
    ((Net.after P flash ms).relay.relayPin = true ↔
      (Net.after P flash ms).center.state.BLOCK = false) ∧
    (Net.after P flash ms).relay.BLOCK = !(Net.after P flash ms).relay.relayPin := by
  have hs := synced_after P flash ms
  obtain ⟨c, hc, hpin⟩ := (hs.last hl).resolve_left hr
  have hlast : c.locks = (Net.after P flash ms).center.state.BLOCK := by
    rw [after_center] at hp hc ⊢
    refine (reached_fuelled P flash (choices ms) hx).inv hp c ?_
    rw [← hc]
    exact lastCommand_filter _
  rw [hq] at hpin
  refine ⟨?_, hs.agrees⟩
  have hpin : (Net.after P flash ms).relay.relayPin = !c.locks := hpin
  rw [hpin, hlast]
  simp

def centerMoves (join : Bool) (xs : Run) : List Move := xs.map fun x => .center x join

/-- The relay connects, the app unlocks, and both commands arrive. -/
def unlockedRelay : List Move :=
  centerMoves false (idle 170) ++ centerMoves true ([.run { frame := some "/" }] ++ idle 30) ++
    [.deliver] ++ centerMoves false (idle 45 ++ tap 0 ++ idle 40 ++ pause 1000 ++ idle 51) ++ [.deliver]

set_option maxRecDepth 10000 in
theorem relay_agrees_unlocked :
    (Net.after bench (flashOf 5) unlockedRelay).relay.relayPin = true ∧
    ((Net.after bench (flashOf 5) unlockedRelay).relay.relayPin = true ↔
      (Net.after bench (flashOf 5) unlockedRelay).center.state.BLOCK = false) := by
  refine ⟨by decide +kernel, (relay_agrees bench (flashOf 5) unlockedRelay ?_ ?_ ?_ ?_ ?_).1⟩
  · decide +kernel
  · decide +kernel
  · exact not_resyncing_of_skips (by decide +kernel)
  · decide +kernel
  · intro r
    cases r
    all_goals decide +kernel

end RelayLink
